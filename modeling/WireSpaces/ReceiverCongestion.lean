import WireSpaces.ReceiverForeign

/-!
Two runs of the engine on the same messages, times and sink answers, whose sender
takes every PDU or defers it. A deferred reply changes nothing but the remembered
result: the engines, their callbacks and the PDUs they try to send stay equal.
-/
namespace WireSpaces.ReceiverCongestion
open WireSpaces.Codec WireSpaces.ReceiverEngine WireSpaces.ReceiverSteps
open WireSpaces.ReceiverForeign (boot)

/-- An event without the sender's answer. -/
def attempt : Event → Event
  | .callback call => .callback call
  | .send pdu _ => .send pdu .kSent

/-- An engine without what its sender answered. -/
def unanswered (s : Engine) : Engine := { s with lastSend := .kSent, trace := s.trace.map attempt }

/-- Two senders with the same storage, each of which sends or defers every PDU. -/
structure Senders (left right : Sender) : Prop where
  prepare : left.prepare = right.prepare
  left_results : ∀ pdu, left.sendPrepared pdu = .kSent ∨ left.sendPrepared pdu = .kFull
  right_results : ∀ pdu, right.sendPrepared pdu = .kSent ∨ right.sendPrepared pdu = .kFull

/-- The same answers of the sink, and senders that differ in what they defer. -/
structure Congestion (left right : Environment) : Prop where
  beginTransfer : left.beginTransfer = right.beginTransfer
  onSegment : left.onSegment = right.onSegment
  sender : Senders left.sender right.sender
  reentry : ∀ call, List.Forall₂ (fun l r => l.1 = r.1 ∧ Senders l.2 r.2) (left.reentry call) (right.reentry call)

/-- Results that tell nothing apart but whether the link had room. -/
inductive SameButBlocked : Returned → Returned → Prop where
  | same (result : Returned) : SameButBlocked result result
  | processed {left right : ProcessResult} (of_left : left = .kProgress ∨ left = .kBlocked)
      (of_right : right = .kProgress ∨ right = .kBlocked) : SameButBlocked (.processed left) (.processed right)
  | sent {left right : SendResult} (of_left : left = .kSent ∨ left = .kFull)
      (of_right : right = .kSent ∨ right = .kFull) : SameButBlocked (.sent left) (.sent right)

/-- Two outcomes of a handler. -/
structure Matched (left right : Engine × Bool) : Prop where
  engine : unanswered left.1 = unanswered right.1
  handled : left.2 = right.2

section
variable {b : Build} {left right : Environment} {s t : Engine}

/-! ### Leaves -/

theorem same_state (same : unanswered s = unanswered t) : s.state = t.state := by
  have : (unanswered s).state = (unanswered t).state := by rw [same]
  exact this

theorem same_withState (state : TransferState) (same : unanswered s = unanswered t) :
    unanswered (s.withState state) = unanswered (t.withState state) :=
  congrArg (fun u => u.withState state) same

theorem same_emit (same : unanswered s = unanswered t) {first second : Event} (event : attempt first = attempt second) :
    unanswered (emit first s) = unanswered (emit second t) := by
  have traces : s.trace.map attempt = t.trace.map attempt := congrArg Engine.trace same
  have appended : unanswered (emit first s) = (unanswered s).withTrace (s.trace.map attempt ++ [attempt first]) := by
    simp only [unanswered,emit,Engine.withTrace,List.map_append,List.map_singleton]
  rw [appended,same,event,traces]
  simp only [unanswered,emit,Engine.withTrace,List.map_append,List.map_singleton]

theorem same_sendDatagram {first second : Sender} (senders : Senders first second) (same : unanswered s = unanswered t)
    (payload : Bytes) : unanswered (sendDatagram first payload s).1 = unanswered (sendDatagram second payload t).1 := by
  simp only [sendDatagram,senders.prepare]
  split
  · exact same
  split
  · exact same
  split
  · exact same
  · exact same_emit same rfl

theorem same_invoke (congestion : Congestion left right) (call : Callback) (same : unanswered s = unanswered t) :
    unanswered (invoke left call s) = unanswered (invoke right call t) := by
  have start := same_emit same (show attempt (.callback call) = attempt (.callback call) from rfl)
  have inside := congestion.reentry call
  unfold invoke
  generalize emit (.callback call) s = u, emit (.callback call) t = v at start
  generalize left.reentry call = ls, right.reentry call = rs at inside
  induction inside generalizing u v with
  | nil => exact start
  | cons head tail hypothesis =>
    obtain ⟨payload,senders⟩ := head
    rw [List.foldl_cons,List.foldl_cons,payload]
    exact hypothesis _ _ (same_sendDatagram senders start _)

theorem same_fail (congestion : Congestion left right) (reason : FailureReason) (same : unanswered s = unanswered t) :
    unanswered (fail left reason s) = unanswered (fail right reason t) := by
  rw [fail,fail,same_state same]
  split
  · exact same_invoke congestion _ (same_withState .kError same)
  · exact same

theorem matched_sendPrepared (congestion : Congestion left right) (pdu : Bytes) (same : unanswered s = unanswered t) :
    Matched (sendPrepared left pdu s) (sendPrepared right pdu t) := by
  refine ⟨?_,?_⟩
  · exact same_emit same (show attempt (.send pdu (left.sender.sendPrepared pdu)) =
      attempt (.send pdu (right.sender.sendPrepared pdu)) from rfl)
  · have taken {result : SendResult} (answer : result = .kSent ∨ result = .kFull) :
        (result == .kSent || result == .kFull) = true := by
      rcases answer with rfl | rfl
      · rfl
      · rfl
    simp only [sendPrepared]
    rw [taken (congestion.sender.left_results pdu),taken (congestion.sender.right_results pdu)]

theorem encodedAck_unanswered (s : Engine) (storage : Bytes) :
    encodedAck b (unanswered s) storage = encodedAck b s storage := rfl

theorem matched_sendAck (congestion : Congestion left right) (same : unanswered s = unanswered t) :
    Matched (sendAck b left s) (sendAck b right t) := by
  have large : unanswered { s with lastSend := .kTooLarge } = unanswered { t with lastSend := .kTooLarge } := same
  have encoded (storage : Bytes) : encodedAck b s storage = encodedAck b t storage := by
    rw [← encodedAck_unanswered s,same,encodedAck_unanswered]
  simp only [sendAck,congestion.sender.prepare,encoded]
  split
  · exact ⟨same_fail congestion _ large,rfl⟩
  split
  · exact ⟨same_fail congestion _ large,rfl⟩
  · rename_i pdu _
    obtain ⟨engine,handled⟩ := matched_sendPrepared congestion pdu same
    refine ⟨?_,handled⟩
    simp only [handled]
    split
    · exact engine
    · exact same_fail congestion _ engine

theorem matched_sendReject (congestion : Congestion left right) (sessionId : U8) (reason : RejectReason)
    (same : unanswered s = unanswered t) : Matched (sendReject left sessionId reason s) (sendReject right sessionId reason t) := by
  have large : unanswered { s with lastSend := .kTooLarge } = unanswered { t with lastSend := .kTooLarge } := same
  simp only [sendReject,congestion.sender.prepare]
  split
  · exact ⟨large,rfl⟩
  split
  · exact ⟨large,rfl⟩
  · exact matched_sendPrepared congestion _ large

theorem matched_sendAbort (congestion : Congestion left right) (same : unanswered s = unanswered t) :
    Matched (sendAbort left s) (sendAbort right t) := by
  have large : unanswered { s with lastSend := .kTooLarge } = unanswered { t with lastSend := .kTooLarge } := same
  have session : s.setup.sessionId = t.setup.sessionId := by
    have : (unanswered s).setup.sessionId = (unanswered t).setup.sessionId := by rw [same]
    exact this
  simp only [sendAbort,congestion.sender.prepare,session]
  split
  · exact ⟨large,rfl⟩
  split
  · exact ⟨large,rfl⟩
  · exact matched_sendPrepared congestion _ large

/-! ### Handlers -/

/-- The other engine differs in its last result and in the results of its trace. -/
theorem same_parts (same : unanswered s = unanswered t) :
    ∃ last trace, t = { s with lastSend := last, trace := trace } ∧ s.trace.map attempt = trace.map attempt := by
  have traces : s.trace.map attempt = t.trace.map attempt := congrArg Engine.trace same
  refine ⟨t.lastSend,t.trace,?_,traces⟩
  cases s
  cases t
  simp only [unanswered,Engine.mk.injEq] at same ⊢
  simp only [same,and_self]

theorem unanswered_updateGrant (s : Engine) : unanswered (updateGrant b s) = updateGrant b (unanswered s) := by
  unfold updateGrant
  split
  · rfl
  · rfl

theorem unanswered_advanceWindow (windowOffset : Nat) (payload : Bytes) (s : Engine) :
    unanswered (advanceWindow b windowOffset payload s) = advanceWindow b windowOffset payload (unanswered s) := by
  unfold advanceWindow
  split
  · rfl
  · rfl

theorem same_startReceiving (requested : Setup) (nowMs : U32) (same : unanswered s = unanswered t) :
    unanswered (startReceiving b requested nowMs s) = unanswered (startReceiving b requested nowMs t) := by
  obtain ⟨last,trace,rfl,traces⟩ := same_parts same
  rw [startReceiving,startReceiving,unanswered_updateGrant,unanswered_updateGrant]
  simp only [unanswered,traces]

theorem matched_deliverSegment (congestion : Congestion left right) (objectOffset windowOffset : Nat) (payload : Bytes)
    (same : unanswered s = unanswered t) :
    Matched (deliverSegment b left objectOffset windowOffset payload s)
      (deliverSegment b right objectOffset windowOffset payload t) := by
  have told (accepted : Bool) := same_invoke congestion (.onSegment objectOffset payload accepted) same
  simp only [deliverSegment,congestion.onSegment]
  split
  · have moved : unanswered (updateGrant b (advanceWindow b windowOffset payload
          (invoke left (.onSegment objectOffset payload true) s))) =
        unanswered (updateGrant b (advanceWindow b windowOffset payload
          (invoke right (.onSegment objectOffset payload true) t))) := by
      rw [unanswered_updateGrant,unanswered_advanceWindow,told,unanswered_updateGrant,unanswered_advanceWindow]
    generalize updateGrant b (advanceWindow b windowOffset payload (invoke left (.onSegment objectOffset payload true) s))
      = u at moved ⊢
    generalize updateGrant b (advanceWindow b windowOffset payload (invoke right (.onSegment objectOffset payload true) t))
      = v at moved ⊢
    apply matched_sendAck congestion
    have completed := same_invoke congestion .onTransferComplete (same_withState .kCompleted moved)
    obtain ⟨last,trace,rfl,-⟩ := same_parts moved
    split
    · exact completed
    · exact moved
  · exact ⟨same_fail congestion _ (told false),rfl⟩

theorem matched_placeSegment (congestion : Congestion left right) (segmentIndex : Nat) (payload : Bytes)
    (same : unanswered s = unanswered t) :
    Matched (placeSegment b left segmentIndex payload s) (placeSegment b right segmentIndex payload t) := by
  have acked := matched_sendAck (b := b) congestion same
  have delivered (objectOffset windowOffset : Nat) :=
    matched_deliverSegment (b := b) congestion objectOffset windowOffset payload same
  obtain ⟨last,trace,rfl,-⟩ := same_parts same
  simp only [placeSegment]
  split
  · exact acked
  split
  · exact acked
  split
  · split
    · exact acked
    · exact delivered _ _
  · split
    · exact acked
    split
    · exact acked
    · exact delivered _ _

theorem same_renewActivity (segmentIndex : Nat) (nowMs : U32) (same : unanswered s = unanswered t) :
    unanswered (renewActivity segmentIndex nowMs s) = unanswered (renewActivity segmentIndex nowMs t) := by
  obtain ⟨last,trace,rfl,traces⟩ := same_parts same
  simp only [renewActivity]
  split
  · simp only [unanswered,traces]
  · exact same

theorem matched_handleSegment (congestion : Congestion left right) (message : Bytes) (nowMs : U32)
    (same : unanswered s = unanswered t) :
    Matched (handleSegment b left message nowMs s) (handleSegment b right message nowMs t) := by
  have placed (segmentIndex : Nat) (payload : Bytes) :=
    matched_placeSegment (b := b) congestion segmentIndex payload (same_renewActivity segmentIndex nowMs same)
  obtain ⟨last,trace,rfl,-⟩ := same_parts same
  simp only [handleSegment]
  split
  · exact ⟨same,rfl⟩
  split
  · exact ⟨same,rfl⟩
  split
  · exact ⟨same,rfl⟩
  · exact placed _ _

theorem matched_active (congestion : Congestion left right) (nowMs : U32) (same : unanswered s = unanswered t) :
    Matched (sendAck b left { s with lastActivityMs := nowMs }) (sendAck b right { t with lastActivityMs := nowMs }) := by
  apply matched_sendAck congestion
  obtain ⟨last,trace,rfl,traces⟩ := same_parts same
  simp only [unanswered,traces]

theorem matched_handleSetup (congestion : Congestion left right) (message : Bytes) (nowMs : U32)
    (same : unanswered s = unanswered t) :
    Matched (handleSetup b left message nowMs s) (handleSetup b right message nowMs t) := by
  have refused (sessionId : U8) (reason : RejectReason) := matched_sendReject congestion sessionId reason same
  have repeated := matched_active (b := b) congestion nowMs same
  have asked (call : Callback) := same_invoke congestion call same
  obtain ⟨last,trace,rfl,-⟩ := same_parts same
  simp only [handleSetup,congestion.beginTransfer]
  split
  · exact ⟨same,rfl⟩
  split
  · exact refused _ _
  split
  · exact refused _ _
  split
  · exact refused _ _
  split
  · exact refused _ _
  split
  · split
    · exact repeated
    · exact refused _ _
  · split
    · exact matched_sendReject congestion _ _ (asked _)
    · exact matched_sendAck congestion (same_startReceiving _ _ (asked _))

theorem matched_handleControl (congestion : Congestion left right) (message : Bytes) (type : MessageType) (nowMs : U32)
    (same : unanswered s = unanswered t) :
    Matched (handleControl b left message type nowMs s) (handleControl b right message type nowMs t) := by
  have told (call : Callback) := same_invoke congestion call same
  have ended := same_invoke congestion (.onTransferAborted .kPeer) (same_withState .kAborted same)
  have answered := matched_active (b := b) congestion nowMs same
  have begun := matched_handleSetup (b := b) congestion message nowMs same
  obtain ⟨last,trace,rfl,-⟩ := same_parts same
  cases type with
  | kSetup => exact begun
  | kProbe =>
    simp only [handleControl]
    split
    · exact ⟨same,rfl⟩
    split
    · exact ⟨same,rfl⟩
    · exact answered
  | kUserDatagram =>
    simp only [handleControl]
    split
    · exact ⟨same,rfl⟩
    · exact ⟨told _,rfl⟩
  | kAbort =>
    simp only [handleControl,handleAbort]
    split
    · exact ⟨same,rfl⟩
    split
    · exact ⟨same,rfl⟩
    · exact ⟨ended,rfl⟩
  | kSegment => exact ⟨same,rfl⟩
  | kAck => exact ⟨same,rfl⟩
  | kReject => exact ⟨same,rfl⟩

/-! ### Calls -/

theorem same_poll (congestion : Congestion left right) (nowMs : U32) (same : unanswered s = unanswered t) :
    unanswered (poll b left nowMs s).1 = unanswered (poll b right nowMs t).1 ∧
      (poll b left nowMs s).2 = (poll b right nowMs t).2 := by
  have failed := same_fail congestion .kInactivityTimeout same
  obtain ⟨last,trace,rfl,-⟩ := same_parts same
  simp only [poll]
  split
  · exact ⟨same,rfl⟩
  · exact ⟨failed,rfl⟩

/-- The last result decides between progress and a full link, and nothing else. -/
theorem finished_result {first second : SendResult} (handled : Bool) :
    SameButBlocked (.processed (if ¬ handled then .kError else if first = .kFull then .kBlocked else .kProgress))
      (.processed (if ¬ handled then .kError else if second = .kFull then .kBlocked else .kProgress)) := by
  have either {result : SendResult} :
      (if result = .kFull then ProcessResult.kBlocked else .kProgress) = .kProgress ∨
        (if result = .kFull then ProcessResult.kBlocked else .kProgress) = .kBlocked := by
    split
    · exact .inr rfl
    · exact .inl rfl
  cases handled with
  | false => exact .same _
  | true => exact .processed either either

theorem same_dispatch (congestion : Congestion left right) (message : Bytes) (nowMs : U32)
    (same : unanswered s = unanswered t) :
    unanswered (dispatch b left message nowMs s).1 = unanswered (dispatch b right message nowMs t).1 ∧
      SameButBlocked (.processed (dispatch b left message nowMs s).2) (.processed (dispatch b right message nowMs t).2) := by
  unfold dispatch
  split
  · exact ⟨same,.same _⟩
  split
  · exact ⟨same,.same _⟩
  · rename_i first rest _ control _
    have handled : Matched (if control.type = .kSegment then handleSegment b left (first :: rest) nowMs s
          else handleControl b left (first :: rest) control.type nowMs s)
        (if control.type = .kSegment then handleSegment b right (first :: rest) nowMs t
          else handleControl b right (first :: rest) control.type nowMs t) := by
      split
      · exact matched_handleSegment congestion _ _ same
      · exact matched_handleControl congestion _ _ _ same
    refine ⟨handled.engine,?_⟩
    simp only [handled.handled]
    exact finished_result _

theorem same_process (congestion : Congestion left right) (message : Bytes) (nowMs : U32)
    (same : unanswered s = unanswered t) :
    unanswered (process b left message nowMs s).1 = unanswered (process b right message nowMs t).1 ∧
      SameButBlocked (.processed (process b left message nowMs s).2) (.processed (process b right message nowMs t).2) := by
  obtain ⟨engine,result⟩ := same_poll (b := b) congestion nowMs same
  simp only [process,result]
  split
  · exact ⟨engine,.same _⟩
  · exact same_dispatch congestion message nowMs engine

/-- What `sendAbort` remembers is what it could not encode, or the sender's answer. -/
theorem sendAbort_lastSend (congestion : Congestion left right) (same : unanswered s = unanswered t) :
    SameButBlocked (.sent (sendAbort left s).1.lastSend) (.sent (sendAbort right t).1.lastSend) := by
  obtain ⟨last,trace,rfl,-⟩ := same_parts same
  simp only [sendAbort,congestion.sender.prepare]
  split
  · exact .same _
  split
  · exact .same _
  · exact .sent (congestion.sender.left_results _) (congestion.sender.right_results _)

theorem invoke_lastSend (env : Environment) (call : Callback) (s : Engine) : (invoke env call s).lastSend = s.lastSend := by
  obtain ⟨datagrams,-,traced⟩ := invoke_trace env call s
  rw [traced]
  rfl

theorem same_abort (congestion : Congestion left right) (same : unanswered s = unanswered t) :
    unanswered (abort left s).1 = unanswered (abort right t).1 ∧
      SameButBlocked (.sent (abort left s).2) (.sent (abort right t).2) := by
  have sent := matched_sendAbort congestion same
  have remembered := sendAbort_lastSend congestion same
  simp only [abort,same_state same,invoke_lastSend]
  split
  · exact ⟨same,.same _⟩
  · exact ⟨same_invoke congestion _ (same_withState .kAborted sent.engine),remembered⟩

theorem same_datagram {first second : Sender} (senders : Senders first second) (same : unanswered s = unanswered t)
    (payload : Bytes) : unanswered (sendDatagram first payload s).1 = unanswered (sendDatagram second payload t).1 ∧
      SameButBlocked (.sent (sendDatagram first payload s).2) (.sent (sendDatagram second payload t).2) := by
  refine ⟨same_sendDatagram senders same payload,?_⟩
  simp only [sendDatagram,senders.prepare]
  split
  · exact .same _
  split
  · exact .same _
  split
  · exact .same _
  · exact .sent (senders.left_results _) (senders.right_results _)

/-- The same public call, answered by a sink that cannot see the link. -/
def Paired (first second : Call × Environment) : Prop := first.1 = second.1 ∧ Congestion first.2 second.2

theorem same_call {first second : Call × Environment} (paired : Paired first second) (same : unanswered s = unanswered t) :
    unanswered (call b s first).1 = unanswered (call b t second).1 ∧
      SameButBlocked (call b s first).2 (call b t second).2 := by
  obtain ⟨asked,env⟩ := first
  obtain ⟨asked,other⟩ := second
  obtain ⟨rfl,congestion⟩ := paired
  cases asked with
  | process message nowMs => exact same_process congestion message nowMs same
  | poll nowMs =>
    obtain ⟨engine,result⟩ := same_poll (b := b) congestion nowMs same
    refine ⟨engine,?_⟩
    simp only [call,result]
    exact .same _
  | sendDatagram payload => exact same_datagram congestion.sender same payload
  | abort => exact same_abort congestion same

end

theorem foldl_same (b : Build) {calls others : List (Call × Environment)} (paired : List.Forall₂ Paired calls others)
    {s t : Engine} (same : unanswered s = unanswered t) :
    unanswered (calls.foldl (fun s c => (call b s c).1) s) = unanswered (others.foldl (fun s c => (call b s c).1) t) := by
  induction paired generalizing s t with
  | nil => exact same
  | cons head tail hypothesis => exact hypothesis (same_call head same).1

/-- Runs that differ in what the sender deferred have equal engines after every call; a result tells them apart
    by progress against a full link, or by the answer a call of the sender passes on. -/
theorem congestion_leaves_engine (b : Build) {calls others : List (Call × Environment)}
    (paired : List.Forall₂ Paired calls others) :
    unanswered (run b calls) = unanswered (run b others) ∧
      ∀ next other, Paired next other →
        SameButBlocked (call b (run b calls) next).2 (call b (run b others) other).2 := by
  have same : unanswered (run b calls) = unanswered (run b others) := foldl_same b paired rfl
  exact ⟨same,fun next other alike => (same_call alike same).2⟩

/-- A SETUP to a boot receiver, over a link that takes the ACK or defers it. -/
def opening (result : SendResult) : List (Call × Environment) :=
  [(.process (setupBytes ⟨9,0,2,4,4⟩) 0,sinkWith result)]

theorem sinks_congested {first second : SendResult} (of_first : first = .kSent ∨ first = .kFull)
    (of_second : second = .kSent ∨ second = .kFull) : Congestion (sinkWith first) (sinkWith second) :=
  ⟨rfl,rfl,⟨rfl,fun _ => of_first,fun _ => of_second⟩,fun _ => .nil⟩

theorem opening_unobserved :
    (run boot (opening .kSent)).state = .kActive ∧ (run boot (opening .kFull)).state = .kActive ∧
      (run boot (opening .kFull)).lastSend = .kFull := by
  have paired : List.Forall₂ Paired (opening .kSent) (opening .kFull) :=
    .cons ⟨rfl,sinks_congested (.inl rfl) (.inr rfl)⟩ .nil
  have active : (run boot (opening .kSent)).state = .kActive := by decide
  refine ⟨active,?_,by decide⟩
  rw [← same_state (congestion_leaves_engine boot paired).1,active]

/-- `abort` returns what the link answered to its ABORT. -/
theorem abort_passes_answer_on :
    List.Forall₂ Paired (opening .kSent) (opening .kSent) ∧
      Paired (.abort,sinkWith .kSent) (.abort,sinkWith .kFull) ∧
      (call boot (run boot (opening .kSent)) (.abort,sinkWith .kSent)).2 = .sent .kSent ∧
      (call boot (run boot (opening .kSent)) (.abort,sinkWith .kFull)).2 = .sent .kFull := by
  refine ⟨.cons ⟨rfl,sinks_congested (.inl rfl) (.inl rfl)⟩ .nil,⟨rfl,sinks_congested (.inl rfl) (.inr rfl)⟩,?_,?_⟩
  · decide
  · decide

end WireSpaces.ReceiverCongestion
