import WireSpaces.ReceiverEngine

/-!
What one engine call can do, said once: every call is a sequence of the steps of
`Step`, and every invariant of the engine is proved against `Step` alone.
-/
namespace WireSpaces.ReceiverSteps
open WireSpaces.Words WireSpaces.Codec WireSpaces.ReceiverEngine
open Relation (ReflTransGen)

/-! ### Events beside the transfer -/

/-- A PDU sent with `sendDatagram`. -/
def Datagram (event : Event) : Prop := ∃ payload result, event = .send (userDatagramBytes payload) result

/-- Events that belong to no transfer: datagrams either way, REJECT and ABORT
    PDUs, and a `beginTransfer` the sink refused. -/
inductive Aside : Event → Prop where
  | datagram {event : Event} : Datagram event → Aside event
  | reject (reject : Reject) (result : SendResult) : Aside (.send (rejectBytes reject) result)
  | abort (abort : Abort) (result : SendResult) : Aside (.send (abortBytes abort) result)
  | onDatagram (payload : Bytes) : Aside (.callback (.onDatagram payload))
  | refused (info : TransferInfo) {answer : TransferAdmission} :
      answer ≠ .kAccepted → Aside (.callback (.beginTransfer info answer))

/-- How a transfer ends before completion, with the state it leaves. -/
inductive Ending : Callback → TransferState → Prop where
  | failed (reason : FailureReason) : Ending (.onTransferFailed reason) .kError
  | aborted (reason : AbortReason) : Ending (.onTransferAborted reason) .kAborted

/-- The geometry and resource checks a SETUP passes before admission. -/
structure Admissible (b : Build) (setup : Setup) : Prop where
  segment : 0 < setup.segmentSize.toNat
  final : 0 < setup.finalSegmentSize.toNat
  final_le : setup.finalSegmentSize.toNat ≤ setup.segmentSize.toNat
  total : setupTotalSize setup ≤ b.config.maximumObjectSize
  width : 0 < b.config.receiveWindowWidth
  size : setup.segmentSize.toNat ≤ b.config.maximumSegmentSize.toNat

/-- The offset the build passes to `onSegment`. -/
def objectOffset (b : Build) (s : Engine) (index : Nat) : Nat :=
  if b.windowLimit = 1 then s.nextObjectOffset else index * s.setup.segmentSize.toNat % 2 ^ 32

/-- The segment is the next one (width one), or its bit in the window is clear. -/
def Unreceived (b : Build) (s : Engine) (index : Nat) : Prop :=
  if b.windowLimit = 1 then index = s.contiguousCount
  else index - s.contiguousCount < b.config.receiveWindowWidth ∧
    s.receiveBitmap.getLsbD (index - s.contiguousCount) = false

/-- The segment of the current transfer that a message carries, in the grant and
    not yet received. -/
structure Fresh (b : Build) (s : Engine) (message : Bytes) (index : Nat) (payload : Bytes) : Prop where
  typed : hasType message .kSegment = true
  header : decodeSegmentHeaderKnownType message = some ⟨s.setup.sessionId,BitVec.ofNat 16 index⟩
  small : index < 2 ^ 16
  content : payload = message.drop kSegmentHeaderSize
  size : payload.length = (expectedSize s.setup (BitVec.ofNat 16 index)).toNat
  active : s.state = .kActive
  known : index < s.segmentCount
  from_base : s.contiguousCount ≤ index
  granted : index < s.grantedEnd
  unreceived : Unreceived b s index

/-- The window after an accepted segment. -/
def advanced (b : Build) (index : Nat) (payload : Bytes) (s : Engine) : Engine :=
  updateGrant b (advanceWindow b (index - s.contiguousCount) payload s)

/-- The steps a call is made of. -/
inductive Step (b : Build) (c : Call) : Engine → Engine → Prop where
  | note (s : Engine) (activity : U32) (sent : SendResult) :
      Step b c s { s with lastActivityMs := activity, lastSend := sent }
  | aside (s : Engine) {event : Event} (beside : Aside event) : Step b c s (emit event s)
  | ack (s : Engine) {storage pdu : Bytes} (result : SendResult) (live : s.state = .kActive ∨ s.state = .kCompleted)
      (size : storage.length = kAckSize) (encoded : encodedAck b s storage = some pdu) :
      Step b c s (emit (.send pdu result) s)
  | start (s : Engine) {message : Bytes} {nowMs : U32} {setup : Setup} {datagrams : List Event}
      (called : c = .process message nowMs) (typed : hasType message .kSetup = true)
      (decoded : decodeSetupKnownType message = some setup) (admissible : Admissible b setup)
      (idle : s.state ≠ .kActive) (inside : ∀ e ∈ datagrams, Datagram e) :
      Step b c s (startReceiving b setup nowMs
        (s.withTrace (s.trace ++ .callback (.beginTransfer (transferInfo setup) .kAccepted) :: datagrams)))
  | accept (s : Engine) {message : Bytes} {nowMs : U32} {index : Nat} {payload : Bytes} {datagrams : List Event}
      (called : c = .process message nowMs) (fresh : Fresh b s message index payload)
      (inside : ∀ e ∈ datagrams, Datagram e)
      (short : (advanced b index payload s).contiguousCount ≠ s.segmentCount) :
      Step b c s ((advanced b index payload s).withTrace
        (s.trace ++ .callback (.onSegment (objectOffset b s index) payload true) :: datagrams))
  | complete (s : Engine) {message : Bytes} {nowMs : U32} {index : Nat} {payload : Bytes}
      {datagrams after : List Event} (called : c = .process message nowMs) (fresh : Fresh b s message index payload)
      (inside : ∀ e ∈ datagrams, Datagram e) (behind : ∀ e ∈ after, Datagram e)
      (full : (advanced b index payload s).contiguousCount = s.segmentCount) :
      Step b c s (((advanced b index payload s).withState .kCompleted).withTrace
        ((s.trace ++ .callback (.onSegment (objectOffset b s index) payload true) :: datagrams) ++
          .callback .onTransferComplete :: after))
  | refuse (s : Engine) {message : Bytes} {nowMs : U32} {index : Nat} {payload : Bytes}
      {datagrams after : List Event} (called : c = .process message nowMs) (fresh : Fresh b s message index payload)
      (inside : ∀ e ∈ datagrams, Datagram e) (behind : ∀ e ∈ after, Datagram e) :
      Step b c s ((s.withState .kError).withTrace
        ((s.trace ++ .callback (.onSegment (objectOffset b s index) payload false) :: datagrams) ++
          .callback (.onTransferFailed .kSinkRejected) :: after))
  | finish (s : Engine) {ending : Callback} {state : TransferState} {datagrams : List Event}
      (ends : Ending ending state) (active : s.state = .kActive) (inside : ∀ e ∈ datagrams, Datagram e) :
      Step b c s ((s.withState state).withTrace (s.trace ++ .callback ending :: datagrams))

abbrev Steps (b : Build) (c : Call) : Engine → Engine → Prop := ReflTransGen (Step b c)

/-! ### Steps without an ACK, and how a call ends -/

def NoAck (events : List Event) : Prop := ∀ pdu result, .send pdu result ∈ events → hasType pdu .kAck = false

def QuietStep (b : Build) (c : Call) (s t : Engine) : Prop :=
  Step b c s t ∧ ∃ more, t.trace = s.trace ++ more ∧ NoAck more

abbrev QuietSteps (b : Build) (c : Call) : Engine → Engine → Prop := ReflTransGen (QuietStep b c)

/-- A call sends no ACK, or its last action is the ACK of the window it leaves. -/
inductive Closing (b : Build) (c : Call) (env : Environment) (s : Engine) : Engine → Prop where
  | quiet {t : Engine} (steps : QuietSteps b c s t) : Closing b c env s t
  | acked {t : Engine} (steps : QuietSteps b c s t) (live : t.state = .kActive ∨ t.state = .kCompleted) :
      Closing b c env s (sendAck b env t).1

theorem datagram_quiet {events : List Event} (all : ∀ e ∈ events, Datagram e) : NoAck events := by
  intro pdu result member
  obtain ⟨payload,result',same⟩ := all _ member
  cases same
  simp [userDatagramBytes,hasType_encodeControl]

/-- A callback with the datagrams sent inside it. -/
theorem callback_quiet {call : Callback} {datagrams : List Event} (inside : ∀ e ∈ datagrams, Datagram e) :
    NoAck (.callback call :: datagrams) := by
  intro pdu result member
  rcases List.mem_cons.mp member with same | datagram
  · cases same
  · exact datagram_quiet inside pdu result datagram

theorem noAck_append {first second : List Event} (left : NoAck first) (right : NoAck second) : NoAck (first ++ second) := by
  intro pdu result member
  exact (List.mem_append.mp member).elim (left pdu result) (right pdu result)

theorem aside_quiet {event : Event} (beside : Aside event) : NoAck [event] := by
  intro pdu result member
  have same := (List.mem_singleton.mp member).symm
  cases beside with
  | datagram datagram => exact datagram_quiet (fun e found => List.mem_singleton.mp found ▸ datagram) pdu result member
  | reject => cases same; simp [rejectBytes,hasType_encodeControl]
  | abort => cases same; simp [abortBytes,hasType_encodeControl]
  | onDatagram => cases same
  | refused => cases same

section quiet
variable {b : Build} {c : Call} {env : Environment} {s t u : Engine}

theorem QuietSteps.steps (quiet : QuietSteps b c s t) : Steps b c s t := by
  induction quiet with
  | refl => exact .refl
  | tail _ step ih => exact ih.tail step.1

theorem QuietSteps.trace (quiet : QuietSteps b c s t) : ∃ more, t.trace = s.trace ++ more ∧ NoAck more := by
  induction quiet with
  | refl => exact ⟨[],by simp,by simp [NoAck]⟩
  | tail _ step ih =>
    obtain ⟨first,before,quietFirst⟩ := ih
    obtain ⟨-,second,after,quietSecond⟩ := step
    exact ⟨first ++ second,by rw [after,before,List.append_assoc],noAck_append quietFirst quietSecond⟩

theorem note_quiet (s : Engine) (activity : U32) (sent : SendResult) :
    QuietSteps b c s { s with lastActivityMs := activity, lastSend := sent } :=
  .single ⟨.note s activity sent,[],by simp,by simp [NoAck]⟩

theorem finish_quiet {ending : Callback} {state : TransferState} {datagrams : List Event} (ends : Ending ending state)
    (active : s.state = .kActive) (inside : ∀ e ∈ datagrams, Datagram e) :
    QuietSteps b c s ((s.withState state).withTrace (s.trace ++ .callback ending :: datagrams)) :=
  .single ⟨.finish s ends active inside,_,rfl,callback_quiet inside⟩

theorem Closing.head (quiet : QuietSteps b c s t) (closing : Closing b c env t u) : Closing b c env s u := by
  cases closing with
  | quiet steps => exact .quiet (quiet.trans steps)
  | acked steps live => exact .acked (quiet.trans steps) live

end quiet

/-! ### Leaves -/

theorem setupMatches_iff (lhs rhs : Setup) : setupMatches lhs rhs = true ↔ lhs = rhs := by
  cases lhs
  cases rhs
  simp [setupMatches,and_assoc]

theorem sendDatagram_trace (sender : Sender) (payload : Bytes) (s : Engine) :
    ∃ sends, (∀ e ∈ sends, Datagram e) ∧
      (sendDatagram sender payload s).1 = s.withTrace (s.trace ++ sends) := by
  unfold sendDatagram
  by_cases large : payload.length > 65535 - kUserDatagramHeaderSize
  · exact ⟨[],by simp,by simp [large,Engine.withTrace]⟩
  · by_cases size : (sender.prepare (payload.length + kUserDatagramHeaderSize)).length =
        payload.length + kUserDatagramHeaderSize
    · refine ⟨[.send (userDatagramBytes payload) (sender.sendPrepared (userDatagramBytes payload))],?_,?_⟩
      · intro e member
        exact ⟨payload,_,List.mem_singleton.mp member⟩
      · simp [large,size,encodeUserDatagram_exact size,emit]
    · exact ⟨[],by simp,by simp [large,size,Engine.withTrace]⟩

private theorem sendDatagrams_trace (datagrams : List (Bytes × Sender)) (s : Engine) :
    ∃ sends, (∀ e ∈ sends, Datagram e) ∧
      datagrams.foldl (fun s datagram => (sendDatagram datagram.2 datagram.1 s).1) s =
        s.withTrace (s.trace ++ sends) := by
  induction datagrams generalizing s with
  | nil => exact ⟨[],by simp,by simp [Engine.withTrace]⟩
  | cons first rest ih =>
    obtain ⟨sends,all,result⟩ := sendDatagram_trace first.2 first.1 s
    obtain ⟨more,allMore,resultMore⟩ := ih (sendDatagram first.2 first.1 s).1
    refine ⟨sends ++ more,?_,?_⟩
    · intro e member
      exact (List.mem_append.mp member).elim (all e) (allMore e)
    · rw [List.foldl_cons,resultMore,result]
      simp [Engine.withTrace]

/-- A callback adds itself and its own datagrams to the trace, nothing else. -/
theorem invoke_trace (env : Environment) (call : Callback) (s : Engine) :
    ∃ datagrams, (∀ e ∈ datagrams, Datagram e) ∧
      invoke env call s = s.withTrace (s.trace ++ .callback call :: datagrams) := by
  obtain ⟨sends,all,result⟩ := sendDatagrams_trace (env.reentry call) (emit (.callback call) s)
  refine ⟨sends,all,?_⟩
  rw [invoke,result]
  simp [emit,Engine.withTrace]

section calls
variable {b : Build} {env : Environment} {c : Call}

theorem aside_steps {s : Engine} {events : List Event} (beside : ∀ e ∈ events, Aside e) :
    QuietSteps b c s (s.withTrace (s.trace ++ events)) := by
  induction events generalizing s with
  | nil => simpa [Engine.withTrace] using ReflTransGen.refl
  | cons first rest ih =>
    have rest_steps := ih (s := emit first s) (fun e member => beside e (List.mem_cons_of_mem _ member))
    have quiet := aside_quiet (beside first List.mem_cons_self)
    refine .head ⟨.aside s (beside first List.mem_cons_self),_,rfl,quiet⟩ ?_
    simpa [emit,Engine.withTrace] using rest_steps

theorem startReceiving_state (setup : Setup) (nowMs : U32) (s : Engine) :
    (startReceiving b setup nowMs s).state = .kActive := by
  unfold startReceiving updateGrant
  split <;> rfl

theorem startReceiving_trace (setup : Setup) (nowMs : U32) (s : Engine) :
    (startReceiving b setup nowMs s).trace = s.trace := by
  unfold startReceiving updateGrant
  split <;> rfl

theorem sendAbort_state (s : Engine) : (sendAbort env s).1.state = s.state := by
  unfold sendAbort
  by_cases size : (env.sender.prepare kAbortSize).length = kAbortSize
  · rw [if_neg (not_not.mpr size),encodeAbort_exact size]; rfl
  · rw [if_pos size]

theorem fail_steps (reason : FailureReason) (s : Engine) : QuietSteps b c s (fail env reason s) := by
  unfold fail
  by_cases active : s.state = .kActive
  · obtain ⟨datagrams,all,result⟩ := invoke_trace env (.onTransferFailed reason) (s.withState .kError)
    rw [if_pos active,result]
    exact finish_quiet (.failed reason) active all
  · rw [if_neg active]

/-- A PDU beside the transfer is its event and the remembered result. -/
private theorem sendAside_steps {pdu : Bytes} {s : Engine} (result : SendResult) (beside : Aside (.send pdu result)) :
    QuietSteps b c s { emit (.send pdu result) s with lastSend := result } :=
  .trans (.single ⟨.aside s beside,_,rfl,aside_quiet beside⟩) (note_quiet (emit (.send pdu result) s) s.lastActivityMs result)

theorem sendReject_steps (sessionId : U8) (reason : RejectReason) (s : Engine) :
    QuietSteps b c s (sendReject env sessionId reason s).1 := by
  have noted : QuietSteps b c s { s with lastSend := .kTooLarge } := note_quiet s s.lastActivityMs .kTooLarge
  unfold sendReject
  by_cases size : (env.sender.prepare kRejectSize).length = kRejectSize
  · simp only [size,encodeReject_exact size]
    exact noted.trans (sendAside_steps _ (.reject _ _))
  · simpa [size] using noted

theorem sendAbort_steps (s : Engine) : QuietSteps b c s (sendAbort env s).1 := by
  have noted : QuietSteps b c s { s with lastSend := .kTooLarge } := note_quiet s s.lastActivityMs .kTooLarge
  unfold sendAbort
  by_cases size : (env.sender.prepare kAbortSize).length = kAbortSize
  · simp only [size,encodeAbort_exact size]
    exact noted.trans (sendAside_steps _ (.abort _ _))
  · simpa [size] using noted

theorem encodedAck_some (s : Engine) {storage : Bytes} (size : storage.length = kAckSize) :
    ∃ pdu, encodedAck b s storage = some pdu := by
  unfold encodedAck
  by_cases narrow : b.windowLimit = 1
  · simp only [narrow,if_true]; exact ⟨_,rfl⟩
  · simp only [narrow,if_false]; exact ⟨_,encodeAck_exact size⟩

/-- What sending the ACK does: the ACK's own event, or none when there is no
    room for it, and then perhaps a failure. -/
theorem sendAck_cases (env : Environment) (s : Engine) :
    (∃ storage pdu, storage.length = kAckSize ∧ encodedAck b s storage = some pdu ∧
      QuietSteps b c (sendPrepared env pdu s).1 (sendAck b env s).1) ∨
      QuietSteps b c s (sendAck b env s).1 := by
  unfold sendAck
  by_cases size : (env.sender.prepare kAckSize).length = kAckSize
  · obtain ⟨pdu,encoded⟩ := encodedAck_some (b := b) s size
    refine .inl ⟨_,pdu,size,encoded,?_⟩
    rw [if_neg (not_not.mpr size),encoded]
    simp only
    split
    · exact .refl
    · exact fail_steps _ _
  · refine .inr ?_
    simp only [size,ne_eq,not_false_eq_true,if_true]
    exact .trans (note_quiet s s.lastActivityMs .kTooLarge) (fail_steps _ _)

theorem sendAck_steps {s : Engine} (live : s.state = .kActive ∨ s.state = .kCompleted) :
    Steps b c s (sendAck b env s).1 := by
  rcases sendAck_cases (b := b) (c := c) env s with ⟨storage,pdu,size,encoded,rest⟩ | quiet
  · have noted := Step.note (b := b) (c := c) (emit (.send pdu (env.sender.sendPrepared pdu)) s) s.lastActivityMs
      (env.sender.sendPrepared pdu)
    exact .head (.ack s _ live size encoded) (.head noted (QuietSteps.steps rest))
  · exact QuietSteps.steps quiet

/-- However a call ends, it is a sequence of steps. -/
theorem Closing.steps {s t : Engine} (closing : Closing b c env s t) : Steps b c s t := by
  cases closing with
  | quiet steps => exact QuietSteps.steps steps
  | acked steps live => exact (QuietSteps.steps steps).trans (sendAck_steps live)

/-! ### Handlers -/

theorem advanced_trace (index : Nat) (payload : Bytes) (s : Engine) (trace : List Event) :
    advanced b index payload (s.withTrace trace) = (advanced b index payload s).withTrace trace := by
  unfold advanced advanceWindow updateGrant
  split <;> rfl

theorem advanced_segmentCount (index : Nat) (payload : Bytes) (s : Engine) :
    (advanced b index payload s).segmentCount = s.segmentCount := by
  unfold advanced advanceWindow updateGrant
  split <;> rfl

theorem advanced_state (index : Nat) (payload : Bytes) (s : Engine) :
    (advanced b index payload s).state = s.state := by
  unfold advanced advanceWindow updateGrant
  split <;> rfl

theorem advanced_setup (index : Nat) (payload : Bytes) (s : Engine) :
    (advanced b index payload s).setup = s.setup := by
  unfold advanced advanceWindow updateGrant
  split <;> rfl

/-- Both builds shift by the distance from the base; width one ignores it. -/
theorem advanceWindow_offset (index : Nat) {windowOffset : Nat} (payload : Bytes) (s : Engine)
    (wide : b.windowLimit ≠ 1 → windowOffset = index - s.contiguousCount) :
    updateGrant b (advanceWindow b windowOffset payload s) = advanced b index payload s := by
  by_cases narrow : b.windowLimit = 1
  · simp [advanced,advanceWindow,narrow]
  · rw [wide narrow,advanced]

theorem deliverSegment_closing {s : Engine} {message : Bytes} {nowMs : U32} {index windowOffset : Nat} {payload : Bytes}
    (called : c = .process message nowMs) (fresh : Fresh b s message index payload)
    (wide : b.windowLimit ≠ 1 → windowOffset = index - s.contiguousCount) :
    Closing b c env s (deliverSegment b env (objectOffset b s index) windowOffset payload s).1 := by
  unfold deliverSegment
  by_cases taken : env.onSegment (objectOffset b s index) payload = true
  · obtain ⟨datagrams,inside,result⟩ := invoke_trace env (.onSegment (objectOffset b s index) payload true) s
    have moved : updateGrant b (advanceWindow b windowOffset payload
        (invoke env (.onSegment (objectOffset b s index) payload true) s)) =
        (advanced b index payload s).withTrace
          (s.trace ++ .callback (.onSegment (objectOffset b s index) payload true) :: datagrams) := by
      rw [result,← advanced_trace]
      exact advanceWindow_offset index payload _ wide
    simp only [taken,if_true,moved,Engine.withTrace_contiguousCount,Engine.withTrace_segmentCount,advanced_segmentCount]
    by_cases full : (advanced b index payload s).contiguousCount = s.segmentCount
    · obtain ⟨after,behind,completed⟩ := invoke_trace env .onTransferComplete
        (((advanced b index payload s).withTrace
          (s.trace ++ .callback (.onSegment (objectOffset b s index) payload true) :: datagrams)).withState .kCompleted)
      rw [if_pos full,completed]
      exact .acked (.single ⟨.complete s called fresh inside behind full,_,List.append_assoc _ _ _,
        noAck_append (callback_quiet inside) (callback_quiet behind)⟩) (.inr rfl)
    · rw [if_neg full]
      refine .acked (.single ⟨.accept s called fresh inside full,_,rfl,callback_quiet inside⟩) (.inl ?_)
      exact (advanced_state index payload s).trans fresh.active
  · obtain ⟨datagrams,inside,result⟩ := invoke_trace env (.onSegment (objectOffset b s index) payload false) s
    obtain ⟨after,behind,failed⟩ := invoke_trace env (.onTransferFailed .kSinkRejected)
      ((s.withTrace (s.trace ++ .callback (.onSegment (objectOffset b s index) payload false) :: datagrams)).withState
        .kError)
    rw [if_neg taken,result,fail,if_pos (by simpa using fresh.active),failed]
    exact .quiet (.single ⟨.refuse s called fresh inside behind,_,List.append_assoc _ _ _,
      noAck_append (callback_quiet inside) (callback_quiet behind)⟩)

/-! ### What segment handling can do -/

/-- A segment is acknowledged again, or delivered where it is granted and not yet received. -/
theorem placeSegment_cases (b : Build) (env : Environment) {index : Nat} (small : index < 2 ^ 16) (payload : Bytes) (s : Engine) :
    placeSegment b env index payload s = sendAck b env s ∨
    (s.state ≠ .kCompleted ∧ s.contiguousCount ≤ index ∧ index < s.grantedEnd ∧ Unreceived b s index ∧
      ∃ windowOffset, (b.windowLimit ≠ 1 → windowOffset = index - s.contiguousCount) ∧
        placeSegment b env index payload s = deliverSegment b env (objectOffset b s index) windowOffset payload s) := by
  have width := b.width_le
  have limit : b.windowLimit ≤ 16 := b.limit_le
  unfold placeSegment
  by_cases received : index < s.contiguousCount
  · exact .inl (if_pos received)
  rw [if_neg received]
  by_cases shut : s.state = .kCompleted ∨ index ≥ s.grantedEnd
  · exact .inl (if_pos shut)
  rw [if_neg shut]
  push Not at shut
  obtain ⟨running,granted⟩ := shut
  by_cases narrow : b.windowLimit = 1
  · rw [if_pos narrow]
    by_cases other : index ≠ s.contiguousCount
    · exact .inl (if_pos other)
    · have next : Unreceived b s index := by simp only [Unreceived,narrow,if_true]; exact not_not.mp other
      refine .inr ⟨running,by omega,granted,next,0,fun wide => absurd narrow wide,?_⟩
      rw [if_neg other,objectOffset,if_pos narrow]
  · have offset : sub32 index s.contiguousCount = index - s.contiguousCount := sub32_of_le (by omega) (by omega)
    simp only [narrow,if_false,offset]
    by_cases outside : index - s.contiguousCount ≥ b.config.receiveWindowWidth
    · exact .inl (if_pos outside)
    rw [if_neg outside]
    by_cases set : s.receiveBitmap &&& (1#16 <<< (index - s.contiguousCount)) ≠ 0
    · exact .inl (if_pos set)
    · have clear := (and_bit_eq_zero s.receiveBitmap (by omega)).mp (not_not.mp set)
      have unreceived : Unreceived b s index := by
        simp only [Unreceived,narrow,if_false]; exact ⟨by omega,clear⟩
      refine .inr ⟨running,by omega,granted,unreceived,_,fun _ => rfl,?_⟩
      rw [if_neg set,objectOffset,if_neg narrow]

theorem renewActivity_eq (index : Nat) (nowMs : U32) (s : Engine) :
    ∃ activity, renewActivity index nowMs s = { s with lastActivityMs := activity } := by
  unfold renewActivity
  split
  · exact ⟨nowMs,rfl⟩
  · exact ⟨s.lastActivityMs,rfl⟩

/-- The checks of `handleSegment`: a segment of the current transfer, of the size the setup says. -/
structure Belongs (s : Engine) (message : Bytes) (header : SegmentHeader) : Prop where
  decoded : decodeSegmentHeaderKnownType message = some header
  live : s.state = .kActive ∨ s.state = .kCompleted
  session : header.sessionId = s.setup.sessionId
  known : header.segmentIndex.toNat < s.segmentCount
  size : (message.drop kSegmentHeaderSize).length = (expectedSize s.setup header.segmentIndex).toNat

/-- A message without such a segment changes nothing. -/
theorem handleSegment_cases (b : Build) (env : Environment) (message : Bytes) (nowMs : U32) (s : Engine) :
    (∃ header, Belongs s message header ∧ handleSegment b env message nowMs s =
      placeSegment b env header.segmentIndex.toNat (message.drop kSegmentHeaderSize)
        (renewActivity header.segmentIndex.toNat nowMs s)) ∨
    ((handleSegment b env message nowMs s).1 = s ∧ ∀ header, ¬ Belongs s message header) := by
  unfold handleSegment
  cases decoded : decodeSegmentHeaderKnownType message with
  | none => exact .inr ⟨rfl,fun header belongs => by simpa [decoded] using belongs.decoded⟩
  | some header =>
    have only {other : SegmentHeader} (belongs : Belongs s message other) : other = header :=
      Option.some.inj (belongs.decoded.symm.trans decoded)
    dsimp only
    by_cases foreign : (s.state ≠ .kActive ∧ s.state ≠ .kCompleted) ∨ header.sessionId ≠ s.setup.sessionId ∨
        header.segmentIndex.toNat ≥ s.segmentCount
    · rw [if_pos foreign]
      refine .inr ⟨rfl,?_⟩
      intro other belongs
      obtain rfl := only belongs
      rcases foreign with ⟨inactive,open_⟩ | session | beyond
      · exact belongs.live.elim inactive open_
      · exact session belongs.session
      · exact absurd belongs.known (not_lt.mpr beyond)
    rw [if_neg foreign]
    by_cases size : (message.drop kSegmentHeaderSize).length ≠ (expectedSize s.setup header.segmentIndex).toNat
    · rw [if_pos size]
      refine .inr ⟨rfl,?_⟩
      intro other belongs
      obtain rfl := only belongs
      exact size belongs.size
    rw [if_neg size]
    push Not at foreign
    obtain ⟨live,session,known⟩ := foreign
    exact .inl ⟨header,⟨decoded,or_iff_not_imp_left.mpr live,session,known,not_not.mp size⟩,rfl⟩

/-- What the checks establish of `Fresh`; the activity time is none of its fields. -/
theorem Belongs.fresh {s : Engine} {message : Bytes} {header : SegmentHeader} (belongs : Belongs s message header)
    (typed : hasType message .kSegment = true) (activity : U32) (active : s.state = .kActive)
    (fromBase : s.contiguousCount ≤ header.segmentIndex.toNat) (granted : header.segmentIndex.toNat < s.grantedEnd)
    (unreceived : Unreceived b s header.segmentIndex.toNat) :
    Fresh b { s with lastActivityMs := activity } message header.segmentIndex.toNat (message.drop kSegmentHeaderSize) := by
  refine ⟨typed,?_,header.segmentIndex.isLt,rfl,?_,active,belongs.known,fromBase,granted,unreceived⟩
  · simp [belongs.decoded,← belongs.session]
  · simpa using belongs.size

theorem handleSegment_closing {message : Bytes} {nowMs : U32} (called : c = .process message nowMs)
    (typed : hasType message .kSegment = true) (s : Engine) :
    Closing b c env s (handleSegment b env message nowMs s).1 := by
  rcases handleSegment_cases b env message nowMs s with ⟨header,belongs,placed⟩ | ⟨same,-⟩
  swap
  · rw [same]
    exact .quiet .refl
  obtain ⟨activity,renewed⟩ := renewActivity_eq header.segmentIndex.toNat nowMs s
  rw [placed,renewed]
  refine .head (note_quiet s activity s.lastSend) ?_
  rcases placeSegment_cases b env header.segmentIndex.isLt (message.drop kSegmentHeaderSize)
    { s with lastActivityMs := activity } with acked | ⟨running,fromBase,granted,unreceived,windowOffset,wide,delivered⟩
  · rw [acked]
    exact .acked .refl belongs.live
  · rw [delivered]
    have active := belongs.live.resolve_right running
    exact deliverSegment_closing called (belongs.fresh typed activity active fromBase granted unreceived) wide

/-- The checks of `handleSetup` before admission. -/
theorem admissible_of_checks {setup : Setup}
    (shape : ¬ (setup.segmentSize = 0 ∨ setup.finalSegmentSize = 0 ∨ setup.finalSegmentSize.toNat > setup.segmentSize.toNat))
    (large : ¬ setupTotalSize setup > b.config.maximumObjectSize)
    (unsupported : ¬ (b.config.receiveWindowWidth = 0 ∨ setup.segmentSize.toNat > b.config.maximumSegmentSize.toNat)) :
    Admissible b setup := by
  push Not at shape unsupported
  have positive {x : U16} (ne : x ≠ 0) : 0 < x.toNat :=
    Nat.pos_of_ne_zero fun zero => ne (BitVec.eq_of_toNat_eq (by simpa using zero))
  exact ⟨positive shape.1,positive shape.2.1,shape.2.2,not_lt.mp large,Nat.pos_of_ne_zero unsupported.1,unsupported.2⟩

theorem handleSetup_closing {message : Bytes} {nowMs : U32} (called : c = .process message nowMs)
    (typed : hasType message .kSetup = true) (s : Engine) :
    Closing b c env s (handleSetup b env message nowMs s).1 := by
  unfold handleSetup
  by_cases short : message.length < 2
  · rw [if_pos short]; exact .quiet .refl
  rw [if_neg short]
  cases decoded : decodeSetupKnownType message with
  | none => exact .quiet (sendReject_steps _ _ s)
  | some requested =>
    dsimp only
    by_cases shape : requested.segmentSize = 0 ∨ requested.finalSegmentSize = 0 ∨
        requested.finalSegmentSize.toNat > requested.segmentSize.toNat
    · rw [if_pos shape]; exact .quiet (sendReject_steps _ _ s)
    rw [if_neg shape]
    by_cases large : setupTotalSize requested > b.config.maximumObjectSize
    · rw [if_pos large]; exact .quiet (sendReject_steps _ _ s)
    rw [if_neg large]
    by_cases unsupported : b.config.receiveWindowWidth = 0 ∨
        requested.segmentSize.toNat > b.config.maximumSegmentSize.toNat
    · rw [if_pos unsupported]; exact .quiet (sendReject_steps _ _ s)
    rw [if_neg unsupported]
    have admissible : Admissible b requested := admissible_of_checks shape large unsupported
    by_cases active : s.state = .kActive
    · rw [if_pos active]
      by_cases same : setupMatches s.setup requested = true
      · rw [if_pos same]
        exact .acked (note_quiet s nowMs s.lastSend) (.inl active)
      · rw [if_neg same]; exact .quiet (sendReject_steps _ _ s)
    · rw [if_neg active]
      obtain ⟨datagrams,inside,result⟩ := invoke_trace env
        (.beginTransfer (transferInfo requested) (env.beginTransfer (transferInfo requested))) s
      rw [result]
      by_cases refused : env.beginTransfer (transferInfo requested) ≠ .kAccepted
      · rw [if_pos refused]
        refine .quiet (.trans (aside_steps ?_) (sendReject_steps _ _ _))
        intro e member
        rcases List.mem_cons.mp member with rfl | datagram
        · exact .refused _ refused
        · exact .datagram (inside e datagram)
      · rw [if_neg refused,not_not.mp refused]
        refine .acked (.single ⟨.start s called typed decoded admissible active inside,_,startReceiving_trace _ _ _,
          callback_quiet inside⟩) (.inl ?_)
        exact startReceiving_state _ _ _

theorem handleControl_closing {message : Bytes} {nowMs : U32} {type : MessageType} (called : c = .process message nowMs)
    (typed : hasType message type = true) (s : Engine) :
    Closing b c env s (handleControl b env message type nowMs s).1 := by
  unfold handleControl
  cases type with
  | kSetup => exact handleSetup_closing called typed s
  | kProbe =>
    cases decodeProbeKnownType message with
    | none => exact .quiet .refl
    | some probe =>
      dsimp only
      by_cases foreign : (s.state ≠ .kActive ∧ s.state ≠ .kCompleted) ∨ probe.sessionId ≠ s.setup.sessionId
      · rw [if_pos foreign]; exact .quiet .refl
      · rw [if_neg foreign]
        refine .acked (note_quiet s nowMs s.lastSend) ?_
        by_cases active : s.state = .kActive
        · exact .inl active
        · exact .inr (not_not.mp fun other => foreign (.inl ⟨active,other⟩))
  | kUserDatagram =>
    cases decodeUserDatagramKnownType message with
    | none => exact .quiet .refl
    | some payload =>
      obtain ⟨datagrams,inside,result⟩ := invoke_trace env (.onDatagram payload) s
      dsimp only
      rw [result]
      refine .quiet (aside_steps ?_)
      intro e member
      rcases List.mem_cons.mp member with rfl | datagram
      · exact .onDatagram payload
      · exact .datagram (inside e datagram)
  | kAbort =>
    unfold handleAbort
    cases decodeAbortKnownType message with
    | none => exact .quiet .refl
    | some abort =>
      dsimp only
      by_cases foreign : s.state ≠ .kActive ∨ abort.sessionId ≠ s.setup.sessionId
      · rw [if_pos foreign]; exact .quiet .refl
      · rw [if_neg foreign]
        obtain ⟨datagrams,inside,result⟩ := invoke_trace env (.onTransferAborted .kPeer) (s.withState .kAborted)
        rw [result]
        exact .quiet (finish_quiet (.aborted .kPeer) (not_not.mp fun other => foreign (.inl other)) inside)
  | kSegment => exact .quiet .refl
  | kAck => exact .quiet .refl
  | kReject => exact .quiet .refl

/-! ### Public calls -/

theorem poll_steps (nowMs : U32) (s : Engine) : QuietSteps b c s (poll b env nowMs s).1 := by
  unfold poll
  split
  · exact .refl
  · exact fail_steps _ s

/-- The engine that `dispatch` leaves is that of the handler of the message's type. -/
theorem dispatch_cases (b : Build) (env : Environment) (message : Bytes) (nowMs : U32) (s : Engine) :
    ((dispatch b env message nowMs s).1 = s ∧ ∀ type, hasType message type = false) ∨
    (hasType message .kSegment = true ∧ (dispatch b env message nowMs s).1 = (handleSegment b env message nowMs s).1) ∨
    ∃ type, hasType message type = true ∧ type ≠ .kSegment ∧
      (dispatch b env message nowMs s).1 = (handleControl b env message type nowMs s).1 := by
  cases message with
  | nil => exact .inl ⟨rfl,fun _ => rfl⟩
  | cons first rest =>
    cases decoded : decodeControl first with
    | none =>
      refine .inl ⟨?_,fun type => by simp [hasType,decoded]⟩
      simp only [dispatch,decoded]
    | some control =>
      have typed : hasType (first :: rest) control.type = true := hasType_cons.mpr (decodeControl_eq_some decoded)
      by_cases segment : control.type = .kSegment
      · refine .inr (.inl ⟨segment ▸ typed,?_⟩)
        simp only [dispatch,decoded,segment,if_true]
      · refine .inr (.inr ⟨control.type,typed,segment,?_⟩)
        simp only [dispatch,decoded,segment,if_false]

theorem dispatch_closing (message : Bytes) (nowMs : U32) (s : Engine) :
    Closing b (.process message nowMs) env s (dispatch b env message nowMs s).1 := by
  rcases dispatch_cases b env message nowMs s with ⟨same,-⟩ | ⟨typed,handled⟩ | ⟨type,typed,-,handled⟩
  · rw [same]
    exact .quiet .refl
  · rw [handled]
    exact handleSegment_closing rfl typed s
  · rw [handled]
    exact handleControl_closing rfl typed s

theorem process_closing (message : Bytes) (nowMs : U32) (s : Engine) :
    Closing b (.process message nowMs) env s (process b env message nowMs s).1 := by
  unfold process
  have polled : QuietSteps b (.process message nowMs) s (poll b env nowMs s).1 := poll_steps nowMs s
  by_cases expired : (poll b env nowMs s).2 = .kError
  · simp only [expired,if_true]
    exact .quiet polled
  · simp only [expired,if_false]
    exact .head (polled.trans (note_quiet _ (poll b env nowMs s).1.lastActivityMs .kSent)) (dispatch_closing _ _ _)

theorem abort_steps (s : Engine) : QuietSteps b c s (abort env s).1 := by
  unfold abort
  by_cases idle : s.state ≠ .kActive
  · rw [if_pos idle]
  rw [if_neg idle]
  have aborted : QuietSteps b c s (sendAbort env s).1 := sendAbort_steps s
  obtain ⟨datagrams,inside,result⟩ := invoke_trace env (.onTransferAborted .kLocal)
    ((sendAbort env s).1.withState .kAborted)
  dsimp only
  rw [result]
  exact .trans aborted (finish_quiet (.aborted .kLocal) ((sendAbort_state s).trans (not_not.mp idle)) inside)

/-- Every public call ends quietly or with one ACK. -/
theorem call_closing (s : Engine) (c : Call × Environment) : Closing b c.1 c.2 s (call b s c).1 := by
  obtain ⟨c,env⟩ := c
  cases c with
  | process message nowMs => exact process_closing message nowMs s
  | poll nowMs => exact .quiet (poll_steps nowMs s)
  | sendDatagram payload =>
    obtain ⟨sends,all,result⟩ := sendDatagram_trace env.sender payload s
    refine .quiet ?_
    show QuietSteps b _ s (sendDatagram env.sender payload s).1
    rw [result]
    exact aside_steps (fun e member => .datagram (all e member))
  | abort => exact .quiet (abort_steps s)

/-- Every public call is a sequence of steps. -/
theorem call_steps (s : Engine) (c : Call × Environment) : Steps b c.1 s (call b s c).1 := (call_closing s c).steps

end calls

/-- A sink that takes everything, behind a sender that gives one answer to every PDU. -/
def sinkWith (result : SendResult) : Environment where
  beginTransfer _ := .kAccepted
  onSegment _ _ := true
  sender := ⟨fun size => List.replicate size 0,fun _ => result⟩
  reentry _ := []

/-- The engine of the general build, with its full window. -/
def general : Build := construct 16 sixteen_pos sixteen_le ⟨64,16,1024,0⟩

end WireSpaces.ReceiverSteps
