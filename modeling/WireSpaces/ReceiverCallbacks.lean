import WireSpaces.ReceiverForeign

/-!
The callbacks of one engine call, in order, with the answers its environment gives
and the window the call leaves. A sink that keeps a state of its own is reasoned
about through these few cases.
-/
namespace WireSpaces.ReceiverCallbacks
open WireSpaces.Words WireSpaces.Codec WireSpaces.ReceiverEngine WireSpaces.ReceiverSteps
open WireSpaces.ReceiverLifecycle (core)
open WireSpaces.ReceiverForeign (Expired poll_live process_live)

def called : Event → Option Callback
  | .callback call => some call
  | .send _ _ => none

def callbacksOf (events : List Event) : List Callback := events.filterMap called

/-- The callbacks between two states of an engine. -/
def callbacksMade (before after : Engine) : List Callback := callbacksOf (after.trace.drop before.trace.length)

/-- From one state to a later one, with the callbacks between them. -/
def Makes (s : Engine) (calls : List Callback) (u : Engine) : Prop :=
  ∃ more, u.trace = s.trace ++ more ∧ callbacksOf more = calls

section makes
variable {s t u : Engine} {first second : List Callback}

theorem Makes.refl (same : u.trace = s.trace) : Makes s [] u := ⟨[],by rw [same,List.append_nil],rfl⟩

theorem Makes.trans (left : Makes s first t) (right : Makes t second u) : Makes s (first ++ second) u := by
  obtain ⟨more,trace,rfl⟩ := left
  obtain ⟨after,trace',rfl⟩ := right
  exact ⟨more ++ after,by rw [trace',trace,List.append_assoc],List.filterMap_append⟩

theorem Makes.callbacksMade (makes : Makes s first u) : callbacksMade s u = first := by
  obtain ⟨more,trace,rfl⟩ := makes
  rw [ReceiverCallbacks.callbacksMade,trace,List.drop_left]

theorem callbacksOf_datagrams {datagrams : List Event} (inside : ∀ e ∈ datagrams, Datagram e) : callbacksOf datagrams = [] := by
  refine List.filterMap_eq_nil_iff.mpr fun event member => ?_
  obtain ⟨payload,result,rfl⟩ := inside event member
  rfl

theorem invoke_makes (env : Environment) (call : Callback) (s : Engine) :
    Makes s [call] (invoke env call s) ∧ core (invoke env call s) = core s ∧ (invoke env call s).state = s.state := by
  obtain ⟨datagrams,inside,invoked⟩ := invoke_trace env call s
  rw [invoked]
  refine ⟨⟨_,rfl,?_⟩,rfl,rfl⟩
  show call :: callbacksOf datagrams = [call]
  rw [callbacksOf_datagrams inside]

/-- Only an active transfer fails. -/
theorem fail_makes (env : Environment) (reason : FailureReason) (s : Engine) :
    core (fail env reason s) = core s ∧
      if s.state = .kActive then Makes s [.onTransferFailed reason] (fail env reason s) ∧ (fail env reason s).state = .kError
      else fail env reason s = s := by
  unfold fail
  split
  · obtain ⟨⟨more,trace,calls⟩,same,state⟩ := invoke_makes env (.onTransferFailed reason) (s.withState .kError)
    exact ⟨same,⟨more,trace,calls⟩,state⟩
  · exact ⟨rfl,rfl⟩

theorem sendPrepared_makes (env : Environment) (pdu : Bytes) (s : Engine) :
    Makes s [] (sendPrepared env pdu s).1 ∧ core (sendPrepared env pdu s).1 = core s ∧
      (sendPrepared env pdu s).1.state = s.state := ⟨⟨_,rfl,rfl⟩,rfl,rfl⟩

/-- What sending a reply leaves: nothing new, or the failure of an active transfer. -/
inductive Sends (s : Engine) : List Callback → Engine → Prop where
  | fine {u : Engine} (same : core u = core s) (state : u.state = s.state) : Sends s [] u
  | failed {u : Engine} (same : core u = core s) (active : s.state = .kActive) (state : u.state = .kError) :
      Sends s [.onTransferFailed .kSendFailed] u

/-- A failed reply behind a step that kept the window. -/
theorem fail_sends (env : Environment) (makes : Makes s [] t) (same : core t = core s) (state : t.state = s.state) :
    ∃ calls, Makes s calls (fail env .kSendFailed t) ∧ Sends s calls (fail env .kSendFailed t) := by
  obtain ⟨kept,failed⟩ := fail_makes env .kSendFailed t
  by_cases active : t.state = .kActive
  · rw [if_pos active] at failed
    exact ⟨_,makes.trans failed.1,.failed (kept.trans same) (state ▸ active) failed.2⟩
  · rw [if_neg active] at failed
    rw [failed]
    exact ⟨_,makes,.fine same state⟩

theorem sendAck_makes (b : Build) (env : Environment) (s : Engine) :
    ∃ calls, Makes s calls (sendAck b env s).1 ∧ Sends s calls (sendAck b env s).1 := by
  unfold sendAck
  dsimp only
  split
  · exact fail_sends env (.refl rfl) rfl rfl
  split
  · exact fail_sends env (.refl rfl) rfl rfl
  · rename_i pdu _
    obtain ⟨makes,same,state⟩ := sendPrepared_makes env pdu s
    dsimp only
    split
    · exact ⟨_,makes,.fine same state⟩
    · exact fail_sends env makes same state

theorem sendReject_makes (env : Environment) (sessionId : U8) (reason : RejectReason) (s : Engine) :
    Makes s [] (sendReject env sessionId reason s).1 ∧ core (sendReject env sessionId reason s).1 = core s ∧
      (sendReject env sessionId reason s).1.state = s.state := by
  unfold sendReject
  dsimp only
  split
  · exact ⟨.refl rfl,rfl,rfl⟩
  split
  · exact ⟨.refl rfl,rfl,rfl⟩
  · exact ⟨⟨_,rfl,rfl⟩,rfl,rfl⟩

end makes

/-! ### One message -/

/-- How an accepted segment goes on. -/
inductive Continues (s : Engine) : List Callback → Engine → Prop where
  | complete {u : Engine} (full : u.contiguousCount = s.segmentCount) (state : u.state = .kCompleted) :
      Continues s [.onTransferComplete] u
  | more {u : Engine} (short : u.contiguousCount ≠ s.segmentCount) (state : u.state = .kActive) : Continues s [] u
  | failed {u : Engine} (short : u.contiguousCount ≠ s.segmentCount) (state : u.state = .kError) :
      Continues s [.onTransferFailed .kSendFailed] u

/-- The callbacks a message causes, and what it leaves. -/
inductive Made (b : Build) (env : Environment) (message : Bytes) (nowMs : U32) (s : Engine) : List Callback → Engine → Prop where
  | none {u : Engine} (same : core u = core s) (state : u.state = s.state) : Made b env message nowMs s [] u
  | failed {u : Engine} {reason : FailureReason} (same : core u = core s) (active : s.state = .kActive) (state : u.state = .kError) :
      Made b env message nowMs s [.onTransferFailed reason] u
  | refused {u : Engine} {info : TransferInfo} (other : env.beginTransfer info ≠ .kAccepted) (same : core u = core s)
      (state : u.state = s.state) : Made b env message nowMs s [.beginTransfer info (env.beginTransfer info)] u
  | began {u : Engine} {setup : Setup} {calls : List Callback} (typed : hasType message .kSetup = true)
      (decoded : decodeSetupKnownType message = some setup) (admissible : Admissible b setup) (idle : s.state ≠ .kActive)
      (accepted : env.beginTransfer (transferInfo setup) = .kAccepted) (started : core u = core (startReceiving b setup nowMs s))
      (ending : calls = [] ∧ u.state = .kActive ∨ calls = [.onTransferFailed .kSendFailed] ∧ u.state = .kError) :
      Made b env message nowMs s (.beginTransfer (transferInfo setup) .kAccepted :: calls) u
  | took {u : Engine} {index : Nat} {payload : Bytes} {calls : List Callback} (fresh : Fresh b s message index payload)
      (takes : env.onSegment (objectOffset b s index) payload = true) (moved : core u = core (advanced b index payload s))
      (continues : Continues s calls u) : Made b env message nowMs s (.onSegment (objectOffset b s index) payload true :: calls) u
  | sinkRefused {u : Engine} {index : Nat} {payload : Bytes} (fresh : Fresh b s message index payload)
      (refuses : env.onSegment (objectOffset b s index) payload = false) (same : core u = core s) (state : u.state = .kError) :
      Made b env message nowMs s [.onSegment (objectOffset b s index) payload false,.onTransferFailed .kSinkRejected] u
  | aborted {u : Engine} (same : core u = core s) (active : s.state = .kActive) (state : u.state = .kAborted) :
      Made b env message nowMs s [.onTransferAborted .kPeer] u
  | datagram {u : Engine} (payload : Bytes) (same : core u = core s) (state : u.state = s.state) :
      Made b env message nowMs s [.onDatagram payload] u

/-- A handler's outcome: its callbacks, in the trace and as one of the cases. -/
def Handles (b : Build) (env : Environment) (message : Bytes) (nowMs : U32) (s u : Engine) : Prop :=
  ∃ calls, Makes s calls u ∧ Made b env message nowMs s calls u

section handlers
variable {b : Build} {env : Environment} {message : Bytes} {s t u : Engine}

theorem contiguousCount_of_core (same : core u = core s) : u.contiguousCount = s.contiguousCount :=
  congrArg (fun parts => parts.2.2.1) same

/-- Nothing but an ACK behind a note that keeps the window. -/
theorem ack_handles {nowMs : U32} (same : core t = core s) (state : t.state = s.state) (trace : t.trace = s.trace) :
    Handles b env message nowMs s (sendAck b env t).1 := by
  obtain ⟨calls,⟨more,added,made⟩,sends⟩ := sendAck_makes b env t
  refine ⟨calls,⟨more,trace ▸ added,made⟩,?_⟩
  cases sends with
  | fine kept stays => exact .none (kept.trans same) (stays.trans state)
  | failed kept active ended => exact .failed (kept.trans same) (state ▸ active) ended

theorem reject_handles (sessionId : U8) (reason : RejectReason) (nowMs : U32) (s : Engine) :
    Handles b env message nowMs s (sendReject env sessionId reason s).1 := by
  obtain ⟨makes,same,state⟩ := sendReject_makes env sessionId reason s
  exact ⟨[],makes,.none same state⟩

theorem deliverSegment_handles {nowMs : U32} {index windowOffset : Nat} {payload : Bytes}
    (fresh : Fresh b s message index payload) (wide : b.windowLimit ≠ 1 → windowOffset = index - s.contiguousCount) :
    Handles b env message nowMs s (deliverSegment b env (objectOffset b s index) windowOffset payload s).1 := by
  unfold deliverSegment
  by_cases takes : env.onSegment (objectOffset b s index) payload = true
  · rw [if_pos takes]
    dsimp only
    obtain ⟨datagrams,inside,invoked⟩ := invoke_trace env (.onSegment (objectOffset b s index) payload true) s
    have moved : updateGrant b (advanceWindow b windowOffset payload (invoke env (.onSegment (objectOffset b s index) payload true) s)) =
        (advanced b index payload s).withTrace
          (s.trace ++ .callback (.onSegment (objectOffset b s index) payload true) :: datagrams) := by
      rw [invoked,← advanced_trace]
      exact advanceWindow_offset index payload _ wide
    rw [moved]
    have made : Makes s [.onSegment (objectOffset b s index) payload true] ((advanced b index payload s).withTrace
        (s.trace ++ .callback (.onSegment (objectOffset b s index) payload true) :: datagrams)) := by
      refine ⟨_,rfl,?_⟩
      show _ :: callbacksOf datagrams = _
      rw [callbacksOf_datagrams inside]
    split
    · rename_i full
      have done : (advanced b index payload s).contiguousCount = s.segmentCount := by
        simpa [advanced_segmentCount] using full
      obtain ⟨completes,same,state⟩ := invoke_makes env .onTransferComplete (((advanced b index payload s).withTrace
        (s.trace ++ .callback (.onSegment (objectOffset b s index) payload true) :: datagrams)).withState .kCompleted)
      obtain ⟨calls,acks,sends⟩ := sendAck_makes b env (invoke env .onTransferComplete (((advanced b index payload s).withTrace
        (s.trace ++ .callback (.onSegment (objectOffset b s index) payload true) :: datagrams)).withState .kCompleted))
      cases sends with
      | fine kept stays =>
        have moved := kept.trans same
        refine ⟨_,(made.trans completes).trans acks,.took fresh takes moved (.complete ?_ (stays.trans state))⟩
        rw [← done]
        exact contiguousCount_of_core moved
      | failed kept active ended =>
        rw [state] at active
        cases active
    · rename_i short
      have more : (advanced b index payload s).contiguousCount ≠ s.segmentCount := by
        simpa [advanced_segmentCount] using short
      have active : (advanced b index payload s).state = .kActive := (advanced_state index payload s).trans fresh.active
      obtain ⟨calls,acks,sends⟩ := sendAck_makes b env ((advanced b index payload s).withTrace
        (s.trace ++ .callback (.onSegment (objectOffset b s index) payload true) :: datagrams))
      refine ⟨_,made.trans acks,?_⟩
      cases sends with
      | fine kept stays =>
        refine .took fresh takes kept (.more ?_ (stays.trans active))
        rw [contiguousCount_of_core kept]
        exact more
      | failed kept _ ended =>
        refine .took fresh takes kept (.failed ?_ ended)
        rw [contiguousCount_of_core kept]
        exact more
  · have refuses : env.onSegment (objectOffset b s index) payload = false := by simpa using takes
    rw [if_neg takes]
    obtain ⟨offered,same,state⟩ := invoke_makes env (.onSegment (objectOffset b s index) payload false) s
    obtain ⟨kept,failed⟩ := fail_makes env .kSinkRejected (invoke env (.onSegment (objectOffset b s index) payload false) s)
    rw [if_pos (state.trans fresh.active)] at failed
    exact ⟨_,offered.trans failed.1,.sinkRefused fresh refuses (kept.trans same) failed.2⟩

theorem unnoted {activity : U32} {sent : SendResult} {index : Nat} {payload : Bytes}
    (fresh : Fresh b { s with lastActivityMs := activity, lastSend := sent } message index payload) : Fresh b s message index payload :=
  ⟨fresh.typed,fresh.header,fresh.small,fresh.content,fresh.size,fresh.active,fresh.known,fresh.from_base,fresh.granted,
    fresh.unreceived⟩

theorem advanced_noted (activity : U32) (sent : SendResult) {index : Nat} {payload : Bytes} :
    core (advanced b index payload { s with lastActivityMs := activity, lastSend := sent }) = core (advanced b index payload s) := by
  unfold advanced advanceWindow updateGrant
  split <;> rfl

/-- A new transfer starts alike on every engine. -/
theorem startReceiving_core (setup : Setup) (nowMs : U32) (s t : Engine) :
    core (startReceiving b setup nowMs t) = core (startReceiving b setup nowMs s) := by
  unfold startReceiving updateGrant
  split <;> rfl

/-- The window reads neither the time of the last activity nor the last send's result. -/
theorem Handles.noted {nowMs : U32} (activity : U32) (sent : SendResult)
    (handles : Handles b env message nowMs { s with lastActivityMs := activity, lastSend := sent } u) : Handles b env message nowMs s u := by
  obtain ⟨calls,makes,made⟩ := handles
  refine ⟨calls,makes,?_⟩
  cases made with
  | none same state => exact .none same state
  | failed same active state => exact .failed same active state
  | refused other same state => exact .refused other same state
  | began typed decoded admissible idle accepted started ending =>
    exact .began typed decoded admissible idle accepted (started.trans (startReceiving_core _ _ _ _)) ending
  | took fresh takes moved continues =>
    refine .took (unnoted fresh) takes (moved.trans (advanced_noted activity sent)) ?_
    cases continues with
    | complete full state => exact .complete full state
    | more short state => exact .more short state
    | failed short state => exact .failed short state
  | sinkRefused fresh refuses same state => exact .sinkRefused (unnoted fresh) refuses same state
  | aborted same active state => exact .aborted same active state
  | datagram payload same state => exact .datagram payload same state

theorem handleSegment_handles (typed : hasType message .kSegment = true) (nowMs : U32) (s : Engine) :
    Handles b env message nowMs s (handleSegment b env message nowMs s).1 := by
  rcases handleSegment_cases b env message nowMs s with ⟨header,belongs,placed⟩ | ⟨same,-⟩
  swap
  · rw [same]
    exact ⟨[],.refl rfl,.none rfl rfl⟩
  obtain ⟨activity,renewed⟩ := renewActivity_eq header.segmentIndex.toNat nowMs s
  rw [placed,renewed]
  rcases placeSegment_cases b env header.segmentIndex.isLt (message.drop kSegmentHeaderSize)
    { s with lastActivityMs := activity } with acked | ⟨running,fromBase,granted,unreceived,windowOffset,wide,delivered⟩
  · rw [acked]
    exact ack_handles rfl rfl rfl
  · rw [delivered]
    have active := belongs.live.resolve_right running
    exact .noted activity s.lastSend
      (deliverSegment_handles (belongs.fresh typed activity active fromBase granted unreceived) wide)

theorem handleSetup_handles (typed : hasType message .kSetup = true) (nowMs : U32) (s : Engine) :
    Handles b env message nowMs s (handleSetup b env message nowMs s).1 := by
  unfold handleSetup
  by_cases short : message.length < 2
  · rw [if_pos short]
    exact ⟨[],.refl rfl,.none rfl rfl⟩
  rw [if_neg short]
  cases decoded : decodeSetupKnownType message with
  | none => exact reject_handles _ _ _ _
  | some requested =>
    dsimp only
    split
    · exact reject_handles _ _ _ _
    rename_i shape
    split
    · exact reject_handles _ _ _ _
    rename_i large
    split
    · exact reject_handles _ _ _ _
    rename_i unsupported
    by_cases active : s.state = .kActive
    · rw [if_pos active]
      split
      · exact ack_handles rfl rfl rfl
      · exact reject_handles _ _ _ _
    rw [if_neg active]
    obtain ⟨asked,same,state⟩ := invoke_makes env
      (.beginTransfer (transferInfo requested) (env.beginTransfer (transferInfo requested))) s
    split
    · rename_i other
      obtain ⟨rejects,kept,stays⟩ := sendReject_makes env requested.sessionId
        (rejectReasonOf (env.beginTransfer (transferInfo requested)))
        (invoke env (.beginTransfer (transferInfo requested) (env.beginTransfer (transferInfo requested))) s)
      exact ⟨_,asked.trans rejects,.refused other (kept.trans same) (stays.trans state)⟩
    · rename_i accepted
      have accepts := not_not.mp accepted
      rw [accepts] at asked same state ⊢
      have begun : Makes s [.beginTransfer (transferInfo requested) .kAccepted] (startReceiving b requested nowMs
          (invoke env (.beginTransfer (transferInfo requested) .kAccepted) s)) := by
        obtain ⟨more,trace,calls⟩ := asked
        exact ⟨more,(startReceiving_trace _ _ _).trans trace,calls⟩
      have runs := startReceiving_state (b := b) requested nowMs (invoke env (.beginTransfer (transferInfo requested) .kAccepted) s)
      have admissible := admissible_of_checks shape large unsupported
      obtain ⟨calls,acks,sends⟩ := sendAck_makes b env (startReceiving b requested nowMs
        (invoke env (.beginTransfer (transferInfo requested) .kAccepted) s))
      refine ⟨_,begun.trans acks,?_⟩
      cases sends with
      | fine kept stays =>
        exact .began typed decoded admissible active accepts (kept.trans (startReceiving_core _ _ _ _)) (.inl ⟨rfl,stays.trans runs⟩)
      | failed kept _ ended => exact .began typed decoded admissible active accepts (kept.trans (startReceiving_core _ _ _ _)) (.inr ⟨rfl,ended⟩)

theorem handleAbort_handles (nowMs : U32) (s : Engine) : Handles b env message nowMs s (handleAbort env message s).1 := by
  unfold handleAbort
  split
  · exact ⟨[],.refl rfl,.none rfl rfl⟩
  split
  · exact ⟨[],.refl rfl,.none rfl rfl⟩
  · rename_i other
    push Not at other
    obtain ⟨⟨more,trace,calls⟩,same,state⟩ := invoke_makes env (.onTransferAborted .kPeer) (s.withState .kAborted)
    exact ⟨_,⟨more,trace,calls⟩,.aborted same other.1 state⟩

theorem handleControl_handles {type : MessageType} (typed : hasType message type = true) (nowMs : U32) (s : Engine) :
    Handles b env message nowMs s (handleControl b env message type nowMs s).1 := by
  cases type with
  | kSetup => exact handleSetup_handles typed nowMs s
  | kProbe =>
    simp only [handleControl]
    split
    · exact ⟨[],.refl rfl,.none rfl rfl⟩
    split
    · exact ⟨[],.refl rfl,.none rfl rfl⟩
    · exact ack_handles rfl rfl rfl
  | kUserDatagram =>
    simp only [handleControl]
    split
    · exact ⟨[],.refl rfl,.none rfl rfl⟩
    · rename_i payload _
      obtain ⟨makes,same,state⟩ := invoke_makes env (.onDatagram payload) s
      exact ⟨_,makes,.datagram payload same state⟩
  | kAbort => exact handleAbort_handles nowMs s
  | kSegment | kAck | kReject => exact ⟨[],.refl rfl,.none rfl rfl⟩

/-- An expired transfer fails and the message is not looked at; any other is dispatched. -/
theorem process_handles (b : Build) (env : Environment) (message : Bytes) (nowMs : U32) (s : Engine) :
    Handles b env message nowMs s (process b env message nowMs s).1 := by
  by_cases expired : Expired b nowMs s
  · obtain ⟨kept,failed⟩ := fail_makes env .kInactivityTimeout s
    rw [if_pos expired.1] at failed
    have result : (process b env message nowMs s).1 = fail env .kInactivityTimeout s := by
      have stale : ¬ (s.state ≠ .kActive ∨ b.config.inactivityTimeoutMs = 0 ∨
          nowMs - s.lastActivityMs < b.config.inactivityTimeoutMs) := by
        rintro (idle | unlimited | within)
        · exact idle expired.1
        · exact expired.2.1 unlimited
        · exact absurd within (BitVec.not_lt.mpr expired.2.2)
      rw [process,poll,if_neg stale]
      rfl
    rw [result]
    exact ⟨_,failed.1,.failed kept expired.1 failed.2⟩
  · rw [process_live expired]
    apply Handles.noted s.lastActivityMs .kSent
    rcases dispatch_cases b env message nowMs { s with lastSend := .kSent } with ⟨same,-⟩ | ⟨typed,handled⟩ | ⟨type,typed,-,handled⟩
    · rw [same]
      exact ⟨[],.refl rfl,.none rfl rfl⟩
    · rw [handled]
      exact handleSegment_handles typed nowMs _
    · rw [handled]
      exact handleControl_handles typed nowMs _

/-- The expiry check fails a transfer or does nothing, whatever message comes next. -/
theorem poll_handles (b : Build) (env : Environment) (message : Bytes) (nowMs : U32) (s : Engine) :
    Handles b env message nowMs s (poll b env nowMs s).1 := by
  unfold poll
  split
  · exact ⟨[],.refl rfl,.none rfl rfl⟩
  · rename_i stale
    push Not at stale
    obtain ⟨kept,failed⟩ := fail_makes env .kInactivityTimeout s
    rw [if_pos stale.1] at failed
    exact ⟨_,failed.1,.failed kept stale.1 failed.2⟩

end handlers

/-! ### A sink with a state -/

section sink
variable {σ : Type} (step : σ → Callback → σ)

/-- A sink's state behind the callbacks between two states of its engine. -/
def sinkAfter (sink : σ) (before after : Engine) : σ := (callbacksMade before after).foldl step sink

theorem sinkAfter_eq {s u : Engine} {calls : List Callback} (makes : Makes s calls u) (sink : σ) :
    sinkAfter step sink s u = calls.foldl step sink := by
  rw [sinkAfter,makes.callbacksMade]

theorem sinkAfter_trans {s t u : Engine} {first second : List Callback} (left : Makes s first t) (right : Makes t second u)
    (sink : σ) : sinkAfter step (sinkAfter step sink s t) t u = sinkAfter step sink s u := by
  rw [sinkAfter_eq step (left.trans right),sinkAfter_eq step left,sinkAfter_eq step right,List.foldl_append]

end sink

end WireSpaces.ReceiverCallbacks
