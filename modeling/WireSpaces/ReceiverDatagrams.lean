import WireSpaces.ReceiverCallbacks

/-!
What an engine call puts on the wire, block by block: a reply of the protocol's own, or
a callback with exactly the datagrams that it sends from inside. So a datagram is never
sent but from a callback, and right behind it.
-/
namespace WireSpaces.ReceiverDatagrams
open WireSpaces.Words WireSpaces.Codec WireSpaces.ReceiverEngine WireSpaces.ReceiverSteps
open WireSpaces.ReceiverLifecycle (admissions record)
open WireSpaces.ReceiverCallbacks (callbacksOf)

/-- What one `sendDatagram` adds to a trace. -/
def sends (datagram : Bytes × Sender) : List Event := (sendDatagram datagram.2 datagram.1 {}).1.trace

/-- What a callback adds behind itself. -/
def inside (env : Environment) (call : Callback) : List Event := (env.reentry call).flatMap sends

inductive Block (env : Environment) : List Event → Prop where
  | reply {pdu : Bytes} (own : hasType pdu .kUserDatagram = false) (result : SendResult) : Block env [.send pdu result]
  | called (call : Callback) : Block env (.callback call :: inside env call)

/-- A later state whose trace goes on in blocks. -/
def Goes (env : Environment) (s u : Engine) : Prop :=
  ∃ blocks : List (List Event), (∀ block ∈ blocks, Block env block) ∧ u.trace = s.trace ++ blocks.flatten

section leaves
variable {b : Build} {env : Environment} {s t u : Engine}

theorem Goes.refl (same : u.trace = s.trace) : Goes env s u := ⟨[],by simp,by simp [same]⟩

theorem Goes.trans (left : Goes env s t) (right : Goes env t u) : Goes env s u := by
  obtain ⟨first,all,trace⟩ := left
  obtain ⟨second,more,trace'⟩ := right
  refine ⟨first ++ second,fun block member => ?_,?_⟩
  · exact (List.mem_append.mp member).elim (all block) (more block)
  · rw [trace',trace,List.flatten_append,List.append_assoc]

/-- A note that leaves the trace alone. -/
theorem Goes.noted (goes : Goes env t u) (same : t.trace = s.trace) : Goes env s u := (Goes.refl same).trans goes

theorem Goes.block {events : List Event} (block : Block env events) (trace : u.trace = s.trace ++ events) : Goes env s u :=
  ⟨[events],fun _ member => List.mem_singleton.mp member ▸ block,by rw [trace,List.flatten_singleton]⟩

theorem sendDatagram_eq (datagram : Bytes × Sender) (s : Engine) :
    (sendDatagram datagram.2 datagram.1 s).1 = s.withTrace (s.trace ++ sends datagram) := by
  obtain ⟨payload,sender⟩ := datagram
  simp only [sends,sendDatagram]
  split_ifs
  · simp [Engine.withTrace]
  · simp [Engine.withTrace]
  · split <;> simp [emit,Engine.withTrace]

theorem invoke_eq (env : Environment) (call : Callback) (s : Engine) :
    invoke env call s = s.withTrace (s.trace ++ .callback call :: inside env call) := by
  have each (datagrams : List (Bytes × Sender)) (s : Engine) :
      datagrams.foldl (fun s datagram => (sendDatagram datagram.2 datagram.1 s).1) s =
        s.withTrace (s.trace ++ datagrams.flatMap sends) := by
    induction datagrams generalizing s with
    | nil => simp [Engine.withTrace]
    | cons first rest ih =>
      rw [List.foldl_cons,ih,sendDatagram_eq]
      simp [Engine.withTrace]
  rw [invoke,each,inside]
  simp [emit,Engine.withTrace]

theorem goes_invoke (env : Environment) (call : Callback) (s : Engine) : Goes env s (invoke env call s) := by
  rw [invoke_eq]
  exact .block (.called call) rfl

theorem goes_fail (env : Environment) (reason : FailureReason) (s : Engine) : Goes env s (fail env reason s) := by
  unfold fail
  split
  · rw [invoke_eq]
    exact .block (.called (.onTransferFailed reason)) rfl
  · exact .refl rfl

theorem goes_sendPrepared (env : Environment) {pdu : Bytes} (own : hasType pdu .kUserDatagram = false) (s : Engine) :
    Goes env s (sendPrepared env pdu s).1 := .block (.reply own _) rfl

theorem encodedAck_own {storage pdu : Bytes} (encoded : encodedAck b s storage = some pdu) : hasType pdu .kUserDatagram = false := by
  unfold encodedAck encodeAck at encoded
  dsimp only at encoded
  split_ifs at encoded
  · cases encoded
    simp [hasType_encodeControl]
  · cases encoded
    simp [ackBytes,hasType_encodeControl]

theorem goes_sendAck (b : Build) (env : Environment) (s : Engine) : Goes env s (sendAck b env s).1 := by
  unfold sendAck
  dsimp only
  split
  · exact (goes_fail env .kSendFailed { s with lastSend := .kTooLarge }).noted rfl
  split
  · exact (goes_fail env .kSendFailed { s with lastSend := .kTooLarge }).noted rfl
  · rename_i encoded
    have sent := goes_sendPrepared env (encodedAck_own encoded) s
    dsimp only
    split
    · exact sent
    · exact sent.trans (goes_fail env .kSendFailed _)

theorem goes_sendReject (env : Environment) (sessionId : U8) (reason : RejectReason) (s : Engine) :
    Goes env s (sendReject env sessionId reason s).1 := by
  unfold sendReject
  dsimp only
  split
  · exact .refl rfl
  rename_i size
  rw [encodeReject_exact (not_not.mp size)]
  exact .block (.reply (by simp [rejectBytes,hasType_encodeControl]) _) rfl

end leaves

/-! ### Handlers -/

section handlers
variable {b : Build} {env : Environment}

theorem updateGrant_trace (s : Engine) : (updateGrant b s).trace = s.trace := by
  unfold updateGrant
  split <;> rfl

theorem advanceWindow_trace (windowOffset : Nat) (payload : Bytes) (s : Engine) : (advanceWindow b windowOffset payload s).trace = s.trace := by
  unfold advanceWindow
  split <;> rfl

theorem goes_deliverSegment (objectOffset windowOffset : Nat) (payload : Bytes) (s : Engine) :
    Goes env s (deliverSegment b env objectOffset windowOffset payload s).1 := by
  unfold deliverSegment
  split
  · have taken : Goes env s (updateGrant b (advanceWindow b windowOffset payload
        (invoke env (.onSegment objectOffset payload true) s))) :=
      (goes_invoke env (.onSegment objectOffset payload true) s).trans (.refl ((updateGrant_trace _).trans (advanceWindow_trace _ _ _)))
    dsimp only
    split
    · have completed := goes_invoke env .onTransferComplete ((updateGrant b (advanceWindow b windowOffset payload
        (invoke env (.onSegment objectOffset payload true) s))).withState .kCompleted)
      exact (taken.trans (completed.noted rfl)).trans (goes_sendAck b env _)
    · exact taken.trans (goes_sendAck b env _)
  · exact (goes_invoke env (.onSegment objectOffset payload false) s).trans (goes_fail env .kSinkRejected _)

theorem goes_handleSegment (message : Bytes) (nowMs : U32) (s : Engine) : Goes env s (handleSegment b env message nowMs s).1 := by
  rcases handleSegment_cases b env message nowMs s with ⟨header,-,placed⟩ | ⟨same,-⟩
  · obtain ⟨activity,renewed⟩ := renewActivity_eq header.segmentIndex.toNat nowMs s
    rw [placed,renewed]
    rcases placeSegment_cases b env header.segmentIndex.isLt (message.drop kSegmentHeaderSize)
      { s with lastActivityMs := activity } with acked | ⟨-,-,-,-,windowOffset,-,delivered⟩
    · rw [acked]
      exact (goes_sendAck b env _).noted rfl
    · rw [delivered]
      exact (goes_deliverSegment _ windowOffset _ _).noted rfl
  · rw [same]
    exact .refl rfl

theorem goes_handleSetup (message : Bytes) (nowMs : U32) (s : Engine) : Goes env s (handleSetup b env message nowMs s).1 := by
  unfold handleSetup
  split
  · exact .refl rfl
  split
  · exact goes_sendReject env _ _ s
  rename_i requested _
  split
  · exact goes_sendReject env _ _ s
  split
  · exact goes_sendReject env _ _ s
  split
  · exact goes_sendReject env _ _ s
  split
  · split
    · exact (goes_sendAck b env _).noted rfl
    · exact goes_sendReject env _ _ s
  · dsimp only
    have asked := goes_invoke env (.beginTransfer (transferInfo requested) (env.beginTransfer (transferInfo requested))) s
    split
    · exact asked.trans (goes_sendReject env _ _ _)
    · exact (asked.trans (.refl (startReceiving_trace _ _ _))).trans (goes_sendAck b env _)

theorem goes_handleAbort (message : Bytes) (s : Engine) : Goes env s (handleAbort env message s).1 := by
  unfold handleAbort
  split
  · exact .refl rfl
  split
  · exact .refl rfl
  · exact (goes_invoke env (.onTransferAborted .kPeer) (s.withState .kAborted)).noted rfl

theorem goes_handleControl (message : Bytes) (type : MessageType) (nowMs : U32) (s : Engine) :
    Goes env s (handleControl b env message type nowMs s).1 := by
  cases type with
  | kSetup => exact goes_handleSetup message nowMs s
  | kProbe =>
    simp only [handleControl]
    split
    · exact .refl rfl
    split
    · exact .refl rfl
    · exact (goes_sendAck b env _).noted rfl
  | kUserDatagram =>
    simp only [handleControl]
    split
    · exact .refl rfl
    · exact goes_invoke env _ s
  | kAbort => exact goes_handleAbort message s
  | kSegment | kAck | kReject => exact .refl rfl

theorem goes_poll (b : Build) (env : Environment) (nowMs : U32) (s : Engine) : Goes env s (poll b env nowMs s).1 := by
  unfold poll
  split
  · exact .refl rfl
  · exact goes_fail env .kInactivityTimeout s

theorem goes_process (b : Build) (env : Environment) (message : Bytes) (nowMs : U32) (s : Engine) :
    Goes env s (process b env message nowMs s).1 := by
  have polled := goes_poll b env nowMs s
  unfold process
  dsimp only
  split
  · exact polled
  · refine polled.trans (Goes.noted (t := { (poll b env nowMs s).1 with lastSend := .kSent }) ?_ rfl)
    rcases dispatch_cases b env message nowMs { (poll b env nowMs s).1 with lastSend := .kSent } with
      ⟨same,-⟩ | ⟨-,handled⟩ | ⟨type,-,-,handled⟩
    · rw [same]
      exact .refl rfl
    · rw [handled]
      exact goes_handleSegment message nowMs _
    · rw [handled]
      exact goes_handleControl message type nowMs _

end handlers

end WireSpaces.ReceiverDatagrams
