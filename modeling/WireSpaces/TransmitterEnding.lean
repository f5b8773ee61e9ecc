import WireSpaces.Emissions
import WireSpaces.TransmitterSteps

/-!
How a transfer ends: the state of the session as a small machine whose moves show
the events, that every call is a run of it, and what follows for whole runs.
-/
namespace WireSpaces.TransmitterEnding
open WireSpaces.Codec WireSpaces.Packet WireSpaces.Transmitter WireSpaces.TransmitterSteps WireSpaces.Emissions
open WireSpaces.ReceiverEngine (ProcessResult TransferState SendResult)

/-- The callbacks that end a transfer, with the state each leaves; a rejection only where it `may` be. -/
inductive Ends (may : Prop) : Callback → TransferState → Prop where
  | complete : Ends may .onTransferComplete .kCompleted
  | rejected (reason : RejectReason) (named : may) : Ends may (.onTransferRejected reason) .kRejected
  | aborted : Ends may .onTransferAborted .kAborted

def Running (state : TransferState) : Prop := state = .kStarting ∨ state = .kActive

/-- The moves of a session's state. A running transfer may hand any packet to the router; at any time a user
    datagram goes out or comes in, and the state may become an error. -/
inductive Move (may : Prop) : TransferState → Option Event → TransferState → Prop where
  | start {s : TransferState} (idle : ¬Running s) (object : Bytes) (setup : Setup) :
      Move may s (some (.started object setup)) .kStarting
  | work {s : TransferState} (runs : Running s) (packet : PacketBuffer) (result : RouteResult) :
      Move may s (some (.forward packet result)) s
  | aside {s : TransferState} {packet : PacketBuffer} (datagram : hasType packet.payload .kUserDatagram = true)
      (result : RouteResult) : Move may s (some (.forward packet result)) s
  | heard {s : TransferState} (payload : Bytes) : Move may s (some (.callback (.onDatagram payload))) s
  | activate {s : TransferState} (runs : Running s) : Move may s none .kActive
  | finish {s u : TransferState} {call : Callback} (runs : Running s) (ends : Ends may call u) :
      Move may s (some (.callback call)) u
  | break {s : TransferState} : Move may s none .kError

/-- What a transmitter shows on the way to another. -/
def Lives (may : Prop) (t u : BitsTransmitter) : Prop :=
  ∃ events, u.trace = t.trace ++ events ∧ Emits (Move may) t.session.state events u.session.state

/-- A REJECT of the running session stands in the slot. -/
def RejectWaiting (t : BitsTransmitter) : Prop :=
  t.datagramOccupied = true ∧ running t.session = true ∧
    ∃ reject, decodeReject t.datagramIngress.payload = some reject ∧ reject.sessionId = t.session.setup.sessionId

section
variable {may : Prop} {t u v : BitsTransmitter}

theorem Lives.trans (first : Lives may t u) (second : Lives may u v) : Lives may t v := by
  obtain ⟨events,before,moves⟩ := first
  obtain ⟨more,behind,rest⟩ := second
  exact ⟨events ++ more,by rw [behind,before,List.append_assoc],moves.trans rest⟩

theorem Lives.still (trace : u.trace = t.trace) (state : u.session.state = t.session.state) : Lives may t u :=
  ⟨[],by rw [trace,List.append_nil],state ▸ .refl _⟩

theorem Lives.move (label : Option Event) (trace : u.trace = t.trace ++ label.toList)
    (moved : Move may t.session.state label u.session.state) : Lives may t u :=
  ⟨label.toList,trace,.single moved⟩

theorem running_of {s : TransferSession} (runs : running s = true) : Running s.state := running_iff.mp runs

/-! ### Sends -/

section sends
variable (cfg : Config) (router : PacketBuffer → RouteResult)

theorem sendEncoded_cases (size : Nat) (qos : QoS) (encode : Bytes → Option Bytes) (t : BitsTransmitter) :
    (sendEncoded cfg router size qos encode t).1.session = t.session ∧
      ((sendEncoded cfg router size qos encode t).1.trace = t.trace ∨
        ∃ packet result, (sendEncoded cfg router size qos encode t).1.trace = t.trace ++ [.forward packet result]) := by
  unfold sendEncoded preparePacket
  cases t.transmitPacket.initializePacket size cfg.connection (.bits qos) with
  | none => exact ⟨rfl,.inl rfl⟩
  | some packet =>
    dsimp only
    rw [if_pos rfl]
    split
    · exact ⟨rfl,.inl rfl⟩
    · exact ⟨rfl,.inr ⟨_,_,rfl⟩⟩

/-- A send of a running transfer, whatever it records in the session but the state. -/
theorem sent_lives (runs : Running t.session.state) {size : Nat} {qos : QoS} {encode : Bytes → Option Bytes}
    (trace : u.trace = (sendEncoded cfg router size qos encode t).1.trace)
    (state : u.session.state = t.session.state) : Lives may t u := by
  rcases (sendEncoded_cases cfg router size qos encode t).2 with none | ⟨packet,result,one⟩
  · exact .still (trace.trans none) state
  · exact .move (some (.forward packet result)) (trace.trans one)
      (by rw [state]; exact .work runs packet result)

theorem recorded_lives (runs : Running t.session.state) {size : Nat} {qos : QoS} {encode : Bytes → Option Bytes}
    (record : TransferSession → TransferSession) (state : ∀ s, (record s).state = s.state) :
    let sent := sendEncoded cfg router size qos encode t
    Lives may t (if sent.2 then (sent.1.withSession (record sent.1.session),true) else (sent.1,false)).1 := by
  intro sent
  have session : sent.1.session = t.session := (sendEncoded_cases cfg router size qos encode t).1
  split
  · exact sent_lives cfg router runs rfl ((state _).trans (by rw [session]))
  · exact sent_lives cfg router runs rfl (by rw [session])

theorem sendSetup_lives (runs : Running t.session.state) (nowMs : U32) (retransmission : Bool) :
    Lives may t (sendSetup cfg router nowMs retransmission t).1 :=
  recorded_lives cfg router runs (fun s => { s with
    setupSent := true, setupLastSendMs := nowMs,
    setupRetryCount := if retransmission then s.setupRetryCount + 1 else s.setupRetryCount }) fun _ => rfl

theorem sendSegment_lives (runs : Running t.session.state) (offset : Nat) (nowMs : U32) (retransmission : Bool) :
    Lives may t (sendSegment cfg router offset nowMs retransmission t).1 := by
  by_cases beyond : t.session.acknowledgedCount + offset ≥ t.session.segmentCount
  · simp only [sendSegment,if_pos beyond]
    exact .still rfl rfl
  · simp only [sendSegment,if_neg beyond]
    exact recorded_lives cfg router runs (fun s => { s with
      sentBitmap := s.sentBitmap ||| (1#16 <<< offset),
      segmentLastSendMs := s.segmentLastSendMs.set offset nowMs,
      segmentRetryCount :=
        s.segmentRetryCount.set offset (if retransmission then s.segmentRetryCount.getD offset 0 + 1 else 0),
      probeTimerActive := false }) fun _ => rfl

theorem sendProbe_lives (runs : Running t.session.state) (nowMs : U32) : Lives may t (sendProbe cfg router nowMs t).1 :=
  recorded_lives cfg router runs
    (fun s => { s with probeLastSendMs := nowMs, probeRetryCount := s.probeRetryCount + 1 }) fun _ => rfl

/-- The ABORT goes out before the callback; the state is left in between. -/
theorem giveUp_lives (runs : Running t.session.state) : Lives may t (transitionToAborted (sendAbort cfg router t).1) := by
  have session := (sendEncoded_cases cfg router kAbortSize .kNormal (encodeAbort ⟨t.session.setup.sessionId⟩) t).1
  have sent : Lives may t (sendAbort cfg router t).1 := sent_lives cfg router runs rfl (by rw [sendAbort,session])
  have same : (sendAbort cfg router t).1.session.state = t.session.state := by rw [sendAbort,session]
  refine sent.trans ?_
  unfold transitionToAborted
  split
  · exact .still rfl rfl
  · exact .move (some (.callback .onTransferAborted)) rfl (.finish (same ▸ runs) .aborted)

/-! ### Calls -/

omit cfg router in
theorem conclude_lives {sent : BitsTransmitter × Bool} (lives : Lives may t sent.1) : Lives may t (conclude sent).1 := by
  unfold conclude
  split
  · exact lives
  split
  · exact lives
  · exact lives.trans (.move none (List.append_nil _).symm .break)

theorem processStarting_lives (runs : Running t.session.state) (progressed : Bool) (nowMs : U32) :
    Lives may t (processStarting cfg router progressed nowMs t).1 := by
  unfold processStarting
  dsimp only
  split
  · exact conclude_lives (sendSetup_lives cfg router runs nowMs false)
  split
  · split
    · exact giveUp_lives cfg router runs
    · exact conclude_lives (sendSetup_lives cfg router runs nowMs true)
  · exact .still rfl rfl

theorem processProbe_lives (runs : Running t.session.state) (progressed : Bool) (nowMs : U32) :
    Lives may t (processProbe cfg router progressed nowMs t).1 := by
  unfold processProbe
  dsimp only
  split
  · split
    · exact .still rfl rfl
    split
    · split
      · exact giveUp_lives cfg router runs
      · exact conclude_lives (sendProbe_lives cfg router runs nowMs)
    · exact .still rfl rfl
  · exact .still rfl rfl

theorem processSession_lives (progressed : Bool) (nowMs : U32) (t : BitsTransmitter) :
    Lives may t (processSession cfg router progressed nowMs t).1 := by
  unfold processSession
  split
  case h_1 starting => exact processStarting_lives cfg router (.inl starting) progressed nowMs
  case h_2 active =>
    have runs : Running t.session.state := .inr active
    unfold processActive
    split
    · exact conclude_lives (sendSegment_lives cfg router runs _ nowMs false)
    split
    · split
      · exact giveUp_lives cfg router runs
      · exact conclude_lives (sendSegment_lives cfg router runs _ nowMs true)
    · exact processProbe_lives cfg router runs progressed nowMs
  case h_3 => exact .still rfl rfl

omit cfg router in
theorem handleAck_lives (message : Bytes) (t : BitsTransmitter) : Lives may t (handleAck message t).1 := by
  unfold handleAck
  split
  · exact .still rfl rfl
  dsimp only
  split
  case isFalse => exact .still rfl rfl
  case isTrue applies =>
    have runs : Running t.session.state := running_of (ackApplies_iff.mp applies).running
    split
    · exact .move (some (.callback .onTransferComplete)) rfl (.finish runs .complete)
    · exact .move none (List.append_nil _).symm (.activate runs)

omit cfg router in
theorem handleReject_lives {message : Bytes}
    (named : ∀ reject, running t.session = true → decodeRejectKnownType message = some reject →
      reject.sessionId = t.session.setup.sessionId → may) : Lives may t (handleReject message t).1 := by
  unfold handleReject
  split
  · exact .still rfl rfl
  case h_2 reject decoded =>
    split
    case isFalse => exact .still rfl rfl
    case isTrue applies =>
      rw [Bool.and_eq_true,beq_iff_eq] at applies
      exact .move (some (.callback (.onTransferRejected _))) rfl
        (.finish (running_of applies.1) (.rejected _ (named reject applies.1 decoded applies.2)))

omit cfg router in
theorem handleDatagram_lives (occupied : t.datagramOccupied = true) (named : RejectWaiting t → may) :
    Lives may t (handleDatagram t).1 := by
  unfold handleDatagram
  dsimp only
  split
  · exact .still rfl rfl
  rename_i first rest message
  cases decoded : decodeControl first with
  | none => exact .still rfl rfl
  | some control =>
  have typed : hasType t.datagramIngress.payload control.type = true := by
    rw [message]
    exact hasType_cons.mpr (decodeControl_eq_some decoded)
  dsimp only
  split
  · exact handleAck_lives _ t
  case h_2 type =>
    refine handleReject_lives fun reject runs known same => named ⟨occupied,runs,reject,?_,same⟩
    rw [type] at typed
    rw [decodeReject,if_pos typed,known]
  · unfold handleAbort
    split
    · exact .still rfl rfl
    split
    case isFalse => exact .still rfl rfl
    case isTrue named =>
      rw [Bool.and_eq_true] at named
      unfold transitionToAborted
      split
      · exact .still rfl rfl
      · exact .move (some (.callback .onTransferAborted)) rfl (.finish (running_of named.1) .aborted)
  · split
    · exact .still rfl rfl
    · exact .move (some (.callback (.onDatagram _))) rfl (.heard _)
  all_goals exact .still rfl rfl

theorem process_lives (nowMs : U32) (t : BitsTransmitter) (named : RejectWaiting t → may) :
    Lives may t (process cfg router nowMs t).1 := by
  unfold process
  split
  case isTrue occupied =>
    have drained : Lives may t { (handleDatagram t).1 with datagramOccupied := false } :=
      (handleDatagram_lives occupied named).trans (.still rfl rfl)
    dsimp only
    split
    · exact drained.trans (processSession_lives cfg router true nowMs _)
    · exact drained.trans (.move none (List.append_nil _).symm .break)
  case isFalse => exact processSession_lives cfg router false nowMs t

theorem sendDatagram_lives (payload : Bytes) (t : BitsTransmitter) : Lives may t (sendDatagram cfg router payload t).1 := by
  unfold sendDatagram
  split
  · exact .still rfl rfl
  case isFalse fits =>
    have encoded : ∀ output : Bytes, output.length = payload.length + kUserDatagramHeaderSize →
        encodeUserDatagram payload output = some (userDatagramBytes payload) :=
      fun _ size => encodeUserDatagram_exact size
    obtain ⟨packet,-,carried,-,sent⟩ := sendEncoded_eq cfg router .kNormal (t := t) encoded
      (by simp [userDatagramBytes,kUserDatagramHeaderSize]) (by omega)
    simp only [sent]
    refine .move (some (.forward packet (router packet))) rfl (.aside ?_ _)
    rw [carried]
    rfl

theorem startTransfer_lives (object : Bytes) (segmentSize : U16) (sessionId initialSequenceNumber : U8)
    (t : BitsTransmitter) : Lives may t (startTransfer object segmentSize sessionId initialSequenceNumber t).1 := by
  rcases startTransfer_cases object segmentSize sessionId initialSequenceNumber t with startable | ⟨same,-⟩
  · rw [startTransfer_eq sessionId initialSequenceNumber startable]
    refine .move (some (.started _ _)) rfl (.start ?_ _ _)
    intro runs
    exact absurd (running_iff.mpr runs) (by rw [startable.idle]; exact Bool.false_ne_true)
  · rw [same]
    exact .still rfl rfl

/-- A call rejects the transfer only by a REJECT that waits for `process`. -/
theorem call_lives (t : BitsTransmitter) (c : Call × (PacketBuffer → RouteResult))
    (named : (∃ nowMs, c.1 = .process nowMs) → RejectWaiting t → may) : Lives may t (call cfg t c).1 := by
  obtain ⟨c,router⟩ := c
  cases c with
  | startTransfer object segmentSize sessionId initialSequenceNumber => exact startTransfer_lives _ _ _ _ t
  | receive packet =>
    rcases receive_cases cfg packet t with ⟨-,-,copy,-,result⟩ | ⟨-,same⟩
    · simp only [call,result]
      exact .still rfl rfl
    · simp only [call,same]
      exact .still rfl rfl
  | process nowMs => exact process_lives cfg router nowMs t (named ⟨nowMs,rfl⟩)
  | sendDatagram payload => exact sendDatagram_lives cfg router payload t
  | abort =>
    simp only [call,abort]
    split
    case isTrue runs => exact giveUp_lives cfg router (running_of runs)
    case isFalse => exact .still rfl rfl

end sends

theorem calls_live (cfg : Config) (t : BitsTransmitter) (calls : List (Call × (PacketBuffer → RouteResult))) :
    Lives True t (calls.foldl (fun t c => (call cfg t c).1) t) := by
  induction calls generalizing t with
  | nil => exact .still rfl rfl
  | cons c calls hypothesis => exact (call_lives cfg t c fun _ _ => trivial).trans (hypothesis _)

end

/-! ### The end of a transfer -/

/-- One of the callbacks that end a transfer. -/
def Terminal (event : Event) : Prop :=
  event = .callback .onTransferComplete ∨ (∃ reason, event = .callback (.onTransferRejected reason)) ∨
    event = .callback .onTransferAborted

/-- A SETUP, SEGMENT, PROBE or ABORT handed to the router. -/
def OfTransfer (event : Event) : Prop :=
  ∃ packet result type, event = .forward packet result ∧ hasType packet.payload type = true ∧
    (type = .kSetup ∨ type = .kSegment ∨ type = .kProbe ∨ type = .kAbort)

def Started (event : Event) : Prop := ∃ object setup, event = .started object setup

theorem ends_terminal {may : Prop} {call : Callback} {state : TransferState} (ends : Ends may call state) :
    Terminal (.callback call) ∧ ¬Running state := by
  cases ends with
  | complete => exact ⟨.inl rfl,by simp [Running]⟩
  | rejected reason _ => exact ⟨.inr (.inl ⟨reason,rfl⟩),by simp [Running]⟩
  | aborted => exact ⟨.inr (.inr rfl),by simp [Running]⟩

theorem terminal_closes {may : Prop} (s : TransferState) (event : Event) (t : TransferState)
    (move : Move may s (some event) t) (terminal : Terminal event) : ¬Running t := by
  cases move with
  | finish runs ends => exact (ends_terminal ends).2
  | start => simp [Terminal] at terminal
  | work => simp [Terminal] at terminal
  | aside => simp [Terminal] at terminal
  | heard => simp [Terminal] at terminal

/-- A session that does not run stays so, and shows nothing of a transfer, until one starts. -/
theorem ended_stays {may : Prop} (s : TransferState) (label : Option Event) (t : TransferState)
    (move : Move may s label t) (ended : ¬Running s) (none : ∀ e ∈ label, ¬Started e) :
    ¬Running t ∧ ∀ e ∈ label, ¬(Terminal e ∨ OfTransfer e) := by
  cases move with
  | start idle object setup => exact absurd ⟨object,setup,rfl⟩ (none _ rfl)
  | work runs => exact absurd runs ended
  | activate runs => exact absurd runs ended
  | finish runs => exact absurd runs ended
  | «break» => exact ⟨by simp [Running],by simp⟩
  | heard payload =>
    refine ⟨ended,fun e member => ?_⟩
    obtain rfl := Option.mem_some_iff.mp member
    simp [Terminal,OfTransfer]
  | @aside packet datagram result =>
    refine ⟨ended,fun e member => ?_⟩
    obtain rfl := Option.mem_some_iff.mp member
    rintro (terminal | ⟨sent,answer,type,same,typed,kind⟩)
    · simp [Terminal] at terminal
    · obtain ⟨rfl,rfl⟩ := Event.forward.inj same
      obtain rfl := hasType_unique typed datagram
      simp at kind

theorem apart_started (e : Event) (barred : Terminal e ∨ OfTransfer e) : ¬Started e := by
  rintro ⟨object,setup,rfl⟩
  simp [Terminal,OfTransfer] at barred

/-- Behind a terminal callback, and behind an error, nothing of a transfer is shown before the next one starts. -/
theorem transfer_ends_once (cfg : Config) (datagramIngress transmitPacket : PacketBuffer)
    (calls more : List (Call × (PacketBuffer → RouteResult))) :
    let t := run cfg datagramIngress transmitPacket calls
    let seen := (run cfg datagramIngress transmitPacket (calls ++ more)).trace
    (∀ (i j : Nat) (ending event : Event), i < j → seen[i]? = some ending → Terminal ending →
        seen[j]? = some event → (Terminal event ∨ OfTransfer event) →
        ∃ k, i < k ∧ k < j ∧ ∃ start, seen[k]? = some start ∧ Started start) ∧
      (t.session.state = .kError → ∀ (j : Nat) (event : Event), t.trace.length ≤ j → seen[j]? = some event →
        (Terminal event ∨ OfTransfer event) →
        ∃ k, t.trace.length ≤ k ∧ k < j ∧ ∃ start, seen[k]? = some start ∧ Started start) := by
  intro t seen
  refine ⟨?_,?_⟩
  · intro i j ending event later closing terminal found barred
    obtain ⟨events,whole,moves⟩ := calls_live cfg ⟨datagramIngress,transmitPacket,false,{},.kSent,[]⟩ (calls ++ more)
    have same : seen = events := whole.trans (List.nil_append _)
    rw [same] at closing found ⊢
    exact moves.barred_after terminal_closes ended_stays apart_started later closing terminal found barred
  · intro error j event behind found barred
    obtain ⟨events,whole,moves⟩ := calls_live cfg t more
    have same : seen = t.trace ++ events := by
      rw [← whole]
      exact congrArg BitsTransmitter.trace (run_append _ _ _ _ _)
    rw [same,List.getElem?_append_right behind] at found
    have quiet : ¬Running t.session.state := by simp [error,Running]
    obtain ⟨k,earlier,start,begun,started⟩ := moves.barred_from ended_stays apart_started quiet found barred
    refine ⟨t.trace.length + k,by omega,by omega,start,?_,started⟩
    rw [same,List.getElem?_append_right (by omega),Nat.add_sub_cancel_left,begun]

/-- A link that takes every packet. -/
def openLink : PacketBuffer → RouteResult := fun _ => .kAccepted

/-- A transfer of one byte, acknowledged. -/
def completed : List (Call × (PacketBuffer → RouteResult)) :=
  [(.startTransfer [0xAA] 1 9 0,openLink),(.process 0,openLink),
    (.receive (ackFromPeer ⟨9,0,0,255⟩),openLink),(.process 1,openLink),
    (.receive (ackFromPeer ⟨9,0,0,0⟩),openLink),(.process 2,openLink)]

theorem short_fits : ([0x02] : Bytes).length ≤ 65535 := by decide

/-- A transfer that an ACK of one byte brings to an error. -/
def failed : List (Call × (PacketBuffer → RouteResult)) :=
  [(.startTransfer [0xAA] 1 9 0,openLink),(.process 0,openLink),(.receive (fromPeer [0x02] short_fits),openLink),
    (.process 1,openLink)]

/-- One more transfer, aborted. -/
def again : List (Call × (PacketBuffer → RouteResult)) := [(.startTransfer [0xBB] 1 10 0,openLink),(.abort,openLink)]

/-- Between a completion and an abort, and between an error and an abort, a transfer starts. -/
theorem endings_apart :
    (let seen := (run pointToPoint (.define 16 (by decide)) (.define 16 (by decide)) (completed ++ again)).trace
      ∃ k, 3 < k ∧ k < 6 ∧ ∃ start, seen[k]? = some start ∧ Started start) ∧
    (run pointToPoint (.define 16 (by decide)) (.define 16 (by decide)) failed).session.state = .kError ∧
    let seen := (run pointToPoint (.define 16 (by decide)) (.define 16 (by decide)) (failed ++ again)).trace
    ∃ k, (run pointToPoint (.define 16 (by decide)) (.define 16 (by decide)) failed).trace.length ≤ k ∧ k < 4 ∧
      ∃ start, seen[k]? = some start ∧ Started start := by
  have error : (run pointToPoint (.define 16 (by decide)) (.define 16 (by decide)) failed).session.state = .kError := by decide
  refine ⟨?_,error,?_⟩
  · exact (transfer_ends_once pointToPoint (.define 16 (by decide)) (.define 16 (by decide)) completed again).1 3 6
      (.callback .onTransferComplete) (.callback .onTransferAborted) (by decide) (by decide) (.inl rfl) (by decide)
      (.inl (.inr (.inr rfl)))
  · exact (transfer_ends_once pointToPoint (.define 16 (by decide)) (.define 16 (by decide)) failed again).2 error 4
      (.callback .onTransferAborted) (by decide) (by decide) (.inl (.inr (.inr rfl)))

end WireSpaces.TransmitterEnding
