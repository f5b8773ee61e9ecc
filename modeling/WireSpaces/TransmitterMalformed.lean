import WireSpaces.TransmitterWindow

/-!
Inbound PDUs that `receive` admits by their control byte and whose own decoding
fails. `process` ends the session on them; this module says exactly when that is
what the call would have done without the packet.
-/
namespace WireSpaces.TransmitterMalformed
open WireSpaces.Codec WireSpaces.Packet WireSpaces.Transmitter WireSpaces.TransmitterSteps WireSpaces.TransmitterWindow
open WireSpaces.ReceiverEngine (ProcessResult TransferState SendResult)

/-- An ACK, REJECT or ABORT whose message-specific decoding fails. -/
def malformed (message : Bytes) : Bool :=
  hasType message .kAck && (decodeAckKnownType message).isNone ||
    hasType message .kReject && (decodeRejectKnownType message).isNone ||
    hasType message .kAbort && (decodeAbortKnownType message).isNone

/-- The malformed message reaches no handler state: only the slot's copy is looked at. -/
theorem handleDatagram_malformed {t : BitsTransmitter} (bad : malformed t.datagramIngress.payload = true) :
    handleDatagram t = (t,false) := by
  unfold handleDatagram
  cases message : t.datagramIngress.payload with
  | nil => rfl
  | cons first rest =>
    rw [message] at bad
    simp only [malformed,Bool.or_eq_true,Bool.and_eq_true,Option.isNone_iff_eq_none,hasType_cons] at bad
    rcases bad with (⟨rfl,undecoded⟩ | ⟨rfl,undecoded⟩) | ⟨rfl,undecoded⟩ <;>
      simp [handleAck,handleReject,handleAbort,undecoded]

theorem receive_accepted {cfg : Config} {packet : PacketBuffer} {t : BitsTransmitter}
    (taken : (receive cfg packet t).2 = .kAccepted) :
    t.datagramOccupied = false ∧ ∃ copy : PacketBuffer, copy.payload = packet.payload ∧
      (receive cfg packet t).1 = { t with datagramIngress := copy, datagramOccupied := true } := by
  rcases receive_cases cfg packet t with ⟨-,result⟩ | ⟨other,-⟩
  · exact result
  · exact absurd taken other

/-- After a malformed packet the session is the old one in the error state. -/
theorem process_malformed {cfg : Config} {router : PacketBuffer → RouteResult} {packet : PacketBuffer} {t : BitsTransmitter}
    (taken : (receive cfg packet t).2 = .kAccepted) (bad : malformed packet.payload = true) (nowMs : U32) :
    (process cfg router nowMs (receive cfg packet t).1).1.session = t.session.withState .kError := by
  obtain ⟨-,copy,payload,result⟩ := receive_accepted taken
  rw [result]
  unfold process
  rw [if_pos rfl,handleDatagram_malformed (payload ▸ bad)]
  rfl

/-! ### What the call sends without the packet -/

/-- The PDU that `process` hands to the router for a session, ABORT apart: an
    unsent or timed-out SETUP, an unsent or timed-out segment, a due PROBE. -/
def dueSend (cfg : Config) (nowMs : U32) (s : TransferSession) : Option (QoS × Bytes) :=
  match s.state with
  | .kStarting =>
    if ¬ s.setupSent ∨ (elapsed nowMs s.setupLastSendMs cfg.timing.retransmissionTimeoutMs ∧
        ¬ retryLimitReached cfg s.setupRetryCount) then some (.kNormal,setupBytes s.setup)
    else none
  | .kActive =>
    match unsentOffset s with
    | some offset => some (.kBackground,segmentPdu s.setup s.object (s.acknowledgedCount + offset))
    | none =>
      match expiredOffset cfg nowMs s with
      | some offset =>
        if retryLimitReached cfg (s.segmentRetryCount.getD offset 0) then none
        else some (.kBackground,segmentPdu s.setup s.object (s.acknowledgedCount + offset))
      | none =>
        if s.acknowledgedCount < s.segmentCount ∧ outstanding s = 0 ∧ s.probeTimerActive ∧
            elapsed nowMs s.probeLastSendMs cfg.timing.probeTimeoutMs ∧ ¬ retryLimitReached cfg s.probeRetryCount then
          some (.kNormal,probeBytes ⟨s.setup.sessionId⟩)
        else none
  | _ => none

/-- The router refuses the due packet, and not because a link is full. -/
def Refused (cfg : Config) (router : PacketBuffer → RouteResult) (nowMs : U32) (t : BitsTransmitter) : Prop :=
  ∃ qos pdu packet, dueSend cfg nowMs t.session = some (qos,pdu) ∧ framed cfg qos pdu t = some packet ∧
    router packet ≠ .kAccepted ∧ router packet ≠ .kFull

section due
variable {cfg : Config} {router : PacketBuffer → RouteResult} {nowMs : U32} {t : BitsTransmitter}

/-- What a send attempt leaves for `process` to look at. -/
structure Attempted (cfg : Config) (router : PacketBuffer → RouteResult) (t : BitsTransmitter) (qos : QoS) (pdu : Bytes)
    (sent : BitsTransmitter × Bool) : Prop where
  routed : ∃ packet, framed cfg qos pdu t = some packet ∧ sent.2 = (sendResult (router packet) == .kSent) ∧
    sent.1.lastSend = sendResult (router packet)
  state : sent.1.session.state = t.session.state
  failed : sent.2 = false → sent.1.session = t.session

/-- The attempt ends in the error state exactly when the router refuses for good. -/
theorem Attempted.error_iff {qos : QoS} {pdu : Bytes} {sent : BitsTransmitter × Bool}
    (attempted : Attempted cfg router t qos pdu sent) (due : dueSend cfg nowMs t.session = some (qos,pdu))
    (alive : t.session.state ≠ .kError) :
    t.session.withState .kError = (conclude sent).1.session ↔ Refused cfg router nowMs t := by
  obtain ⟨packet,frame,ok,last⟩ := attempted.routed
  have refused : Refused cfg router nowMs t ↔ router packet ≠ .kAccepted ∧ router packet ≠ .kFull := by
    constructor
    · rintro ⟨qos',pdu',packet',due',frame',answers⟩
      rw [due] at due'
      cases due'
      rw [frame] at frame'
      cases frame'
      exact answers
    · intro answers
      exact ⟨qos,pdu,packet,due,frame,answers⟩
  have running {s : TransferSession} (state : s.state = t.session.state) : t.session.withState .kError ≠ s := by
    rintro rfl
    exact alive state.symm
  rw [refused]
  unfold conclude
  by_cases accepted : router packet = .kAccepted
  · have yes : sent.2 = true := by rw [ok,accepted]; rfl
    rw [if_pos yes]
    exact ⟨fun same => absurd same (running attempted.state),fun answers => absurd accepted answers.1⟩
  · have no : sent.2 = false := by
      rw [ok]
      cases other : router packet <;> first | rfl | exact absurd other accepted
    rw [if_neg (by simp [no])]
    by_cases full : router packet = .kFull
    · have blocked : sent.1.lastSend = .kFull := by rw [last,full]; rfl
      rw [if_pos blocked]
      exact ⟨fun same => absurd same (running attempted.state),fun answers => absurd full answers.2⟩
    · have refusedSend : sent.1.lastSend ≠ .kFull := by
        rw [last]
        cases other : router packet <;> first | exact absurd other full | simp [sendResult]
      rw [if_neg refusedSend]
      refine ⟨fun _ => ⟨accepted,full⟩,fun _ => ?_⟩
      show _ = sent.1.session.withState .kError
      rw [attempted.failed no]

/-- Without a due send the call never ends in the error state. -/
theorem not_refused (none : dueSend cfg nowMs t.session = none) : ¬ Refused cfg router nowMs t := by
  rintro ⟨qos,pdu,packet,due,-⟩
  rw [none] at due
  cases due

/-- A send that notes the router's answer, and changes the session only when the packet was taken. -/
theorem attempted_of_answer {qos : QoS} {pdu : Bytes} {packet : PacketBuffer} (frame : framed cfg qos pdu t = some packet)
    {taken left : BitsTransmitter} (takenSend : taken.lastSend = sendResult (router packet))
    (leftSend : left.lastSend = sendResult (router packet)) (takenState : taken.session.state = t.session.state)
    (leftSession : left.session = t.session) :
    Attempted cfg router t qos pdu (if (sendResult (router packet) == .kSent) = true then (taken,true) else (left,false)) := by
  by_cases ok : (sendResult (router packet) == .kSent) = true
  · rw [if_pos ok]
    exact ⟨⟨packet,frame,ok.symm,takenSend⟩,takenState,fun no => absurd no (by simp)⟩
  · rw [if_neg ok]
    exact ⟨⟨packet,frame,(by simpa using ok),leftSend⟩,(by rw [leftSession]),fun _ => leftSession⟩

theorem sendSetup_attempted (window : SendWindow t) (retransmission : Bool) :
    Attempted cfg router t .kNormal (setupBytes t.session.setup) (sendSetup cfg router nowMs retransmission t) := by
  obtain ⟨packet,frame,-,-,result⟩ := sendEncoded_eq cfg router .kNormal (t := t) (fun _ size => encodeSetup_exact size)
    (show (setupBytes t.session.setup).length = kSetupSize from rfl) window.setup_fits
  unfold sendSetup
  dsimp only
  rw [result]
  exact attempted_of_answer frame rfl rfl rfl rfl

theorem sendProbe_attempted (window : SendWindow t) :
    Attempted cfg router t .kNormal (probeBytes ⟨t.session.setup.sessionId⟩) (sendProbe cfg router nowMs t) := by
  obtain ⟨packet,frame,-,-,result⟩ := sendEncoded_eq cfg router .kNormal (t := t) (fun _ size => encodeProbe_exact size)
    (show (probeBytes ⟨t.session.setup.sessionId⟩).length = kProbeSize from rfl)
    (le_trans (by decide) window.setup_fits)
  unfold sendProbe
  dsimp only
  rw [result]
  exact attempted_of_answer frame rfl rfl rfl rfl

theorem sendSegment_attempted (window : SendWindow t) {offset : Nat}
    (known : t.session.acknowledgedCount + offset < t.session.segmentCount) (retransmission : Bool) :
    Attempted cfg router t .kBackground
      (segmentPdu t.session.setup t.session.object (t.session.acknowledgedCount + offset))
      (sendSegment cfg router offset nowMs retransmission t) := by
  obtain ⟨packet,frame,-,-,result⟩ := window.sendSegment_eq cfg router known nowMs retransmission
  rw [result]
  dsimp only
  exact attempted_of_answer frame rfl rfl rfl rfl

theorem giveUp_state : (giveUp cfg router t).1.session.state = .kAborted := by
  unfold giveUp transitionToAborted
  dsimp only
  split
  · assumption
  · rfl

/-- A call that sends nothing, or gives up, does not end in the error state. -/
theorem calm_iff {s : TransferSession} (none : dueSend cfg nowMs t.session = none) (calm : s.state ≠ .kError) :
    t.session.withState .kError = s ↔ Refused cfg router nowMs t := by
  refine ⟨?_,fun refused => absurd refused (not_refused none)⟩
  rintro rfl
  exact absurd rfl calm

theorem processStarting_error_iff (window : SendWindow t) (starting : t.session.state = .kStarting) :
    t.session.withState .kError = (processStarting cfg router false nowMs t).1.session ↔ Refused cfg router nowMs t := by
  have alive : t.session.state ≠ .kError := by rw [starting]; decide
  unfold processStarting
  dsimp only
  by_cases unsent : ¬ t.session.setupSent = true
  · rw [if_pos unsent]
    refine (sendSetup_attempted window false).error_iff ?_ alive
    simp only [dueSend,starting]
    rw [if_pos (.inl unsent)]
  rw [if_neg unsent]
  by_cases expired : elapsed nowMs t.session.setupLastSendMs cfg.timing.retransmissionTimeoutMs = true
  · rw [if_pos expired]
    by_cases limit : retryLimitReached cfg t.session.setupRetryCount = true
    · rw [if_pos limit]
      refine calm_iff ?_ (by rw [giveUp_state]; decide)
      simp only [dueSend,starting]
      rw [if_neg]
      rintro (never | ⟨-,under⟩)
      · exact unsent never
      · exact under limit
    · rw [if_neg limit]
      refine (sendSetup_attempted window true).error_iff ?_ alive
      simp only [dueSend,starting]
      rw [if_pos (.inr ⟨expired,limit⟩)]
  · rw [if_neg expired]
    refine calm_iff ?_ alive
    simp only [dueSend,starting]
    rw [if_neg]
    rintro (never | ⟨late,-⟩)
    · exact unsent never
    · exact expired late

theorem processProbe_error_iff (window : SendWindow t) (active : t.session.state = .kActive)
    (sent : unsentOffset t.session = none) (fresh : expiredOffset cfg nowMs t.session = none) :
    t.session.withState .kError = (processProbe cfg router false nowMs t).1.session ↔ Refused cfg router nowMs t := by
  have alive : t.session.state ≠ .kError := by rw [active]; decide
  have due : dueSend cfg nowMs t.session =
      if t.session.acknowledgedCount < t.session.segmentCount ∧ outstanding t.session = 0 ∧ t.session.probeTimerActive ∧
          elapsed nowMs t.session.probeLastSendMs cfg.timing.probeTimeoutMs ∧
          ¬ retryLimitReached cfg t.session.probeRetryCount then
        some (.kNormal,probeBytes ⟨t.session.setup.sessionId⟩)
      else none := by
    simp only [dueSend,active,sent,fresh]
  unfold processProbe
  dsimp only
  by_cases waiting : t.session.acknowledgedCount < t.session.segmentCount ∧ outstanding t.session = 0
  · rw [if_pos waiting]
    by_cases off : ¬ t.session.probeTimerActive = true
    · rw [if_pos off]
      exact calm_iff (due.trans (if_neg fun all => off all.2.2.1)) alive
    rw [if_neg off]
    by_cases expired : elapsed nowMs t.session.probeLastSendMs cfg.timing.probeTimeoutMs = true
    · rw [if_pos expired]
      by_cases limit : retryLimitReached cfg t.session.probeRetryCount = true
      · rw [if_pos limit]
        exact calm_iff (due.trans (if_neg fun all => all.2.2.2.2 limit)) (by rw [giveUp_state]; decide)
      · rw [if_neg limit]
        exact (sendProbe_attempted window).error_iff
          (due.trans (if_pos ⟨waiting.1,waiting.2,not_not.mp off,expired,limit⟩)) alive
    · rw [if_neg expired]
      exact calm_iff (due.trans (if_neg fun all => expired all.2.2.2.1)) alive
  · rw [if_neg waiting]
    exact calm_iff (due.trans (if_neg fun all => waiting ⟨all.1,all.2.1⟩)) alive

theorem processActive_error_iff (window : SendWindow t) (active : t.session.state = .kActive) :
    t.session.withState .kError = (processActive cfg router false nowMs t).1.session ↔ Refused cfg router nowMs t := by
  have alive : t.session.state ≠ .kError := by rw [active]; decide
  have below := window.granted
  unfold processActive
  cases unsent : unsentOffset t.session with
  | some offset =>
    have granted := (window.unsentOffset_some unsent).1
    exact (sendSegment_attempted window (by omega) false).error_iff (by simp only [dueSend,active,unsent]) alive
  | none =>
    cases expired : expiredOffset cfg nowMs t.session with
    | some offset =>
      dsimp only
      by_cases limit : retryLimitReached cfg (t.session.segmentRetryCount.getD offset 0) = true
      · rw [if_pos limit]
        exact calm_iff (by simp only [dueSend,active,unsent,expired,limit,if_true]) (by rw [giveUp_state]; decide)
      · rw [if_neg limit]
        obtain ⟨-,inside,-⟩ := List.find?_range_eq_some.mp expired
        rw [List.mem_range,window.windowSpan_eq] at inside
        refine (sendSegment_attempted window (by omega) true).error_iff ?_ alive
        simp only [dueSend,active,unsent,expired,limit]
        rfl
    | none => exact processProbe_error_iff window active unsent expired

/-- The call without the packet ends in the old session's error state exactly when
    the due packet is refused for good. -/
theorem processSession_error_iff (guarded : Guarded t) (alive : t.session.state ≠ .kError) :
    t.session.withState .kError = (processSession cfg router false nowMs t).1.session ↔ Refused cfg router nowMs t := by
  unfold processSession
  split
  · rename_i starting
    exact processStarting_error_iff (guarded (running_iff.mpr (.inl starting))) starting
  · rename_i active
    exact processActive_error_iff (guarded (running_iff.mpr (.inr active))) active
  · rename_i notStarting notActive
    refine calm_iff ?_ alive
    unfold dueSend
    split
    · exact absurd ‹_› notStarting
    · exact absurd ‹_› notActive
    · rfl

end due

/-- A malformed packet leaves the session as the next `process` call would leave it
    without the packet, exactly when the session had already failed or the router
    refuses the call's due packet for good. -/
theorem malformed_undisturbed_iff (cfg : Config) (datagramIngress transmitPacket : PacketBuffer)
    (calls : List (Call × (PacketBuffer → RouteResult))) (packet : PacketBuffer) (router : PacketBuffer → RouteResult)
    (nowMs : U32)
    (taken : (receive cfg packet (run cfg datagramIngress transmitPacket calls)).2 = .kAccepted)
    (bad : malformed packet.payload = true) :
    let t := run cfg datagramIngress transmitPacket calls
    (process cfg router nowMs (receive cfg packet t).1).1.session = (process cfg router nowMs t).1.session ↔
      t.session.state = .kError ∨ Refused cfg router nowMs t := by
  intro t
  have guarded : Guarded t := (run_history cfg datagramIngress transmitPacket calls).1
  have free : t.datagramOccupied = false := (receive_accepted taken).1
  have without : process cfg router nowMs t = processSession cfg router false nowMs t := by
    rw [process,if_neg (by simp [free])]
  rw [process_malformed taken bad,without]
  by_cases failed : t.session.state = .kError
  · have still : (processSession cfg router false nowMs t).1 = t := by simp only [processSession,failed]
    have same : t.session.withState .kError = t.session := by rw [← failed]; rfl
    exact iff_of_true (by rw [still]; exact same) (.inl failed)
  · rw [processSession_error_iff guarded failed]
    simp [failed]

/-- The peer's packet that holds the ACK control byte and nothing else. -/
def shortAck : PacketBuffer where
  size := 1
  ingressIndex := 0
  header := ⟨0x81,⟨1⟩,⟨2⟩,⟨1⟩,⟨7⟩⟩
  storage := [encodeControl .kAck]
  size_le := by decide
  capacity_le := by decide

/-- A transfer of one byte that was just started. -/
def justStarted : List (Call × (PacketBuffer → RouteResult)) := [(.startTransfer [0xAA] 1 9 0,fun _ => .kAccepted)]

/-- With a refusing router the transfer fails with the packet and without it. -/
theorem malformed_undisturbed_when_refused :
    let t := run pointToPoint (.define 16 (by decide)) (.define 16 (by decide)) justStarted
    (process pointToPoint (fun _ => .kNoRoute) 0 (receive pointToPoint shortAck t).1).1.session =
      (process pointToPoint (fun _ => .kNoRoute) 0 t).1.session := by
  refine (malformed_undisturbed_iff pointToPoint (.define 16 (by decide)) (.define 16 (by decide)) justStarted shortAck
    (fun _ => .kNoRoute) 0 (by decide) (by decide)).mpr (.inr ?_)
  have fits : 10 ≤ (run pointToPoint (.define 16 (by decide)) (.define 16 (by decide)) justStarted).transmitPacket.capacity := by
    decide
  obtain ⟨packet,frame⟩ := PacketBuffer.initializePacket_isSome fits pointToPoint.connection (.bits .kNormal)
  refine ⟨.kNormal,setupBytes ⟨9,0,0,1,1⟩,packet.store (setupBytes ⟨9,0,0,1,1⟩),by decide,?_,by simp,by simp⟩
  rw [framed,show (setupBytes ⟨9,0,0,1,1⟩).length = 10 from rfl,frame]
  rfl

/-- A one-byte ACK ends the transfer that would have sent its SETUP. -/
theorem malformed_ack_ends_transfer :
    let t := run pointToPoint (.define 16 (by decide)) (.define 16 (by decide)) justStarted
    let disturbed := (process pointToPoint (fun _ => .kAccepted) 0 (receive pointToPoint shortAck t).1).1.session
    let undisturbed := (process pointToPoint (fun _ => .kAccepted) 0 t).1.session
    (receive pointToPoint shortAck t).2 = .kAccepted ∧ malformed shortAck.payload = true ∧
      t.session.state = .kStarting ∧ disturbed.state = .kError ∧ undisturbed.state = .kStarting ∧
      disturbed ≠ undisturbed := by
  decide

end WireSpaces.TransmitterMalformed
