import WireSpaces.TransmitterWindow

/-!
Back-pressure. A `process` call that a full link blocks leaves the session of the
pending packet alone, so any series of blocked calls can be left out: the call
behind it has the session and hands over the packet it would have had without them.
-/
namespace WireSpaces.TransmitterStutter
open WireSpaces.Codec WireSpaces.Packet WireSpaces.Transmitter WireSpaces.TransmitterSteps WireSpaces.TransmitterWindow
open WireSpaces.ReceiverEngine (ProcessResult TransferState SendResult)

/-- What a link sees of a packet. -/
def shown (packet : PacketBuffer) : U8 × Header × Bytes := (packet.ingressIndex,packet.header,packet.payload)

/-- The router's answer depends on what it sees, not on bytes behind the payload. -/
def Blind (router : PacketBuffer → RouteResult) : Prop := ∀ p q, shown p = shown q → router p = router q

/-- The packets a stretch of the trace hands to the router, with their results. -/
def handed : Event → Option ((U8 × Header × Bytes) × RouteResult)
  | .forward packet result => some (shown packet,result)
  | _ => none

/-- The session once the pending packet, if any, is handled. -/
def handledAlone (t : BitsTransmitter) : TransferSession :=
  if t.datagramOccupied then (handleDatagram t).1.session else t.session

/-! ### Sends keep the session -/

section kept
variable {cfg : Config} {router : PacketBuffer → RouteResult} {t : BitsTransmitter}

/-- The control bits no field writes. -/
def reserved (packet : PacketBuffer) : U8 := packet.header.control &&& 0x30

theorem setControlFields_control (header : Header) (qos : QoS) :
    (header.setControlFields (.bits qos)).control = (header.control &&& 0x30) ||| (qos.value <<< 6) ||| 1 := by
  have all (qos : QoS) : ∀ byte : Fin (2 ^ 8),
      (Header.setControlFields { control := .ofFin byte } (.bits qos)).control =
        ((.ofFin byte : U8) &&& 0x30) ||| (qos.value <<< 6) ||| 1 := by
    cases qos <;> decide +kernel
  exact all qos header.control.toFin

theorem setControlFields_reserved (header : Header) (qos : QoS) :
    (header.setControlFields (.bits qos)).control &&& 0x30 = header.control &&& 0x30 := by
  have all (qos : QoS) : ∀ byte : Fin (2 ^ 8),
      (((.ofFin byte : U8) &&& 0x30) ||| (qos.value <<< 6) ||| 1) &&& 0x30 = (.ofFin byte : U8) &&& 0x30 := by
    cases qos <;> decide +kernel
  rw [setControlFields_control]
  exact all qos header.control.toFin

/-- What the framed packet shows: the connection's header and the PDU. -/
theorem framed_shown {qos : QoS} {pdu : Bytes} {packet : PacketBuffer} (frame : framed cfg qos pdu t = some packet) :
    shown packet = (0,⟨reserved t.transmitPacket ||| (qos.value <<< 6) ||| 1,cfg.connection.wire,cfg.connection.localHost,
      cfg.connection.remoteHost,cfg.connection.endpoint⟩,pdu) ∧ reserved packet = reserved t.transmitPacket := by
  obtain ⟨ready,prepared,rfl⟩ := Option.map_eq_some_iff.mp frame
  have sized := (PacketBuffer.initializePacket_spec prepared).2
  obtain ⟨resized,done,rfl⟩ := Option.map_eq_some_iff.mp prepared
  have header : resized.header = t.transmitPacket.header := by
    unfold PacketBuffer.resize at done
    split at done
    · obtain rfl := Option.some.inj done
      rfl
    · cases done
  refine ⟨?_,?_⟩
  · rw [shown,PacketBuffer.store_payload sized.symm]
    simp only [PacketBuffer.store,setControlFields_control,header]
    rfl
  · simp only [reserved,PacketBuffer.store,setControlFields_reserved,header]

/-- A transmitter that the same sends leave from: its session, of the transmit packet
    what `initialize` keeps, and the ingress slot. -/
structure Alike (t u : BitsTransmitter) : Prop where
  session : u.session = t.session
  capacity : u.transmitPacket.capacity = t.transmitPacket.capacity
  control : reserved u.transmitPacket = reserved t.transmitPacket
  slot : u.datagramOccupied = t.datagramOccupied

theorem Alike.trans {u v : BitsTransmitter} (first : Alike t u) (second : Alike u v) : Alike t v :=
  ⟨second.session.trans first.session,second.capacity.trans first.capacity,second.control.trans first.control,
    second.slot.trans first.slot⟩

/-- An encoder that fills spans of one size with one PDU. -/
structure Encodes (encode : Bytes → Option Bytes) (size : Nat) (pdu : Bytes) : Prop where
  exact : ∀ output : Bytes, output.length = size → encode output = some pdu
  length : pdu.length = size

theorem sendEncoded_alike {size : Nat} {qos : QoS} {encode : Bytes → Option Bytes} {pdu : Bytes}
    (encodes : Encodes encode size pdu) : Alike t (sendEncoded cfg router size qos encode t).1 := by
  by_cases fits : size ≤ t.transmitPacket.capacity
  · obtain ⟨packet,frame,-,capacity,result⟩ := sendEncoded_eq cfg router qos encodes.exact encodes.length fits
    rw [result]
    exact ⟨rfl,capacity,(framed_shown frame).2,rfl⟩
  · rw [sendEncoded_large cfg router (not_le.mp fits)]
    exact ⟨rfl,rfl,rfl,rfl⟩

/-! ### Two calls that do the same -/

/-- From alike transmitters `t` and `u`, calls to `t'` and `u'` with the same session
    and the same packets handed over. -/
structure Echoes (t t' u u' : BitsTransmitter) : Prop where
  alike : Alike t' u'
  traces : ∃ more more', t'.trace = t.trace ++ more ∧ u'.trace = u.trace ++ more' ∧
    more.filterMap handed = more'.filterMap handed

/-- One send, from two alike transmitters. -/
theorem sendEncoded_echoes {u : BitsTransmitter} {size : Nat} {qos : QoS} {encode : Bytes → Option Bytes} {pdu : Bytes}
    (encodes : Encodes encode size pdu) (blind : Blind router) (alike : Alike t u) :
    Echoes t (sendEncoded cfg router size qos encode t).1 u (sendEncoded cfg router size qos encode u).1 ∧
      (sendEncoded cfg router size qos encode u).2 = (sendEncoded cfg router size qos encode t).2 ∧
      (sendEncoded cfg router size qos encode u).1.lastSend = (sendEncoded cfg router size qos encode t).1.lastSend := by
  by_cases fits : size ≤ t.transmitPacket.capacity
  · obtain ⟨packet,frame,payload,capacity,result⟩ := sendEncoded_eq cfg router qos encodes.exact encodes.length fits
    obtain ⟨other,frame',payload',capacity',result'⟩ :=
      sendEncoded_eq cfg router qos encodes.exact encodes.length (alike.capacity ▸ fits)
    have same : shown other = shown packet := by
      rw [(framed_shown frame).1,(framed_shown frame').1,alike.control]
    have answer := blind other packet same
    rw [result,result',answer]
    refine ⟨⟨⟨alike.session,capacity'.trans (alike.capacity.trans capacity.symm),?_,alike.slot⟩,_,_,rfl,rfl,?_⟩,rfl,rfl⟩
    · exact (framed_shown frame').2.trans (alike.control.trans (framed_shown frame).2.symm)
    · simp [handed,same]
  · rw [sendEncoded_large cfg router (not_le.mp fits),
      sendEncoded_large cfg router (alike.capacity ▸ not_le.mp fits)]
    exact ⟨⟨⟨alike.session,alike.capacity,alike.control,alike.slot⟩,[],[],by simp,by simp,rfl⟩,rfl,rfl⟩

/-- Record an accepted send in the session. -/
def recorded (record : TransferSession → TransferSession) (sent : BitsTransmitter × Bool) : BitsTransmitter × Bool :=
  if sent.2 then (sent.1.withSession (record sent.1.session),true) else (sent.1,false)

theorem recorded_failed {record : TransferSession → TransferSession} {sent : BitsTransmitter × Bool}
    (alike : Alike t sent.1) (failed : (recorded record sent).2 = false) : Alike t (recorded record sent).1 := by
  unfold recorded at failed ⊢
  split at failed
  · cases failed
  · rename_i refused
    rw [if_neg refused]
    exact alike

theorem recorded_echoes {u : BitsTransmitter} (record : TransferSession → TransferSession)
    {sent sent' : BitsTransmitter × Bool}
    (echoes : Echoes t sent.1 u sent'.1 ∧ sent'.2 = sent.2 ∧ sent'.1.lastSend = sent.1.lastSend) :
    Echoes t (recorded record sent).1 u (recorded record sent').1 ∧ (recorded record sent').2 = (recorded record sent).2 ∧
      (recorded record sent').1.lastSend = (recorded record sent).1.lastSend := by
  obtain ⟨⟨alike,traces⟩,ok,last⟩ := echoes
  unfold recorded
  rw [ok]
  split
  · refine ⟨⟨⟨?_,alike.capacity,alike.control,alike.slot⟩,traces⟩,rfl,last⟩
    simp only [BitsTransmitter.withSession_session,alike.session]
  · exact ⟨⟨alike,traces⟩,rfl,last⟩

/-- The segment's encoder fills the payload of a packet of its size. -/
theorem segment_encodes (window : SendWindow t) {index : Nat} (known : index < t.session.segmentCount) {size : Nat}
    (sized : size = if index = t.session.setup.finalSegmentIndex.toNat then t.session.setup.finalSegmentSize.toNat
      else t.session.setup.segmentSize.toNat) :
    Encodes (encodeSegment ⟨t.session.setup.sessionId,BitVec.ofNat 16 index⟩
      ((t.session.object.drop (index * t.session.setup.segmentSize.toNat % 2 ^ 32)).take size))
      ((kSegmentHeaderSize + size) % 2 ^ 16) (segmentPdu t.session.setup t.session.object index) := by
  have count := window.count
  have fits := window.fits
  have capacity : t.transmitPacket.capacity ≤ 65535 := t.transmitPacket.capacity_le
  obtain ⟨data,length,sizeLe⟩ := window.data index (by omega) sized
  have whole : (kSegmentHeaderSize + size) % 2 ^ 16 = kSegmentHeaderSize + size :=
    Nat.mod_eq_of_lt (by simp only [kSegmentHeaderSize] at fits ⊢; omega)
  rw [data,whole]
  refine ⟨?_,?_⟩
  · intro output room
    exact encodeSegment_exact _ (room.trans (congrArg (kSegmentHeaderSize + ·) length.symm))
  · rw [segmentPdu,List.length_append,length]
    rfl

theorem setup_encodes (setup : Setup) : Encodes (encodeSetup setup) kSetupSize (setupBytes setup) :=
  ⟨fun _ size => encodeSetup_exact size,rfl⟩

theorem probe_encodes (probe : Probe) : Encodes (encodeProbe probe) kProbeSize (probeBytes probe) :=
  ⟨fun _ size => encodeProbe_exact size,rfl⟩

theorem abort_encodes (abort : Abort) : Encodes (encodeAbort abort) kAbortSize (abortBytes abort) :=
  ⟨fun _ size => encodeAbort_exact size,rfl⟩

/-- What a send does, said once for SETUP, SEGMENT and PROBE: refused it keeps the
    session, and alike transmitters send alike. -/
structure Sends (router : PacketBuffer → RouteResult) (t : BitsTransmitter)
    (send : BitsTransmitter → BitsTransmitter × Bool) : Prop where
  failed : (send t).2 = false → Alike t (send t).1
  echoes : Blind router → ∀ u, Alike t u → Echoes t (send t).1 u (send u).1 ∧ (send u).2 = (send t).2 ∧
    (send u).1.lastSend = (send t).1.lastSend

theorem sends_setup (cfg : Config) (nowMs : U32) (retransmission : Bool) :
    Sends router t (sendSetup cfg router nowMs retransmission) := by
  let record (s : TransferSession) : TransferSession :=
    { s with setupSent := true, setupLastSendMs := nowMs,
             setupRetryCount := if retransmission then s.setupRetryCount + 1 else s.setupRetryCount }
  have shape (u : BitsTransmitter) : sendSetup cfg router nowMs retransmission u =
      recorded record (sendEncoded cfg router kSetupSize .kNormal (encodeSetup u.session.setup) u) := rfl
  refine ⟨?_,?_⟩
  · rw [shape]
    exact recorded_failed (sendEncoded_alike (setup_encodes _))
  · intro blind u alike
    rw [shape,shape,alike.session]
    exact recorded_echoes record (sendEncoded_echoes (setup_encodes _) blind alike)

theorem sends_probe (cfg : Config) (nowMs : U32) : Sends router t (sendProbe cfg router nowMs) := by
  let record (s : TransferSession) : TransferSession :=
    { s with probeLastSendMs := nowMs, probeRetryCount := s.probeRetryCount + 1 }
  have shape (u : BitsTransmitter) : sendProbe cfg router nowMs u =
      recorded record (sendEncoded cfg router kProbeSize .kNormal (encodeProbe ⟨u.session.setup.sessionId⟩) u) := rfl
  refine ⟨?_,?_⟩
  · rw [shape]
    exact recorded_failed (sendEncoded_alike (probe_encodes _))
  · intro blind u alike
    rw [shape,shape,alike.session]
    exact recorded_echoes record (sendEncoded_echoes (probe_encodes _) blind alike)

theorem sends_segment (cfg : Config) (window : SendWindow t) {offset : Nat}
    (known : t.session.acknowledgedCount + offset < t.session.segmentCount) (nowMs : U32) (retransmission : Bool) :
    Sends router t (sendSegment cfg router offset nowMs retransmission) := by
  let record (s : TransferSession) : TransferSession :=
    { s with
      sentBitmap := s.sentBitmap ||| (1#16 <<< offset),
      segmentLastSendMs := s.segmentLastSendMs.set offset nowMs,
      segmentRetryCount := s.segmentRetryCount.set offset
        (if retransmission then s.segmentRetryCount.getD offset 0 + 1 else 0),
      probeTimerActive := false }
  let index := t.session.acknowledgedCount + offset
  let size := if index = t.session.setup.finalSegmentIndex.toNat then t.session.setup.finalSegmentSize.toNat
    else t.session.setup.segmentSize.toNat
  have shape (u : BitsTransmitter) (same : u.session = t.session) : sendSegment cfg router offset nowMs retransmission u =
      recorded record (sendEncoded cfg router ((kSegmentHeaderSize + size) % 2 ^ 16) .kBackground
        (encodeSegment ⟨t.session.setup.sessionId,BitVec.ofNat 16 index⟩
          ((t.session.object.drop (index * t.session.setup.segmentSize.toNat % 2 ^ 32)).take size)) u) := by
    unfold sendSegment
    dsimp only
    rw [same,if_neg (by omega)]
    rfl
  have encodes : Encodes (encodeSegment ⟨t.session.setup.sessionId,BitVec.ofNat 16 index⟩
      ((t.session.object.drop (index * t.session.setup.segmentSize.toNat % 2 ^ 32)).take size))
      ((kSegmentHeaderSize + size) % 2 ^ 16) (segmentPdu t.session.setup t.session.object index) :=
    segment_encodes window known rfl
  refine ⟨?_,?_⟩
  · rw [shape t rfl]
    exact recorded_failed (sendEncoded_alike encodes)
  · intro blind u alike
    rw [shape t rfl,shape u alike.session]
    exact recorded_echoes record (sendEncoded_echoes encodes blind alike)

/-! ### One call -/

/-- What a part of `process` does: blocked it keeps the session, and alike
    transmitters do alike, whether or not a packet was handled before. -/
structure Stutters (router : PacketBuffer → RouteResult) (t : BitsTransmitter)
    (work : Bool → BitsTransmitter → BitsTransmitter × ProcessResult) : Prop where
  blocked : ∀ progressed, (work progressed t).2 = .kBlocked → Alike t (work progressed t).1
  echoes : Blind router → ∀ progressed progressed' u, Alike t u → Echoes t (work progressed t).1 u (work progressed' u).1

theorem stutters_send {send : BitsTransmitter → BitsTransmitter × Bool} (sends : Sends router t send) :
    Stutters router t (fun _ t => conclude (send t)) := by
  refine ⟨?_,?_⟩
  · intro _ blocked
    unfold conclude at blocked ⊢
    split at blocked
    · cases blocked
    · rename_i refused
      split at blocked
      · rename_i full
        rw [if_neg refused,if_pos full]
        exact sends.failed (by simpa using refused)
      · cases blocked
  · intro blind _ _ u alike
    obtain ⟨⟨after,traces⟩,ok,last⟩ := sends.echoes blind u alike
    unfold conclude
    rw [ok,last]
    split
    · exact ⟨after,traces⟩
    · split
      · exact ⟨after,traces⟩
      · refine ⟨⟨?_,after.capacity,after.control,after.slot⟩,traces⟩
        simp only [BitsTransmitter.withState,BitsTransmitter.withSession_session,after.session]

theorem stutters_giveUp (cfg : Config) : Stutters router t (fun _ t => giveUp cfg router t) := by
  constructor
  · intro _ blocked
    cases blocked
  intro blind _ _ u alike
  have sent : Echoes t (sendAbort cfg router t).1 u (sendAbort cfg router u).1 := by
    unfold sendAbort
    rw [alike.session]
    exact (sendEncoded_echoes (abort_encodes _) blind alike).1
  obtain ⟨after,more,more',first,second,same⟩ := sent
  simp only [giveUp,transitionToAborted,after.session]
  split
  · exact ⟨after,more,more',first,second,same⟩
  · refine ⟨⟨?_,after.capacity,after.control,after.slot⟩,more ++ [.callback .onTransferAborted],
      more' ++ [.callback .onTransferAborted],?_,?_,?_⟩
    · simp only [emit,BitsTransmitter.withTrace_session,BitsTransmitter.withState,BitsTransmitter.withSession_session,
        after.session]
    · simp [emit,BitsTransmitter.withState,first]
    · simp [emit,BitsTransmitter.withState,second]
    · simp [same]

/-- Work that only changes the session, the same way from the same session. -/
theorem stutters_quiet (change : TransferSession → TransferSession) :
    Stutters router t (fun progressed t => (t.withSession (change t.session),quiet progressed)) := by
  constructor
  · intro progressed blocked
    cases progressed <;> cases blocked
  · intro _ progressed progressed' u alike
    refine ⟨⟨?_,alike.capacity,alike.control,alike.slot⟩,[],[],by simp,by simp,rfl⟩
    simp only [BitsTransmitter.withSession_session,alike.session]

/-- A choice of work by the session. -/
theorem stutters_ite {work other : Bool → BitsTransmitter → BitsTransmitter × ProcessResult}
    (choice : TransferSession → Prop) [DecidablePred choice] (left : choice t.session → Stutters router t work)
    (right : ¬ choice t.session → Stutters router t other) :
    Stutters router t (fun progressed t => if choice t.session then work progressed t else other progressed t) := by
  by_cases chosen : choice t.session
  · constructor
    · intro progressed blocked
      simp only [if_pos chosen] at blocked ⊢
      exact (left chosen).blocked progressed blocked
    · intro blind progressed progressed' u alike
      simp only [alike.session,if_pos chosen]
      exact (left chosen).echoes blind progressed progressed' u alike
  · constructor
    · intro progressed blocked
      simp only [if_neg chosen] at blocked ⊢
      exact (right chosen).blocked progressed blocked
    · intro blind progressed progressed' u alike
      simp only [alike.session,if_neg chosen]
      exact (right chosen).echoes blind progressed progressed' u alike

theorem stutters_starting (cfg : Config) (nowMs : U32) :
    Stutters router t (fun progressed t => processStarting cfg router progressed nowMs t) := by
  have idle : Stutters router t (fun progressed t => (t,quiet progressed)) := stutters_quiet id
  refine stutters_ite (fun s => ¬ s.setupSent) (fun _ => stutters_send (sends_setup cfg nowMs false)) (fun _ => ?_)
  refine stutters_ite (fun s => elapsed nowMs s.setupLastSendMs cfg.timing.retransmissionTimeoutMs) (fun _ => ?_)
    (fun _ => idle)
  exact stutters_ite (fun s => retryLimitReached cfg s.setupRetryCount) (fun _ => stutters_giveUp cfg)
    (fun _ => stutters_send (sends_setup cfg nowMs true))

theorem stutters_probe (cfg : Config) (nowMs : U32) :
    Stutters router t (fun progressed t => processProbe cfg router progressed nowMs t) := by
  have idle : Stutters router t (fun progressed t => (t,quiet progressed)) := stutters_quiet id
  refine stutters_ite (fun s => s.acknowledgedCount < s.segmentCount ∧ outstanding s = 0) (fun _ => ?_)
    (fun _ => stutters_quiet (fun s => { s with probeTimerActive := false, probeRetryCount := 0 }))
  refine stutters_ite (fun s => ¬ s.probeTimerActive)
    (fun _ => stutters_quiet (fun s => { s with probeTimerActive := true, probeLastSendMs := nowMs })) (fun _ => ?_)
  refine stutters_ite (fun s => elapsed nowMs s.probeLastSendMs cfg.timing.probeTimeoutMs) (fun _ => ?_) (fun _ => idle)
  exact stutters_ite (fun s => retryLimitReached cfg s.probeRetryCount) (fun _ => stutters_giveUp cfg)
    (fun _ => stutters_send (sends_probe cfg nowMs))

/-- Work that is other work in every transmitter with this session. -/
theorem Stutters.congr {work other : Bool → BitsTransmitter → BitsTransmitter × ProcessResult}
    (stutters : Stutters router t other)
    (same : ∀ progressed u, u.session = t.session → work progressed u = other progressed u) : Stutters router t work := by
  constructor
  · intro progressed blocked
    rw [same progressed t rfl] at blocked ⊢
    exact stutters.blocked progressed blocked
  · intro blind progressed progressed' u alike
    rw [same progressed t rfl,same progressed' u alike.session]
    exact stutters.echoes blind progressed progressed' u alike

theorem stutters_active (cfg : Config) (window : SendWindow t) (nowMs : U32) :
    Stutters router t (fun progressed t => processActive cfg router progressed nowMs t) := by
  have inside {offset : Nat} (below : offset < windowSpan t.session) :
      t.session.acknowledgedCount + offset < t.session.segmentCount := by
    have granted := window.granted
    rw [window.windowSpan_eq] at below
    omega
  cases unsent : unsentOffset t.session with
  | some offset =>
    have known := inside (List.mem_range.mp (List.mem_of_find?_eq_some unsent))
    refine (stutters_send (sends_segment cfg window known nowMs false)).congr (fun progressed u same => ?_)
    simp only [processActive,same,unsent]
  | none =>
    cases expired : expiredOffset cfg nowMs t.session with
    | some offset =>
      have known := inside (List.mem_range.mp (List.mem_of_find?_eq_some expired))
      refine (stutters_ite (fun s => retryLimitReached cfg (s.segmentRetryCount.getD offset 0))
        (fun _ => stutters_giveUp cfg) (fun _ => stutters_send (sends_segment cfg window known nowMs true))).congr
        (fun progressed u same => ?_)
      simp only [processActive,same,unsent,expired]
    | none =>
      refine (stutters_probe cfg nowMs).congr (fun progressed u same => ?_)
      simp only [processActive,same,unsent,expired]

theorem stutters_session (cfg : Config) (guarded : Guarded t) (nowMs : U32) :
    Stutters router t (fun progressed t => processSession cfg router progressed nowMs t) := by
  have idle : Stutters router t (fun progressed t => (t,quiet progressed)) := stutters_quiet id
  by_cases starting : t.session.state = .kStarting
  · refine (stutters_starting cfg nowMs).congr (fun progressed u same => ?_)
    simp only [processSession,same,starting]
  by_cases active : t.session.state = .kActive
  · refine (stutters_active cfg (guarded (running_iff.mpr (.inr active))) nowMs).congr (fun progressed u same => ?_)
    simp only [processSession,same,active]
  · refine idle.congr (fun progressed u same => ?_)
    unfold processSession
    rw [same]
    split
    · rename_i now
      exact absurd now starting
    · rename_i now
      exact absurd now active
    · rfl

end kept

/-! ### Series of calls -/

section series
variable {cfg : Config} {t : BitsTransmitter}

/-- The transmitter `process` goes on with once the slot is drained. -/
def drained (t : BitsTransmitter) : BitsTransmitter :=
  if t.datagramOccupied then { (handleDatagram t).1 with datagramOccupied := false } else t

theorem drained_session : (drained t).session = handledAlone t := by
  unfold drained handledAlone
  split <;> rfl

/-- A call that handles its packet is the work behind the slot on the drained transmitter. -/
theorem process_drained {router : PacketBuffer → RouteResult} {nowMs : U32}
    (handled : t.datagramOccupied = true → (handleDatagram t).2 = true) :
    process cfg router nowMs t = processSession cfg router t.datagramOccupied nowMs (drained t) := by
  unfold process drained
  by_cases occupied : t.datagramOccupied = true
  · rw [if_pos occupied,if_pos occupied]
    simp only [handled occupied,if_true,occupied]
  · rw [if_neg occupied,if_neg occupied]
    simp only [Bool.not_eq_true] at occupied
    rw [occupied]

/-- Events that are callbacks only. -/
def Callbacks (events : List Event) : Prop := ∀ event ∈ events, ∃ call, event = .callback call

theorem Callbacks.filterMap {α : Type} {events : List Event} (callbacks : Callbacks events) (f : Event → Option α)
    (none : ∀ call, f (.callback call) = none) : events.filterMap f = [] := by
  rw [List.filterMap_eq_nil_iff]
  intro event member
  obtain ⟨call,rfl⟩ := callbacks event member
  exact none call

/-- Handling a packet invokes callbacks and hands nothing to the router. -/
theorem handleDatagram_trace (t : BitsTransmitter) :
    ∃ more, (handleDatagram t).1.trace = t.trace ++ more ∧ Callbacks more := by
  have one (call : Transmitter.Callback) : Callbacks [.callback call] := by
    intro event member
    exact ⟨call,List.mem_singleton.mp member⟩
  have same : ∃ more, t.trace = t.trace ++ more ∧ Callbacks more := ⟨[],by simp,by simp [Callbacks]⟩
  have called {s : TransferSession} {call : Transmitter.Callback} :
      ∃ more, (emit (.callback call) (t.withSession s)).trace = t.trace ++ more ∧ Callbacks more := ⟨_,rfl,one call⟩
  unfold handleDatagram
  dsimp only
  split
  · exact same
  split
  · exact same
  split
  · unfold handleAck
    split
    · exact same
    split
    · dsimp only
      split
      · exact called
      · exact same
    · exact same
  · unfold handleReject
    split
    · exact same
    split
    · exact called
    · exact same
  · unfold handleAbort
    split
    · exact same
    split
    · unfold transitionToAborted
      split
      · exact same
      · exact called
    · exact same
  · split
    · exact same
    · exact ⟨_,rfl,one _⟩
  all_goals exact same

theorem drained_trace (t : BitsTransmitter) :
    ∃ more, (drained t).trace = t.trace ++ more ∧ Callbacks more := by
  unfold drained
  split
  · exact handleDatagram_trace t
  · exact ⟨[],by simp,by simp [Callbacks]⟩

/-- The calls of a series, one after another. -/
def after (cfg : Config) (t : BitsTransmitter) (attempts : List (U32 × (PacketBuffer → RouteResult))) : BitsTransmitter :=
  attempts.foldl (fun t attempt => (process cfg attempt.2 attempt.1 t).1) t

/-- Every call of the series is blocked. -/
def AllBlocked (cfg : Config) (t : BitsTransmitter) : List (U32 × (PacketBuffer → RouteResult)) → Prop
  | [] => True
  | attempt :: rest =>
    (process cfg attempt.2 attempt.1 t).2 = .kBlocked ∧ AllBlocked cfg (process cfg attempt.2 attempt.1 t).1 rest

theorem handled_of_blocked {router : PacketBuffer → RouteResult} {nowMs : U32}
    (blocked : (process cfg router nowMs t).2 = .kBlocked) : t.datagramOccupied = true → (handleDatagram t).2 = true := by
  intro occupied
  by_contra unhandled
  rw [process,if_pos occupied] at blocked
  simp [unhandled] at blocked

theorem drained_guarded (guarded : Guarded t) : Guarded (drained t) := by
  unfold drained
  split
  · refine guarded_steps guarded (c := .process 0) ?_
    exact .tail (handleDatagram_steps rfl t) .drain
  · exact guarded

theorem drained_slot (t : BitsTransmitter) : (drained t).datagramOccupied = false := by
  unfold drained
  split
  · rfl
  · rename_i empty
    simpa using empty

/-- A blocked call leaves the drained transmitter's session. -/
theorem process_blocked (guarded : Guarded t) {router : PacketBuffer → RouteResult} {nowMs : U32}
    (blocked : (process cfg router nowMs t).2 = .kBlocked) :
    Alike (drained t) (process cfg router nowMs t).1 := by
  have work : process cfg router nowMs t = processSession cfg router t.datagramOccupied nowMs (drained t) :=
    process_drained (handled_of_blocked blocked)
  rw [work] at blocked ⊢
  exact (stutters_session cfg (drained_guarded guarded) nowMs).blocked _ blocked

/-- A call only adds to the trace. -/
theorem process_extends (cfg : Config) (guarded : Guarded t) {router : PacketBuffer → RouteResult} (blind : Blind router)
    (nowMs : U32) : ∃ more, (process cfg router nowMs t).1.trace = t.trace ++ more := by
  obtain ⟨before,slot,-⟩ := drained_trace t
  by_cases handled : t.datagramOccupied = true → (handleDatagram t).2 = true
  · obtain ⟨-,more,-,first,-⟩ := (stutters_session cfg (drained_guarded guarded) nowMs).echoes blind t.datagramOccupied
      t.datagramOccupied (drained t) ⟨rfl,rfl,rfl,rfl⟩
    rw [process_drained handled,first,slot]
    exact ⟨before ++ more,List.append_assoc ..⟩
  · push Not at handled
    obtain ⟨occupied,unhandled⟩ := handled
    refine ⟨before,?_⟩
    rw [← slot,process,drained,if_pos occupied,if_pos occupied]
    simp only [unhandled]
    rfl

theorem drained_of_empty (empty : t.datagramOccupied = false) : drained t = t := by
  rw [drained,if_neg (by simp [empty])]

/-- So does a series of them, but for the empty series. -/
theorem allBlocked_alike (guarded : Guarded t) {attempts : List (U32 × (PacketBuffer → RouteResult))}
    (blocked : AllBlocked cfg t attempts) : after cfg t attempts = t ∨
      (t.datagramOccupied = true → (handleDatagram t).2 = true) ∧ Alike (drained t) (after cfg t attempts) := by
  induction attempts generalizing t with
  | nil => exact .inl rfl
  | cons attempt rest ih =>
    obtain ⟨first,others⟩ := blocked
    have alike := process_blocked guarded first
    have empty := alike.slot.trans (drained_slot t)
    refine .inr ⟨handled_of_blocked first,?_⟩
    rcases ih (guarded_steps guarded (process_steps cfg attempt.2 guarded rfl)) others with same | ⟨-,later⟩
    · rw [after,List.foldl_cons]
      rw [after] at same
      rw [same]
      exact alike
    · rw [drained_of_empty empty] at later
      exact alike.trans later

end series

/-- A blocked `process` call is a stuttering step. Its session is that of handling
    the pending packet alone; and behind any series of blocked calls, `process` leaves
    the session and hands over the packets that it would have without them. -/
theorem blocked_calls_stutter (cfg : Config) (datagramIngress transmitPacket : PacketBuffer)
    (calls : List (Call × (PacketBuffer → RouteResult))) :
    let t := run cfg datagramIngress transmitPacket calls
    (∀ router nowMs, (process cfg router nowMs t).2 = .kBlocked →
      (process cfg router nowMs t).1.session = handledAlone t) ∧
    ∀ attempts router nowMs, AllBlocked cfg t attempts → Blind router →
      let u := after cfg t attempts
      (process cfg router nowMs u).1.session = (process cfg router nowMs t).1.session ∧
      ∃ more more', (process cfg router nowMs t).1.trace = t.trace ++ more ∧
        (process cfg router nowMs u).1.trace = u.trace ++ more' ∧
        more'.filterMap handed = more.filterMap handed := by
  intro t
  have guarded : Guarded t := (run_history cfg datagramIngress transmitPacket calls).1
  constructor
  · intro router nowMs blocked
    rw [(process_blocked guarded blocked).session,drained_session]
  · intro attempts router nowMs blocked blind u
    obtain ⟨before,slot,callbacks⟩ := drained_trace t
    rcases allBlocked_alike guarded blocked with same | ⟨handled,alike⟩
    · rw [show u = t from same]
      obtain ⟨more,trace⟩ := process_extends cfg guarded blind nowMs
      exact ⟨rfl,more,more,trace,trace,rfl⟩
    · have empty : u.datagramOccupied = false := alike.slot.trans (drained_slot t)
      have late : process cfg router nowMs u = processSession cfg router u.datagramOccupied nowMs u := by
        rw [process_drained (fun occupied => absurd occupied (by simp [empty])),drained_of_empty empty]
      obtain ⟨after,more,more',first,second,equal⟩ := (stutters_session cfg (drained_guarded guarded) nowMs).echoes blind
        t.datagramOccupied u.datagramOccupied u alike
      rw [late,process_drained handled]
      refine ⟨after.session,before ++ more,more',?_,second,?_⟩
      · rw [first,slot,List.append_assoc]
      · rw [List.filterMap_append,callbacks.filterMap handed (fun _ => rfl),List.nil_append,equal]

/-- A transfer whose SETUP is out and whose ACK is pending. -/
def acknowledging : List (Call × (PacketBuffer → RouteResult)) :=
  [(.startTransfer [0xAA,0xBB] 1 9 0,fun _ => .kAccepted),(.process 0,fun _ => .kAccepted),
    (.receive (ackFromPeer ⟨9,0,1,255⟩),fun _ => .kAccepted)]

/-- The link is full twice; the third call sends the segment that the first would have sent. -/
theorem blocked_segment_stutters :
    let t := run pointToPoint (.define 16 (by decide)) (.define 16 (by decide)) acknowledging
    let u := after pointToPoint t [(1,fun _ => .kFull),(2,fun _ => .kFull)]
    (process pointToPoint (fun _ => .kFull) 1 t).1.session = handledAlone t ∧ (handledAlone t).state = .kActive ∧
    (process pointToPoint (fun _ => .kAccepted) 3 u).1.session = (process pointToPoint (fun _ => .kAccepted) 3 t).1.session ∧
    ∃ more more', (process pointToPoint (fun _ => .kAccepted) 3 t).1.trace = t.trace ++ more ∧
      (process pointToPoint (fun _ => .kAccepted) 3 u).1.trace = u.trace ++ more' ∧
      more'.filterMap handed = more.filterMap handed := by
  intro t
  have first : (process pointToPoint (fun _ => .kFull) 1 t).2 = .kBlocked := by decide
  have second : (process pointToPoint (fun _ => .kFull) 2 (process pointToPoint (fun _ => .kFull) 1 t).1).2 = .kBlocked := by decide
  have active : (handledAlone t).state = .kActive := by decide
  have rules := blocked_calls_stutter pointToPoint (.define 16 (by decide)) (.define 16 (by decide)) acknowledging
  have same : run pointToPoint (.define 16 (by decide)) (.define 16 (by decide)) acknowledging = t := rfl
  rw [same] at rules
  clear_value t
  obtain ⟨alone,series⟩ := rules
  have blocked : AllBlocked pointToPoint t [(1,fun _ => .kFull),(2,fun _ => .kFull)] := ⟨first,second,trivial⟩
  exact ⟨alone (fun _ => .kFull) 1 first,active,
    series [(1,fun _ => .kFull),(2,fun _ => .kFull)] (fun _ => .kAccepted) 3 blocked fun _ _ _ => rfl⟩

end WireSpaces.TransmitterStutter
