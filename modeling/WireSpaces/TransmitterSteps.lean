import WireSpaces.Transmitter
import WireSpaces.ReceiverWindow

/-!
What one transmitter call can do, said once: the steps of `Step`, the send window
that every step keeps, and that every call from a good window is a sequence of
steps.
-/
namespace WireSpaces.TransmitterSteps
open WireSpaces.Words WireSpaces.Codec WireSpaces.Packet WireSpaces.Transmitter
open WireSpaces.ReceiverEngine (ProcessResult TransferState SendResult lowBitMask baseSequence)
open WireSpaces.ReceiverWindow (lowBitMask_run offset_lt)
open Relation (ReflTransGen)

/-- The object's bytes for a segment index. -/
def slice (object : Bytes) (segmentSize index : Nat) : Bytes := (object.drop (index * segmentSize)).take segmentSize

/-- The SEGMENT PDU of an index. -/
def segmentPdu (setup : Setup) (object : Bytes) (index : Nat) : Bytes :=
  segmentHeaderBytes ⟨setup.sessionId,BitVec.ofNat 16 index⟩ ++ slice object setup.segmentSize.toNat index

/-- Events that say nothing about segments: PROBE, ABORT and datagram PDUs, and
    every callback but completion. -/
inductive Aside : Event → Prop where
  | probe {packet : PacketBuffer} (probe : Probe) (result : RouteResult) :
      packet.payload = probeBytes probe → Aside (.forward packet result)
  | abort {packet : PacketBuffer} (abort : Abort) (result : RouteResult) :
      packet.payload = abortBytes abort → Aside (.forward packet result)
  | datagram {packet : PacketBuffer} (payload : Bytes) (result : RouteResult) :
      packet.payload = userDatagramBytes payload → Aside (.forward packet result)
  | onDatagram (payload : Bytes) : Aside (.callback (.onDatagram payload))
  | onTransferRejected (reason : RejectReason) : Aside (.callback (.onTransferRejected reason))
  | onTransferAborted : Aside (.callback .onTransferAborted)

@[simps] def withSent (s : TransferSession) (sentBitmap : U16) : TransferSession := { s with sentBitmap := sentBitmap }

/-- The fields the send window reads. -/
def windowFields (t : BitsTransmitter) : Nat × Bytes × Setup × Nat × Nat × Nat × U16 × U16 :=
  (t.transmitPacket.capacity,t.session.object,t.session.setup,t.session.segmentCount,t.session.acknowledgedCount,
    t.session.grantedEnd,t.session.sentBitmap,t.session.acknowledgedBitmap)

/-- All fields but the timers, the retry counts and the remembered send result. -/
def core (t : BitsTransmitter) :
    PacketBuffer × Bool × TransferState × List Event × Nat × Bytes × Setup × Nat × Nat × Nat × U16 × U16 :=
  (t.datagramIngress,t.datagramOccupied,t.session.state,t.trace,windowFields t)

/-- What `startTransfer` checks before it begins a transfer. -/
structure Startable (t : BitsTransmitter) (object : Bytes) (segmentSize : U16) : Prop where
  idle : running t.session = false
  nonempty : object ≠ []
  size : 0 < segmentSize.toNat
  count : segmentCount object.length segmentSize.toNat ≤ kMaximumCompactSegmentCount
  setup_fits : kSetupSize ≤ t.transmitPacket.capacity
  fits : segmentSize.toNat + kSegmentHeaderSize ≤ t.transmitPacket.capacity
  bounded : object.length ≤ 2 ^ 32 - 1

/-- The steps a call is made of. -/
inductive Step (c : Call) : BitsTransmitter → BitsTransmitter → Prop where
  | note {t u : BitsTransmitter} (same : core u = core t) : Step c t u
  | aside {t : BitsTransmitter} {event : Event} (beside : Aside event) : Step c t (emit event t)
  | setup {t : BitsTransmitter} {packet : PacketBuffer} (result : RouteResult) (starting : t.session.state = .kStarting)
      (payload : packet.payload = setupBytes t.session.setup) : Step c t (emit (.forward packet result) t)
  | take {t : BitsTransmitter} {packet copy : PacketBuffer} (called : c = .receive packet)
      (copied : copy.payload = packet.payload) : Step c t { t with datagramIngress := copy, datagramOccupied := true }
  | drain {t : BitsTransmitter} : Step c t { t with datagramOccupied := false }
  | start {t : BitsTransmitter} {object : Bytes} {segmentSize : U16} {sessionId initialSequenceNumber : U8}
      (called : c = .startTransfer object segmentSize sessionId initialSequenceNumber)
      (startable : Startable t object segmentSize) :
      Step c t (startTransfer object segmentSize sessionId initialSequenceNumber t).1
  | refused {t : BitsTransmitter} {packet : PacketBuffer} {index : Nat} {result : RouteResult}
      (active : t.session.state = .kActive) (granted : index < t.session.grantedEnd) (other : result ≠ .kAccepted)
      (payload : packet.payload = segmentPdu t.session.setup t.session.object index) :
      Step c t (emit (.forward packet result) t)
  | segment {t : BitsTransmitter} {packet : PacketBuffer} {offset : Nat} (active : t.session.state = .kActive)
      (granted : t.session.acknowledgedCount + offset < t.session.grantedEnd)
      (lower : ∀ j < offset, t.session.sentBitmap.getLsbD j = true)
      (payload : packet.payload =
        segmentPdu t.session.setup t.session.object (t.session.acknowledgedCount + offset)) :
      Step c t ((emit (.forward packet .kAccepted) t).withSession
        (withSent t.session (t.session.sentBitmap ||| (1#16 <<< offset))))
  | ack {t : BitsTransmitter} {nowMs : U32} {ack : Ack} (called : c = .process nowMs)
      (typed : hasType t.datagramIngress.payload .kAck = true)
      (decoded : decodeAckKnownType t.datagramIngress.payload = some ack) (applies : ackApplies t.session ack = true)
      (short : (acknowledge t.session ack).acknowledgedCount ≠ t.session.segmentCount) :
      Step c t (t.withSession ((acknowledge t.session ack).withState .kActive))
  | complete {t : BitsTransmitter} {nowMs : U32} {ack : Ack} (called : c = .process nowMs)
      (typed : hasType t.datagramIngress.payload .kAck = true)
      (decoded : decodeAckKnownType t.datagramIngress.payload = some ack) (applies : ackApplies t.session ack = true)
      (full : (acknowledge t.session ack).acknowledgedCount = t.session.segmentCount) :
      Step c t (emit (.callback .onTransferComplete) (t.withSession ((acknowledge t.session ack).withState .kCompleted)))
  | close {t : BitsTransmitter} {state : TransferState} (dead : state = .kRejected ∨ state = .kAborted ∨ state = .kError) :
      Step c t (t.withState state)

abbrev Steps (c : Call) : BitsTransmitter → BitsTransmitter → Prop := ReflTransGen (Step c)

/-! ### The send window -/

/-- The window of a running transfer: the object's geometry, the counters in
    order, and the sent bits as a run that holds every acknowledged bit. -/
structure SendWindow (t : BitsTransmitter) : Prop where
  segment : 0 < t.session.setup.segmentSize.toNat
  final : 0 < t.session.setup.finalSegmentSize.toNat
  final_le : t.session.setup.finalSegmentSize.toNat ≤ t.session.setup.segmentSize.toNat
  total : t.session.setup.finalSegmentIndex.toNat * t.session.setup.segmentSize.toNat +
    t.session.setup.finalSegmentSize.toNat = t.session.object.length
  count : t.session.segmentCount = t.session.setup.finalSegmentIndex.toNat + 1
  setup_fits : kSetupSize ≤ t.transmitPacket.capacity
  fits : t.session.setup.segmentSize.toNat + kSegmentHeaderSize ≤ t.transmitPacket.capacity
  base : t.session.acknowledgedCount ≤ t.session.grantedEnd
  granted : t.session.grantedEnd ≤ t.session.segmentCount
  span : t.session.grantedEnd ≤ t.session.acknowledgedCount + kCompactWindowWidth
  sent : ∃ length ≤ t.session.grantedEnd - t.session.acknowledgedCount, LowRun t.session.sentBitmap length
  acknowledged : ∀ j, t.session.acknowledgedBitmap.getLsbD j = true → t.session.sentBitmap.getLsbD j = true

/-- Every running transfer has a send window. -/
def Guarded (t : BitsTransmitter) : Prop := running t.session = true → SendWindow t

theorem running_iff {s : TransferSession} : running s = true ↔ s.state = .kStarting ∨ s.state = .kActive := by
  simp [running]

theorem window_congr {t u : BitsTransmitter} (same : windowFields u = windowFields t) (window : SendWindow t) :
    SendWindow u := by
  obtain ⟨_,_,_,⟨⟩,_,_⟩ := t
  obtain ⟨_,_,_,⟨⟩,_,_⟩ := u
  simp only [windowFields,Prod.mk.injEq] at same
  obtain ⟨capacity,rfl,rfl,rfl,rfl,rfl,rfl,rfl⟩ := same
  refine ⟨window.segment,window.final,window.final_le,window.total,window.count,?_,?_,window.base,window.granted,
    window.span,window.sent,window.acknowledged⟩
  · rw [capacity]; exact window.setup_fits
  · rw [capacity]; exact window.fits

theorem Guarded.congr {t u : BitsTransmitter} (guarded : Guarded t) (state : u.session.state = t.session.state)
    (same : windowFields u = windowFields t) : Guarded u := by
  intro runs
  rw [running,state] at runs
  exact window_congr same (guarded runs)

theorem SendWindow.small {t : BitsTransmitter} (window : SendWindow t) : t.session.segmentCount ≤ 2 ^ 16 := by
  have := t.session.setup.finalSegmentIndex.isLt
  rw [window.count]; omega

theorem shiftWindow_sentBitmap (count : Nat) (s : TransferSession) :
    (shiftWindow count s).sentBitmap = s.sentBitmap >>> count := by
  unfold shiftWindow
  by_cases zero : count = 0
  · simp [zero]
  · by_cases all : count ≥ kCompactWindowWidth
    · rw [if_neg zero,if_pos all]
      exact (BitVec.ushiftRight_eq_zero all).symm
    · rw [if_neg zero,if_neg all]

theorem shiftWindow_acknowledgedBitmap (count : Nat) (s : TransferSession) :
    (shiftWindow count s).acknowledgedBitmap = s.acknowledgedBitmap >>> count := by
  unfold shiftWindow
  by_cases zero : count = 0
  · simp [zero]
  · by_cases all : count ≥ kCompactWindowWidth
    · rw [if_neg zero,if_pos all]
      exact (BitVec.ushiftRight_eq_zero all).symm
    · rw [if_neg zero,if_neg all]

theorem shiftWindow_kept (count : Nat) (s : TransferSession) :
    (shiftWindow count s).object = s.object ∧ (shiftWindow count s).setup = s.setup ∧
      (shiftWindow count s).segmentCount = s.segmentCount := by
  unfold shiftWindow
  split
  · exact ⟨rfl,rfl,rfl⟩
  · split <;> exact ⟨rfl,rfl,rfl⟩

/-- The checks an ACK passed. -/
structure Applies (s : TransferSession) (ack : Ack) : Prop where
  running : running s = true
  session : ack.sessionId = s.setup.sessionId
  setup_sent : s.setupSent = true
  advance : ackAdvance s ack ≤ kCompactWindowWidth
  span : grantSpan ack ≤ kCompactWindowWidth
  inside : s.acknowledgedCount + ackAdvance s ack + grantSpan ack ≤ s.segmentCount
  bitmap : ack.windowBitmap &&& ~~~lowBitMask (grantSpan ack) = 0
  sent : ∀ j < ackAdvance s ack, s.sentBitmap.getLsbD j = true

theorem ackApplies_iff {s : TransferSession} {ack : Ack} : ackApplies s ack = true ↔ Applies s ack := by
  have masked : (ackAdvance s ack ≤ kCompactWindowWidth) →
      (s.sentBitmap &&& lowBitMask (ackAdvance s ack) = lowBitMask (ackAdvance s ack) ↔
        ∀ j < ackAdvance s ack, s.sentBitmap.getLsbD j = true) := by
    intro narrow
    have mask := lowBitMask_run (ackAdvance s ack)
    have width : kCompactWindowWidth = 16 := rfl
    constructor
    · intro same j inside
      have bit := congrArg (fun x => x.getLsbD j) same
      simp only [BitVec.getLsbD_and,mask j,inside,show j < 16 by omega] at bit
      simpa using bit
    · intro all
      apply BitVec.eq_of_getLsbD_eq
      intro j inside
      rw [BitVec.getLsbD_and,mask j]
      by_cases low : j < ackAdvance s ack
      · simp [all j low]
      · simp [low]
  constructor
  · intro applies
    simp only [ackApplies,Bool.and_eq_true,Bool.not_eq_true',Bool.or_eq_false_iff,decide_eq_false_iff_not,not_lt,
      beq_iff_eq,bne_eq_false_iff_eq] at applies
    obtain ⟨⟨⟨⟨runs,session⟩,setupSent⟩,⟨⟨⟨⟨advance,_⟩,span⟩,inside⟩,bitmap⟩⟩,sent⟩ := applies
    exact ⟨runs,session,setupSent,advance,span,inside,bitmap,(masked advance).mp sent⟩
  · intro applies
    simp only [ackApplies,Bool.and_eq_true,Bool.not_eq_true',Bool.or_eq_false_iff,decide_eq_false_iff_not,not_lt,
      beq_iff_eq,bne_eq_false_iff_eq]
    have inside := applies.inside
    exact ⟨⟨⟨⟨applies.running,applies.session⟩,applies.setup_sent⟩,⟨⟨⟨⟨applies.advance,by omega⟩,applies.span⟩,inside⟩,
      applies.bitmap⟩⟩,(masked applies.advance).mpr applies.sent⟩

section acknowledge
variable (s : TransferSession) (ack : Ack)

@[simp] theorem acknowledge_object : (acknowledge s ack).object = s.object := (shiftWindow_kept _ s).1
@[simp] theorem acknowledge_setup : (acknowledge s ack).setup = s.setup := (shiftWindow_kept _ s).2.1
@[simp] theorem acknowledge_segmentCount : (acknowledge s ack).segmentCount = s.segmentCount := (shiftWindow_kept _ s).2.2
@[simp] theorem acknowledge_acknowledgedCount :
    (acknowledge s ack).acknowledgedCount = s.acknowledgedCount + ackAdvance s ack := rfl
@[simp] theorem acknowledge_sentBitmap : (acknowledge s ack).sentBitmap = s.sentBitmap >>> ackAdvance s ack :=
  shiftWindow_sentBitmap _ s

@[simp] theorem acknowledge_grantedEnd :
    (acknowledge s ack).grantedEnd = max s.grantedEnd (s.acknowledgedCount + ackAdvance s ack + grantSpan ack) := by
  show (if _ then _ else _) = _
  by_cases more : s.acknowledgedCount + ackAdvance s ack + grantSpan ack > s.grantedEnd
  · rw [if_pos more,Nat.max_eq_right more.le]
  · rw [if_neg more,Nat.max_eq_left (not_lt.mp more)]

@[simp] theorem acknowledge_acknowledgedBitmap :
    (acknowledge s ack).acknowledgedBitmap = s.acknowledgedBitmap >>> ackAdvance s ack |||
      (ack.windowBitmap &&& lowBitMask (grantSpan ack) &&& s.sentBitmap >>> ackAdvance s ack) := by
  show (shiftWindow _ s).acknowledgedBitmap ||| (_ &&& _ &&& (shiftWindow _ s).sentBitmap) = _
  rw [shiftWindow_acknowledgedBitmap,shiftWindow_sentBitmap]

end acknowledge

/-- An ACK that applies acknowledges only what was sent. -/
theorem SendWindow.covered {t : BitsTransmitter} (window : SendWindow t) {ack : Ack} (applies : Applies t.session ack) :
    t.session.acknowledgedCount + ackAdvance t.session ack ≤ t.session.grantedEnd := by
  obtain ⟨length,fits,run⟩ := window.sent
  have base := window.base
  rcases Nat.eq_zero_or_pos (ackAdvance t.session ack) with zero | positive
  · omega
  · have last := applies.sent (ackAdvance t.session ack - 1) (by omega)
    rw [run] at last
    have := of_decide_eq_true last
    omega

/-- An ACK that applies moves the window forward and keeps its shape. -/
theorem SendWindow.acknowledge {t : BitsTransmitter} (window : SendWindow t) {ack : Ack} (applies : Applies t.session ack)
    (state : TransferState) : SendWindow (t.withSession ((acknowledge t.session ack).withState state)) := by
  obtain ⟨length,fits,run⟩ := window.sent
  have base := window.base
  have granted := window.granted
  have span := window.span
  have width : kCompactWindowWidth = 16 := rfl
  have inside := applies.inside
  have grantLe := applies.span
  have covered := window.covered applies
  constructor
  case sent =>
    refine ⟨length - ackAdvance t.session ack,?_,?_⟩
    · simp only [BitsTransmitter.withSession_session,TransferSession.withState_grantedEnd,
        TransferSession.withState_acknowledgedCount,acknowledge_grantedEnd,acknowledge_acknowledgedCount]
      omega
    · simp only [BitsTransmitter.withSession_session,TransferSession.withState_sentBitmap,acknowledge_sentBitmap]
      exact lowRun_shiftRight run (by omega) _
  case acknowledged =>
    intro j set
    simp only [BitsTransmitter.withSession_session,TransferSession.withState_acknowledgedBitmap,
      TransferSession.withState_sentBitmap,acknowledge_acknowledgedBitmap,acknowledge_sentBitmap,BitVec.getLsbD_or,
      BitVec.getLsbD_and,BitVec.getLsbD_ushiftRight,Bool.or_eq_true,Bool.and_eq_true] at set ⊢
    rcases set with old | new
    · exact window.acknowledged _ old
    · exact new.2
  all_goals simp
  · exact window.segment
  · exact window.final
  · exact window.final_le
  · exact window.total
  · exact window.count
  · exact window.setup_fits
  · exact window.fits
  · exact ⟨granted,inside⟩
  · omega

/-- A send of the next segment, or of one sent before, keeps the run. -/
theorem SendWindow.send {t : BitsTransmitter} (window : SendWindow t) {offset : Nat}
    (granted : t.session.acknowledgedCount + offset < t.session.grantedEnd)
    (lower : ∀ j < offset, t.session.sentBitmap.getLsbD j = true) (event : Event) :
    SendWindow ((emit event t).withSession (withSent t.session (t.session.sentBitmap ||| (1#16 <<< offset)))) := by
  obtain ⟨length,fits,run⟩ := window.sent
  have span := window.span
  have width : kCompactWindowWidth = 16 := rfl
  refine ⟨window.segment,window.final,window.final_le,window.total,window.count,window.setup_fits,window.fits,window.base,
    window.granted,window.span,?_,?_⟩
  · have reach : offset ≤ length := by
      rcases Nat.eq_zero_or_pos offset with zero | positive
      · omega
      · have last := lower (offset - 1) (by omega)
        rw [run] at last
        have := of_decide_eq_true last
        omega
    rcases Nat.lt_or_eq_of_le reach with before | rfl
    · refine ⟨length,fits,?_⟩
      intro j
      show (t.session.sentBitmap ||| (1#16 <<< offset)).getLsbD j = _
      rw [BitVec.getLsbD_or,run j,testBit_shiftLeft_one]
      by_cases same : j = offset
      · simp [same,before,show offset < 16 by omega]
      · simp [same]
    · refine ⟨offset + 1,?_,lowRun_or_next run⟩
      show offset + 1 ≤ t.session.grantedEnd - t.session.acknowledgedCount
      omega
  · intro j set
    show (t.session.sentBitmap ||| (1#16 <<< offset)).getLsbD j = true
    rw [BitVec.getLsbD_or,window.acknowledged j set,Bool.true_or]

theorem segmentCount_pos {size segmentSize : Nat} (nonempty : 0 < size) (positive : 0 < segmentSize) :
    0 < segmentCount size segmentSize ∧ (segmentCount size segmentSize - 1) * segmentSize < size ∧
      size ≤ segmentCount size segmentSize * segmentSize := by
  unfold segmentCount
  have whole := Nat.div_add_mod size segmentSize
  have rest := Nat.mod_lt size positive
  rw [Nat.mul_comm] at whole
  by_cases exactly : size % segmentSize = 0
  · have some : 0 < size / segmentSize := by
      rcases Nat.eq_zero_or_pos (size / segmentSize) with zero | some
      · rw [zero] at whole; omega
      · exact some
    rw [if_pos exactly,Nat.add_zero]
    refine ⟨some,?_,by omega⟩
    rw [Nat.sub_mul]
    omega
  · rw [if_neg exactly,Nat.add_sub_cancel,Nat.add_mul]
    exact ⟨Nat.succ_pos _,by omega,by omega⟩

theorem startTransfer_eq {t : BitsTransmitter} {object : Bytes} {segmentSize : U16} (sessionId initialSequenceNumber : U8)
    (startable : Startable t object segmentSize) :
    startTransfer object segmentSize sessionId initialSequenceNumber t =
      (emit (.started object (setupOf object segmentSize sessionId initialSequenceNumber)) (t.withSession
        { state := .kStarting, object := object, setup := setupOf object segmentSize sessionId initialSequenceNumber,
          segmentCount := segmentCount object.length segmentSize.toNat }),.kStarted) := by
  have some := segmentCount_pos (List.length_pos_iff.mpr startable.nonempty) startable.size
  have sized : segmentSize ≠ 0 := by
    rintro rfl
    exact absurd startable.size (by simp)
  unfold startTransfer
  simp only [startable.idle,Bool.false_eq_true,if_false]
  rw [if_neg (by push Not; exact ⟨startable.nonempty,sized,startable.bounded⟩),
    if_neg (by push Not; exact ⟨by omega,startable.count⟩),
    if_neg (by push Not; exact ⟨startable.setup_fits,startable.fits⟩)]

/-- The casts of a SETUP lose nothing: the last segment holds what the full ones before it leave. -/
theorem setupOf_exact {t : BitsTransmitter} {object : Bytes} {segmentSize : U16} (sessionId initialSequenceNumber : U8)
    (startable : Startable t object segmentSize) :
    let setup := setupOf object segmentSize sessionId initialSequenceNumber
    setup.finalSegmentIndex.toNat + 1 = segmentCount object.length segmentSize.toNat ∧
      setup.finalSegmentIndex.toNat * segmentSize.toNat + setup.finalSegmentSize.toNat = object.length ∧
      0 < setup.finalSegmentSize.toNat ∧ setup.finalSegmentSize.toNat ≤ segmentSize.toNat := by
  obtain ⟨some,before,whole⟩ := segmentCount_pos (List.length_pos_iff.mpr startable.nonempty) startable.size
  have count := startable.count
  have bounded := startable.bounded
  have size := segmentSize.isLt
  have limit : kMaximumCompactSegmentCount = 65536 := rfl
  intro setup
  have index : setup.finalSegmentIndex.toNat = segmentCount object.length segmentSize.toNat - 1 := by
    simp only [setup,setupOf,BitVec.toNat_ofNat]
    exact Nat.mod_eq_of_lt (by omega)
  have wholeBefore : segmentCount object.length segmentSize.toNat * segmentSize.toNat =
      (segmentCount object.length segmentSize.toNat - 1) * segmentSize.toNat + segmentSize.toNat := by
    rw [← Nat.succ_mul,Nat.succ_eq_add_one,Nat.sub_add_cancel some]
  have last : setup.finalSegmentSize.toNat =
      object.length - (segmentCount object.length segmentSize.toNat - 1) * segmentSize.toNat := by
    have cast : setup.finalSegmentSize.toNat =
        sub32 object.length (setup.finalSegmentIndex.toNat * segmentSize.toNat) % 2 ^ 16 := BitVec.toNat_ofNat _ _
    rw [cast,index,sub32_of_le (by omega) (by omega)]
    exact Nat.mod_eq_of_lt (by omega)
  rw [index,last]
  exact ⟨by omega,by omega,by omega,by omega⟩

/-- A new transfer starts with an empty window. -/
theorem start_window {t : BitsTransmitter} {object : Bytes} {segmentSize : U16} (sessionId initialSequenceNumber : U8)
    (startable : Startable t object segmentSize) :
    SendWindow (startTransfer object segmentSize sessionId initialSequenceNumber t).1 := by
  obtain ⟨count,total,final,final_le⟩ := setupOf_exact sessionId initialSequenceNumber startable
  rw [startTransfer_eq sessionId initialSequenceNumber startable]
  refine ⟨startable.size,final,final_le,total,count.symm,startable.setup_fits,startable.fits,le_refl _,?_,?_,
    ⟨0,le_refl _,lowRun_zero⟩,?_⟩
  · exact Nat.zero_le _
  · exact Nat.zero_le _
  · intro j set
    simp [emit] at set

/-- Every step keeps the window of a running transfer. -/
theorem guarded_step {c : Call} {t u : BitsTransmitter} (guarded : Guarded t) (step : Step c t u) : Guarded u := by
  cases step with
  | note same =>
    have ⟨_,rest⟩ := Prod.mk.inj same
    have ⟨_,rest⟩ := Prod.mk.inj rest
    have ⟨state,rest⟩ := Prod.mk.inj rest
    exact guarded.congr state (Prod.mk.inj rest).2
  | aside beside => exact guarded.congr rfl rfl
  | setup result starting payload => exact guarded.congr rfl rfl
  | take called copied => exact guarded.congr rfl rfl
  | drain => exact guarded.congr rfl rfl
  | start called startable => exact fun _ => start_window _ _ startable
  | refused active granted other payload => exact guarded.congr rfl rfl
  | segment active granted lower payload =>
    exact fun _ => (guarded (running_iff.mpr (.inr active))).send granted lower _
  | ack called typed decoded applies short =>
    have checks := ackApplies_iff.mp applies
    exact fun _ => (guarded checks.running).acknowledge checks .kActive
  | complete => exact fun runs => absurd runs (by simp [running,emit])
  | close dead =>
    rcases dead with rfl | rfl | rfl <;> exact fun runs => absurd runs (by simp [running,BitsTransmitter.withState])

theorem guarded_steps {c : Call} {t u : BitsTransmitter} (guarded : Guarded t) (steps : Steps c t u) : Guarded u := by
  induction steps with
  | refl => exact guarded
  | tail _ step ih => exact guarded_step ih step

/-! ### Sends -/

section sends
variable (cfg : Config) (router : PacketBuffer → RouteResult) {c : Call}

/-- The packet that carries a PDU: the transmit buffer, initialized to its size, with its bytes. -/
def framed (qos : QoS) (pdu : Bytes) (t : BitsTransmitter) : Option PacketBuffer :=
  (t.transmitPacket.initializePacket pdu.length cfg.connection (.bits qos)).map (fun packet => packet.store pdu)

/-- A send that fits hands one packet with the encoded payload to the router. -/
theorem sendEncoded_eq {size : Nat} (qos : QoS) {encode : Bytes → Option Bytes} {pdu : Bytes} {t : BitsTransmitter}
    (encoded : ∀ output : Bytes, output.length = size → encode output = some pdu) (length : pdu.length = size)
    (fits : size ≤ t.transmitPacket.capacity) :
    ∃ packet, framed cfg qos pdu t = some packet ∧ packet.payload = pdu ∧ packet.capacity = t.transmitPacket.capacity ∧
      sendEncoded cfg router size qos encode t =
        ({ t with transmitPacket := packet, lastSend := sendResult (router packet),
                  trace := t.trace ++ [.forward packet (router packet)] },sendResult (router packet) == .kSent) := by
  obtain ⟨ready,prepared⟩ := PacketBuffer.initializePacket_isSome fits cfg.connection (.bits qos)
  obtain ⟨capacity,sized⟩ := PacketBuffer.initializePacket_spec prepared
  have filled := encoded ready.payload (by rw [PacketBuffer.payload_length,sized])
  refine ⟨ready.store pdu,by rw [framed,length,prepared]; rfl,PacketBuffer.store_payload (length.trans sized.symm),
    (PacketBuffer.store_capacity _ _).trans capacity,?_⟩
  simp only [sendEncoded,preparePacket,prepared,filled,if_true]
  rfl

/-- A send that does not fit is refused before the router. -/
theorem sendEncoded_large {size : Nat} {qos : QoS} {encode : Bytes → Option Bytes} {t : BitsTransmitter}
    (large : t.transmitPacket.capacity < size) :
    sendEncoded cfg router size qos encode t = ({ t with lastSend := .kTooLarge },false) := by
  have unprepared : t.transmitPacket.initializePacket size cfg.connection (.bits qos) = none := by
    simp [PacketBuffer.initializePacket,PacketBuffer.resize,not_le.mpr large]
  simp [sendEncoded,preparePacket,unprepared]

/-- A send whose packet says nothing about segments. -/
theorem sendEncoded_steps {size : Nat} {qos : QoS} {encode : Bytes → Option Bytes} {pdu : Bytes} {t : BitsTransmitter}
    (encoded : ∀ output : Bytes, output.length = size → encode output = some pdu) (length : pdu.length = size)
    (step : ∀ (packet : PacketBuffer) (result : RouteResult), packet.payload = pdu → Step c t (emit (.forward packet result) t)) :
    Steps c t (sendEncoded cfg router size qos encode t).1 := by
  by_cases fits : size ≤ t.transmitPacket.capacity
  · obtain ⟨packet,-,payload,capacity,result⟩ := sendEncoded_eq cfg router qos encoded length fits
    rw [result]
    refine .tail (.single (step packet (router packet) payload)) (.note ?_)
    simp [core,windowFields,emit,capacity]
  · rw [sendEncoded_large cfg router (not_le.mp fits)]
    exact .single (.note rfl)

theorem sendSetup_steps {t : BitsTransmitter} (starting : t.session.state = .kStarting) (nowMs : U32) (retransmission : Bool) :
    Steps c t (sendSetup cfg router nowMs retransmission t).1 := by
  have sent : Steps c t (sendEncoded cfg router kSetupSize .kNormal (encodeSetup t.session.setup) t).1 :=
    sendEncoded_steps cfg router (fun _ size => encodeSetup_exact size) rfl
      (fun _ result payload => .setup result starting payload)
  unfold sendSetup
  dsimp only
  split
  · exact .tail sent (.note rfl)
  · exact sent

theorem sendProbe_steps (t : BitsTransmitter) (nowMs : U32) : Steps c t (sendProbe cfg router nowMs t).1 := by
  have sent : Steps c t (sendEncoded cfg router kProbeSize .kNormal (encodeProbe ⟨t.session.setup.sessionId⟩) t).1 :=
    sendEncoded_steps cfg router (fun _ size => encodeProbe_exact size) rfl
      (fun _ result payload => .aside (.probe _ result payload))
  unfold sendProbe
  dsimp only
  split
  · exact .tail sent (.note rfl)
  · exact sent

theorem sendAbort_steps (t : BitsTransmitter) : Steps c t (sendAbort cfg router t).1 :=
  sendEncoded_steps cfg router (fun _ size => encodeAbort_exact size) rfl
    (fun _ result payload => .aside (.abort _ result payload))

/-- The bytes `sendSegment` copies are the slice of its index. -/
theorem SendWindow.data {t : BitsTransmitter} (window : SendWindow t) (index : Nat)
    (known : index ≤ t.session.setup.finalSegmentIndex.toNat) {size : Nat}
    (sized : size = if index = t.session.setup.finalSegmentIndex.toNat then t.session.setup.finalSegmentSize.toNat
      else t.session.setup.segmentSize.toNat) :
    (t.session.object.drop (index * t.session.setup.segmentSize.toNat % 2 ^ 32)).take size =
        slice t.session.object t.session.setup.segmentSize.toNat index ∧
      (slice t.session.object t.session.setup.segmentSize.toNat index).length = size ∧
      size ≤ t.session.setup.segmentSize.toNat := by
  have total := window.total
  have finalLe := window.final_le
  rw [Nat.mod_eq_of_lt (offset_lt known),slice]
  by_cases last : index = t.session.setup.finalSegmentIndex.toNat
  · rw [if_pos last] at sized
    have rest : (t.session.object.drop (index * t.session.setup.segmentSize.toNat)).length = size := by
      rw [List.length_drop,last]; omega
    rw [List.take_of_length_le rest.le,List.take_of_length_le (by omega)]
    exact ⟨rfl,rest,by omega⟩
  · rw [if_neg last] at sized
    have next : (index + 1) * t.session.setup.segmentSize.toNat ≤
        t.session.setup.finalSegmentIndex.toNat * t.session.setup.segmentSize.toNat := Nat.mul_le_mul_right _ (by omega)
    rw [Nat.succ_mul] at next
    rw [sized]
    refine ⟨rfl,?_,le_refl _⟩
    rw [List.length_take,List.length_drop]
    omega

theorem encodeSegment_exact (header : SegmentHeader) {data output : Bytes}
    (size : output.length = kSegmentHeaderSize + data.length) :
    encodeSegment header data output = some (segmentHeaderBytes header ++ data) := by
  have enough : ¬ output.length < kSegmentHeaderSize := by omega
  rw [encodeSegment,encodeSegmentHeader,if_neg enough]
  simp [segmentHeaderBytes,writeU16,kSegmentHeaderSize]

/-- `sendSegment` is a send of the index's SEGMENT PDU, which fits. -/
theorem SendWindow.sendSegment_eq {t : BitsTransmitter} (window : SendWindow t) {offset : Nat}
    (known : t.session.acknowledgedCount + offset < t.session.segmentCount) (nowMs : U32) (retransmission : Bool) :
    ∃ packet, framed cfg .kBackground (segmentPdu t.session.setup t.session.object (t.session.acknowledgedCount + offset)) t =
        some packet ∧
      packet.payload = segmentPdu t.session.setup t.session.object (t.session.acknowledgedCount + offset) ∧
      packet.capacity = t.transmitPacket.capacity ∧
      sendSegment cfg router offset nowMs retransmission t =
        let u : BitsTransmitter := { t with transmitPacket := packet, lastSend := sendResult (router packet),
                                            trace := t.trace ++ [.forward packet (router packet)] }
        let retries := if retransmission then t.session.segmentRetryCount.getD offset 0 + 1 else 0
        if sendResult (router packet) == .kSent then
          (u.withSession { t.session with
            sentBitmap := t.session.sentBitmap ||| (1#16 <<< offset),
            segmentLastSendMs := t.session.segmentLastSendMs.set offset nowMs,
            segmentRetryCount := t.session.segmentRetryCount.set offset retries, probeTimerActive := false },true)
        else (u,false) := by
  have count := window.count
  have fits := window.fits
  have capacity : t.transmitPacket.capacity ≤ 65535 := t.transmitPacket.capacity_le
  obtain ⟨data,length,sizeLe⟩ := window.data (t.session.acknowledgedCount + offset) (by omega) rfl
  have whole : (segmentPdu t.session.setup t.session.object (t.session.acknowledgedCount + offset)).length =
      kSegmentHeaderSize + if t.session.acknowledgedCount + offset = t.session.setup.finalSegmentIndex.toNat then
        t.session.setup.finalSegmentSize.toNat else t.session.setup.segmentSize.toNat := by
    rw [segmentPdu,List.length_append,length]
    rfl
  obtain ⟨packet,frame,payload,same,result⟩ := sendEncoded_eq cfg router .kBackground (t := t)
    (fun _ size => encodeSegment_exact
      ⟨t.session.setup.sessionId,BitVec.ofNat 16 (t.session.acknowledgedCount + offset)⟩
      (size.trans (congrArg (kSegmentHeaderSize + ·) length.symm)))
    whole (by omega)
  refine ⟨packet,frame,payload,same,?_⟩
  unfold sendSegment
  dsimp only
  rw [if_neg (by omega),data,Nat.mod_eq_of_lt (by simp only [kSegmentHeaderSize] at fits ⊢; omega),result]

/-- Sending a granted segment: refused it is an event, accepted it sets its bit. -/
theorem sendSegment_steps {t : BitsTransmitter} (window : SendWindow t) (active : t.session.state = .kActive) {offset : Nat}
    (granted : t.session.acknowledgedCount + offset < t.session.grantedEnd)
    (lower : ∀ j < offset, t.session.sentBitmap.getLsbD j = true) (nowMs : U32) (retransmission : Bool) :
    Steps c t (sendSegment cfg router offset nowMs retransmission t).1 := by
  obtain ⟨packet,-,pdu,same,result⟩ := window.sendSegment_eq cfg router (granted.trans_le window.granted) nowMs retransmission
  rw [result]
  by_cases accepted : router packet = .kAccepted
  · simp only [accepted,sendResult,beq_self_eq_true,if_true]
    refine .tail (.single (.segment active granted lower pdu)) (.note ?_)
    simp [core,windowFields,emit,same]
  · have unsent : (sendResult (router packet) == .kSent) = false := by
      cases refused : router packet <;> first | rfl | exact absurd refused accepted
    simp only [unsent,Bool.false_eq_true,if_false]
    refine .tail (.single (.refused active granted accepted pdu)) (.note ?_)
    simp [core,windowFields,emit,same]

theorem transitionToAborted_steps (t : BitsTransmitter) : Steps c t (transitionToAborted t) := by
  unfold transitionToAborted
  split
  · exact .refl
  · exact .tail (.single (.close (.inr (.inl rfl)))) (.aside .onTransferAborted)

theorem giveUp_steps (t : BitsTransmitter) : Steps c t (giveUp cfg router t).1 :=
  (sendAbort_steps cfg router t).trans (transitionToAborted_steps _)

omit cfg router in
theorem conclude_steps {t : BitsTransmitter} {sent : BitsTransmitter × Bool} (steps : Steps c t sent.1) :
    Steps c t (conclude sent).1 := by
  unfold conclude
  split
  · exact steps
  · split
    · exact steps
    · exact .tail steps (.close (.inr (.inr rfl)))

/-! ### Handlers and calls -/

omit cfg router in
theorem SendWindow.windowSpan_eq {t : BitsTransmitter} (window : SendWindow t) :
    windowSpan t.session = t.session.grantedEnd - t.session.acknowledgedCount := by
  have span := window.span
  have granted := window.granted
  have small := window.small
  have width : kCompactWindowWidth = 16 := rfl
  rw [windowSpan,sub32_of_le window.base (by omega),Nat.mod_eq_of_lt (by omega)]

omit cfg router in
/-- A clear bit test is a clear bit, inside the window. -/
theorem unsent_iff {x : U16} {offset : Nat} (inside : offset < 16) :
    (x &&& (1#16 <<< offset) == 0) = true ↔ x.getLsbD offset = false := by
  rw [beq_iff_eq]
  exact and_bit_eq_zero x inside

omit cfg router in
theorem SendWindow.unsentOffset_some {t : BitsTransmitter} (window : SendWindow t) {offset : Nat}
    (found : unsentOffset t.session = some offset) :
    t.session.acknowledgedCount + offset < t.session.grantedEnd ∧ ∀ j < offset, t.session.sentBitmap.getLsbD j = true := by
  have span := window.span
  have width : kCompactWindowWidth = 16 := rfl
  obtain ⟨-,inside,before⟩ := List.find?_range_eq_some.mp found
  rw [List.mem_range,window.windowSpan_eq] at inside
  refine ⟨by omega,?_⟩
  intro j below
  have clear := before j below
  rw [Bool.not_eq_true',← Bool.not_eq_true,unsent_iff (by omega)] at clear
  simpa using clear

omit cfg router in
theorem SendWindow.unsentOffset_none {t : BitsTransmitter} (window : SendWindow t) (none : unsentOffset t.session = none) :
    ∀ j < t.session.grantedEnd - t.session.acknowledgedCount, t.session.sentBitmap.getLsbD j = true := by
  intro j inside
  have span := window.span
  have width : kCompactWindowWidth = 16 := rfl
  have set := List.find?_eq_none.mp none j (List.mem_range.mpr (by rw [window.windowSpan_eq]; exact inside))
  rw [unsent_iff (by omega)] at set
  simpa using set

theorem processStarting_steps {t : BitsTransmitter} (starting : t.session.state = .kStarting) (progressed : Bool) (nowMs : U32) :
    Steps c t (processStarting cfg router progressed nowMs t).1 := by
  unfold processStarting
  dsimp only
  split
  · exact conclude_steps (sendSetup_steps cfg router starting nowMs false)
  · split
    · split
      · exact giveUp_steps cfg router t
      · exact conclude_steps (sendSetup_steps cfg router starting nowMs true)
    · exact .refl

theorem processProbe_steps (t : BitsTransmitter) (progressed : Bool) (nowMs : U32) :
    Steps c t (processProbe cfg router progressed nowMs t).1 := by
  unfold processProbe
  dsimp only
  split
  · split
    · exact .single (.note rfl)
    · split
      · split
        · exact giveUp_steps cfg router t
        · exact conclude_steps (sendProbe_steps cfg router t nowMs)
      · exact .refl
  · exact .single (.note rfl)

theorem processActive_steps {t : BitsTransmitter} (window : SendWindow t) (active : t.session.state = .kActive)
    (progressed : Bool) (nowMs : U32) : Steps c t (processActive cfg router progressed nowMs t).1 := by
  unfold processActive
  cases unsent : unsentOffset t.session with
  | some offset =>
    obtain ⟨granted,lower⟩ := window.unsentOffset_some unsent
    exact conclude_steps (sendSegment_steps cfg router window active granted lower nowMs false)
  | none =>
    cases expired : expiredOffset cfg nowMs t.session with
    | some offset =>
      dsimp only
      split
      · exact giveUp_steps cfg router t
      · -- Everything granted was sent, so a retransmission is a segment of the run.
        obtain ⟨-,inside,-⟩ := List.find?_range_eq_some.mp expired
        rw [List.mem_range,window.windowSpan_eq] at inside
        exact conclude_steps (sendSegment_steps cfg router window active (by omega)
          (fun j below => window.unsentOffset_none unsent j (by omega)) nowMs true)
    | none => exact processProbe_steps cfg router t progressed nowMs

theorem processSession_steps {t : BitsTransmitter} (guarded : Guarded t) (progressed : Bool) (nowMs : U32) :
    Steps c t (processSession cfg router progressed nowMs t).1 := by
  unfold processSession
  split
  · rename_i starting
    exact processStarting_steps cfg router starting progressed nowMs
  · rename_i active
    exact processActive_steps cfg router (guarded (running_iff.mpr (.inr active))) active progressed nowMs
  · exact .refl

omit cfg router in
theorem handleAck_steps {t : BitsTransmitter} {nowMs : U32} (called : c = .process nowMs)
    (typed : hasType t.datagramIngress.payload .kAck = true) : Steps c t (handleAck t.datagramIngress.payload t).1 := by
  unfold handleAck
  cases decoded : decodeAckKnownType t.datagramIngress.payload with
  | none => exact .refl
  | some ack =>
    dsimp only
    by_cases applies : ackApplies t.session ack = true
    · rw [if_pos applies]
      by_cases full : (acknowledge t.session ack).acknowledgedCount = (acknowledge t.session ack).segmentCount
      · rw [if_pos full]
        exact .single (.complete called typed decoded applies (full.trans (acknowledge_segmentCount _ _)))
      · rw [if_neg full]
        exact .single (.ack called typed decoded applies (fun same => full (same.trans (acknowledge_segmentCount _ _).symm)))
    · rw [if_neg applies]

omit cfg router in
/-- Only an ACK in the slot touches the window; what else the slot holds does the
    same in every call. -/
theorem handleDatagram_cases (t : BitsTransmitter) :
    (hasType t.datagramIngress.payload .kAck = true ∧ handleDatagram t = handleAck t.datagramIngress.payload t) ∨
      ∀ c, Steps c t (handleDatagram t).1 := by
  unfold handleDatagram
  dsimp only
  split
  · exact .inr fun _ => .refl
  · rename_i first rest message
    cases decoded : decodeControl first with
    | none => exact .inr fun _ => .refl
    | some control =>
      have typed : hasType t.datagramIngress.payload control.type = true := by
        rw [message]
        exact hasType_cons.mpr (decodeControl_eq_some decoded)
      dsimp only
      cases type : control.type with
      | kAck => exact .inl ⟨type ▸ typed,rfl⟩
      | kReject =>
        refine .inr fun c => ?_
        dsimp only
        unfold handleReject
        split
        · exact .refl
        · split
          · exact .tail (.single (.close (.inl rfl))) (.aside (.onTransferRejected _))
          · exact .refl
      | kAbort =>
        refine .inr fun c => ?_
        dsimp only
        unfold handleAbort
        split
        · exact .refl
        · split
          · exact transitionToAborted_steps t
          · exact .refl
      | kUserDatagram =>
        refine .inr fun c => ?_
        dsimp only
        split
        · exact .refl
        · exact .single (.aside (.onDatagram _))
      | kSetup => exact .inr fun _ => .refl
      | kSegment => exact .inr fun _ => .refl
      | kProbe => exact .inr fun _ => .refl

omit cfg router in
theorem handleDatagram_steps {nowMs : U32} (called : c = .process nowMs) (t : BitsTransmitter) :
    Steps c t (handleDatagram t).1 := by
  rcases handleDatagram_cases t with ⟨typed,same⟩ | steps
  · rw [same]
    exact handleAck_steps called typed
  · exact steps c

/-- Behind the slot, `process` does the same steps in every call. -/
theorem process_rest {t : BitsTransmitter} (occupied : t.datagramOccupied = true) (nowMs : U32)
    (guarded : Guarded (handleDatagram t).1) (c : Call) :
    Steps c (handleDatagram t).1 (process cfg router nowMs t).1 := by
  have drained : Steps c (handleDatagram t).1 { (handleDatagram t).1 with datagramOccupied := false } := .single .drain
  unfold process
  rw [if_pos occupied]
  dsimp only
  split
  · exact drained.trans (processSession_steps cfg router (guarded_steps guarded drained) true nowMs)
  · exact .tail drained (.close (.inr (.inr rfl)))

theorem process_steps {t : BitsTransmitter} (guarded : Guarded t) {nowMs : U32} (called : c = .process nowMs) :
    Steps c t (process cfg router nowMs t).1 := by
  by_cases occupied : t.datagramOccupied = true
  · have handled := handleDatagram_steps called t
    exact handled.trans (process_rest cfg router occupied nowMs (guarded_steps guarded handled) c)
  · rw [process,if_neg occupied]
    exact processSession_steps cfg router guarded false nowMs

omit router in
/-- An admitted packet only fills the empty slot; any other changes nothing. -/
theorem receive_cases (packet : PacketBuffer) (t : BitsTransmitter) :
    ((receive cfg packet t).2 = .kAccepted ∧ t.datagramOccupied = false ∧ ∃ copy : PacketBuffer,
      copy.payload = packet.payload ∧ (receive cfg packet t).1 = { t with datagramIngress := copy, datagramOccupied := true }) ∨
    ((receive cfg packet t).2 ≠ .kAccepted ∧ (receive cfg packet t).1 = t) := by
  unfold receive
  split
  · exact .inr ⟨by simp,rfl⟩
  · exact .inr ⟨by simp,rfl⟩
  · split
    · split
      · exact .inr ⟨by simp,rfl⟩
      · rename_i free
        split
        · exact .inr ⟨by simp,rfl⟩
        · rename_i copy copied
          exact .inl ⟨rfl,by simpa using free,copy,(PacketBuffer.copyPacket_payload copied).1,rfl⟩
    · exact .inr ⟨by simp,rfl⟩

omit router in
theorem receive_steps {packet : PacketBuffer} (called : c = .receive packet) (t : BitsTransmitter) :
    Steps c t (receive cfg packet t).1 := by
  rcases receive_cases cfg packet t with ⟨-,-,copy,copied,result⟩ | ⟨-,same⟩
  · rw [result]
    exact .single (.take called copied)
  · rw [same]

theorem sendDatagram_steps (payload : Bytes) (t : BitsTransmitter) : Steps c t (sendDatagram cfg router payload t).1 := by
  unfold sendDatagram
  split
  · exact .refl
  · exact sendEncoded_steps cfg router (fun _ size => encodeUserDatagram_exact size) (by simp [userDatagramBytes,kUserDatagramHeaderSize])
      (fun _ result pdu => .aside (.datagram payload result pdu))

theorem abort_steps (t : BitsTransmitter) : Steps c t (abort cfg router t).1 := by
  unfold abort
  split
  · exact giveUp_steps cfg router t
  · exact .refl

omit cfg router in
/-- A transfer starts when every check passes; otherwise nothing changes. -/
theorem startTransfer_cases (object : Bytes) (segmentSize : U16) (sessionId initialSequenceNumber : U8) (t : BitsTransmitter) :
    Startable t object segmentSize ∨ (startTransfer object segmentSize sessionId initialSequenceNumber t).1 = t ∧
      (startTransfer object segmentSize sessionId initialSequenceNumber t).2 ≠ .kStarted := by
  unfold startTransfer
  dsimp only
  by_cases busy : running t.session = true
  · exact .inr (by rw [if_pos busy]; exact ⟨rfl,by simp⟩)
  rw [if_neg busy]
  by_cases argument : object = [] ∨ segmentSize = 0 ∨ object.length > 2 ^ 32 - 1
  · exact .inr (by rw [if_pos argument]; exact ⟨rfl,by simp⟩)
  rw [if_neg argument]
  by_cases count : segmentCount object.length segmentSize.toNat = 0 ∨
      segmentCount object.length segmentSize.toNat > kMaximumCompactSegmentCount
  · exact .inr (by rw [if_pos count]; exact ⟨rfl,by simp⟩)
  rw [if_neg count]
  by_cases small : t.transmitPacket.capacity < kSetupSize ∨
      t.transmitPacket.capacity < segmentSize.toNat + kSegmentHeaderSize
  · exact .inr (by rw [if_pos small]; exact ⟨rfl,by simp⟩)
  push Not at argument count small
  refine .inl ⟨by simpa using busy,argument.1,?_,count.2,small.1,small.2,argument.2.2⟩
  exact Nat.pos_of_ne_zero fun zero => argument.2.1 (BitVec.eq_of_toNat_eq (by simpa using zero))

omit cfg router in
theorem startTransfer_steps {object : Bytes} {segmentSize : U16} {sessionId initialSequenceNumber : U8}
    (called : c = .startTransfer object segmentSize sessionId initialSequenceNumber) (t : BitsTransmitter) :
    Steps c t (startTransfer object segmentSize sessionId initialSequenceNumber t).1 := by
  rcases startTransfer_cases object segmentSize sessionId initialSequenceNumber t with startable | ⟨same,-⟩
  · exact .single (.start called startable)
  · rw [same]

/-- Every public call from a good window is a sequence of steps. -/
theorem call_steps {t : BitsTransmitter} (guarded : Guarded t) (c : Call × (PacketBuffer → RouteResult)) :
    Steps c.1 t (call cfg t c).1 := by
  obtain ⟨c,router⟩ := c
  cases c with
  | startTransfer object segmentSize sessionId initialSequenceNumber => exact startTransfer_steps rfl t
  | receive packet => exact receive_steps cfg rfl t
  | process nowMs => exact process_steps cfg router guarded rfl
  | sendDatagram payload => exact sendDatagram_steps cfg router payload t
  | abort => exact abort_steps cfg router t

end sends

/-! ### A connection to compute with -/

/-- A transmitter of host 1 on wire 1, talking to endpoint 7 of host 2. -/
def pointToPoint : Config where
  connection := ⟨⟨1⟩,⟨1⟩,⟨2⟩,⟨7⟩⟩
  timing := ⟨100,250,5⟩

/-- A packet of its peer. -/
def fromPeer (pdu : Bytes) (fits : pdu.length ≤ 65535) : PacketBuffer :=
  ⟨pdu.length,0,⟨0x81,⟨1⟩,⟨2⟩,⟨1⟩,⟨7⟩⟩,pdu,PacketBuffer.whole_fits pdu,fits⟩

theorem ack_fits (ack : Ack) : (ackBytes ack).length ≤ 65535 := by
  simp [ackBytes,writeU16]

def ackFromPeer (ack : Ack) : PacketBuffer := fromPeer (ackBytes ack) (ack_fits ack)

end WireSpaces.TransmitterSteps
