import WireSpaces.TransmitterLog

/-!
Retries against the log. What one `process` call does to the session and the log is
said once, as an `Outcome`; the retry counters and timers of the window are then the
counts and times of the log, whatever the ACKs shift.
-/
namespace WireSpaces.TransmitterRetries
open WireSpaces.Words WireSpaces.Codec WireSpaces.Packet WireSpaces.Transmitter WireSpaces.TransmitterSteps
open WireSpaces.TransmitterWindow WireSpaces.TransmitterStutter WireSpaces.TransmitterLog
open WireSpaces.ReceiverEngine (ProcessResult TransferState SendResult lowBitMask)
open WireSpaces.ReceiverWindow (lowBitMask_run)

/-! ### The log of a run -/

/-- What an event of a call at a time is in the log. -/
def observed (nowMs : U32) : Event → Option Entry
  | .started _ _ => some .started
  | .forward packet .kAccepted => (itemOf packet.payload).map (.sent · nowMs)
  | _ => none

/-- The pending packet is an ACK that passes validation. -/
def acknowledgement (t : BitsTransmitter) : Log :=
  if t.datagramOccupied then
    match decodeAck t.datagramIngress.payload with
    | none => []
    | some ack =>
      if ackApplies t.session ack then [.acked ack (t.session.acknowledgedCount + ackAdvance t.session ack)] else []
  else []

/-- The work of a call turned the session `s` into `s'` and started the probe timer. -/
def arming (nowMs : U32) (s s' : TransferSession) : Log :=
  if s.probeTimerActive = false ∧ s'.probeTimerActive = true then [.armed nowMs] else []

/-- The pending packet left the transfer running, and the call aborted it. -/
def exhaustion (nowMs : U32) (t u : BitsTransmitter) : Log :=
  if running (handledAlone t) ∧ u.session.state = .kAborted then [.exhausted nowMs] else []

/-- What a call adds to the log. Only `process` reads a clock. -/
def entries (c : Call) (t u : BitsTransmitter) : Log :=
  let events := u.trace.drop t.trace.length
  match c with
  | .process nowMs => exhaustion nowMs t u ++ arming nowMs (handledAlone t) u.session ++
      (events.filterMap (observed nowMs)).reverse ++ acknowledgement t
  | _ => (events.filterMap (observed 0)).reverse

def callLogged (cfg : Config) (s : BitsTransmitter × Log) (c : Call × (PacketBuffer → RouteResult)) : BitsTransmitter × Log :=
  ((call cfg s.1 c).1,entries c.1 s.1 (call cfg s.1 c).1 ++ s.2)

def runLogged (cfg : Config) (datagramIngress transmitPacket : PacketBuffer)
    (calls : List (Call × (PacketBuffer → RouteResult))) : BitsTransmitter × Log :=
  calls.foldl (callLogged cfg) (run cfg datagramIngress transmitPacket [],[])

/-! ### The items of the PDUs -/

theorem itemOf_setup (setup : Setup) : itemOf (setupBytes setup) = some .setup := by
  have read : decodeSetup (setupBytes setup) = some setup := by
    rw [decodeSetup,if_pos (by simp [setupBytes,hasType_encodeControl]),decodeSetup_setupBytes]
  simp only [itemOf,read]

theorem itemOf_segment (setup : Setup) (object : Bytes) {index : Nat} (small : index < 2 ^ 16) :
    itemOf (segmentPdu setup object index) = some (.segment index) := by
  have other : decodeSetup (segmentPdu setup object index) = none := by
    rw [decodeSetup,if_neg (by simp [segmentPdu,segmentHeaderBytes,hasType_encodeControl])]
  have read : decodeSegmentHeader (segmentPdu setup object index) = some ⟨setup.sessionId,BitVec.ofNat 16 index⟩ := by
    rw [decodeSegmentHeader,if_pos (by simp [segmentPdu,segmentHeaderBytes,hasType_encodeControl]),segmentPdu,
      decodeSegmentHeader_segmentHeaderBytes]
  simp only [itemOf,other,read,BitVec.toNat_ofNat,Nat.mod_eq_of_lt small]

theorem itemOf_probe (probe : Probe) : itemOf (probeBytes probe) = some .probe := rfl

theorem itemOf_other (type : MessageType) {pdu : Bytes} (typed : hasType pdu type = true)
    (other : type ≠ .kSetup ∧ type ≠ .kSegment ∧ type ≠ .kProbe) : itemOf pdu = none := by
  have refused {expected : MessageType} (differs : type ≠ expected) : hasType pdu expected = false := by
    by_contra has
    exact differs (hasType_unique typed (Bool.not_eq_false _ ▸ has))
  simp [itemOf,decodeSetup,decodeSegmentHeader,decodeProbe,refused other.1,refused other.2.1,refused other.2.2]

/-! ### What a call does, said once -/

/-- Everything granted was sent, and what was sent is acknowledged. -/
def Settled (s : TransferSession) : Prop :=
  unsentOffset s = none ∧ s.acknowledgedCount < s.segmentCount ∧ outstanding s = 0

/-- A retry limit was reached by the item whose timer ran out. -/
inductive TimedOut (cfg : Config) (nowMs : U32) (s : TransferSession) : Prop where
  | setup (starting : s.state = .kStarting) (sent : s.setupSent = true)
      (late : elapsed nowMs s.setupLastSendMs cfg.timing.retransmissionTimeoutMs = true)
      (limit : retryLimitReached cfg s.setupRetryCount = true)
  | segment {offset : Nat} (active : s.state = .kActive) (inside : offset < 16) (sent : s.sentBitmap.getLsbD offset = true)
      (open_ : s.acknowledgedBitmap.getLsbD offset = false)
      (first : ∀ j < offset, s.sentBitmap.getLsbD j = true → s.acknowledgedBitmap.getLsbD j = false →
        elapsed nowMs (s.segmentLastSendMs.getD j 0) cfg.timing.retransmissionTimeoutMs = false)
      (late : elapsed nowMs (s.segmentLastSendMs.getD offset 0) cfg.timing.retransmissionTimeoutMs = true)
      (limit : retryLimitReached cfg (s.segmentRetryCount.getD offset 0) = true)
  | probe (active : s.state = .kActive) (on : s.probeTimerActive = true)
      (clear : ∀ j, s.sentBitmap.getLsbD j = true → s.acknowledgedBitmap.getLsbD j = true)
      (late : elapsed nowMs s.probeLastSendMs cfg.timing.probeTimeoutMs = true)
      (limit : retryLimitReached cfg s.probeRetryCount = true)

/-- The session and the log entries of the work behind the slot. -/
inductive Outcome (cfg : Config) (nowMs : U32) (s : TransferSession) : TransferSession → Log → Prop where
  | kept : Outcome cfg nowMs s s []
  | failed : Outcome cfg nowMs s (s.withState .kError) []
  | exhausted (out : TimedOut cfg nowMs s) : Outcome cfg nowMs s (s.withState .kAborted) []
  | armed (settled : Settled s) (off : s.probeTimerActive = false) :
      Outcome cfg nowMs s { s with probeTimerActive := true, probeLastSendMs := nowMs } [.armed nowMs]
  | disarmed (active : s.state = .kActive) (sent : unsentOffset s = none) (unsettled : ¬ Settled s) :
      Outcome cfg nowMs s { s with probeTimerActive := false, probeRetryCount := 0 } []
  | setup (starting : s.state = .kStarting)
      (again : s.setupSent = true → retryLimitReached cfg s.setupRetryCount = false) :
      Outcome cfg nowMs s { s with
        setupSent := true, setupLastSendMs := nowMs,
        setupRetryCount := if s.setupSent then s.setupRetryCount + 1 else s.setupRetryCount } [.sent .setup nowMs]
  | segment {offset : Nat} (active : s.state = .kActive) (inside : offset < 16)
      (known : s.acknowledgedCount + offset < s.segmentCount) (unsettled : ¬ Settled s)
      (again : s.sentBitmap.getLsbD offset = true → s.acknowledgedBitmap.getLsbD offset = false ∧
        elapsed nowMs (s.segmentLastSendMs.getD offset 0) cfg.timing.retransmissionTimeoutMs = true ∧
        retryLimitReached cfg (s.segmentRetryCount.getD offset 0) = false) :
      Outcome cfg nowMs s { s with
        sentBitmap := s.sentBitmap ||| (1#16 <<< offset),
        segmentLastSendMs := s.segmentLastSendMs.set offset nowMs,
        segmentRetryCount := s.segmentRetryCount.set offset
          (if s.sentBitmap.getLsbD offset then s.segmentRetryCount.getD offset 0 + 1 else 0),
        probeTimerActive := false } [.sent (.segment (s.acknowledgedCount + offset)) nowMs]
  | probe (active : s.state = .kActive) (settled : Settled s) (on : s.probeTimerActive = true)
      (limit : retryLimitReached cfg s.probeRetryCount = false) :
      Outcome cfg nowMs s { s with probeLastSendMs := nowMs, probeRetryCount := s.probeRetryCount + 1 }
        [.sent .probe nowMs]

section work
variable {cfg : Config} {router : PacketBuffer → RouteResult} {nowMs : U32} {t : BitsTransmitter}

/-- The work from `t` to `u` has one of the outcomes. -/
def Worked (cfg : Config) (nowMs : U32) (t u : BitsTransmitter) : Prop :=
  ∃ more, u.trace = t.trace ++ more ∧
    Outcome cfg nowMs t.session u.session (arming nowMs t.session u.session ++ (more.filterMap (observed nowMs)).reverse)

theorem arming_same {s s' : TransferSession} (same : s'.probeTimerActive = s.probeTimerActive) : arming nowMs s s' = [] := by
  rw [arming,if_neg]
  rintro ⟨off,on⟩
  rw [same,off] at on
  cases on

theorem arming_withState (s : TransferSession) (state : TransferState) : arming nowMs s (s.withState state) = [] :=
  arming_same rfl

theorem arming_off {s s' : TransferSession} (off : s'.probeTimerActive = false) : arming nowMs s s' = [] := by
  rw [arming,if_neg]
  rintro ⟨-,on⟩
  rw [off] at on
  cases on

theorem Worked.quiet {u : BitsTransmitter} (trace : u.trace = t.trace)
    (outcome : Outcome cfg nowMs t.session u.session (arming nowMs t.session u.session)) : Worked cfg nowMs t u :=
  ⟨[],by simp [trace],by simpa using outcome⟩

theorem sendResult_kSent (result : RouteResult) : (sendResult result == .kSent) = true ↔ result = .kAccepted := by
  cases result <;> decide

/-- One send: the link accepted its PDU, or the log has nothing of it. -/
theorem sendEncoded_observed (cfg : Config) (router : PacketBuffer → RouteResult) (nowMs : U32) (t : BitsTransmitter)
    (qos : QoS) {size : Nat} {encode : Bytes → Option Bytes} {pdu : Bytes} (encodes : Encodes encode size pdu) :
    ∃ more, (sendEncoded cfg router size qos encode t).1.trace = t.trace ++ more ∧
      (sendEncoded cfg router size qos encode t).1.session = t.session ∧
      more.filterMap (observed nowMs) = if (sendEncoded cfg router size qos encode t).2 then
        ((itemOf pdu).map (.sent · nowMs)).toList else [] := by
  by_cases fits : size ≤ t.transmitPacket.capacity
  · obtain ⟨packet,-,payload,-,result⟩ := sendEncoded_eq cfg router qos encodes.exact encodes.length fits
    rw [result]
    refine ⟨[.forward packet (router packet)],rfl,rfl,?_⟩
    by_cases accepted : router packet = .kAccepted
    · rw [if_pos ((sendResult_kSent _).mpr accepted),accepted]
      cases carried : itemOf pdu <;> simp [observed,payload,carried]
    · rw [if_neg (fun sent => accepted ((sendResult_kSent _).mp sent))]
      cases answer : router packet <;> first | exact absurd answer accepted | rfl
  · rw [sendEncoded_large cfg router (not_le.mp fits)]
    exact ⟨[],by simp,rfl,rfl⟩

/-- A send that `process` concludes, with the record it makes in the session. -/
theorem conclude_worked {record : TransferSession → TransferSession} {size : Nat} {qos : QoS}
    {encode : Bytes → Option Bytes} {pdu : Bytes} {item : Item} (encodes : Encodes encode size pdu)
    (carries : itemOf pdu = some item) (plain : arming nowMs t.session (record t.session) = [])
    (outcome : Outcome cfg nowMs t.session (record t.session) [.sent item nowMs]) :
    Worked cfg nowMs t (conclude (recorded record (sendEncoded cfg router size qos encode t))).1 := by
  obtain ⟨more,trace,session,seen⟩ := sendEncoded_observed cfg router nowMs t qos encodes
  unfold conclude recorded
  by_cases sent : (sendEncoded cfg router size qos encode t).2 = true
  · rw [if_pos sent] at seen ⊢
    refine ⟨more,trace,?_⟩
    simp only [if_true,BitsTransmitter.withSession_session,session,plain,seen,carries]
    exact outcome
  · rw [if_neg sent] at seen ⊢
    have nothing : (more.filterMap (observed nowMs)).reverse = [] := by rw [seen]; rfl
    simp only [Bool.false_eq_true,if_false]
    split
    · refine ⟨more,trace,?_⟩
      rw [nothing,session,arming_same rfl]
      exact .kept
    · refine ⟨more,trace,?_⟩
      simp only [nothing,BitsTransmitter.withState,BitsTransmitter.withSession_session,session]
      rw [arming_withState]
      exact .failed

theorem giveUp_worked (runs : running t.session = true) (out : TimedOut cfg nowMs t.session) :
    Worked cfg nowMs t (giveUp cfg router t).1 := by
  obtain ⟨more,trace,session,seen⟩ :=
    sendEncoded_observed cfg router nowMs t .kNormal (abort_encodes ⟨t.session.setup.sessionId⟩)
  have unaborted : (sendAbort cfg router t).1.session.state ≠ .kAborted := by
    rw [sendAbort,session]
    rcases running_iff.mp runs with state | state <;> simp [state]
  have other : itemOf (abortBytes ⟨t.session.setup.sessionId⟩) = none :=
    itemOf_other .kAbort (hasType_cons.mpr rfl) (by decide)
  have nothing : more.filterMap (observed nowMs) = [] := by
    rw [seen,other]
    split <;> rfl
  simp only [giveUp,transitionToAborted,if_neg unaborted]
  refine ⟨more ++ [.callback .onTransferAborted],?_,?_⟩
  · simp only [emit,BitsTransmitter.withTrace_trace,BitsTransmitter.withState,BitsTransmitter.withSession_trace]
    rw [sendAbort,trace,List.append_assoc]
  · rw [List.filterMap_append,nothing]
    simp only [emit,BitsTransmitter.withTrace_session,BitsTransmitter.withState,BitsTransmitter.withSession_session]
    rw [sendAbort,session,arming_withState]
    exact .exhausted out

theorem sendSetup_worked (starting : t.session.state = .kStarting)
    (again : t.session.setupSent = true → retryLimitReached cfg t.session.setupRetryCount = false) :
    Worked cfg nowMs t (conclude (sendSetup cfg router nowMs t.session.setupSent t)).1 := by
  let record (s : TransferSession) : TransferSession :=
    { s with setupSent := true, setupLastSendMs := nowMs,
             setupRetryCount := if t.session.setupSent then s.setupRetryCount + 1 else s.setupRetryCount }
  have shape : sendSetup cfg router nowMs t.session.setupSent t =
      recorded record (sendEncoded cfg router kSetupSize .kNormal (encodeSetup t.session.setup) t) := rfl
  rw [shape]
  exact conclude_worked (setup_encodes _) (itemOf_setup _) (arming_same rfl) (.setup starting again)

theorem sendProbe_worked (active : t.session.state = .kActive) (settled : Settled t.session)
    (on : t.session.probeTimerActive = true) (limit : retryLimitReached cfg t.session.probeRetryCount = false) :
    Worked cfg nowMs t (conclude (sendProbe cfg router nowMs t)).1 := by
  let record (s : TransferSession) : TransferSession :=
    { s with probeLastSendMs := nowMs, probeRetryCount := s.probeRetryCount + 1 }
  have shape : sendProbe cfg router nowMs t =
      recorded record (sendEncoded cfg router kProbeSize .kNormal (encodeProbe ⟨t.session.setup.sessionId⟩) t) := rfl
  rw [shape]
  exact conclude_worked (probe_encodes _) (itemOf_probe _) (arming_same rfl) (.probe active settled on limit)

theorem sendSegment_worked (window : SendWindow t) {offset : Nat} (active : t.session.state = .kActive)
    (inside : offset < 16) (known : t.session.acknowledgedCount + offset < t.session.segmentCount)
    (unsettled : ¬ Settled t.session)
    (again : t.session.sentBitmap.getLsbD offset = true → t.session.acknowledgedBitmap.getLsbD offset = false ∧
      elapsed nowMs (t.session.segmentLastSendMs.getD offset 0) cfg.timing.retransmissionTimeoutMs = true ∧
      retryLimitReached cfg (t.session.segmentRetryCount.getD offset 0) = false) :
    Worked cfg nowMs t (conclude (sendSegment cfg router offset nowMs (t.session.sentBitmap.getLsbD offset) t)).1 := by
  let record (s : TransferSession) : TransferSession :=
    { s with
      sentBitmap := s.sentBitmap ||| (1#16 <<< offset),
      segmentLastSendMs := s.segmentLastSendMs.set offset nowMs,
      segmentRetryCount := s.segmentRetryCount.set offset
        (if t.session.sentBitmap.getLsbD offset then s.segmentRetryCount.getD offset 0 + 1 else 0),
      probeTimerActive := false }
  let index := t.session.acknowledgedCount + offset
  let size := if index = t.session.setup.finalSegmentIndex.toNat then t.session.setup.finalSegmentSize.toNat
    else t.session.setup.segmentSize.toNat
  have shape : sendSegment cfg router offset nowMs (t.session.sentBitmap.getLsbD offset) t =
      recorded record (sendEncoded cfg router ((kSegmentHeaderSize + size) % 2 ^ 16) .kBackground
        (encodeSegment ⟨t.session.setup.sessionId,BitVec.ofNat 16 index⟩
          ((t.session.object.drop (index * t.session.setup.segmentSize.toNat % 2 ^ 32)).take size)) t) := by
    unfold sendSegment
    dsimp only
    rw [if_neg (by omega)]
    rfl
  have small : index < 2 ^ 16 := known.trans_le window.small
  rw [shape]
  exact conclude_worked (segment_encodes window known rfl) (itemOf_segment _ _ small) (arming_off rfl)
    (.segment active inside known unsettled again)

theorem processStarting_worked (starting : t.session.state = .kStarting) (progressed : Bool) :
    Worked cfg nowMs t (processStarting cfg router progressed nowMs t).1 := by
  have runs : running t.session = true := running_iff.mpr (.inl starting)
  unfold processStarting
  dsimp only
  cases sent : t.session.setupSent with
  | false =>
    have worked : Worked cfg nowMs t (conclude (sendSetup cfg router nowMs t.session.setupSent t)).1 :=
      sendSetup_worked starting (fun yes => absurd yes (by simp [sent]))
    rw [sent] at worked
    simpa using worked
  | true =>
    simp only [not_true_eq_false,if_false]
    split
    · rename_i late
      split
      · rename_i limit
        exact giveUp_worked runs (.setup starting sent late limit)
      · rename_i limit
        have worked : Worked cfg nowMs t (conclude (sendSetup cfg router nowMs t.session.setupSent t)).1 :=
          sendSetup_worked starting (fun _ => by simpa using limit)
        rw [sent] at worked
        exact worked
    · exact .quiet rfl (by rw [arming_same rfl]; exact .kept)

theorem bit_outstanding {s : TransferSession} {offset : Nat} (inside : offset < 16) (within : offset < windowSpan s)
    (sent : s.sentBitmap.getLsbD offset = true) (open_ : s.acknowledgedBitmap.getLsbD offset = false) :
    (outstanding s &&& (1#16 <<< offset) != 0) = true := by
  rw [bne_iff_ne]
  intro clear
  have unset := (and_bit_eq_zero _ inside).mp clear
  rw [outstanding,BitVec.getLsbD_and,BitVec.getLsbD_and,BitVec.getLsbD_not,lowBitMask_run (windowSpan s) offset,sent,open_,
    decide_eq_true inside,decide_eq_true ⟨within,inside⟩] at unset
  cases unset

/-- Where everything is settled, what was sent is acknowledged. -/
theorem settled_clear (window : SendWindow t) (settled : Settled t.session) (j : Nat)
    (sent : t.session.sentBitmap.getLsbD j = true) : t.session.acknowledgedBitmap.getLsbD j = true := by
  obtain ⟨length,within,run⟩ := window.sent
  have bits := run j
  rw [sent] at bits
  have below := of_decide_eq_true bits.symm
  by_contra open_
  have set := bit_outstanding below.2 (by rw [window.windowSpan_eq]; omega) sent (by simpa using open_)
  rw [settled.2.2] at set
  simp at set

theorem processProbe_worked (window : SendWindow t) (active : t.session.state = .kActive) (sent : unsentOffset t.session = none)
    (progressed : Bool) : Worked cfg nowMs t (processProbe cfg router progressed nowMs t).1 := by
  have runs : running t.session = true := running_iff.mpr (.inr active)
  unfold processProbe
  dsimp only
  by_cases idle : t.session.acknowledgedCount < t.session.segmentCount ∧ outstanding t.session = 0
  · rw [if_pos idle]
    have settled : Settled t.session := ⟨sent,idle⟩
    cases timer : t.session.probeTimerActive with
    | false =>
      refine .quiet rfl ?_
      rw [show arming nowMs t.session _ = [.armed nowMs] from if_pos ⟨timer,rfl⟩]
      exact .armed settled timer
    | true =>
      simp only [not_true_eq_false,if_false]
      split
      · rename_i late
        split
        · rename_i limit
          exact giveUp_worked runs (.probe active timer (settled_clear window settled) late limit)
        · rename_i limit
          exact sendProbe_worked active settled timer (by simpa using limit)
      · exact .quiet rfl (by rw [arming_same rfl]; exact .kept)
  · rw [if_neg idle]
    refine .quiet rfl ?_
    rw [arming_off rfl]
    exact .disarmed active sent (fun settled => idle settled.2)

/-- The outstanding bits are the sent ones that are not acknowledged, inside the window. -/
theorem outstanding_bit {s : TransferSession} {offset : Nat} (inside : offset < 16)
    (found : (outstanding s &&& (1#16 <<< offset) != 0) = true) :
    s.sentBitmap.getLsbD offset = true ∧ s.acknowledgedBitmap.getLsbD offset = false ∧ outstanding s ≠ 0 := by
  rw [bne_iff_ne] at found
  have set : (outstanding s).getLsbD offset = true := by
    by_contra clear
    exact found ((and_bit_eq_zero _ inside).mpr (by simpa using clear))
  refine ⟨?_,?_,?_⟩
  · simp only [outstanding,BitVec.getLsbD_and,Bool.and_eq_true] at set
    exact set.1.1
  · simp only [outstanding,BitVec.getLsbD_and,BitVec.getLsbD_not,Bool.and_eq_true] at set
    simpa using set.1.2.2
  · intro zero
    simp [zero] at set

theorem processActive_worked (window : SendWindow t) (active : t.session.state = .kActive) (progressed : Bool) :
    Worked cfg nowMs t (processActive cfg router progressed nowMs t).1 := by
  have runs : running t.session = true := running_iff.mpr (.inr active)
  have granted := window.granted
  have span := window.span
  have width : kCompactWindowWidth = 16 := rfl
  unfold processActive
  cases unsent : unsentOffset t.session with
  | some offset =>
    obtain ⟨clear,member,-⟩ := List.find?_range_eq_some.mp unsent
    rw [List.mem_range,window.windowSpan_eq] at member
    have first : t.session.sentBitmap.getLsbD offset = false := (unsent_iff (by omega)).mp clear
    have worked : Worked cfg nowMs t
        (conclude (sendSegment cfg router offset nowMs (t.session.sentBitmap.getLsbD offset) t)).1 := by
      refine sendSegment_worked window active (by omega) (by omega) ?_ ?_
      · rintro ⟨none,-⟩
        rw [unsent] at none
        cases none
      · intro sent
        rw [first] at sent
        cases sent
    rw [first] at worked
    exact worked
  | none =>
    cases expired : expiredOffset cfg nowMs t.session with
    | some offset =>
      obtain ⟨found,member,earlier⟩ := List.find?_range_eq_some.mp expired
      rw [List.mem_range,window.windowSpan_eq] at member
      rw [Bool.and_eq_true] at found
      obtain ⟨sent,open_,some_⟩ := outstanding_bit (by omega) found.1
      have first : ∀ j < offset, t.session.sentBitmap.getLsbD j = true → t.session.acknowledgedBitmap.getLsbD j = false →
          elapsed nowMs (t.session.segmentLastSendMs.getD j 0) cfg.timing.retransmissionTimeoutMs = false := by
        intro j below set clear
        have passed := earlier j below
        rw [bit_outstanding (by omega) (by rw [window.windowSpan_eq]; omega) set clear] at passed
        simpa using passed
      dsimp only
      split
      · rename_i limit
        exact giveUp_worked runs (.segment active (by omega) sent open_ first found.2 limit)
      · rename_i limit
        have worked : Worked cfg nowMs t
            (conclude (sendSegment cfg router offset nowMs (t.session.sentBitmap.getLsbD offset) t)).1 := by
          refine sendSegment_worked window active (by omega) (by omega) ?_ ?_
          · rintro ⟨-,-,zero⟩
            exact some_ zero
          · intro _
            exact ⟨open_,found.2,by simpa using limit⟩
        rw [sent] at worked
        exact worked
    | none => exact processProbe_worked window active unsent progressed

theorem processSession_worked (guarded : Guarded t) (progressed : Bool) :
    Worked cfg nowMs t (processSession cfg router progressed nowMs t).1 := by
  unfold processSession
  split
  · rename_i starting
    exact processStarting_worked starting progressed
  · rename_i active
    exact processActive_worked (guarded (running_iff.mpr (.inr active))) active progressed
  · exact .quiet rfl (by rw [arming_same rfl]; exact .kept)

end work

/-! ### The session's counters are the log's counts -/

/-- The counters and timers of a running session, against its log. -/
structure Ledger (cfg : Config) (s : TransferSession) (log : Log) : Prop where
  setup_none : s.setupSent = false → times .setup log = [] ∧ s.setupRetryCount = 0
  setup : s.setupSent = true → (times .setup log).length = s.setupRetryCount.toNat + 1 ∧
    (times .setup log).head? = some s.setupLastSendMs
  setup_le : s.setupRetryCount.toNat ≤ cfg.timing.maxRetries.toNat
  slots : s.segmentLastSendMs.length = 16 ∧ s.segmentRetryCount.length = 16
  none : ∀ index, s.acknowledgedCount ≤ index → s.sentBitmap.getLsbD (index - s.acknowledgedCount) = false →
    times (.segment index) log = []
  segment : ∀ j, s.sentBitmap.getLsbD j = true →
    (times (.segment (s.acknowledgedCount + j)) log).length = (s.segmentRetryCount.getD j 0).toNat + 1 ∧
    (times (.segment (s.acknowledgedCount + j)) log).head? = some (s.segmentLastSendMs.getD j 0)
  segment_le : ∀ j, (s.segmentRetryCount.getD j 0).toNat ≤ cfg.timing.maxRetries.toNat
  covered : ∀ index, s.acknowledgedCount ≤ index → Covered index log →
    s.acknowledgedBitmap.getLsbD (index - s.acknowledgedCount) = true
  passed : ∀ index < s.acknowledgedCount, times (.segment index) log ≠ [] → Covered index log
  bits : ∀ j, s.acknowledgedBitmap.getLsbD j = true → Covered (s.acknowledgedCount + j) log
  pending : s.state = .kStarting → ¬ Answered log
  answered : s.state = .kActive → Answered log
  open_ : s.state = .kActive → s.acknowledgedCount ≠ s.segmentCount
  probe : s.state = .kActive → (probes log).length = s.probeRetryCount.toNat
  probe_le : s.probeRetryCount.toNat ≤ cfg.timing.maxRetries.toNat
  probe_timer : s.state = .kActive → probes log ≠ [] →
    Settled s ∧ s.probeTimerActive = true ∧ (probes log).head? = some s.probeLastSendMs
  waiting : s.state = .kActive → s.probeTimerActive = true → (waits log).head? = some s.probeLastSendMs

section ledger
variable {cfg : Config} {nowMs : U32} {s : TransferSession} {log : Log}

theorem limit_open {count : U8} (below : retryLimitReached cfg count = false) :
    count.toNat < cfg.timing.maxRetries.toNat ∧ (count + 1).toNat = count.toNat + 1 := by
  have small := cfg.timing.maxRetries.isLt
  have less : count.toNat < cfg.timing.maxRetries.toNat := by
    simpa [retryLimitReached,BitVec.ule] using below
  have one : (1 : U8).toNat = 1 := rfl
  refine ⟨less,?_⟩
  rw [BitVec.toNat_add,one]
  omega

theorem limit_reached {count : U8} (reached : retryLimitReached cfg count = true) :
    cfg.timing.maxRetries.toNat ≤ count.toNat := by
  simpa [retryLimitReached,BitVec.ule] using reached

theorem elapsed_le {startMs durationMs : U32} (late : elapsed nowMs startMs durationMs = true) :
    durationMs ≤ nowMs - startMs := by
  simpa [elapsed,BitVec.ule,BitVec.le_def] using late

theorem elapsed_of_le {startMs durationMs : U32} (late : durationMs ≤ nowMs - startMs) :
    elapsed nowMs startMs durationMs = true := by
  simpa [elapsed,BitVec.ule,BitVec.le_def] using late

/-- An accepted SETUP. -/
theorem Ledger.sendSetup (ledger : Ledger cfg s log) (nowMs : U32) (starting : s.state = .kStarting)
    (again : s.setupSent = true → retryLimitReached cfg s.setupRetryCount = false) :
    Allowed cfg log (.sent .setup nowMs) ∧
    Ledger cfg { s with
      setupSent := true, setupLastSendMs := nowMs,
      setupRetryCount := if s.setupSent then s.setupRetryCount + 1 else s.setupRetryCount } (.sent .setup nowMs :: log) := by
  have idle : s.state ≠ .kActive := by simp [starting]
  have counted : (times .setup log).length ≤ cfg.timing.maxRetries.toNat ∧
      (times .setup log).length = (if s.setupSent then s.setupRetryCount + 1 else s.setupRetryCount).toNat ∧
      (if s.setupSent then s.setupRetryCount + 1 else s.setupRetryCount).toNat ≤ cfg.timing.maxRetries.toNat := by
    cases sent : s.setupSent with
    | false =>
      obtain ⟨none,zero⟩ := ledger.setup_none sent
      simp [none,zero]
    | true =>
      obtain ⟨below,next⟩ := limit_open (again sent)
      have length := (ledger.setup sent).1
      simp only [if_true,next]
      omega
  refine ⟨counted.1,?_⟩
  constructor
  case setup_none => intro impossible; cases impossible
  case setup =>
    intro _
    simp only [times_sent,if_true,List.length_cons,List.head?_cons,and_true]
    rw [counted.2.1]
  case setup_le => exact counted.2.2
  case slots => exact ledger.slots
  case none => simpa using ledger.none
  case segment => simpa using ledger.segment
  case segment_le => exact ledger.segment_le
  case covered => exact ledger.covered
  case passed => simpa using ledger.passed
  case bits => exact ledger.bits
  case pending => simpa using ledger.pending
  case answered => exact fun active => absurd active idle
  case open_ => exact fun active => absurd active idle
  case probe => exact fun active => absurd active idle
  case probe_le => exact ledger.probe_le
  case probe_timer => exact fun active => absurd active idle
  case waiting => exact fun active => absurd active idle

/-- An accepted PROBE. -/
theorem Ledger.sendProbe (ledger : Ledger cfg s log) (nowMs : U32) (active : s.state = .kActive) (settled : Settled s)
    (on : s.probeTimerActive = true) (below : retryLimitReached cfg s.probeRetryCount = false) :
    Allowed cfg log (.sent .probe nowMs) ∧
    Ledger cfg { s with probeLastSendMs := nowMs, probeRetryCount := s.probeRetryCount + 1 }
      (.sent .probe nowMs :: log) := by
  obtain ⟨less,next⟩ := limit_open below
  have length := ledger.probe active
  refine ⟨by simp only [Allowed]; omega,?_⟩
  constructor
  case setup_none => simpa using ledger.setup_none
  case setup => simpa using ledger.setup
  case setup_le => exact ledger.setup_le
  case slots => exact ledger.slots
  case none => simpa using ledger.none
  case segment => simpa using ledger.segment
  case segment_le => exact ledger.segment_le
  case covered => exact ledger.covered
  case passed => simpa using ledger.passed
  case bits => exact ledger.bits
  case pending => simpa using ledger.pending
  case answered => simpa using ledger.answered
  case open_ => exact ledger.open_
  case probe =>
    intro _
    simp only [probes_sent,if_true,List.length_cons,next,length]
  case probe_le => simp only [next]; omega
  case probe_timer =>
    intro _ _
    exact ⟨settled,on,by simp⟩
  case waiting => exact fun _ _ => rfl

theorem getD_set {w : Nat} (slots : List (BitVec w)) {offset : Nat} (inside : offset < slots.length) (value : BitVec w)
    (j : Nat) : (slots.set offset value).getD j 0 = if j = offset then value else slots.getD j 0 := by
  by_cases same : j = offset
  · simp [same,List.getD_eq_getElem?_getD,List.getElem?_set_self inside]
  · simp [same,List.getD_eq_getElem?_getD,List.getElem?_set_ne (Ne.symm same)]

theorem or_bit (x : U16) {offset : Nat} (inside : offset < 16) (j : Nat) :
    (x ||| (1#16 <<< offset)).getLsbD j = (x.getLsbD j || decide (j = offset)) := by
  rw [BitVec.getLsbD_or,testBit_shiftLeft_one]
  by_cases same : j = offset
  · simp [same,inside]
  · simp [same]

/-- While PROBEs are out, everything is settled. -/
theorem Ledger.no_probes (ledger : Ledger cfg s log) (active : s.state = .kActive) (unsettled : ¬ Settled s) :
    probes log = [] := by
  by_contra out
  exact unsettled (ledger.probe_timer active out).1

theorem times_apart {index other : Nat} (apart : other ≠ index) (nowMs : U32) (log : Log) :
    times (.segment index) (.sent (.segment other) nowMs :: log) = times (.segment index) log := by
  rw [times_sent,if_neg fun same => apart (Item.segment.inj same)]

/-- Why a segment may go out: it is new, or uncovered, late and within its retries. -/
def Sendable (cfg : Config) (nowMs : U32) (s : TransferSession) (offset : Nat) : Prop :=
  s.sentBitmap.getLsbD offset = true → s.acknowledgedBitmap.getLsbD offset = false ∧
    elapsed nowMs (s.segmentLastSendMs.getD offset 0) cfg.timing.retransmissionTimeoutMs = true ∧
    retryLimitReached cfg (s.segmentRetryCount.getD offset 0) = false

/-- The retry count of a segment that goes out. -/
def nextRetryCount (s : TransferSession) (offset : Nat) : U8 :=
  if s.sentBitmap.getLsbD offset then s.segmentRetryCount.getD offset 0 + 1 else 0

/-- The next retry count is the number of times that the segment went out, and within the limit. -/
theorem Ledger.segment_counted (ledger : Ledger cfg s log) {offset : Nat} (sendable : Sendable cfg nowMs s offset) :
    (times (.segment (s.acknowledgedCount + offset)) log).length = (nextRetryCount s offset).toNat ∧
      (nextRetryCount s offset).toNat ≤ cfg.timing.maxRetries.toNat := by
  unfold nextRetryCount
  cases sent : s.sentBitmap.getLsbD offset with
  | false =>
    have none := ledger.none (s.acknowledgedCount + offset) (by omega) (by rw [Nat.add_sub_cancel_left]; exact sent)
    simp [none]
  | true =>
    obtain ⟨-,-,below⟩ := sendable sent
    obtain ⟨less,next⟩ := limit_open below
    have length := (ledger.segment offset sent).1
    simp only [if_true,next]
    omega

theorem Ledger.segment_allowed (ledger : Ledger cfg s log) {offset : Nat} (sendable : Sendable cfg nowMs s offset) :
    Allowed cfg log (.sent (.segment (s.acknowledgedCount + offset)) nowMs) := by
  obtain ⟨count,within⟩ := ledger.segment_counted sendable
  refine ⟨count.trans_le within,fun before => ?_⟩
  have sent : s.sentBitmap.getLsbD offset = true := by
    by_contra clear
    exact before (ledger.none (s.acknowledgedCount + offset) (by omega)
      (by rw [Nat.add_sub_cancel_left]; simpa using clear))
  obtain ⟨uncovered,late,-⟩ := sendable sent
  refine ⟨?_,_,(ledger.segment offset sent).2,elapsed_le late⟩
  intro covered
  have set := ledger.covered (s.acknowledgedCount + offset) (by omega) covered
  rw [Nat.add_sub_cancel_left,uncovered] at set
  cases set

/-- An accepted segment. -/
theorem Ledger.sendSegment (ledger : Ledger cfg s log) {offset : Nat} (active : s.state = .kActive) (inside : offset < 16)
    (unsettled : ¬ Settled s) (sendable : Sendable cfg nowMs s offset) :
    Ledger cfg { s with
      sentBitmap := s.sentBitmap ||| (1#16 <<< offset),
      segmentLastSendMs := s.segmentLastSendMs.set offset nowMs,
      segmentRetryCount := s.segmentRetryCount.set offset (nextRetryCount s offset),
      probeTimerActive := false } (.sent (.segment (s.acknowledgedCount + offset)) nowMs :: log) := by
  obtain ⟨lastSlots,retrySlots⟩ := ledger.slots
  have calm := ledger.no_probes active unsettled
  obtain ⟨count,within⟩ := ledger.segment_counted sendable
  constructor
  case setup_none => simpa using ledger.setup_none
  case setup => simpa using ledger.setup
  case setup_le => exact ledger.setup_le
  case slots => exact ⟨by simpa using lastSlots,by simpa using retrySlots⟩
  case none =>
    intro index above clear
    simp only [or_bit _ inside,Bool.or_eq_false_iff,decide_eq_false_iff_not] at clear
    rw [times_apart (by omega)]
    exact ledger.none index above clear.1
  case segment =>
    intro j set
    simp only [getD_set _ (show offset < s.segmentLastSendMs.length by omega),
      getD_set _ (show offset < s.segmentRetryCount.length by omega)]
    by_cases same : j = offset
    · subst same
      simp [times_sent,count]
    · simp only [or_bit _ inside,same,decide_false,Bool.or_false] at set
      rw [times_apart (by omega),if_neg same,if_neg same]
      exact ledger.segment j set
  case segment_le =>
    intro j
    simp only [getD_set _ (show offset < s.segmentRetryCount.length by omega)]
    split
    · exact within
    · exact ledger.segment_le j
  case covered => exact ledger.covered
  case passed =>
    intro index (below : index < s.acknowledgedCount) sent
    rw [times_apart (by omega)] at sent
    exact ledger.passed index below sent
  case bits => exact ledger.bits
  case pending => simpa using ledger.pending
  case answered => simpa using ledger.answered
  case open_ => exact ledger.open_
  case probe => simpa using ledger.probe
  case probe_le => exact ledger.probe_le
  case probe_timer =>
    intro _ out
    simp [calm] at out
  case waiting =>
    intro _ on
    cases on

/-- The probe timer starts. -/
theorem Ledger.arm (ledger : Ledger cfg s log) (off : s.probeTimerActive = false) :
    Ledger cfg { s with probeTimerActive := true, probeLastSendMs := nowMs } (.armed nowMs :: log) := by
  constructor
  case setup_none => simpa using ledger.setup_none
  case setup => simpa using ledger.setup
  case setup_le => exact ledger.setup_le
  case slots => exact ledger.slots
  case none => simpa using ledger.none
  case segment => simpa using ledger.segment
  case segment_le => exact ledger.segment_le
  case covered => exact ledger.covered
  case passed => simpa using ledger.passed
  case bits => exact ledger.bits
  case pending => simpa using ledger.pending
  case answered => simpa using ledger.answered
  case open_ => exact ledger.open_
  case probe => simpa using ledger.probe
  case probe_le => exact ledger.probe_le
  case probe_timer =>
    intro active out
    have on := (ledger.probe_timer active out).2.1
    rw [off] at on
    cases on
  case waiting => exact fun _ _ => rfl

theorem Ledger.disarm (ledger : Ledger cfg s log) (active : s.state = .kActive) (unsettled : ¬ Settled s) :
    Ledger cfg { s with probeTimerActive := false, probeRetryCount := 0 } log := by
  have calm := ledger.no_probes active unsettled
  refine { ledger with probe := ?_, probe_le := ?_, probe_timer := ?_, waiting := ?_ }
  · intro _
    simp [calm]
  · simp
  · intro _ out
    exact absurd calm out
  · intro _ on
    cases on

/-! ### ACKs -/

/-- A shifted slot array holds each slot at its new offset. -/
theorem shiftSlots_getD {w : Nat} (slots : List (BitVec w)) (count j : Nat) :
    (shiftSlots count slots).getD j 0 = slots.getD (j + count) 0 := by
  unfold shiftSlots
  simp only [List.getD_eq_getElem?_getD]
  by_cases inside : j < (slots.drop count).length
  · rw [List.getElem?_append_left inside,List.getElem?_drop,Nat.add_comm]
  · rw [List.length_drop] at inside
    rw [List.getElem?_append_right (by rw [List.length_drop]; omega),
      List.getElem?_eq_none (show slots.length ≤ j + count by omega),List.getElem?_replicate]
    split <;> rfl

theorem shiftSlots_length {w : Nat} (slots : List (BitVec w)) {count : Nat} (inside : count ≤ slots.length) :
    (shiftSlots count slots).length = slots.length := by
  rw [shiftSlots,List.length_append,List.length_drop,List.length_replicate]
  omega

/-- What shifting the window does to the slots, and that it touches no other counter. -/
theorem shiftWindow_slots (slots : s.segmentLastSendMs.length = 16 ∧ s.segmentRetryCount.length = 16) (count : Nat) :
    ((shiftWindow count s).segmentLastSendMs.length = 16 ∧ (shiftWindow count s).segmentRetryCount.length = 16) ∧
    (∀ j, (shiftWindow count s).segmentLastSendMs.getD j 0 = s.segmentLastSendMs.getD (j + count) 0) ∧
    (∀ j, (shiftWindow count s).segmentRetryCount.getD j 0 = s.segmentRetryCount.getD (j + count) 0) := by
  have width : kCompactWindowWidth = 16 := rfl
  have beyond {w : Nat} {cells : List (BitVec w)} (length : cells.length = 16) {j : Nat} (far : 16 ≤ count) :
      (List.replicate kCompactWindowWidth (0 : BitVec w)).getD j 0 = cells.getD (j + count) 0 := by
    rw [List.getD_eq_getElem?_getD,List.getD_eq_getElem?_getD,
      List.getElem?_eq_none (show cells.length ≤ j + count by omega),List.getElem?_replicate]
    split <;> rfl
  unfold shiftWindow
  by_cases zero : count = 0
  · rw [if_pos zero,zero]
    exact ⟨slots,fun _ => rfl,fun _ => rfl⟩
  rw [if_neg zero]
  by_cases far : count ≥ kCompactWindowWidth
  · rw [if_pos far]
    exact ⟨⟨rfl,rfl⟩,fun _ => beyond slots.1 (by omega),fun _ => beyond slots.2 (by omega)⟩
  · rw [if_neg far]
    exact ⟨⟨(shiftSlots_length _ (by omega)).trans slots.1,(shiftSlots_length _ (by omega)).trans slots.2⟩,
      shiftSlots_getD _ _,shiftSlots_getD _ _⟩

theorem shiftWindow_setup (count : Nat) (s : TransferSession) :
    (shiftWindow count s).setupRetryCount = s.setupRetryCount ∧
      (shiftWindow count s).setupLastSendMs = s.setupLastSendMs := by
  unfold shiftWindow
  split
  · exact ⟨rfl,rfl⟩
  · split <;> exact ⟨rfl,rfl⟩

/-- What an ACK that applies covers is acknowledged in the bitmap behind it. -/
theorem Ledger.ack_covered (ledger : Ledger cfg s log) {ack : Ack} (applies : Applies s ack) {index : Nat}
    (above : s.acknowledgedCount + ackAdvance s ack ≤ index)
    (covered : Covered index (.acked ack (s.acknowledgedCount + ackAdvance s ack) :: log)) :
    (acknowledge s ack).acknowledgedBitmap.getLsbD (index - (s.acknowledgedCount + ackAdvance s ack)) = true := by
  rw [acknowledge_acknowledgedBitmap,BitVec.getLsbD_or,BitVec.getLsbD_and,BitVec.getLsbD_and,BitVec.getLsbD_ushiftRight,
    BitVec.getLsbD_ushiftRight,
    show ackAdvance s ack + (index - (s.acknowledgedCount + ackAdvance s ack)) = index - s.acknowledgedCount by omega]
  rcases covered with ⟨sent,covers⟩ | before
  · -- The ACK's own bit: the segment was sent, and validation confined the bitmap to the span.
    have bit : ack.windowBitmap.getLsbD (index - (s.acknowledgedCount + ackAdvance s ack)) = true :=
      covers.resolve_left (by omega)
    have was : s.sentBitmap.getLsbD (index - s.acknowledgedCount) = true := by
      by_contra clear
      exact sent (ledger.none index (by omega) (by simpa using clear))
    have masked := congrArg (fun x => x.getLsbD (index - (s.acknowledgedCount + ackAdvance s ack))) applies.bitmap
    have inside := BitVec.lt_of_getLsbD bit
    have zero (j : Nat) : (0 : U16).getLsbD j = false := BitVec.getLsbD_zero
    simp only [BitVec.getLsbD_and,BitVec.getLsbD_not,bit,inside,decide_true,Bool.true_and,zero,
      Bool.not_eq_false'] at masked
    simp [bit,was,masked]
  · simp [ledger.covered index (by omega) before]

/-- What is acknowledged in the bitmap behind an ACK was so before, or the ACK covers it. -/
theorem Ledger.ack_bits (ledger : Ledger cfg s log) {ack : Ack} {j : Nat}
    (set : (acknowledge s ack).acknowledgedBitmap.getLsbD j = true) :
    Covered (s.acknowledgedCount + ackAdvance s ack + j) (.acked ack (s.acknowledgedCount + ackAdvance s ack) :: log) := by
  rw [acknowledge_acknowledgedBitmap,BitVec.getLsbD_or,Bool.or_eq_true,BitVec.getLsbD_ushiftRight] at set
  rcases set with old | new
  · refine .inr ?_
    rw [Nat.add_assoc]
    exact ledger.bits _ old
  · simp only [BitVec.getLsbD_and,BitVec.getLsbD_ushiftRight,Bool.and_eq_true] at new
    refine .inl ⟨?_,.inr ?_⟩
    · have counted := (ledger.segment _ new.2).1
      rw [Nat.add_assoc]
      intro empty
      simp [empty] at counted
    · rw [Nat.add_sub_cancel_left]
      exact new.1.1

/-- An ACK that applies: every counter moves with its segment, and the PROBEs start over. -/
theorem Ledger.ack (ledger : Ledger cfg s log) {ack : Ack} (applies : Applies s ack)
    (short : (acknowledge s ack).acknowledgedCount ≠ s.segmentCount) :
    Ledger cfg ((acknowledge s ack).withState .kActive)
      (.acked ack (s.acknowledgedCount + ackAdvance s ack) :: log) := by
  obtain ⟨lengths,lastShift,retryShift⟩ := shiftWindow_slots ledger.slots (ackAdvance s ack)
  obtain ⟨setupRetry,setupLast⟩ := shiftWindow_setup (ackAdvance s ack) s
  have shifted (j : Nat) : ((acknowledge s ack).withState .kActive).sentBitmap.getLsbD j =
      s.sentBitmap.getLsbD (ackAdvance s ack + j) := by
    rw [TransferSession.withState_sentBitmap,acknowledge_sentBitmap,BitVec.getLsbD_ushiftRight]
  constructor
  case setup_none => intro impossible; cases impossible
  case setup =>
    intro _
    rw [times_acked]
    show _ = (shiftWindow (ackAdvance s ack) s).setupRetryCount.toNat + 1 ∧
      _ = some (shiftWindow (ackAdvance s ack) s).setupLastSendMs
    rw [setupRetry,setupLast]
    exact ledger.setup applies.setup_sent
  case setup_le =>
    show (shiftWindow (ackAdvance s ack) s).setupRetryCount.toNat ≤ _
    rw [setupRetry]
    exact ledger.setup_le
  case slots => exact lengths
  case none =>
    intro index above clear
    simp only [TransferSession.withState_acknowledgedCount,acknowledge_acknowledgedCount] at above clear
    rw [shifted] at clear
    rw [times_acked]
    refine ledger.none index (by omega) ?_
    rw [show index - s.acknowledgedCount = ackAdvance s ack + (index - (s.acknowledgedCount + ackAdvance s ack)) by omega]
    exact clear
  case segment =>
    intro j set
    rw [shifted] at set
    have old := ledger.segment (ackAdvance s ack + j) set
    rw [times_acked]
    show (times (.segment (s.acknowledgedCount + ackAdvance s ack + j)) log).length =
        ((shiftWindow (ackAdvance s ack) s).segmentRetryCount.getD j 0).toNat + 1 ∧
      (times (.segment (s.acknowledgedCount + ackAdvance s ack + j)) log).head? =
        some ((shiftWindow (ackAdvance s ack) s).segmentLastSendMs.getD j 0)
    rw [retryShift,lastShift,Nat.add_comm j,Nat.add_assoc]
    exact old
  case segment_le =>
    intro j
    show ((shiftWindow (ackAdvance s ack) s).segmentRetryCount.getD j 0).toNat ≤ _
    rw [retryShift]
    exact ledger.segment_le _
  case covered =>
    intro index above covered
    simp only [TransferSession.withState_acknowledgedCount,acknowledge_acknowledgedCount] at above ⊢
    rw [TransferSession.withState_acknowledgedBitmap]
    exact ledger.ack_covered applies above covered
  case passed =>
    intro index below sent
    rw [times_acked] at sent
    by_cases old : index < s.acknowledgedCount
    · exact .inr (ledger.passed index old sent)
    · exact .inl ⟨sent,.inl below⟩
  case bits =>
    intro j set
    rw [TransferSession.withState_acknowledgedBitmap] at set
    exact ledger.ack_bits set
  case pending => intro starting; cases starting
  case answered => exact fun _ => answered_acked _ _ _
  case open_ =>
    intro _
    simpa using short
  case probe => intro _; rfl
  case probe_le => exact Nat.zero_le _
  case probe_timer =>
    intro _ out
    simp at out
  case waiting =>
    intro _ on
    cases on

/-- A transfer that starts has no counts. -/
theorem Ledger.start (cfg : Config) (log : Log) (object : Bytes) (setup : Setup) (count : Nat) :
    Ledger cfg { state := .kStarting, object := object, setup := setup, segmentCount := count } (.started :: log) := by
  constructor
  case setup_none => exact fun _ => ⟨rfl,rfl⟩
  case setup => intro impossible; cases impossible
  case setup_le => exact Nat.zero_le _
  case slots => exact ⟨rfl,rfl⟩
  case none => exact fun _ _ _ => rfl
  case segment => intro j set; simp at set
  case segment_le => simp
  case covered => intro index above covered; cases covered
  case passed => intro index below; cases below
  case bits => intro j set; simp at set
  case pending => exact fun _ => not_answered_started log
  case answered => intro active; cases active
  case open_ => intro active; cases active
  case probe => intro active; cases active
  case probe_le => exact Nat.zero_le _
  case probe_timer => intro active; cases active
  case waiting => intro active; cases active

/-! ### The invariant -/

/-- The log so far was allowed, and a running session agrees with it. -/
structure Kept (cfg : Config) (s : TransferSession) (log : Log) : Prop where
  disciplined : Disciplined cfg log
  ledger : running s = true → Ledger cfg s log

theorem Kept.idle (kept : Kept cfg s log) {s' : TransferSession} (idle : running s' = false) : Kept cfg s' log := by
  refine ⟨kept.disciplined,fun runs => ?_⟩
  rw [idle] at runs
  cases runs

/-- The segments in flight are those of the set bits that are not acknowledged. -/
theorem Ledger.inFlight_iff (ledger : Ledger cfg s log) (index : Nat) :
    InFlight index log ↔
      ∃ j, index = s.acknowledgedCount + j ∧ s.sentBitmap.getLsbD j = true ∧ s.acknowledgedBitmap.getLsbD j = false := by
  constructor
  · rintro ⟨sent,uncovered⟩
    have above : s.acknowledgedCount ≤ index := by
      by_contra below
      exact uncovered (ledger.passed index (by omega) sent)
    refine ⟨index - s.acknowledgedCount,by omega,?_,?_⟩
    · by_contra clear
      exact sent (ledger.none index above (by simpa using clear))
    · by_contra set
      have covered := ledger.bits _ (by simpa using set)
      rw [Nat.add_sub_cancel' above] at covered
      exact uncovered covered
  · rintro ⟨j,rfl,sent,open_⟩
    refine ⟨?_,?_⟩
    · intro empty
      have counted := (ledger.segment j sent).1
      simp [empty] at counted
    · intro covered
      have set := ledger.covered _ (Nat.le_add_right _ _) covered
      rw [Nat.add_sub_cancel_left,open_] at set
      cases set

/-- An item that timed out at its limit has used all its retries. -/
theorem Ledger.timedOut (ledger : Ledger cfg s log) (out : TimedOut cfg nowMs s) : Exhausted cfg nowMs log := by
  cases out with
  | setup starting sent late limit =>
    obtain ⟨length,last⟩ := ledger.setup sent
    have reached := limit_reached limit
    have bound := ledger.setup_le
    exact .setup (ledger.pending starting) (by omega) ⟨_,last,elapsed_le late⟩
  | @segment offset active inside sent open_ first late limit =>
    obtain ⟨length,last⟩ := ledger.segment offset sent
    have reached := limit_reached limit
    have bound := ledger.segment_le offset
    refine .segment (s.acknowledgedCount + offset) (ledger.answered active) ((ledger.inFlight_iff _).mpr ⟨offset,rfl,sent,open_⟩)
      ?_ (by omega) ⟨_,last,elapsed_le late⟩
    rintro lower below flying ⟨time,newest,late⟩
    obtain ⟨j,rfl,set,clear⟩ := (ledger.inFlight_iff _).mp flying
    rw [(ledger.segment j set).2] at newest
    cases newest
    have early := first j (by omega) set clear
    rw [elapsed_of_le late] at early
    cases early
  | probe active on clear late limit =>
    have reached := limit_reached limit
    have bound := ledger.probe_le
    refine .probe (ledger.answered active) ?_ (by rw [ledger.probe active]; omega)
      ⟨_,ledger.waiting active on,elapsed_le late⟩
    intro index flying
    obtain ⟨j,-,sent,open_⟩ := (ledger.inFlight_iff _).mp flying
    rw [clear j sent] at open_
    cases open_

/-- Every outcome keeps the log allowed and the session in agreement with it, and an
    abort of a running session is an exhausted item. -/
theorem Kept.outcome (kept : Kept cfg s log) {s' : TransferSession} {more : Log} (outcome : Outcome cfg nowMs s s' more) :
    Kept cfg s' (more ++ log) ∧ (running s = true → s'.state = .kAborted → Exhausted cfg nowMs (more ++ log)) := by
  have starts (starting : s.state = .kStarting) : running s = true := running_iff.mpr (.inl starting)
  have acts (active : s.state = .kActive) : running s = true := running_iff.mpr (.inr active)
  have alive {state : TransferState} (same : state = s.state) (runs : running s = true) (dead : state = .kAborted) :
      Exhausted cfg nowMs (more ++ log) := by
    rw [same] at dead
    rcases running_iff.mp runs with here | here <;> rw [here] at dead <;> cases dead
  cases outcome with
  | kept => exact ⟨kept,alive rfl⟩
  | failed => exact ⟨kept.idle rfl,fun _ dead => by cases dead⟩
  | exhausted out => exact ⟨kept.idle rfl,fun runs _ => (kept.ledger runs).timedOut out⟩
  | armed settled off => exact ⟨⟨⟨trivial,kept.disciplined⟩,fun runs => (kept.ledger runs).arm off⟩,alive rfl⟩
  | disarmed active sent unsettled =>
    exact ⟨⟨kept.disciplined,fun runs => (kept.ledger runs).disarm active unsettled⟩,alive rfl⟩
  | setup starting again =>
    obtain ⟨allowed,ledger⟩ := (kept.ledger (starts starting)).sendSetup nowMs starting again
    exact ⟨⟨⟨allowed,kept.disciplined⟩,fun _ => ledger⟩,alive rfl⟩
  | segment active inside known unsettled again =>
    have ledger := kept.ledger (acts active)
    exact ⟨⟨⟨ledger.segment_allowed again,kept.disciplined⟩,
      fun _ => ledger.sendSegment active inside unsettled again⟩,alive rfl⟩
  | probe active settled on limit =>
    obtain ⟨allowed,ledger⟩ := (kept.ledger (acts active)).sendProbe nowMs active settled on limit
    exact ⟨⟨⟨allowed,kept.disciplined⟩,fun _ => ledger⟩,alive rfl⟩

end ledger

/-! ### Calls -/

section calls
variable {cfg : Config} {t : BitsTransmitter} {log : Log}

/-- What handling the pending packet does: an ACK that passes validation, nothing to
    the session, or the end of the transfer. -/
theorem handled_cases (occupied : t.datagramOccupied = true) :
    (∃ ack, Applies t.session ack ∧ acknowledgement t = [.acked ack (t.session.acknowledgedCount + ackAdvance t.session ack)] ∧
      ((handledAlone t = (acknowledge t.session ack).withState .kCompleted) ∨
        handledAlone t = (acknowledge t.session ack).withState .kActive ∧
          (acknowledge t.session ack).acknowledgedCount ≠ t.session.segmentCount)) ∨
    (acknowledgement t = [] ∧ (handledAlone t = t.session ∨ running (handledAlone t) = false)) := by
  have silent (other : hasType t.datagramIngress.payload .kAck = false) : acknowledgement t = [] := by
    rw [acknowledgement,if_pos occupied,decodeAck,other]
    rfl
  rw [handledAlone,if_pos occupied]
  unfold handleDatagram
  dsimp only
  split
  · rename_i empty
    exact .inr ⟨silent (by rw [empty]; rfl),.inl rfl⟩
  rename_i first rest message
  cases decoded : decodeControl first with
  | none => exact .inr ⟨silent (by simp [message,hasType,decoded]),.inl rfl⟩
  | some control =>
    have typed : hasType t.datagramIngress.payload control.type = true := by
      rw [message]
      exact hasType_cons.mpr (decodeControl_eq_some decoded)
    have other (differs : control.type ≠ .kAck) : acknowledgement t = [] := by
      refine silent ?_
      by_contra has
      exact differs (hasType_unique typed (by simpa using has))
    dsimp only
    cases type : control.type with
    | kAck =>
      rw [type] at typed
      dsimp only
      unfold handleAck
      rw [acknowledgement,if_pos occupied,decodeAck,if_pos typed]
      cases read : decodeAckKnownType t.datagramIngress.payload with
      | none => exact .inr ⟨rfl,.inl rfl⟩
      | some ack =>
        dsimp only
        by_cases applies : ackApplies t.session ack = true
        · rw [if_pos applies,if_pos applies]
          refine .inl ⟨ack,ackApplies_iff.mp applies,rfl,?_⟩
          by_cases full : (acknowledge t.session ack).acknowledgedCount = (acknowledge t.session ack).segmentCount
          · rw [if_pos full]
            exact .inl rfl
          · rw [if_neg full]
            exact .inr ⟨rfl,fun same => full (same.trans (acknowledge_segmentCount _ _).symm)⟩
        · rw [if_neg applies,if_neg applies]
          exact .inr ⟨rfl,.inl rfl⟩
    | kReject =>
      refine .inr ⟨other (by simp [type]),?_⟩
      dsimp only
      unfold handleReject
      split
      · exact .inl rfl
      · split
        · exact .inr rfl
        · exact .inl rfl
    | kAbort =>
      refine .inr ⟨other (by simp [type]),?_⟩
      dsimp only
      unfold handleAbort
      split
      · exact .inl rfl
      · split
        · unfold transitionToAborted
          split
          · exact .inl rfl
          · exact .inr rfl
        · exact .inl rfl
    | kUserDatagram =>
      refine .inr ⟨other (by simp [type]),.inl ?_⟩
      dsimp only
      split <;> rfl
    | kSetup => exact .inr ⟨other (by simp [type]),.inl rfl⟩
    | kSegment => exact .inr ⟨other (by simp [type]),.inl rfl⟩
    | kProbe => exact .inr ⟨other (by simp [type]),.inl rfl⟩

/-- Handling the pending packet keeps the agreement. -/
theorem Kept.handled (kept : Kept cfg t.session log) : Kept cfg (handledAlone t) (acknowledgement t ++ log) := by
  by_cases occupied : t.datagramOccupied = true
  · rcases handled_cases occupied with ⟨ack,applies,entry,after⟩ | ⟨nothing,after⟩
    · rw [entry]
      refine ⟨⟨trivial,kept.disciplined⟩,?_⟩
      rcases after with done | ⟨going,short⟩
      · rw [done]
        intro runs
        cases runs
      · rw [going]
        intro _
        exact (kept.ledger applies.running).ack applies short
    · rw [nothing]
      rcases after with same | ended
      · rw [same]
        exact kept
      · exact kept.idle ended
  · rw [acknowledgement,handledAlone,if_neg occupied,if_neg occupied]
    exact kept

/-- The events a call adds. -/
theorem drop_trace {u : BitsTransmitter} {more : List Event} (trace : u.trace = t.trace ++ more) :
    u.trace.drop t.trace.length = more := by
  rw [trace,List.drop_left]

theorem process_kept (guarded : Guarded t) (kept : Kept cfg t.session log) (router : PacketBuffer → RouteResult)
    (nowMs : U32) : Kept cfg (process cfg router nowMs t).1.session
      (entries (.process nowMs) t (process cfg router nowMs t).1 ++ log) := by
  obtain ⟨before,slot,callbacks⟩ := drained_trace t
  have silent : before.filterMap (observed nowMs) = [] := callbacks.filterMap _ (fun _ => rfl)
  have handledKept := kept.handled
  by_cases handled : t.datagramOccupied = true → (handleDatagram t).2 = true
  · rw [process_drained handled]
    have work : Worked cfg nowMs (drained t) (processSession cfg router t.datagramOccupied nowMs (drained t)).1 :=
      processSession_worked (drained_guarded guarded) t.datagramOccupied
    obtain ⟨more,trace,outcome⟩ := work
    rw [drained_session] at outcome
    obtain ⟨worked,aborted⟩ := handledKept.outcome outcome
    have events := drop_trace (t := t) (trace.trans (by rw [slot,List.append_assoc]))
    simp only [entries,events,List.filterMap_append,silent,List.nil_append,List.append_assoc] at worked aborted ⊢
    unfold exhaustion
    split
    · rename_i out
      exact ⟨⟨aborted out.1 out.2,worked.disciplined⟩,fun runs => by
        rw [running,out.2] at runs
        cases runs⟩
    · exact worked
  · push Not at handled
    obtain ⟨occupied,unhandled⟩ := handled
    have result : process cfg router nowMs t = ((drained t).withState .kError,.kError) := by
      rw [process,drained,if_pos occupied,if_pos occupied]
      simp only [unhandled]
      rfl
    have events : ((drained t).withState .kError).trace.drop t.trace.length = before := drop_trace slot
    rw [result]
    have still : arming nowMs (handledAlone t) ((drained t).withState .kError).session = [] := by
      rw [← drained_session]
      exact arming_withState _ _
    simp only [entries,events,silent,still,List.reverse_nil,List.append_nil,exhaustion]
    rw [if_neg (by rintro ⟨-,impossible⟩; cases impossible),List.nil_append]
    exact handledKept.idle rfl

/-- A call whose events are no items keeps the agreement with the session it leaves. -/
theorem Kept.silent (kept : Kept cfg t.session log) {u : BitsTransmitter} (more : List Event)
    (trace : u.trace = t.trace ++ more) (silent : more.filterMap (observed 0) = [])
    (after : u.session = t.session ∨ running u.session = false) :
    Kept cfg u.session (((u.trace.drop t.trace.length).filterMap (observed 0)).reverse ++ log) := by
  rw [drop_trace trace,silent]
  rcases after with same | ended
  · rw [same]
    exact kept
  · exact kept.idle ended

theorem sendDatagram_kept (kept : Kept cfg t.session log) (router : PacketBuffer → RouteResult) (payload : Bytes) :
    Kept cfg (sendDatagram cfg router payload t).1.session
      (entries (.sendDatagram payload) t (sendDatagram cfg router payload t).1 ++ log) := by
  have encodes : Encodes (encodeUserDatagram payload) (payload.length + kUserDatagramHeaderSize) (userDatagramBytes payload) :=
    ⟨fun _ size => encodeUserDatagram_exact size,rfl⟩
  have other : itemOf (userDatagramBytes payload) = none := itemOf_other .kUserDatagram (hasType_cons.mpr rfl) (by decide)
  unfold sendDatagram
  split
  · exact kept.silent [] (by simp) rfl (.inl rfl)
  · obtain ⟨more,trace,session,seen⟩ := sendEncoded_observed cfg router 0 t .kNormal encodes
    refine kept.silent more trace ?_ (.inl session)
    rw [seen,other]
    split <;> rfl

theorem abort_kept (kept : Kept cfg t.session log) (router : PacketBuffer → RouteResult) :
    Kept cfg (abort cfg router t).1.session (entries .abort t (abort cfg router t).1 ++ log) := by
  unfold abort
  split
  · rename_i runs
    -- The ABORT and the callback are no items, and the transfer is over.
    obtain ⟨more,trace,session,seen⟩ :=
      sendEncoded_observed cfg router 0 t .kNormal (abort_encodes ⟨t.session.setup.sessionId⟩)
    have other : itemOf (abortBytes ⟨t.session.setup.sessionId⟩) = none :=
      itemOf_other .kAbort (hasType_cons.mpr rfl) (by decide)
    have nothing : more.filterMap (observed 0) = [] := by
      rw [seen,other]
      split <;> rfl
    have unaborted : (sendAbort cfg router t).1.session.state ≠ .kAborted := by
      rw [sendAbort,session]
      rcases running_iff.mp runs with state | state <;> simp [state]
    simp only [transitionToAborted,if_neg unaborted]
    refine kept.silent (more ++ [.callback .onTransferAborted]) ?_ ?_ (.inr rfl)
    · simp only [emit,BitsTransmitter.withTrace_trace,BitsTransmitter.withState,BitsTransmitter.withSession_trace]
      rw [sendAbort,trace,List.append_assoc]
    · rw [List.filterMap_append,nothing]
      rfl
  · exact kept.silent [] (by simp) rfl (.inl rfl)

theorem startTransfer_kept (kept : Kept cfg t.session log) (object : Bytes) (segmentSize : U16)
    (sessionId initialSequenceNumber : U8) :
    Kept cfg (startTransfer object segmentSize sessionId initialSequenceNumber t).1.session
      (entries (.startTransfer object segmentSize sessionId initialSequenceNumber) t
        (startTransfer object segmentSize sessionId initialSequenceNumber t).1 ++ log) := by
  rcases startTransfer_cases object segmentSize sessionId initialSequenceNumber t with startable | ⟨same,-⟩
  · rw [startTransfer_eq sessionId initialSequenceNumber startable]
    simp only [entries,emit,BitsTransmitter.withTrace_trace,BitsTransmitter.withTrace_session,
      BitsTransmitter.withSession_trace,BitsTransmitter.withSession_session,List.drop_left]
    exact ⟨⟨trivial,kept.disciplined⟩,fun _ => Ledger.start ..⟩
  · rw [same]
    exact kept.silent [] (by simp) rfl (.inl rfl)

theorem call_kept (guarded : Guarded t) (kept : Kept cfg t.session log) (c : Call × (PacketBuffer → RouteResult)) :
    Kept cfg (call cfg t c).1.session (entries c.1 t (call cfg t c).1 ++ log) := by
  obtain ⟨c,router⟩ := c
  cases c with
  | startTransfer object segmentSize sessionId initialSequenceNumber =>
    exact startTransfer_kept kept object segmentSize sessionId initialSequenceNumber
  | receive packet =>
    have same : (receive cfg packet t).1.trace = t.trace ∧ (receive cfg packet t).1.session = t.session := by
      rcases receive_cases cfg packet t with ⟨-,-,copy,-,taken⟩ | ⟨-,refused⟩
      · rw [taken]
        exact ⟨rfl,rfl⟩
      · rw [refused]
        exact ⟨rfl,rfl⟩
    exact kept.silent [] (by rw [List.append_nil]; exact same.1) rfl (.inl same.2)
  | process nowMs => exact process_kept guarded kept router nowMs
  | sendDatagram payload => exact sendDatagram_kept kept router payload
  | abort => exact abort_kept kept router

end calls
/-- Every run keeps the agreement, and its transmitter is the one of the plain run. -/
theorem runLogged_kept (cfg : Config) (datagramIngress transmitPacket : PacketBuffer)
    (calls : List (Call × (PacketBuffer → RouteResult))) :
    (runLogged cfg datagramIngress transmitPacket calls).1 = run cfg datagramIngress transmitPacket calls ∧
      Kept cfg (runLogged cfg datagramIngress transmitPacket calls).1.session
        (runLogged cfg datagramIngress transmitPacket calls).2 := by
  induction calls using List.reverseRecOn with
  | nil => exact ⟨rfl,trivial,fun runs => by cases runs⟩
  | append_singleton calls c ih =>
    obtain ⟨same,kept⟩ := ih
    rw [runLogged,List.foldl_append,run_append]
    rw [runLogged] at same kept
    refine ⟨?_,?_⟩
    · simp only [List.foldl_cons,List.foldl_nil,callLogged,same]
    · refine call_kept ?_ kept c
      rw [same]
      exact (run_history cfg datagramIngress transmitPacket calls).1

/-- The retry counters of a running session, as numbers: how often the log has each
    item after its first transmission, and the PROBEs since the latest ACK. -/
structure Counts (cfg : Config) (s : TransferSession) (log : Log) : Prop where
  setup : s.setupSent = true → s.setupRetryCount.toNat + 1 = (times .setup log).length
  segment : ∀ j, s.sentBitmap.getLsbD j = true →
    (s.segmentRetryCount.getD j 0).toNat + 1 = (times (.segment (s.acknowledgedCount + j)) log).length
  probe : s.state = .kActive → s.probeRetryCount.toNat = (probes log).length
  bounded : s.setupRetryCount.toNat ≤ cfg.timing.maxRetries.toNat ∧
    (∀ j, (s.segmentRetryCount.getD j 0).toNat ≤ cfg.timing.maxRetries.toNat) ∧
    s.probeRetryCount.toNat ≤ cfg.timing.maxRetries.toNat

/-- The retransmission discipline of every run. SETUP and each segment of a transfer
    are accepted once and at most `maxRetries` times more, and so many PROBEs between
    two validated ACKs; an accepted segment is repeated only uncovered and after its
    own timeout; a transfer is given up only where the item whose timer ran out, still
    unanswered, has used all its retries; and the counters, as numbers, are the counts. -/
theorem retransmission_discipline (cfg : Config) (datagramIngress transmitPacket : PacketBuffer)
    (calls : List (Call × (PacketBuffer → RouteResult))) :
    let t := run cfg datagramIngress transmitPacket calls
    let log := (runLogged cfg datagramIngress transmitPacket calls).2
    (∀ recent older, log = recent ++ older → ∀ item, item ≠ .probe →
      (times item older).length ≤ 1 + cfg.timing.maxRetries.toNat) ∧
    (∀ recent between older, log = recent ++ (between ++ older) → (∀ entry ∈ between, entry.isAck = false) →
      (between.filterMap (Entry.timeOf .probe)).length ≤ cfg.timing.maxRetries.toNat) ∧
    (∀ recent older index nowMs, log = recent ++ .sent (.segment index) nowMs :: older →
      times (.segment index) older ≠ [] → ¬ Covered index older ∧
        Due cfg.timing.retransmissionTimeoutMs nowMs (times (.segment index) older)) ∧
    (∀ recent older nowMs, log = recent ++ .exhausted nowMs :: older → Exhausted cfg nowMs older) ∧
    (running t.session = true → Counts cfg t.session log) := by
  intro t log
  obtain ⟨same,kept⟩ := runLogged_kept cfg datagramIngress transmitPacket calls
  have disciplined : Disciplined cfg log := kept.disciplined
  refine ⟨?_,?_,?_,?_,?_⟩
  · intro recent older split item other
    rw [split] at disciplined
    exact disciplined.older.times_le other
  · intro recent between older split none
    rw [split] at disciplined
    exact disciplined.older.between none
  · intro recent older index nowMs split before
    rw [split] at disciplined
    exact disciplined.older.1.2 before
  · intro recent older nowMs split
    rw [split] at disciplined
    exact disciplined.older.1
  · intro runs
    have ledger : Ledger cfg t.session log := by
      rw [show t = (runLogged cfg datagramIngress transmitPacket calls).1 from same.symm] at runs ⊢
      exact kept.ledger runs
    exact ⟨fun sent => (ledger.setup sent).1.symm,fun j sent => (ledger.segment j sent).1.symm,
      fun active => (ledger.probe active).symm,ledger.setup_le,ledger.segment_le,ledger.probe_le⟩

/-- One retry for every item. -/
def oneRetry : Config := { pointToPoint with timing := ⟨100,250,1⟩ }

/-- Two one-byte segments: the first is acknowledged, the second never. -/
def halfAnswered : List (Call × (PacketBuffer → RouteResult)) :=
  [(.startTransfer [0xAA,0xBB] 1 9 0,fun _ => .kAccepted),(.process 0,fun _ => .kAccepted),
    (.receive (ackFromPeer ⟨9,0,1,255⟩),fun _ => .kAccepted),(.process 1,fun _ => .kAccepted),
    (.process 2,fun _ => .kAccepted),(.receive (ackFromPeer ⟨9,0,1,0⟩),fun _ => .kAccepted),
    (.process 3,fun _ => .kAccepted),(.process 102,fun _ => .kAccepted),(.process 201,fun _ => .kAccepted),
    (.process 202,fun _ => .kAccepted)]

/-- The second segment is repeated after its own timeout, and its second timeout ends the transfer. -/
theorem unanswered_segment_exhausted :
    let older : Log := [.sent (.segment 1) 102,.acked ⟨9,0,1,0⟩ 1,.sent (.segment 1) 2,.sent (.segment 0) 1,
      .acked ⟨9,0,1,255⟩ 0,.sent .setup 0,.started]
    (runLogged oneRetry (.define 16 (by decide)) (.define 16 (by decide)) halfAnswered).2 = .exhausted 202 :: older ∧
      Exhausted oneRetry 202 older ∧ Due 100 102 (times (.segment 1) older.tail) := by
  have log : (runLogged oneRetry (.define 16 (by decide)) (.define 16 (by decide)) halfAnswered).2 =
      .exhausted 202 :: [.sent (.segment 1) 102,.acked ⟨9,0,1,0⟩ 1,.sent (.segment 1) 2,.sent (.segment 0) 1,
        .acked ⟨9,0,1,255⟩ 0,.sent .setup 0,.started] := by decide
  have rules := retransmission_discipline oneRetry (.define 16 (by decide)) (.define 16 (by decide)) halfAnswered
  exact ⟨log,rules.2.2.2.1 [] _ 202 log,(rules.2.2.1 [.exhausted 202] _ 1 102 log (by decide)).2⟩

-- A SETUP nobody answers, with one retry: sent, blocked, repeated once, given up.
example : (runLogged oneRetry (.define 16 (by decide)) (.define 16 (by decide))
    [(.startTransfer [0xAA] 1 9 0,fun _ => .kAccepted),(.process 0,fun _ => .kAccepted),(.process 100,fun _ => .kFull),
      (.process 110,fun _ => .kAccepted),(.process 209,fun _ => .kAccepted),(.process 210,fun _ => .kAccepted)]).2 =
    [.exhausted 210,.sent .setup 110,.sent .setup 0,.started] := by decide

end WireSpaces.TransmitterRetries
