import WireSpaces.HostReceiver
import WireSpaces.TransmitterWindow

/-!
The host tools' stop-and-wait BITS transmitter. Times are the clock's own: of two of
them only `now - since >= retry_timeout` is ever asked, so that comparison is the
clock. Whatever bytes arrive, it sends its SETUP and the object's segments one at a
time, inside the grant and in order.
-/
namespace WireSpaces.HostTransmitter
open WireSpaces.Codec
open WireSpaces.HostReceiver (packB packH unpackB unpackH lowByte messageType baseSequence messageSetup messageSegment messageAck
  messageProbe messageReject messageAbort abortSize compactWindowWidth maximumCompactSegmentCount)

def rejectSize : Nat := 3
def ackSize : Nat := 6

def rejectReasonNames : List String :=
  ["unsupported version","unsupported profile","unsupported segment size","object too large","busy","invalid argument",
    "internal error"]

/-- What a call can raise. -/
inductive Raised where
  | structError
  | valueError (message : String)
  | protocolError (message : String)
  deriving Repr, DecidableEq

def segmentCount (totalSize segmentSize : Nat) : Nat := (totalSize + segmentSize - 1) / segmentSize

/-! ### Messages -/

def encodeSetup (sessionId initialSequence segmentSize totalSize : Nat) : Option Bytes := do
  let count := segmentCount totalSize segmentSize
  let finalSegmentIndex := count - 1
  let finalSegmentSize := totalSize - finalSegmentIndex * segmentSize
  let type ← packB messageSetup
  let sessionId ← packB sessionId
  let initialSequence ← packB initialSequence
  let reserved ← packB 0
  let finalSegmentIndex ← packH finalSegmentIndex
  let segmentSize ← packH segmentSize
  let finalSegmentSize ← packH finalSegmentSize
  return [type,sessionId,initialSequence,reserved] ++ finalSegmentIndex ++ segmentSize ++ finalSegmentSize

def encodeSegment (sessionId segmentIndex : Nat) (payload : Bytes) : Option Bytes := do
  let type ← packB messageSegment
  let sessionId ← packB sessionId
  let segmentIndex ← packH segmentIndex
  return [type,sessionId] ++ segmentIndex ++ payload

def decodeAck (payload : Bytes) : Except Raised HostReceiver.Ack :=
  if payload.length ≠ ackSize ∨ messageType payload ≠ some messageAck then .error (.valueError "invalid Compact BITS ACK")
  else .ok ⟨unpackB payload 1,unpackH payload 2,unpackB payload 4,unpackB payload 5⟩

def encodeProbe (sessionId : Nat) : Option Bytes := do
  let type ← packB messageProbe
  let sessionId ← packB sessionId
  return [type,sessionId]

def encodeAbort (sessionId : Nat) : Option Bytes := do
  let type ← packB messageAbort
  let sessionId ← packB sessionId
  return [type,sessionId]

/-! ### The transmitter -/

/-- `due now since` is `now - since >= retry_timeout`; `zero` is the initial `0.0`. -/
structure Clock (Time : Type) where
  zero : Time
  due : Time → Time → Bool

inductive State where
  | starting | active | completed | rejected | aborted
  deriving Repr, DecidableEq

structure CompactBitsTransmitter (Time : Type) where
  object : Bytes
  segmentSize : Nat
  segmentCount : Nat
  sessionId : Nat
  initialSequence : Nat
  maximumRetries : Nat
  state : State := .starting
  acknowledgedCount : Nat := 0
  grantedEnd : Nat := 0
  outstandingSegment : Option Nat := none
  lastPayload : Option Bytes := none
  lastSendTime : Time
  retryCount : Nat := 0
  blockedSince : Option Time := none

section transmitter
variable {Time : Type} (clock : Clock Time)

/-- The constructor. -/
def create (objectBytes : Bytes) (segmentSize sessionId initialSequence : Int) (maximumRetries : Nat := 10) :
    Except Raised (CompactBitsTransmitter Time) :=
  if objectBytes = [] then .error (.valueError "BITS object must not be empty")
  else if ¬(1 ≤ segmentSize ∧ segmentSize ≤ 0xFFFF) then
    .error (.valueError "segment size must fit uint16 and be nonzero")
  else
    let count := HostTransmitter.segmentCount objectBytes.length segmentSize.toNat
    if count > maximumCompactSegmentCount then .error (.valueError "object needs too many Compact BITS segments")
    else
      .ok {
        object := objectBytes, segmentSize := segmentSize.toNat, segmentCount := count
        sessionId := lowByte sessionId, initialSequence := lowByte initialSequence
        maximumRetries := maximumRetries, lastSendTime := clock.zero }

def complete (t : CompactBitsTransmitter Time) : Bool := t.state == .completed

/-- The transmitter after a call and what the call returned or raised. -/
abbrev Polled (Time : Type) := CompactBitsTransmitter Time × Except Raised (Option Bytes)

def recordSend (t : CompactBitsTransmitter Time) (payload : Bytes) (now : Time) (retransmission : Bool) : Polled Time :=
  let retryCount := if retransmission then t.retryCount + 1 else 0
  ({ t with lastPayload := some payload, lastSendTime := now, retryCount := retryCount },.ok (some payload))

/-- Leave the transfer with an ABORT. -/
def giveUp (t : CompactBitsTransmitter Time) : Polled Time :=
  let t := { t with state := .aborted }
  match encodeAbort t.sessionId with
  | none => (t,.error .structError)
  | some payload => (t,.ok (some payload))

def retryOrAbort (t : CompactBitsTransmitter Time) (now : Time) : Polled Time :=
  if t.retryCount ≥ t.maximumRetries then giveUp t
  else
    match t.lastPayload with
    | none => (t,.error (.protocolError "missing retransmission state"))
    | some payload => recordSend t payload now true

/-- The first transmission of the next segment. -/
def sendNext (t : CompactBitsTransmitter Time) (now : Time) : Polled Time :=
  let segmentIndex := t.acknowledgedCount
  let start := segmentIndex * t.segmentSize
  let segment := (t.object.drop start).take t.segmentSize
  let t := { t with outstandingSegment := some segmentIndex, blockedSince := none }
  match encodeSegment t.sessionId segmentIndex segment with
  | none => (t,.error .structError)
  | some payload => recordSend t payload now false

/-- Without a grant: wait, and ask for one after every timeout. -/
def awaitGrant (t : CompactBitsTransmitter Time) (now : Time) : Polled Time :=
  match t.blockedSince with
  | none => ({ t with blockedSince := some now },.ok none)
  | some since =>
    if clock.due now since then
      if t.retryCount ≥ t.maximumRetries then giveUp t
      else
        let t := { t with blockedSince := some now, retryCount := t.retryCount + 1 }
        match encodeProbe t.sessionId with
        | none => (t,.error .structError)
        | some payload => (t,.ok (some payload))
    else (t,.ok none)

def poll (now : Time) (t : CompactBitsTransmitter Time) : Polled Time :=
  if t.state = .completed ∨ t.state = .rejected ∨ t.state = .aborted then (t,.ok none)
  else if t.state = .starting then
    match t.lastPayload with
    | none =>
      match encodeSetup t.sessionId t.initialSequence t.segmentSize t.object.length with
      | none => (t,.error .structError)
      | some payload => recordSend t payload now false
    | some _ => if clock.due now t.lastSendTime then retryOrAbort t now else (t,.ok none)
  else if t.outstandingSegment ≠ none then
    if clock.due now t.lastSendTime then retryOrAbort t now else (t,.ok none)
  else if t.acknowledgedCount < t.grantedEnd then sendNext t now
  else awaitGrant clock t now

/-- The part of `receive` behind the checks of an ACK. -/
def applyAck (t : CompactBitsTransmitter Time) (advance grantSpan : Nat) : CompactBitsTransmitter Time :=
  let wasStarting := t.state = .starting
  let acknowledgedCount := t.acknowledgedCount + advance
  let outstandingSegment := if advance = 1 then none else t.outstandingSegment
  let clears := wasStarting ∨ advance = 1 ∨ outstandingSegment = none
  { t with
    acknowledgedCount := acknowledgedCount
    grantedEnd := max t.grantedEnd (acknowledgedCount + grantSpan)
    outstandingSegment := outstandingSegment
    lastPayload := if clears then none else t.lastPayload
    retryCount := if clears then 0 else t.retryCount
    blockedSince := if clears then none else t.blockedSince
    state := if acknowledgedCount = t.segmentCount then .completed else .active }

def ackAdvance (t : CompactBitsTransmitter Time) (ack : HostReceiver.Ack) : Nat :=
  lowByte (ack.windowBase - baseSequence t.initialSequence t.acknowledgedCount)

def ackSpan (ack : HostReceiver.Ack) : Nat := lowByte (ack.maxReceiveSequence - ack.windowBase)

def receiveAck (payload : Bytes) (t : CompactBitsTransmitter Time) : CompactBitsTransmitter Time × Except Raised Unit :=
  match decodeAck payload with
  | .error raised => (t,.error raised)
  | .ok ack =>
    if ack.sessionId ≠ t.sessionId then (t,.ok ())
    else if t.state ≠ .starting ∧ t.state ≠ .active then (t,.ok ())
    else if t.state = .starting ∧ t.lastPayload = none then (t,.ok ())
    else
      let advance := ackAdvance t ack
      let grantSpan := ackSpan ack
      if advance > 1 ∨ t.acknowledgedCount + advance > t.segmentCount ∨ grantSpan > compactWindowWidth ∨
          t.acknowledgedCount + advance + grantSpan > t.segmentCount then (t,.ok ())
      else if advance ≠ 0 ∧ t.outstandingSegment ≠ some t.acknowledgedCount then (t,.ok ())
      else (applyAck t advance grantSpan,.ok ())

def rejectReasonName (reason : Nat) : String := (rejectReasonNames[reason]?).getD ("unknown reason " ++ toString reason)

def receive (payload : Bytes) (t : CompactBitsTransmitter Time) : CompactBitsTransmitter Time × Except Raised Unit :=
  let type := messageType payload
  if type = some messageReject then
    if payload.length ≠ rejectSize ∨ unpackB payload 1 ≠ t.sessionId then (t,.ok ())
    else
      ({ t with state := .rejected },
        .error (.protocolError ("Arduino rejected BITS SETUP: " ++ rejectReasonName (unpackB payload 2))))
  else if type = some messageAbort then
    if payload.length = abortSize ∧ unpackB payload 1 = t.sessionId then
      ({ t with state := .aborted },.error (.protocolError "Arduino aborted the upload"))
    else (t,.ok ())
  else if type ≠ some messageAck then (t,.ok ())
  else receiveAck payload t

end transmitter

/-! ### What is on the wire -/

open WireSpaces.TransmitterSteps (slice segmentPdu)

section geometry
variable {Time : Type} {t : CompactBitsTransmitter Time}

/-- The SETUP of the transfer, as the firmware has it. -/
def announced (t : CompactBitsTransmitter Time) : Setup :=
  ⟨.ofNat 8 t.sessionId,.ofNat 8 t.initialSequence,.ofNat 16 (t.segmentCount - 1),.ofNat 16 t.segmentSize,
    .ofNat 16 (t.object.length - (t.segmentCount - 1) * t.segmentSize)⟩

/-- What the constructor made sure of. -/
structure Sized (t : CompactBitsTransmitter Time) : Prop where
  session : t.sessionId < 256
  initial : t.initialSequence < 256
  nonempty : t.object ≠ []
  size : 1 ≤ t.segmentSize
  size_le : t.segmentSize ≤ 65535
  count : t.segmentCount = segmentCount t.object.length t.segmentSize
  count_le : t.segmentCount ≤ 65536

/-- The last segment holds between one byte and a whole segment. -/
theorem Sized.last (sized : Sized t) :
    1 ≤ t.segmentCount ∧ (t.segmentCount - 1) * t.segmentSize < t.object.length ∧
      t.object.length ≤ (t.segmentCount - 1) * t.segmentSize + t.segmentSize := by
  have some : 0 < t.object.length := List.length_pos_iff.mpr sized.nonempty
  have size := sized.size
  have count := sized.count
  have division := Nat.div_add_mod (t.object.length + t.segmentSize - 1) t.segmentSize
  have rest := Nat.mod_lt (t.object.length + t.segmentSize - 1) (show 0 < t.segmentSize by omega)
  rw [segmentCount] at count
  rw [← count] at division
  have positive : 1 ≤ t.segmentCount := by
    rw [count]
    exact Nat.div_pos (by omega) (by omega)
  have split : t.segmentSize * t.segmentCount = (t.segmentCount - 1) * t.segmentSize + t.segmentSize := by
    rw [← Nat.succ_mul,Nat.succ_eq_add_one,Nat.sub_add_cancel positive,Nat.mul_comm]
  omega

theorem Sized.announced_toNat (sized : Sized t) :
    (announced t).sessionId.toNat = t.sessionId ∧ (announced t).initialSequenceNumber.toNat = t.initialSequence ∧
      (announced t).finalSegmentIndex.toNat + 1 = t.segmentCount ∧ (announced t).segmentSize.toNat = t.segmentSize ∧
      (announced t).finalSegmentSize.toNat = t.object.length - (t.segmentCount - 1) * t.segmentSize := by
  obtain ⟨positive,less,most⟩ := sized.last
  have size := sized.size_le
  have count := sized.count_le
  refine ⟨?_,?_,?_,?_,?_⟩
  · exact (BitVec.toNat_ofNat _ _).trans (Nat.mod_eq_of_lt sized.session)
  · exact (BitVec.toNat_ofNat _ _).trans (Nat.mod_eq_of_lt sized.initial)
  · rw [announced,BitVec.toNat_ofNat,Nat.mod_eq_of_lt (by omega)]
    omega
  · exact (BitVec.toNat_ofNat _ _).trans (Nat.mod_eq_of_lt (by omega))
  · exact (BitVec.toNat_ofNat _ _).trans (Nat.mod_eq_of_lt (by omega))

theorem encodeSetup_eq (sized : Sized t) :
    encodeSetup t.sessionId t.initialSequence t.segmentSize t.object.length = some (setupBytes (announced t)) := by
  obtain ⟨session,initial,index,size,final⟩ := sized.announced_toNat
  have indexIs : segmentCount t.object.length t.segmentSize - 1 = (announced t).finalSegmentIndex.toNat := by
    rw [← sized.count]
    omega
  simp only [encodeSetup,indexIs]
  have finalIs : t.object.length - (announced t).finalSegmentIndex.toNat * t.segmentSize =
      (announced t).finalSegmentSize.toNat := by
    rw [final,← index,Nat.add_sub_cancel]
  rw [finalIs,← session,← initial,← size]
  simp only [HostReceiver.packB_toNat,HostReceiver.packH_toNat]
  rfl

theorem encodeSegment_eq (sized : Sized t) {index : Nat} (known : index < t.segmentCount) :
    encodeSegment t.sessionId index ((t.object.drop (index * t.segmentSize)).take t.segmentSize) =
      some (segmentPdu (announced t) t.object index) := by
  obtain ⟨session,-,-,size,-⟩ := sized.announced_toNat
  have count := sized.count_le
  have small : index = (BitVec.ofNat 16 index).toNat := by
    rw [BitVec.toNat_ofNat,Nat.mod_eq_of_lt (by omega)]
  rw [encodeSegment,segmentPdu,slice,size]
  conv_lhs => rw [← session]; enter [2]; rw [small]
  simp only [HostReceiver.packB_toNat,HostReceiver.packH_toNat]
  rw [← small]
  rfl

theorem encodeProbe_eq (sized : Sized t) : encodeProbe t.sessionId = some (probeBytes ⟨(announced t).sessionId⟩) := by
  rw [encodeProbe,← sized.announced_toNat.1,HostReceiver.packB_toNat]
  rfl

theorem encodeAbort_eq (sized : Sized t) : encodeAbort t.sessionId = some (abortBytes ⟨(announced t).sessionId⟩) := by
  rw [encodeAbort,← sized.announced_toNat.1,HostReceiver.packB_toNat]
  rfl

end geometry

/-! ### What a call can do -/

section calls
variable {Time : Type} {clock : Clock Time} {t : CompactBitsTransmitter Time}

/-- The fields that no call changes. -/
def fixed (t : CompactBitsTransmitter Time) : Bytes × Nat × Nat × Nat × Nat × Nat :=
  (t.object,t.segmentSize,t.segmentCount,t.sessionId,t.initialSequence,t.maximumRetries)

/-- The window of a transfer: the counters in order, at most one segment in flight,
    and that is the next one; what would be repeated is what was sent. -/
structure Window (t : CompactBitsTransmitter Time) : Prop extends Sized t where
  base : t.acknowledgedCount ≤ t.grantedEnd
  granted : t.grantedEnd ≤ t.segmentCount
  span : t.grantedEnd ≤ t.acknowledgedCount + compactWindowWidth
  starting : t.state = .starting → t.acknowledgedCount = 0 ∧ t.grantedEnd = 0 ∧ t.outstandingSegment = none ∧
    ∀ payload, t.lastPayload = some payload → payload = setupBytes (announced t)
  outstanding : ∀ index, t.outstandingSegment = some index → index = t.acknowledgedCount ∧ index < t.grantedEnd ∧
    t.lastPayload = some (segmentPdu (announced t) t.object index)
  active : t.state = .active → t.acknowledgedCount < t.segmentCount
  completed : t.state = .completed → t.acknowledgedCount = t.segmentCount

theorem announced_congr {u : CompactBitsTransmitter Time} (same : fixed u = fixed t) : announced u = announced t := by
  simp only [fixed,Prod.mk.injEq] at same
  obtain ⟨object,size,count,session,initial,-⟩ := same
  rw [announced,announced,object,size,count,session,initial]

theorem Sized.congr {u : CompactBitsTransmitter Time} (sized : Sized t) (same : fixed u = fixed t) : Sized u := by
  simp only [fixed,Prod.mk.injEq] at same
  obtain ⟨object,size,count,session,initial,-⟩ := same
  refine ⟨?_,?_,?_,?_,?_,?_,?_⟩
  · rw [session]; exact sized.session
  · rw [initial]; exact sized.initial
  · rw [object]; exact sized.nonempty
  · rw [size]; exact sized.size
  · rw [size]; exact sized.size_le
  · rw [count,object,size]; exact sized.count
  · rw [count]; exact sized.count_le

/-- Everything a `poll` call can do. -/
inductive Poll (clock : Clock Time) (now : Time) (t : CompactBitsTransmitter Time) : Polled Time → Prop where
  | silent : Poll clock now t (t,.ok none)
  | wait : Poll clock now t ({ t with blockedSince := some now },.ok none)
  | setup (starting : t.state = .starting) (first : t.lastPayload = none) :
      Poll clock now t (recordSend t (setupBytes (announced t)) now false)
  | again {payload : Bytes} (last : t.lastPayload = some payload) (few : t.retryCount < t.maximumRetries)
      (pending : t.state = .starting ∨ t.state = .active ∧ t.outstandingSegment ≠ none) :
      Poll clock now t (recordSend t payload now true)
  | next (active : t.state = .active) (free : t.outstandingSegment = none) (room : t.acknowledgedCount < t.grantedEnd) :
      Poll clock now t (recordSend
        { t with outstandingSegment := some t.acknowledgedCount, blockedSince := none }
        (segmentPdu (announced t) t.object t.acknowledgedCount) now false)
  | probe (active : t.state = .active) (free : t.outstandingSegment = none) (few : t.retryCount < t.maximumRetries) :
      Poll clock now t ({ t with blockedSince := some now, retryCount := t.retryCount + 1 },
        .ok (some (probeBytes ⟨(announced t).sessionId⟩)))
  | abort (running : t.state = .starting ∨ t.state = .active) (many : t.maximumRetries ≤ t.retryCount) :
      Poll clock now t ({ t with state := .aborted },.ok (some (abortBytes ⟨(announced t).sessionId⟩)))

theorem giveUp_eq (sized : Sized t) :
    giveUp t = ({ t with state := .aborted },.ok (some (abortBytes ⟨(announced t).sessionId⟩))) := by
  simp only [giveUp,encodeAbort_eq sized]

/-- A timeout repeats what was sent, or leaves the transfer. -/
theorem retryOrAbort_poll (window : Window t) (now : Time)
    (pending : t.state = .starting ∧ t.lastPayload ≠ none ∨ t.state = .active ∧ t.outstandingSegment ≠ none) :
    Poll clock now t (retryOrAbort t now) := by
  unfold retryOrAbort
  by_cases many : t.retryCount ≥ t.maximumRetries
  · rw [if_pos many,giveUp_eq window.toSized]
    exact .abort (pending.imp And.left And.left) many
  rw [if_neg many]
  have last : ∃ payload, t.lastPayload = some payload := by
    rcases pending with ⟨-,sent⟩ | ⟨-,busy⟩
    · exact Option.ne_none_iff_exists'.mp sent
    · obtain ⟨index,is⟩ := Option.ne_none_iff_exists'.mp busy
      exact ⟨_,(window.outstanding index is).2.2⟩
  obtain ⟨payload,last⟩ := last
  rw [last]
  exact .again last (not_le.mp many) (pending.imp And.left id)

theorem awaitGrant_poll (window : Window t) (now : Time) (active : t.state = .active) (free : t.outstandingSegment = none) :
    Poll clock now t (awaitGrant clock t now) := by
  unfold awaitGrant
  split
  · exact .wait
  split
  · by_cases many : t.retryCount ≥ t.maximumRetries
    · rw [if_pos many,giveUp_eq window.toSized]
      exact .abort (.inr active) many
    · rw [if_neg many]
      simp only [encodeProbe_eq window.toSized]
      exact .probe active free (not_le.mp many)
  · exact .silent

theorem poll_cases (clock : Clock Time) (window : Window t) (now : Time) : Poll clock now t (poll clock now t) := by
  unfold poll
  by_cases ended : t.state = .completed ∨ t.state = .rejected ∨ t.state = .aborted
  · rw [if_pos ended]
    exact .silent
  rw [if_neg ended]
  by_cases starting : t.state = .starting
  · rw [if_pos starting]
    cases last : t.lastPayload with
    | none =>
      simp only [encodeSetup_eq window.toSized]
      exact .setup starting last
    | some payload =>
      dsimp only
      split
      · exact retryOrAbort_poll window now (.inl ⟨starting,by rw [last]; exact Option.some_ne_none _⟩)
      · exact .silent
  rw [if_neg starting]
  have active : t.state = .active := by
    cases state : t.state <;> simp_all
  by_cases busy : t.outstandingSegment ≠ none
  · rw [if_pos busy]
    split
    · exact retryOrAbort_poll window now (.inr ⟨active,busy⟩)
    · exact .silent
  rw [if_neg busy]
  have free := not_not.mp busy
  by_cases room : t.acknowledgedCount < t.grantedEnd
  · rw [if_pos room]
    simp only [sendNext,encodeSegment_eq window.toSized (room.trans_le window.granted)]
    exact .next active free room
  · rw [if_neg room]
    exact awaitGrant_poll window now active free

/-- Everything a `receive` call can do to the transmitter. -/
inductive Receive (payload : Bytes) (t : CompactBitsTransmitter Time) : CompactBitsTransmitter Time → Prop where
  | same : Receive payload t t
  | rejected (typed : messageType payload = some messageReject) : Receive payload t { t with state := .rejected }
  | aborted (typed : messageType payload = some messageAbort) : Receive payload t { t with state := .aborted }
  | acked {ack : HostReceiver.Ack} (decoded : decodeAck payload = .ok ack) (session : ack.sessionId = t.sessionId)
      (running : t.state = .starting ∧ t.lastPayload ≠ none ∨ t.state = .active) (one : ackAdvance t ack ≤ 1)
      (narrow : ackSpan ack ≤ compactWindowWidth)
      (inside : t.acknowledgedCount + ackAdvance t ack + ackSpan ack ≤ t.segmentCount)
      (sent : ackAdvance t ack = 0 ∨ t.outstandingSegment = some t.acknowledgedCount) :
      Receive payload t (applyAck t (ackAdvance t ack) (ackSpan ack))

theorem receiveAck_cases (payload : Bytes) (t : CompactBitsTransmitter Time) : Receive payload t (receiveAck payload t).1 := by
  unfold receiveAck
  split
  · exact .same
  rename_i ack decoded
  dsimp only
  split_ifs with other ended early unfit unsent
  · exact .same
  · exact .same
  · exact .same
  · exact .same
  · exact .same
  · push Not at other ended early unfit unsent
    refine .acked decoded other ?_ unfit.1 unfit.2.2.1 unfit.2.2.2 ?_
    · by_cases starting : t.state = .starting
      · exact .inl ⟨starting,early starting⟩
      · exact .inr (ended starting)
    · by_cases zero : ackAdvance t ack = 0
      · exact .inl zero
      · exact .inr (unsent zero)

theorem receive_cases (payload : Bytes) (t : CompactBitsTransmitter Time) : Receive payload t (receive payload t).1 := by
  unfold receive
  dsimp only
  split_ifs with reject other abort own plain
  · exact .same
  · exact .rejected reject
  · exact .aborted abort
  · exact .same
  · exact .same
  · exact receiveAck_cases payload t

/-! ### The window over runs -/

theorem Window.emitted (window : Window t) {state : State} (ended : state ≠ .starting ∧ state ≠ .active ∧ state ≠ .completed) :
    Window { t with state := state } := by
  refine ⟨window.toSized.congr rfl,window.base,window.granted,window.span,?_,window.outstanding,?_,?_⟩
  · exact fun is => absurd is ended.1
  · exact fun is => absurd is ended.2.1
  · exact fun is => absurd is ended.2.2

theorem window_poll {now : Time} {polled : Polled Time} (window : Window t) (did : Poll clock now t polled) :
    Window polled.1 ∧ fixed polled.1 = fixed t := by
  cases did with
  | silent => exact ⟨window,rfl⟩
  | wait => exact ⟨⟨window.toSized.congr rfl,window.base,window.granted,window.span,window.starting,window.outstanding,window.active,
      window.completed⟩,rfl⟩
  | setup starting first =>
    refine ⟨⟨window.toSized.congr rfl,window.base,window.granted,window.span,?_,?_,window.active,window.completed⟩,rfl⟩
    · intro _
      obtain ⟨acknowledged,granted,free,-⟩ := window.starting starting
      exact ⟨acknowledged,granted,free,fun payload is => (Option.some.inj is).symm⟩
    · intro index is
      have free : t.outstandingSegment = none := (window.starting starting).2.2.1
      exact absurd (free.symm.trans is) (by simp)
  | @again payload last few pending =>
    refine ⟨⟨window.toSized.congr rfl,window.base,window.granted,window.span,?_,?_,window.active,window.completed⟩,rfl⟩
    · intro starting
      obtain ⟨acknowledged,granted,free,sent⟩ := window.starting starting
      exact ⟨acknowledged,granted,free,fun other is => Option.some.inj is ▸ sent payload last⟩
    · intro index is
      obtain ⟨next,inside,sent⟩ := window.outstanding index is
      exact ⟨next,inside,last.symm.trans sent⟩
  | next active free room =>
    refine ⟨⟨window.toSized.congr rfl,window.base,window.granted,window.span,?_,?_,window.active,window.completed⟩,rfl⟩
    · exact fun starting => absurd (active.symm.trans starting) (by decide)
    · intro index is
      obtain rfl := Option.some.inj is
      exact ⟨rfl,room,rfl⟩
  | probe active free few =>
    exact ⟨⟨window.toSized.congr rfl,window.base,window.granted,window.span,window.starting,window.outstanding,window.active,
      window.completed⟩,rfl⟩
  | abort running many => exact ⟨window.emitted (by decide),rfl⟩

/-- What would be repeated is forgotten unless a segment stays in flight. -/
theorem applyAck_lastPayload {advance grantSpan : Nat} (busy : t.outstandingSegment ≠ none) (active : t.state ≠ .starting)
    (same : advance ≠ 1) : (applyAck t advance grantSpan).lastPayload = t.lastPayload := by
  simp only [applyAck]
  rw [if_neg same,if_neg (by simp [busy,active,same])]

theorem window_receive {payload : Bytes} {u : CompactBitsTransmitter Time} (window : Window t) (did : Receive payload t u) :
    Window u ∧ fixed u = fixed t := by
  cases did with
  | same => exact ⟨window,rfl⟩
  | rejected typed => exact ⟨window.emitted (by decide),rfl⟩
  | aborted typed => exact ⟨window.emitted (by decide),rfl⟩
  | @acked ack decoded session running one narrow inside sent =>
    set advance := ackAdvance t ack
    set grantSpan := ackSpan ack
    have base := window.base
    have granted := window.granted
    have span := window.span
    refine ⟨⟨window.toSized.congr rfl,?_,?_,?_,?_,?_,?_,?_⟩,rfl⟩
    · simp only [applyAck]
      omega
    · simp only [applyAck]
      omega
    · simp only [applyAck]
      omega
    · simp only [applyAck]
      split <;> simp
    · intro index is
      by_cases moved : advance = 1
      · exact absurd ((if_pos moved).symm.trans is) (by simp)
      have flying : t.outstandingSegment = some index := (if_neg moved).symm.trans is
      obtain ⟨next,below,last⟩ := window.outstanding index flying
      have active : t.state ≠ .starting := by
        intro starting
        exact absurd ((window.starting starting).2.2.1.symm.trans flying) (by simp)
      refine ⟨?_,?_,?_⟩
      · simp only [applyAck]
        omega
      · simp only [applyAck]
        omega
      · rw [applyAck_lastPayload (by rw [flying]; exact Option.some_ne_none _) active moved]
        exact last
    · simp only [applyAck]
      split
      · simp
      · intro _
        omega
    · simp only [applyAck]
      split
      · exact fun _ => by assumption
      · simp

theorem window_create {objectBytes : Bytes} {segmentSize sessionId initialSequence : Int} {maximumRetries : Nat}
    (created : create clock objectBytes segmentSize sessionId initialSequence maximumRetries = .ok t) :
    Window t ∧ t.object = objectBytes ∧ t.maximumRetries = maximumRetries ∧ t.state = .starting ∧ t.lastPayload = none ∧
      t.retryCount = 0 ∧ t.outstandingSegment = none := by
  unfold create at created
  dsimp only at created
  split_ifs at created with empty size many
  push Not at many
  obtain rfl := Except.ok.inj created
  have low (value : Int) : lowByte value < 256 := by
    rw [lowByte]
    omega
  have sizeIs : 1 ≤ segmentSize.toNat ∧ segmentSize.toNat ≤ 65535 := by omega
  refine ⟨⟨⟨low _,low _,empty,sizeIs.1,sizeIs.2,rfl,many⟩,le_refl _,Nat.zero_le _,Nat.zero_le _,?_,?_,?_,?_⟩,rfl,rfl,rfl,rfl,rfl,
    rfl⟩
  · exact fun _ => ⟨rfl,rfl,rfl,by simp⟩
  · simp
  · simp
  · simp

end calls

/-! ### Runs -/

section runs
variable {Time : Type} {clock : Clock Time}

inductive Call (Time : Type) where
  | poll (now : Time)
  | receive (payload : Bytes)

/-- A transmitter, everything it returned to be sent, and everything it raised. -/
structure Session (Time : Type) where
  tx : CompactBitsTransmitter Time
  sent : List Bytes := []
  raised : List Raised := []

def failures {α : Type} : Except Raised α → List Raised
  | .ok _ => []
  | .error raised => [raised]

def outputs : Except Raised (Option Bytes) → List Bytes
  | .ok (some payload) => [payload]
  | _ => []

def perform (clock : Clock Time) (s : Session Time) : Call Time → Session Time
  | .poll now =>
    let polled := poll clock now s.tx
    ⟨polled.1,s.sent ++ outputs polled.2,s.raised ++ failures polled.2⟩
  | .receive payload =>
    let received := receive payload s.tx
    ⟨received.1,s.sent,s.raised ++ failures received.2⟩

def run (clock : Clock Time) (t : CompactBitsTransmitter Time) (calls : List (Call Time)) : Session Time :=
  calls.foldl (perform clock) { tx := t }

/-- The indices of the SEGMENTs among some messages. -/
def segmentIndices (sent : List Bytes) : List Nat :=
  (sent.filterMap decodeSegmentHeader).map fun header => header.segmentIndex.toNat

theorem segmentIndices_append (left right : List Bytes) :
    segmentIndices (left ++ right) = segmentIndices left ++ segmentIndices right := by
  rw [segmentIndices,List.filterMap_append,List.map_append]
  rfl

theorem segmentIndices_other {pdu : Bytes} (other : hasType pdu .kSegment = false) : segmentIndices [pdu] = [] := by
  simp [segmentIndices,decodeSegmentHeader,other]

theorem segmentIndices_segmentPdu (setup : Setup) (object : Bytes) {index : Nat} (small : index < 65536) :
    segmentIndices [segmentPdu setup object index] = [index] := by
  have typed : hasType (segmentPdu setup object index) .kSegment = true := by
    simp [segmentPdu,segmentHeaderBytes,hasType_encodeControl]
  simp only [segmentIndices,decodeSegmentHeader,List.filterMap_cons,List.filterMap_nil,typed,if_true]
  rw [segmentPdu,decodeSegmentHeader_segmentHeaderBytes]
  simp [Nat.mod_eq_of_lt small]

theorem segmentPdu_injective {setup : Setup} {object : Bytes} {i j : Nat} (small : i < 65536) (small' : j < 65536)
    (same : segmentPdu setup object i = segmentPdu setup object j) : i = j := by
  have indices := congrArg (fun pdu => segmentIndices [pdu]) same
  simp only [segmentIndices_segmentPdu _ _ small,segmentIndices_segmentPdu _ _ small'] at indices
  exact List.singleton_inj.mp indices

/-- The messages of a transfer up to a grant. -/
inductive Said (setup : Setup) (object : Bytes) (granted : Nat) : Bytes → Prop where
  | setup : Said setup object granted (setupBytes setup)
  | segment {index : Nat} (inside : index < granted) : Said setup object granted (segmentPdu setup object index)
  | probe : Said setup object granted (probeBytes ⟨setup.sessionId⟩)
  | abort : Said setup object granted (abortBytes ⟨setup.sessionId⟩)

theorem Said.mono {setup : Setup} {object pdu : Bytes} {granted granted' : Nat} (said : Said setup object granted pdu)
    (le : granted ≤ granted') : Said setup object granted' pdu := by
  cases said with
  | setup => exact .setup
  | segment inside => exact .segment (inside.trans_le le)
  | probe => exact .probe
  | abort => exact .abort

/-- What was said of a transfer, against the counters of its transmitter. -/
structure Spoken (setup : Setup) (object : Bytes) (s : Session Time) : Prop where
  window : Window s.tx
  setup_is : announced s.tx = setup
  object_is : s.tx.object = object
  retries : s.tx.retryCount ≤ s.tx.maximumRetries
  messages : ∀ pdu ∈ s.sent, Said setup object s.tx.grantedEnd pdu
  setups : s.sent.count (setupBytes setup) ≤ 1 + s.tx.maximumRetries
  setups_now : s.tx.state = .starting →
    s.sent.count (setupBytes setup) = if s.tx.lastPayload = none then 0 else s.tx.retryCount + 1
  segments : ∀ i < s.tx.segmentCount, s.sent.count (segmentPdu setup object i) ≤ 1 + s.tx.maximumRetries
  flying : ∀ i, s.tx.outstandingSegment = some i → s.sent.count (segmentPdu setup object i) = s.tx.retryCount + 1
  done : ∀ i < s.tx.acknowledgedCount, segmentPdu setup object i ∈ s.sent
  ordered : (segmentIndices s.sent).Pairwise (· ≤ ·)
  below : ∀ i ∈ segmentIndices s.sent, i < s.tx.acknowledgedCount ∨ s.tx.outstandingSegment = some i
  parted : abortBytes ⟨setup.sessionId⟩ ∈ s.sent → s.tx.state ≠ .starting ∧ s.tx.state ≠ .active ∧
    ∃ before, s.sent = before ++ [abortBytes ⟨setup.sessionId⟩] ∧ abortBytes ⟨setup.sessionId⟩ ∉ before
  sound : ∀ raised ∈ s.raised, raised ≠ .structError ∧ raised ≠ .protocolError "missing retransmission state"

/-- Messages of different types are different. -/
theorem ne_of_type {left right : Bytes} {type : MessageType} (typed : hasType left type = true) (other : hasType right type = false) :
    left ≠ right := by
  rintro rfl
  rw [typed] at other
  cases other

section types
variable (setup : Setup) (object : Bytes) (index : Nat) (sessionId : U8)

theorem hasType_setupBytes (type : MessageType) : hasType (setupBytes setup) type = (type == .kSetup) := by
  rw [setupBytes,List.append_assoc,List.append_assoc,List.cons_append,hasType_encodeControl]
  cases type <;> rfl

theorem hasType_segmentPdu (type : MessageType) : hasType (segmentPdu setup object index) type = (type == .kSegment) := by
  rw [segmentPdu,segmentHeaderBytes,List.append_assoc,List.cons_append,hasType_encodeControl]
  cases type <;> rfl

theorem hasType_probeBytes (type : MessageType) : hasType (probeBytes ⟨sessionId⟩) type = (type == .kProbe) := by
  rw [probeBytes,hasType_encodeControl]
  cases type <;> rfl

theorem hasType_abortBytes (type : MessageType) : hasType (abortBytes ⟨sessionId⟩) type = (type == .kAbort) := by
  rw [abortBytes,hasType_encodeControl]
  cases type <;> rfl

end types

theorem spoken_create {objectBytes : Bytes} {segmentSize sessionId initialSequence : Int} {maximumRetries : Nat}
    {t : CompactBitsTransmitter Time}
    (created : create clock objectBytes segmentSize sessionId initialSequence maximumRetries = .ok t) :
    Spoken (announced t) objectBytes { tx := t } := by
  obtain ⟨window,object,limit,starting,last,retries,free⟩ := window_create created
  have none := (window.starting starting).1
  refine ⟨window,rfl,object,retries.trans_le (Nat.zero_le _),by simp,by simp,?_,by simp,by simp [free],?_,List.Pairwise.nil,by simp [segmentIndices],
    by simp,by simp⟩
  · intro _
    rw [if_pos last]
    rfl
  · intro i below
    exact absurd (none ▸ below : i < 0) (Nat.not_lt_zero i)

variable {setup : Setup} {object : Bytes} {s : Session Time}

/-- A message that is neither the SETUP nor a SEGMENT is one more message. -/
theorem count_other {pdu other : Bytes} {sent : List Bytes} {type : MessageType} (typed : hasType pdu type = true)
    (differs : hasType other type = false) : (sent ++ [other]).count pdu = sent.count pdu := by
  rw [List.count_append,List.count_singleton,if_neg (by simpa using (ne_of_type typed differs).symm),Nat.add_zero]

theorem Spoken.running_unparted (spoken : Spoken setup object s) (running : s.tx.state = .starting ∨ s.tx.state = .active) :
    abortBytes ⟨setup.sessionId⟩ ∉ s.sent := by
  intro member
  obtain ⟨first,second,-⟩ := spoken.parted member
  exact running.elim first second

/-- The SETUP, first or again. -/
theorem Spoken.sayingSetup (spoken : Spoken setup object s) (starting : s.tx.state = .starting) (now : Time)
    (again : Bool) (which : again = false ∧ s.tx.lastPayload = none ∨
      again = true ∧ s.tx.lastPayload ≠ none ∧ s.tx.retryCount < s.tx.maximumRetries)
    (window : Window (recordSend s.tx (setupBytes setup) now again).1) :
    Spoken setup object { s with tx := (recordSend s.tx (setupBytes setup) now again).1, sent := s.sent ++ [setupBytes setup] } := by
  have typed : hasType (setupBytes setup) .kSetup = true := hasType_setupBytes setup _
  have free := (spoken.window.starting starting).2.2.1
  have count : (s.sent ++ [setupBytes setup]).count (setupBytes setup) =
      (recordSend s.tx (setupBytes setup) now again).1.retryCount + 1 := by
    rw [List.count_append,List.count_singleton_self,spoken.setups_now starting,recordSend]
    rcases which with ⟨rfl,first⟩ | ⟨rfl,sent,-⟩
    · rw [if_pos first]
      rfl
    · rw [if_neg sent]
      rfl
  have few : (recordSend s.tx (setupBytes setup) now again).1.retryCount ≤ s.tx.maximumRetries := by
    rcases which with ⟨rfl,-⟩ | ⟨rfl,-,few⟩
    · exact Nat.zero_le _
    · exact few
  have none : segmentIndices (s.sent ++ [setupBytes setup]) = segmentIndices s.sent := by
    rw [segmentIndices_append,segmentIndices_other (hasType_setupBytes setup _),List.append_nil]
  refine ⟨window,spoken.setup_is,spoken.object_is,few,?_,?_,?_,?_,?_,?_,?_,?_,?_,spoken.sound⟩
  · intro pdu member
    rcases List.mem_append.mp member with old | new
    · exact spoken.messages pdu old
    · rw [List.mem_singleton.mp new]
      exact .setup
  · rw [count]
    show _ ≤ 1 + s.tx.maximumRetries
    omega
  · intro _
    rw [count]
    rfl
  · intro i known
    rw [count_other (hasType_segmentPdu setup object i .kSegment) (hasType_setupBytes setup _)]
    exact spoken.segments i known
  · intro i is
    exact absurd (free.symm.trans is) (by simp)
  · intro i acknowledged
    exact List.mem_append_left _ (spoken.done i acknowledged)
  · rw [none]
    exact spoken.ordered
  · rw [none]
    exact spoken.below
  · intro member
    rcases List.mem_append.mp member with old | new
    · exact absurd old (spoken.running_unparted (.inl starting))
    · exact absurd (List.mem_singleton.mp new) (ne_of_type (hasType_abortBytes _ .kAbort) (hasType_setupBytes setup _))

/-- The segment in flight, first or again. -/
theorem Spoken.sayingSegment (spoken : Spoken setup object s) (active : s.tx.state = .active) {u : CompactBitsTransmitter Time}
    {index : Nat} (next : index = s.tx.acknowledgedCount) (window : Window u) (same : fixed u = fixed s.tx)
    (counters : u.state = .active ∧ u.acknowledgedCount = s.tx.acknowledgedCount ∧ u.grantedEnd = s.tx.grantedEnd)
    (flies : u.outstandingSegment = some index) (few : u.retryCount ≤ u.maximumRetries)
    (before : s.sent.count (segmentPdu setup object index) = u.retryCount) {pdu : Bytes}
    (pduIs : pdu = segmentPdu setup object index) : Spoken setup object { s with tx := u, sent := s.sent ++ [pdu] } := by
  subst pduIs
  obtain ⟨state,acknowledged,granted⟩ := counters
  have fields := same
  simp only [fixed,Prod.mk.injEq] at fields
  obtain ⟨objectIs,-,count,-,-,limit⟩ := fields
  have inside := (window.outstanding index flies).2.1
  have small (i : Nat) (known : i < s.tx.segmentCount) : i < 65536 := known.trans_le spoken.window.count_le
  have known : index < s.tx.segmentCount := inside.trans_le (window.granted.trans_eq count)
  have plus : (s.sent ++ [segmentPdu setup object index]).count (segmentPdu setup object index) = u.retryCount + 1 := by
    rw [List.count_append,List.count_singleton_self,before]
  have indices : segmentIndices (s.sent ++ [segmentPdu setup object index]) = segmentIndices s.sent ++ [index] := by
    rw [segmentIndices_append,segmentIndices_segmentPdu _ _ (small index known)]
  have setups : (s.sent ++ [segmentPdu setup object index]).count (setupBytes setup) = s.sent.count (setupBytes setup) :=
    count_other (hasType_setupBytes setup .kSetup) (hasType_segmentPdu setup object index _)
  have before_le : ∀ i ∈ segmentIndices s.sent, i ≤ index := by
    intro i member
    rcases spoken.below i member with less | flying
    · omega
    · exact ((spoken.window.outstanding i flying).1.trans next.symm).le
  refine ⟨window,(announced_congr same).trans spoken.setup_is,objectIs.trans spoken.object_is,few,?_,?_,?_,?_,?_,?_,?_,?_,?_,
    spoken.sound⟩
  · intro pdu member
    rcases List.mem_append.mp member with old | new
    · exact (spoken.messages pdu old).mono granted.ge
    · rw [List.mem_singleton.mp new]
      exact .segment inside
  · rw [setups]
    exact spoken.setups.trans_eq (by rw [limit])
  · exact fun starting => absurd (state.symm.trans starting) (by decide)
  · intro i inRange
    by_cases here : i = index
    · subst here
      rw [plus]
      show _ ≤ 1 + u.maximumRetries
      omega
    · have other : segmentPdu setup object index ≠ segmentPdu setup object i := by
        intro equal
        exact here (segmentPdu_injective (small _ known) (small i (count ▸ inRange)) equal).symm
      rw [List.count_append,List.count_singleton,if_neg (by simpa using other),Nat.add_zero]
      exact (spoken.segments i (count ▸ inRange)).trans_eq (by rw [limit])
  · intro i is
    obtain rfl := Option.some.inj (flies.symm.trans is)
    exact plus
  · intro i less
    exact List.mem_append_left _ (spoken.done i (acknowledged ▸ less))
  · rw [indices,List.pairwise_append]
    refine ⟨spoken.ordered,List.pairwise_singleton _ _,?_⟩
    intro i member j last
    rw [List.mem_singleton.mp last]
    exact before_le i member
  · intro i member
    rw [indices] at member
    rcases List.mem_append.mp member with old | last
    · rcases spoken.below i old with less | flying
      · exact .inl (acknowledged ▸ less)
      · rw [(spoken.window.outstanding i flying).1,← next]
        exact .inr flies
    · exact .inr (List.mem_singleton.mp last ▸ flies)
  · intro member
    rcases List.mem_append.mp member with old | new
    · exact absurd old (spoken.running_unparted (.inr active))
    · exact absurd (List.mem_singleton.mp new) (ne_of_type (hasType_abortBytes _ .kAbort) (hasType_segmentPdu setup object index _))

/-- A PROBE or an ABORT changes no count. -/
theorem Spoken.sayingOther (spoken : Spoken setup object s) (running : s.tx.state = .starting ∨ s.tx.state = .active)
    {u : CompactBitsTransmitter Time} {pdu : Bytes} (said : Said setup object s.tx.grantedEnd pdu)
    (plain : hasType pdu .kSetup = false ∧ hasType pdu .kSegment = false)
    (window : Window u) (same : fixed u = fixed s.tx) (free : s.tx.outstandingSegment = none ∨ u.retryCount = s.tx.retryCount)
    (counters : u.acknowledgedCount = s.tx.acknowledgedCount ∧ u.grantedEnd = s.tx.grantedEnd ∧
      u.outstandingSegment = s.tx.outstandingSegment)
    (few : u.retryCount ≤ u.maximumRetries) (begun : u.state ≠ .starting)
    (parting : pdu = abortBytes ⟨setup.sessionId⟩ → u.state ≠ .active) :
    Spoken setup object { s with tx := u, sent := s.sent ++ [pdu] } := by
  obtain ⟨acknowledged,granted,flying⟩ := counters
  have fields := same
  simp only [fixed,Prod.mk.injEq] at fields
  obtain ⟨objectIs,-,count,-,-,limit⟩ := fields
  have none : segmentIndices (s.sent ++ [pdu]) = segmentIndices s.sent := by
    rw [segmentIndices_append,segmentIndices_other plain.2,List.append_nil]
  have segmentCounts (i : Nat) : (s.sent ++ [pdu]).count (segmentPdu setup object i) = s.sent.count (segmentPdu setup object i) :=
    count_other (hasType_segmentPdu setup object i .kSegment) plain.2
  refine ⟨window,(announced_congr same).trans spoken.setup_is,objectIs.trans spoken.object_is,few,?_,?_,?_,?_,?_,?_,?_,?_,?_,
    spoken.sound⟩
  · intro pdu' member
    rcases List.mem_append.mp member with old | new
    · exact (spoken.messages pdu' old).mono granted.ge
    · rw [List.mem_singleton.mp new]
      exact said.mono granted.ge
  · rw [count_other (hasType_setupBytes setup .kSetup) plain.1]
    exact spoken.setups.trans_eq (by rw [limit])
  · exact fun starting => absurd starting begun
  · intro i known
    rw [segmentCounts]
    exact (spoken.segments i (count ▸ known)).trans_eq (by rw [limit])
  · intro i is
    have old : s.tx.outstandingSegment = some i := flying ▸ is
    rw [segmentCounts,spoken.flying i old]
    rcases free with none | kept
    · exact absurd (none.symm.trans old) (by simp)
    · rw [kept]
  · intro i less
    exact List.mem_append_left _ (spoken.done i (acknowledged ▸ less))
  · rw [none]
    exact spoken.ordered
  · rw [none]
    intro i member
    rw [acknowledged,flying]
    exact spoken.below i member
  · intro member
    rcases List.mem_append.mp member with old | new
    · exact absurd old (spoken.running_unparted running)
    · have last := List.mem_singleton.mp new
      exact ⟨begun,parting last.symm,s.sent,by rw [last],spoken.running_unparted running⟩

/-- Nothing is said, and the counters stay. -/
theorem Spoken.quiet (spoken : Spoken setup object s) {u : CompactBitsTransmitter Time} (window : Window u)
    (same : fixed u = fixed s.tx) (retries : u.retryCount = s.tx.retryCount)
    (counters : u.acknowledgedCount = s.tx.acknowledgedCount ∧ u.grantedEnd = s.tx.grantedEnd ∧
      u.outstandingSegment = s.tx.outstandingSegment)
    (state : u.state = s.tx.state ∧ u.lastPayload = s.tx.lastPayload ∨ u.state ≠ .starting ∧ u.state ≠ .active) :
    Spoken setup object { s with tx := u } := by
  obtain ⟨acknowledged,granted,flying⟩ := counters
  have fields := same
  simp only [fixed,Prod.mk.injEq] at fields
  obtain ⟨objectIs,-,count,-,-,limit⟩ := fields
  refine ⟨window,(announced_congr same).trans spoken.setup_is,objectIs.trans spoken.object_is,?_,?_,?_,?_,?_,?_,?_,
    spoken.ordered,?_,?_,spoken.sound⟩
  · show u.retryCount ≤ u.maximumRetries
    rw [retries,limit]
    exact spoken.retries
  · intro pdu member
    exact (spoken.messages pdu member).mono granted.ge
  · exact spoken.setups.trans_eq (by rw [limit])
  · intro starting
    rcases state with ⟨stateIs,lastIs⟩ | ended
    · show _ = if u.lastPayload = none then 0 else u.retryCount + 1
      rw [lastIs,retries]
      exact spoken.setups_now (stateIs ▸ starting)
    · exact absurd starting ended.1
  · intro i known
    exact (spoken.segments i (count ▸ known)).trans_eq (by rw [limit])
  · intro i is
    show _ = u.retryCount + 1
    rw [retries]
    exact spoken.flying i (flying ▸ is)
  · intro i less
    exact spoken.done i (acknowledged ▸ less)
  · intro i member
    show i < u.acknowledgedCount ∨ u.outstandingSegment = some i
    rw [acknowledged,flying]
    exact spoken.below i member
  · intro member
    obtain ⟨first,second,last⟩ := spoken.parted member
    rcases state with ⟨stateIs,-⟩ | ended
    · exact ⟨stateIs ▸ first,stateIs ▸ second,last⟩
    · exact ⟨ended.1,ended.2,last⟩

theorem spoken_poll (clock : Clock Time) (spoken : Spoken setup object s) (now : Time) :
    Spoken setup object (perform clock s (.poll now)) := by
  have did := poll_cases clock spoken.window now
  obtain ⟨window,same⟩ := window_poll spoken.window did
  unfold perform
  dsimp only
  generalize poll clock now s.tx = polled at did window same
  have setupIs := spoken.setup_is
  have objectIs := spoken.object_is
  have few := spoken.retries
  cases did with
  | silent => simpa only [outputs,failures,List.append_nil] using spoken
  | wait =>
    simp only [outputs,failures,List.append_nil]
    exact spoken.quiet window same rfl ⟨rfl,rfl,rfl⟩ (.inl ⟨rfl,rfl⟩)
  | setup starting first =>
    show Spoken setup object ⟨_,s.sent ++ [setupBytes (announced s.tx)],s.raised ++ []⟩
    rw [setupIs,List.append_nil] at *
    exact spoken.sayingSetup starting now false (.inl ⟨rfl,first⟩) window
  | @again payload last room pending =>
    show Spoken setup object ⟨_,s.sent ++ [payload],s.raised ++ []⟩
    rw [List.append_nil]
    rcases pending with starting | ⟨active,busy⟩
    · obtain rfl := ((spoken.window.starting starting).2.2.2 payload last).trans (congrArg setupBytes setupIs)
      exact spoken.sayingSetup starting now true (.inr ⟨rfl,by rw [last]; simp,room⟩) window
    · obtain ⟨index,flies⟩ := Option.ne_none_iff_exists'.mp busy
      obtain ⟨next,-,sent⟩ := spoken.window.outstanding index flies
      refine spoken.sayingSegment active next window same ⟨active,rfl,rfl⟩ flies room (spoken.flying index flies) ?_
      rw [← setupIs,← objectIs]
      exact Option.some.inj (last.symm.trans sent)
  | next active free room =>
    show Spoken setup object ⟨_,s.sent ++ [segmentPdu (announced s.tx) s.tx.object s.tx.acknowledgedCount],s.raised ++ []⟩
    rw [List.append_nil]
    refine spoken.sayingSegment active rfl window same ⟨active,rfl,rfl⟩ rfl (Nat.zero_le _) ?_ (by rw [setupIs,objectIs])
    -- What was sent before lies below the acknowledged count.
    refine List.count_eq_zero.mpr ?_
    intro member
    have small : s.tx.acknowledgedCount < 65536 :=
      room.trans_le (spoken.window.granted.trans spoken.window.count_le)
    obtain ⟨left,right,split⟩ := List.append_of_mem member
    have index : s.tx.acknowledgedCount ∈ segmentIndices s.sent := by
      rw [split,← List.singleton_append,segmentIndices_append,segmentIndices_append,segmentIndices_segmentPdu _ _ small]
      simp
    rcases spoken.below _ index with less | flying
    · exact absurd less (lt_irrefl _)
    · exact absurd (free.symm.trans flying) (by simp)
  | probe active free room =>
    simp only [outputs,failures,List.append_nil]
    rw [setupIs]
    refine spoken.sayingOther (.inr active) .probe ?_ window same (.inl free) ⟨rfl,rfl,rfl⟩ room ?_ ?_
    · exact ⟨hasType_probeBytes _ _,hasType_probeBytes _ _⟩
    · show s.tx.state ≠ .starting
      rw [active]
      decide
    · intro equal
      exact absurd equal.symm (ne_of_type (hasType_abortBytes _ .kAbort) (hasType_probeBytes _ _))
  | abort running many =>
    simp only [outputs,failures,List.append_nil]
    rw [setupIs]
    refine spoken.sayingOther running .abort ?_ window same (.inr rfl) ⟨rfl,rfl,rfl⟩ few (by simp) (by simp)
    exact ⟨hasType_abortBytes _ _,hasType_abortBytes _ _⟩

/-- An ACK keeps what was said in step with the counters. -/
theorem Spoken.hearing (spoken : Spoken setup object s) {ack : HostReceiver.Ack} (one : ackAdvance s.tx ack ≤ 1)
    (sent : ackAdvance s.tx ack = 0 ∨ s.tx.outstandingSegment = some s.tx.acknowledgedCount)
    (running : s.tx.state = .starting ∧ s.tx.lastPayload ≠ none ∨ s.tx.state = .active)
    (window : Window (applyAck s.tx (ackAdvance s.tx ack) (ackSpan ack))) :
    Spoken setup object { s with tx := applyAck s.tx (ackAdvance s.tx ack) (ackSpan ack) } := by
  set advance := ackAdvance s.tx ack
  have unparted := spoken.running_unparted (running.imp And.left id)
  have few := spoken.retries
  refine ⟨window,spoken.setup_is,spoken.object_is,?_,?_,spoken.setups,?_,spoken.segments,?_,?_,spoken.ordered,?_,?_,spoken.sound⟩
  · simp only [applyAck]
    split_ifs <;> omega
  · intro pdu member
    refine (spoken.messages pdu member).mono ?_
    simp only [applyAck]
    omega
  · simp only [applyAck]
    split <;> simp
  · intro i is
    by_cases moved : advance = 1
    · exact absurd ((if_pos moved).symm.trans is) (by simp)
    have flying : s.tx.outstandingSegment = some i := (if_neg moved).symm.trans is
    have begun : s.tx.state ≠ .starting := by
      intro starting
      exact absurd ((spoken.window.starting starting).2.2.1.symm.trans flying) (by simp)
    rw [spoken.flying i flying]
    simp only [applyAck]
    rw [if_neg moved,if_neg (by simp [begun,moved,flying])]
  · intro i less
    simp only [applyAck] at less
    by_cases old : i < s.tx.acknowledgedCount
    · exact spoken.done i old
    -- The newly acknowledged segment was in flight, so it was sent.
    have here : i = s.tx.acknowledgedCount := by omega
    have flying := sent.resolve_left (by omega)
    subst here
    exact List.count_pos_iff.mp (by rw [spoken.flying _ flying]; omega)
  · intro i member
    simp only [applyAck]
    rcases spoken.below i member with less | flying
    · exact .inl (by omega)
    · by_cases moved : advance = 1
      · have next := (spoken.window.outstanding i flying).1
        exact .inl (by omega)
      · rw [if_neg moved]
        exact .inr flying
  · intro member
    exact absurd member unparted

theorem receive_raises (payload : Bytes) (t : CompactBitsTransmitter Time) :
    ∀ raised ∈ failures (receive payload t).2, raised ≠ .structError ∧
      raised ≠ .protocolError "missing retransmission state" := by
  have ackRaises : ∀ raised ∈ failures (receiveAck payload t).2, raised ≠ .structError ∧
      raised ≠ .protocolError "missing retransmission state" := by
    unfold receiveAck
    cases decoded : decodeAck payload with
    | error raised =>
      unfold decodeAck at decoded
      split_ifs at decoded
      cases decoded
      simp [failures]
    | ok ack =>
      dsimp only
      split_ifs <;> simp [failures]
  have other (text : String) : "Arduino rejected BITS SETUP: " ++ text ≠ "missing retransmission state" := by
    intro same
    have letters := congrArg String.toList same
    rw [String.toList_append] at letters
    simp at letters
  unfold receive
  dsimp only
  split_ifs
  · simp [failures]
  · simp [failures,other]
  · simp [failures]
  · simp [failures]
  · simp [failures]
  · exact ackRaises

theorem spoken_receive (clock : Clock Time) (spoken : Spoken setup object s) (payload : Bytes) :
    Spoken setup object (perform clock s (.receive payload)) := by
  have did := receive_cases payload s.tx
  obtain ⟨window,same⟩ := window_receive spoken.window did
  have sound : ∀ raised ∈ s.raised ++ failures (receive payload s.tx).2,
      raised ≠ .structError ∧ raised ≠ .protocolError "missing retransmission state" := by
    intro raised member
    rcases List.mem_append.mp member with old | new
    · exact spoken.sound raised old
    · exact receive_raises payload s.tx raised new
  have heard : Spoken setup object { s with tx := (receive payload s.tx).1 } := by
    generalize (receive payload s.tx).1 = u at did window same
    cases did with
    | same => exact spoken
    | rejected typed => exact spoken.quiet window same rfl ⟨rfl,rfl,rfl⟩ (.inr (by simp))
    | aborted typed => exact spoken.quiet window same rfl ⟨rfl,rfl,rfl⟩ (.inr (by simp))
    | acked decoded session running one narrow inside sent => exact spoken.hearing one sent running window
  exact { heard with sound := sound }

theorem spoken_run (clock : Clock Time) {t : CompactBitsTransmitter Time} (spoken : Spoken setup object { tx := t }) (calls : List (Call Time)) :
    Spoken setup object (run clock t calls) := by
  induction calls using List.reverseRecOn with
  | nil => exact spoken
  | append_singleton calls call ih =>
    rw [run,List.foldl_append,List.foldl_cons,List.foldl_nil]
    cases call with
    | poll now => exact spoken_poll clock ih now
    | receive payload => exact spoken_receive clock ih payload

theorem run_fixed {t : CompactBitsTransmitter Time} (spoken : Spoken setup object { tx := t }) (calls : List (Call Time)) :
    fixed (run clock t calls).tx = fixed t := by
  induction calls using List.reverseRecOn with
  | nil => rfl
  | append_singleton calls call ih =>
    have window := (spoken_run clock spoken calls).window
    rw [run,List.foldl_append,List.foldl_cons,List.foldl_nil]
    cases call with
    | poll now => exact (window_poll window (poll_cases clock window now)).2.trans ih
    | receive payload => exact (window_receive window (receive_cases payload _)).2.trans ih

/-- Whatever is polled and whatever arrives: the counters stay in order, only the SETUP, granted segments in order,
    PROBEs and one last ABORT are sent, none of the first two more often than the retries allow, the transfer
    completes only behind every segment, and no call fails for want of state or range. -/
theorem stop_and_wait_holds (clock : Clock Time) (objectBytes : Bytes) (segmentSize sessionId initialSequence : Int)
    (maximumRetries : Nat) (t : CompactBitsTransmitter Time)
    (created : create clock objectBytes segmentSize sessionId initialSequence maximumRetries = .ok t) (calls : List (Call Time)) :
    let s := run clock t calls
    let setup := announced t
    (s.tx.acknowledgedCount ≤ s.tx.grantedEnd ∧ s.tx.grantedEnd ≤ t.segmentCount ∧
      s.tx.grantedEnd ≤ s.tx.acknowledgedCount + compactWindowWidth) ∧
    (∀ pdu ∈ s.sent, Said setup objectBytes s.tx.grantedEnd pdu) ∧
    (segmentIndices s.sent).Pairwise (· ≤ ·) ∧
    s.sent.count (setupBytes setup) ≤ 1 + maximumRetries ∧
    (∀ i < t.segmentCount, s.sent.count (segmentPdu setup objectBytes i) ≤ 1 + maximumRetries) ∧
    (complete s.tx = true → ∀ i < t.segmentCount, segmentPdu setup objectBytes i ∈ s.sent) ∧
    (abortBytes ⟨setup.sessionId⟩ ∈ s.sent → ∃ before, s.sent = before ++ [abortBytes ⟨setup.sessionId⟩] ∧
      abortBytes ⟨setup.sessionId⟩ ∉ before) ∧
    ∀ raised ∈ s.raised, raised ≠ .structError ∧ raised ≠ .protocolError "missing retransmission state" := by
  intro s setup
  have first := spoken_create created
  have spoken : Spoken setup objectBytes s := spoken_run clock first calls
  have fields : fixed s.tx = fixed t := run_fixed first calls
  have limit : t.maximumRetries = maximumRetries := (window_create created).2.2.1
  simp only [fixed,Prod.mk.injEq] at fields
  obtain ⟨-,-,count,-,-,retries⟩ := fields
  have window := spoken.window
  refine ⟨⟨window.base,count ▸ window.granted,window.span⟩,spoken.messages,spoken.ordered,?_,?_,?_,?_,spoken.sound⟩
  · rw [← limit,← retries]
    exact spoken.setups
  · rw [← limit,← retries,← count]
    exact spoken.segments
  · intro completed i known
    refine spoken.done i ?_
    rw [window.completed (by simpa [complete] using completed),count]
    exact known
  · intro member
    exact (spoken.parted member).2.2

/-- A clock of milliseconds with a timeout of two. -/
def twoTicks : Clock Nat := ⟨0,fun now since => 2 ≤ now - since⟩

/-- An upload of three bytes whose first SETUP gets lost. -/
def shortUpload : List (Call Nat) :=
  [.poll 0,.poll 1,.poll 2,.receive (ackBytes ⟨5,0,251,249⟩),.poll 3,.receive (ackBytes ⟨5,0,251,250⟩),.poll 4,
    .receive (ackBytes ⟨5,0,251,251⟩)]

def shortUploader : CompactBitsTransmitter Nat where
  object := [1,2,3]
  segmentSize := 2
  segmentCount := 2
  sessionId := 5
  initialSequence := 250
  maximumRetries := 10
  lastSendTime := 0

theorem short_upload_sends_all : complete (run twoTicks shortUploader shortUpload).tx = true ∧
    ∀ i < shortUploader.segmentCount,
      segmentPdu (announced shortUploader) [1,2,3] i ∈ (run twoTicks shortUploader shortUpload).sent :=
  have completed : complete (run twoTicks shortUploader shortUpload).tx = true := by decide
  ⟨completed,(stop_and_wait_holds twoTicks [1,2,3] 2 5 250 10 shortUploader rfl shortUpload).2.2.2.2.2.1 completed⟩

end runs

end WireSpaces.HostTransmitter
