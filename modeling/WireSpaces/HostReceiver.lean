import WireSpaces.HostLink
import WireSpaces.ReceiverLifecycle

/-!
The host tools' RAM-backed BITS receiver, over Python's unbounded integers, beside
the firmware's engine at the full window width. `none` stands for an exception out
of `struct.pack` or `bytes`; on traffic within the limits there is none, and the
two answer every PDU alike.
-/
namespace WireSpaces.HostReceiver
open WireSpaces.Words WireSpaces.Codec WireSpaces.ReceiverEngine WireSpaces.ReceiverSteps WireSpaces.ReceiverWindow

def messageSetup : Nat := 0
def messageSegment : Nat := 1
def messageAck : Nat := 2
def messageProbe : Nat := 3
def messageReject : Nat := 4
def messageAbort : Nat := 6

def rejectUnsupportedSegmentSize : Nat := 2
def rejectObjectTooLarge : Nat := 3
def rejectBusy : Nat := 4
def rejectInvalidArgument : Nat := 5

def setupSize : Nat := 10
def segmentHeaderSize : Nat := 4
def probeSize : Nat := 2
def abortSize : Nat := 2
def compactWindowWidth : Nat := 16
def maximumCompactSegmentCount : Nat := 65536

/-! ### Bytes and integers -/

/-- An integer put into one byte of a `bytes` value. -/
def packB (value : Nat) : Option U8 := if value < 256 then some (BitVec.ofNat 8 value) else none

/-- A little-endian `H` field of `struct.pack`. -/
def packH (value : Nat) : Option Bytes := if value < 65536 then some (HostLink.packH value) else none

/-- A `B` field of `struct.unpack` at its offset. -/
def unpackB (payload : Bytes) (offset : Nat) : Nat := (payload.getD offset 0).toNat

/-- A little-endian `H` field of `struct.unpack` at its offset. -/
def unpackH (payload : Bytes) (offset : Nat) : Nat := HostLink.fromBytes [payload.getD offset 0,payload.getD (offset + 1) 0]

/-- `value & 0xFF`, which Python takes of negative integers too. -/
def lowByte (value : Int) : Nat := (value % 256).toNat

def messageType : Bytes → Option Nat
  | [] => none
  | first :: _ =>
    if first &&& 0xF0 ≠ 0 then none
    else
      let type := (first &&& 0x0F).toNat
      if type ≤ messageAbort then some type else none

def sequence (initialSequence segmentIndex : Nat) : Nat := lowByte (initialSequence + segmentIndex)

def baseSequence (initialSequence contiguousCount : Nat) : Nat :=
  if contiguousCount = 0 then lowByte (initialSequence - 1) else sequence initialSequence (contiguousCount - 1)

structure Ack where
  sessionId : Nat
  windowBitmap : Nat
  maxReceiveSequence : Nat
  windowBase : Nat

def encodeAck (ack : Ack) : Option Bytes := do
  let type ← packB messageAck
  let sessionId ← packB ack.sessionId
  let windowBitmap ← packH ack.windowBitmap
  let maxReceiveSequence ← packB ack.maxReceiveSequence
  let windowBase ← packB ack.windowBase
  return [type,sessionId] ++ windowBitmap ++ [maxReceiveSequence,windowBase]

def encodeReject (sessionId reason : Nat) : Option Bytes := do
  let type ← packB messageReject
  let sessionId ← packB sessionId
  let reason ← packB reason
  return [type,sessionId,reason]

/-! ### The receiver -/

inductive State where
  | idle | active | completed | aborted
  deriving Repr, DecidableEq

structure CompactBitsReceiver where
  maximumObjectSize : Nat
  maximumSegmentSize : Nat
  state : State := .idle
  sessionId : Nat := 0
  initialSequence : Nat := 0
  segmentSize : Nat := 0
  segmentCount : Nat := 0
  contiguousCount : Nat := 0
  grantedEnd : Nat := 0
  receivedBitmap : Nat := 0
  data : Bytes := []
  deriving Repr, DecidableEq

def complete (r : CompactBitsReceiver) : Bool := r.state == .completed

/-- The `data` property: the object once it is complete. -/
def object (r : CompactBitsReceiver) : Bytes := if complete r then r.data else []

def ack (r : CompactBitsReceiver) : Option Bytes :=
  let base := baseSequence r.initialSequence r.contiguousCount
  let maximum := if r.grantedEnd > r.contiguousCount then sequence r.initialSequence (r.grantedEnd - 1) else base
  encodeAck ⟨r.sessionId,r.receivedBitmap,maximum,base⟩

/-- Return a response, unless encoding it raised. -/
def reply (r : CompactBitsReceiver) (response : Option Bytes) : Option (CompactBitsReceiver × Option Bytes) :=
  response.map fun pdu => (r,some pdu)

def receiveSetup (r : CompactBitsReceiver) (payload : Bytes) : Option (CompactBitsReceiver × Option Bytes) :=
  if payload.length ≠ setupSize then
    reply r (encodeReject (if payload.length > 1 then unpackB payload 1 else 0) rejectInvalidArgument)
  else
    let sessionId := unpackB payload 1
    let initial := unpackB payload 2
    let reserved := unpackB payload 3
    let finalSegmentIndex := unpackH payload 4
    let segmentSize := unpackH payload 6
    let finalSegmentSize := unpackH payload 8
    if reserved ≠ 0 ∨ segmentSize = 0 ∨ finalSegmentSize = 0 ∨ finalSegmentSize > segmentSize then
      reply r (encodeReject sessionId rejectInvalidArgument)
    else if segmentSize > r.maximumSegmentSize then reply r (encodeReject sessionId rejectUnsupportedSegmentSize)
    else
      let count := finalSegmentIndex + 1
      let totalSize := finalSegmentIndex * segmentSize + finalSegmentSize
      if totalSize > r.maximumObjectSize ∨ count > maximumCompactSegmentCount then
        reply r (encodeReject sessionId rejectObjectTooLarge)
      else if r.state = .active then
        if sessionId = r.sessionId ∧ initial = r.initialSequence ∧ segmentSize = r.segmentSize ∧
            totalSize = r.data.length then reply r (ack r)
        else reply r (encodeReject sessionId rejectBusy)
      else
        let r := { r with
          state := .active, sessionId := sessionId, initialSequence := initial, segmentSize := segmentSize,
          segmentCount := count, contiguousCount := 0, grantedEnd := min count compactWindowWidth,
          receivedBitmap := 0, data := List.replicate totalSize 0 }
        reply r (ack r)

/-- The loop that moves the base over the received segments. The bitmap falls each
    turn, so it bounds the turns. -/
def shiftReceived : Nat → Nat → Nat → Nat × Nat
  | 0, bitmap, count => (bitmap,count)
  | fuel + 1, bitmap, count => if bitmap &&& 1 ≠ 0 then shiftReceived fuel (bitmap >>> 1) (count + 1) else (bitmap,count)

/-- `data[offset : offset + len(segment)] = segment`. -/
def overwrite (data : Bytes) (offset : Nat) (segment : Bytes) : Bytes :=
  data.take offset ++ segment ++ data.drop (offset + segment.length)

/-- From the accepted length on: store, move the base, extend the grant. -/
def store (r : CompactBitsReceiver) (objectOffset segmentBit : Nat) (segment : Bytes) : CompactBitsReceiver :=
  let received := r.receivedBitmap ||| segmentBit
  let shifted := shiftReceived received received r.contiguousCount
  { r with
    data := overwrite r.data objectOffset segment, receivedBitmap := shifted.1, contiguousCount := shifted.2,
    grantedEnd := min r.segmentCount (shifted.2 + compactWindowWidth),
    state := if shifted.2 = r.segmentCount then .completed else r.state }

def receiveSegment (r : CompactBitsReceiver) (payload : Bytes) : Option (CompactBitsReceiver × Option Bytes) :=
  if payload.length < segmentHeaderSize then some (r,none)
  else
    let sessionId := unpackB payload 1
    let segmentIndex := unpackH payload 2
    if (r.state ≠ .active ∧ r.state ≠ .completed) ∨ sessionId ≠ r.sessionId ∨ segmentIndex ≥ r.segmentCount then
      some (r,none)
    else if segmentIndex < r.contiguousCount then reply r (ack r)
    else if r.state = .completed ∨ segmentIndex ≥ r.grantedEnd then reply r (ack r)
    else
      let windowOffset := segmentIndex - r.contiguousCount
      let segmentBit := 1 <<< windowOffset
      if r.receivedBitmap &&& segmentBit ≠ 0 then reply r (ack r)
      else
        let objectOffset := segmentIndex * r.segmentSize
        let expectedSize := min (r.segmentSize : Int) (r.data.length - objectOffset)
        let segment := payload.drop segmentHeaderSize
        if (segment.length : Int) ≠ expectedSize then some (r,none)
        else
          let r := store r objectOffset segmentBit segment
          reply r (ack r)

def receive (r : CompactBitsReceiver) (payload : Bytes) : Option (CompactBitsReceiver × Option Bytes) :=
  let type := messageType payload
  if type = some messageSetup then receiveSetup r payload
  else if type = some messageSegment then receiveSegment r payload
  else if type = some messageProbe then
    if payload.length = probeSize ∧ (r.state = .active ∨ r.state = .completed) ∧ unpackB payload 1 = r.sessionId then
      reply r (ack r)
    else some (r,none)
  else if type = some messageAbort then
    if payload.length = abortSize ∧ r.state = .active ∧ unpackB payload 1 = r.sessionId then
      some ({ r with state := .aborted },none)
    else some (r,none)
  else some (r,none)

/-! ### Integers as words -/

theorem packB_toNat (byte : U8) : packB byte.toNat = some byte := by
  rw [packB,if_pos byte.isLt,BitVec.ofNat_toNat,BitVec.setWidth_eq]

theorem packH_toNat (word : U16) : packH word.toNat = some (writeU16 word) := by
  rw [packH,if_pos word.isLt,HostLink.packH_eq]

theorem unpackH_eq (payload : Bytes) (offset : Nat) : unpackH payload offset = (readU16 payload offset).toNat := by
  have low := (payload.getD offset 0).isLt
  have high := (payload.getD (offset + 1) 0).isLt
  simp only [unpackH,HostLink.fromBytes,readU16]
  rw [BitVec.toNat_or,BitVec.toNat_shiftLeft,BitVec.toNat_setWidth,BitVec.toNat_setWidth,
    Nat.mod_eq_of_lt (show (payload.getD offset 0).toNat < 2 ^ 16 by omega),
    Nat.mod_eq_of_lt (show (payload.getD (offset + 1) 0).toNat < 2 ^ 16 by omega),Nat.shiftLeft_eq,
    Nat.mod_eq_of_lt (show (payload.getD (offset + 1) 0).toNat * 2 ^ 8 < 2 ^ 16 by omega),Nat.lor_comm,
    ← Nat.shiftLeft_eq,← Nat.shiftLeft_add_eq_or_of_lt low,Nat.shiftLeft_eq]
  omega

theorem sequence_eq (setup : Setup) (segmentIndex : Nat) :
    sequence setup.initialSequenceNumber.toNat segmentIndex = (sequenceFor setup segmentIndex).toNat := by
  rw [sequence,lowByte,sequenceFor,BitVec.toNat_add,BitVec.toNat_ofNat]
  omega

theorem baseSequence_eq (setup : Setup) (contiguousCount : Nat) :
    baseSequence setup.initialSequenceNumber.toNat contiguousCount =
      (ReceiverEngine.baseSequence setup contiguousCount).toNat := by
  unfold baseSequence ReceiverEngine.baseSequence
  by_cases zero : contiguousCount = 0
  · have small := setup.initialSequenceNumber.isLt
    rw [if_pos zero,if_pos zero,lowByte,BitVec.toNat_sub]
    simp only [BitVec.ofNat_eq_ofNat,BitVec.toNat_ofNat]
    omega
  · rw [if_neg zero,if_neg zero,sequence_eq]

/-- Both sides read the control byte alike. -/
theorem messageType_cons (first : U8) (rest : Bytes) :
    messageType (first :: rest) = (decodeControl first).map (fun control => control.type.value.toNat) := by
  have all : ∀ byte : Fin 256, messageType [BitVec.ofFin byte] =
      (decodeControl (BitVec.ofFin byte)).map (fun control => control.type.value.toNat) := by
    decide +kernel
  exact all first.toFin

theorem messageType_of_hasType {message : Bytes} {type : MessageType} (typed : hasType message type = true) :
    messageType message = some type.value.toNat := by
  cases message with
  | nil => cases typed
  | cons first rest =>
    rw [messageType_cons,hasType_cons.mp typed,decodeControl_encodeControl]
    rfl

/-- `receiveSetup` on the fields of a SETUP without reserved bits. -/
theorem receiveSetup_decoded {message : Bytes} {requested : Setup}
    (decoded : decodeSetupKnownType message = some requested) (r : CompactBitsReceiver) :
    let totalSize := requested.finalSegmentIndex.toNat * requested.segmentSize.toNat + requested.finalSegmentSize.toNat
    receiveSetup r message =
      if requested.segmentSize = 0 ∨ requested.finalSegmentSize = 0 ∨
          requested.finalSegmentSize.toNat > requested.segmentSize.toNat then
        reply r (encodeReject requested.sessionId.toNat rejectInvalidArgument)
      else if requested.segmentSize.toNat > r.maximumSegmentSize then
        reply r (encodeReject requested.sessionId.toNat rejectUnsupportedSegmentSize)
      else if totalSize > r.maximumObjectSize ∨ requested.finalSegmentIndex.toNat + 1 > maximumCompactSegmentCount then
        reply r (encodeReject requested.sessionId.toNat rejectObjectTooLarge)
      else if r.state = .active then
        if requested.sessionId.toNat = r.sessionId ∧ requested.initialSequenceNumber.toNat = r.initialSequence ∧
            requested.segmentSize.toNat = r.segmentSize ∧ totalSize = r.data.length then reply r (ack r)
        else reply r (encodeReject requested.sessionId.toNat rejectBusy)
      else
        let r := { r with
          state := .active, sessionId := requested.sessionId.toNat,
          initialSequence := requested.initialSequenceNumber.toNat, segmentSize := requested.segmentSize.toNat,
          segmentCount := requested.finalSegmentIndex.toNat + 1, contiguousCount := 0,
          grantedEnd := min (requested.finalSegmentIndex.toNat + 1) compactWindowWidth,
          receivedBitmap := 0, data := List.replicate totalSize 0 }
        reply r (ack r) := by
  obtain ⟨checks,fields⟩ := Option.ite_none_left_eq_some.mp decoded
  push Not at checks
  have zero (x : U16) : x = 0 ↔ x.toNat = 0 := by rw [← BitVec.toNat_inj]; rfl
  have reserved : unpackB message 3 = 0 := congrArg BitVec.toNat checks.2
  cases fields
  simp only [receiveSetup,zero,unpackH_eq,reserved,ne_eq,not_true_eq_false,false_or]
  rw [if_neg (show ¬ ¬ message.length = setupSize from not_not.mpr checks.1)]
  rfl

/-- The two loops move the base alike. -/
theorem shiftReceived_eq {turns fuel : Nat} {bitmap : U16} (few : bitmap.toNat < 2 ^ turns) (enough : bitmap.toNat ≤ fuel)
    (count : Nat) : shiftReceived fuel bitmap.toNat count =
      ((shiftOnes turns bitmap count).1.toNat,(shiftOnes turns bitmap count).2) := by
  induction turns generalizing fuel bitmap count with
  | zero =>
    have zero : bitmap.toNat = 0 := by omega
    rw [zero,shiftOnes,zero]
    cases fuel <;> rfl
  | succ turns ih =>
    have odd : bitmap.toNat &&& 1 ≠ 0 ↔ bitmap &&& 1#16 ≠ 0#16 := by
      rw [ne_eq,ne_eq,← BitVec.toNat_inj,BitVec.toNat_and]
      rfl
    cases fuel with
    | zero =>
      have zero : bitmap = 0 := BitVec.eq_of_toNat_eq (by simpa using enough)
      subst zero
      rfl
    | succ fuel =>
      rw [shiftReceived,shiftOnes]
      by_cases set : bitmap.toNat &&& 1 ≠ 0
      · have half : bitmap.toNat >>> 1 = (bitmap >>> 1).toNat := by rw [BitVec.toNat_ushiftRight]
        have less : (bitmap >>> 1).toNat = bitmap.toNat / 2 := by rw [← half,Nat.shiftRight_one]
        have positive : bitmap.toNat ≠ 0 := by
          rintro zero
          rw [zero] at set
          exact set rfl
        rw [if_pos set,if_pos (odd.mp set),half]
        exact ih (by omega) (by omega) (count + 1)
      · rw [if_neg set,if_neg (fun on => set (odd.mpr on))]

end WireSpaces.HostReceiver
