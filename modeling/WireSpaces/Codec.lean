import WireSpaces.Words

/-!
The Compact BITS wire format: message values, the control byte, and the seven
little-endian layouts with their length and field checks. A mutable span is the
list of bytes it holds; an encoder returns what the span holds afterwards.
-/
namespace WireSpaces.Codec

abbrev U8 := BitVec 8
abbrev U16 := BitVec 16
abbrev U32 := BitVec 32
abbrev Bytes := List U8

def kProtocolVersion : U8 := 0
def kCompactProfile : U8 := 0
def kCompactWindowWidth : Nat := 16
def kSetupSize : Nat := 10
def kSegmentHeaderSize : Nat := 4
def kAckSize : Nat := 6
def kProbeSize : Nat := 2
def kRejectSize : Nat := 3
def kAbortSize : Nat := 2
def kUserDatagramHeaderSize : Nat := 1
def kMaximumCompactSegmentCount : Nat := 65536

/-- Message type carried in the low nibble of the control byte. -/
inductive MessageType where
  | kSetup | kSegment | kAck | kProbe | kReject | kUserDatagram | kAbort
  deriving Repr, DecidableEq

def MessageType.value : MessageType → U8
  | .kSetup => 0
  | .kSegment => 1
  | .kAck => 2
  | .kProbe => 3
  | .kReject => 4
  | .kUserDatagram => 5
  | .kAbort => 6

def MessageType.ofValue : Nat → Option MessageType
  | 0 => some .kSetup
  | 1 => some .kSegment
  | 2 => some .kAck
  | 3 => some .kProbe
  | 4 => some .kReject
  | 5 => some .kUserDatagram
  | 6 => some .kAbort
  | _ => none

structure Control where
  version : U8
  profile : U8
  type : MessageType
  deriving Repr, DecidableEq

structure Setup where
  sessionId : U8
  initialSequenceNumber : U8
  finalSegmentIndex : U16
  segmentSize : U16
  finalSegmentSize : U16
  deriving Repr, DecidableEq

def setupSegmentCount (setup : Setup) : Nat := (setup.finalSegmentIndex.toNat + 1) % 2 ^ 32

def setupTotalSize (setup : Setup) : Nat :=
  (setup.finalSegmentIndex.toNat * setup.segmentSize.toNat + setup.finalSegmentSize.toNat) % 2 ^ 32

structure SegmentHeader where
  sessionId : U8
  segmentIndex : U16
  deriving Repr, DecidableEq

structure Ack where
  sessionId : U8
  windowBitmap : U16
  maxReceiveSequence : U8
  windowBase : U8
  deriving Repr, DecidableEq

structure Probe where
  sessionId : U8
  deriving Repr, DecidableEq

inductive RejectReason where
  | kUnsupportedVersion | kUnsupportedProfile | kUnsupportedSegmentSize | kObjectTooLarge | kBusy
  | kInvalidArgument | kInternalError
  deriving Repr, DecidableEq

def RejectReason.value : RejectReason → U8
  | .kUnsupportedVersion => 0
  | .kUnsupportedProfile => 1
  | .kUnsupportedSegmentSize => 2
  | .kObjectTooLarge => 3
  | .kBusy => 4
  | .kInvalidArgument => 5
  | .kInternalError => 6

def RejectReason.ofValue : Nat → Option RejectReason
  | 0 => some .kUnsupportedVersion
  | 1 => some .kUnsupportedProfile
  | 2 => some .kUnsupportedSegmentSize
  | 3 => some .kObjectTooLarge
  | 4 => some .kBusy
  | 5 => some .kInvalidArgument
  | 6 => some .kInternalError
  | _ => none

structure Reject where
  sessionId : U8
  reason : RejectReason
  deriving Repr, DecidableEq

structure Abort where
  sessionId : U8
  deriving Repr, DecidableEq

/-! ### The control byte and 16-bit fields -/

def kProfileMask : U8 := 0x80
def kProfileShift : Nat := 7
def kVersionMask : U8 := 0x70
def kVersionShift : Nat := 4
def kTypeMask : U8 := 0x0F

def encodeControl (type : MessageType) : U8 :=
  (kCompactProfile <<< kProfileShift) ||| (kProtocolVersion <<< kVersionShift) ||| type.value

/-- Only the supported version, the Compact profile and a known type decode. -/
def decodeControl (encoded : U8) : Option Control :=
  let profile := (encoded &&& kProfileMask) >>> kProfileShift
  let version := (encoded &&& kVersionMask) >>> kVersionShift
  let typeValue := encoded &&& kTypeMask
  if profile ≠ kCompactProfile ∨ version ≠ kProtocolVersion then none
  else (MessageType.ofValue typeValue.toNat).map (fun type => ⟨version,profile,type⟩)

def writeU16 (value : U16) : Bytes := [value.setWidth 8,(value >>> 8).setWidth 8]

/-- The little-endian word at a position of a span. -/
def readU16 (input : Bytes) (position : Nat) : U16 :=
  (input.getD position 0).setWidth 16 ||| ((input.getD (position + 1) 0).setWidth 16 <<< 8)

def hasType (input : Bytes) (expected : MessageType) : Bool :=
  match input with
  | [] => false
  | first :: _ => (decodeControl first).any (fun control => control.type == expected)

/-! ### The seven messages -/

def setupBytes (setup : Setup) : Bytes :=
  [encodeControl .kSetup,setup.sessionId,setup.initialSequenceNumber,0] ++ writeU16 setup.finalSegmentIndex ++
    writeU16 setup.segmentSize ++ writeU16 setup.finalSegmentSize

def encodeSetup (setup : Setup) (output : Bytes) : Option Bytes :=
  if output.length < kSetupSize then none else some (setupBytes setup ++ output.drop kSetupSize)

def decodeSetupKnownType (input : Bytes) : Option Setup :=
  if input.length ≠ kSetupSize ∨ input.getD 3 0 ≠ 0 then none
  else some ⟨input.getD 1 0,input.getD 2 0,readU16 input 4,readU16 input 6,readU16 input 8⟩

def decodeSetup (input : Bytes) : Option Setup :=
  if hasType input .kSetup then decodeSetupKnownType input else none

def segmentHeaderBytes (header : SegmentHeader) : Bytes :=
  [encodeControl .kSegment,header.sessionId] ++ writeU16 header.segmentIndex

def encodeSegmentHeader (header : SegmentHeader) (output : Bytes) : Option Bytes :=
  if output.length < kSegmentHeaderSize then none
  else some (segmentHeaderBytes header ++ output.drop kSegmentHeaderSize)

def decodeSegmentHeaderKnownType (input : Bytes) : Option SegmentHeader :=
  if input.length < kSegmentHeaderSize then none else some ⟨input.getD 1 0,readU16 input 2⟩

def decodeSegmentHeader (input : Bytes) : Option SegmentHeader :=
  if hasType input .kSegment then decodeSegmentHeaderKnownType input else none

def ackBytes (ack : Ack) : Bytes :=
  [encodeControl .kAck,ack.sessionId] ++ writeU16 ack.windowBitmap ++ [ack.maxReceiveSequence,ack.windowBase]

def encodeAck (ack : Ack) (output : Bytes) : Option Bytes :=
  if output.length < kAckSize then none else some (ackBytes ack ++ output.drop kAckSize)

def decodeAckKnownType (input : Bytes) : Option Ack :=
  if input.length ≠ kAckSize then none
  else some ⟨input.getD 1 0,readU16 input 2,input.getD 4 0,input.getD 5 0⟩

def decodeAck (input : Bytes) : Option Ack :=
  if hasType input .kAck then decodeAckKnownType input else none

def probeBytes (probe : Probe) : Bytes := [encodeControl .kProbe,probe.sessionId]

def encodeProbe (probe : Probe) (output : Bytes) : Option Bytes :=
  if output.length < kProbeSize then none else some (probeBytes probe ++ output.drop kProbeSize)

def decodeProbeKnownType (input : Bytes) : Option Probe :=
  if input.length ≠ kProbeSize then none else some ⟨input.getD 1 0⟩

def decodeProbe (input : Bytes) : Option Probe :=
  if hasType input .kProbe then decodeProbeKnownType input else none

def rejectBytes (reject : Reject) : Bytes := [encodeControl .kReject,reject.sessionId,reject.reason.value]

def encodeReject (reject : Reject) (output : Bytes) : Option Bytes :=
  if output.length < kRejectSize then none else some (rejectBytes reject ++ output.drop kRejectSize)

def decodeRejectKnownType (input : Bytes) : Option Reject :=
  if input.length ≠ kRejectSize then none
  else (RejectReason.ofValue (input.getD 2 0).toNat).map (fun reason => ⟨input.getD 1 0,reason⟩)

def decodeReject (input : Bytes) : Option Reject :=
  if hasType input .kReject then decodeRejectKnownType input else none

def abortBytes (abort : Abort) : Bytes := [encodeControl .kAbort,abort.sessionId]

def encodeAbort (abort : Abort) (output : Bytes) : Option Bytes :=
  if output.length < kAbortSize then none else some (abortBytes abort ++ output.drop kAbortSize)

def decodeAbortKnownType (input : Bytes) : Option Abort :=
  if input.length ≠ kAbortSize then none else some ⟨input.getD 1 0⟩

def decodeAbort (input : Bytes) : Option Abort :=
  if hasType input .kAbort then decodeAbortKnownType input else none

def userDatagramBytes (payload : Bytes) : Bytes := encodeControl .kUserDatagram :: payload

def encodeUserDatagram (payload output : Bytes) : Option Bytes :=
  if output.length < payload.length + kUserDatagramHeaderSize then none
  else some (userDatagramBytes payload ++ output.drop (payload.length + kUserDatagramHeaderSize))

def decodeUserDatagramKnownType (input : Bytes) : Option Bytes :=
  if input = [] then none else some (input.drop kUserDatagramHeaderSize)

def decodeUserDatagram (input : Bytes) : Option Bytes :=
  if hasType input .kUserDatagram then decodeUserDatagramKnownType input else none

/-! ### Round trips -/

@[simp] theorem decodeControl_encodeControl (type : MessageType) :
    decodeControl (encodeControl type) = some ⟨0,0,type⟩ := by
  cases type <;> decide

/-- The control byte is determined by the type it decodes to. -/
theorem decodeControl_eq_some {encoded : U8} {control : Control} (decoded : decodeControl encoded = some control) :
    encoded = encodeControl control.type := by
  have all : ∀ byte : Fin 256, ∀ c, decodeControl (BitVec.ofFin byte) = some c → BitVec.ofFin byte = encodeControl c.type := by
    decide +kernel
  exact all encoded.toFin control decoded

theorem hasType_cons {encoded : U8} {rest : Bytes} {type : MessageType} :
    hasType (encoded :: rest) type = true ↔ encoded = encodeControl type := by
  constructor
  · intro has
    simp only [hasType,Option.any_eq_true] at has
    obtain ⟨control,decoded,same⟩ := has
    rw [decodeControl_eq_some decoded,(beq_iff_eq.mp same)]
  · rintro rfl
    simp [hasType]

theorem join_halves (value : U16) :
    (value.setWidth 8).setWidth 16 ||| (((value >>> 8).setWidth 8).setWidth 16 <<< 8) = value := by
  apply BitVec.eq_of_getLsbD_eq
  intro j inside
  simp only [BitVec.getLsbD_or,BitVec.getLsbD_setWidth,BitVec.getLsbD_shiftLeft,BitVec.getLsbD_ushiftRight]
  by_cases under : j < 8
  · simp [under,inside]
  · simp [under,inside,show j - 8 < 8 by omega,show 8 + (j - 8) = j by omega,show j - 8 < 16 by omega]

theorem low_half (low high : U8) : (low.setWidth 16 ||| (high.setWidth 16 <<< 8) : U16).setWidth 8 = low := by
  apply BitVec.eq_of_getLsbD_eq
  intro j small
  simp [small]

theorem high_half (low high : U8) : ((low.setWidth 16 ||| (high.setWidth 16 <<< 8) : U16) >>> 8).setWidth 8 = high := by
  apply BitVec.eq_of_getLsbD_eq
  intro j small
  simp [small,show 8 + j < 16 by omega,show 8 ≤ 8 + j by omega]

@[simp] theorem readU16_writeU16 (value : U16) (before after : Bytes) :
    readU16 (before ++ (writeU16 value ++ after)) before.length = value := by
  have low : (before ++ (writeU16 value ++ after)).getD before.length 0 = value.setWidth 8 := by
    simp [writeU16]
  have high : (before ++ (writeU16 value ++ after)).getD (before.length + 1) 0 = (value >>> 8).setWidth 8 := by
    simp [writeU16]
  rw [readU16,low,high,join_halves]

@[simp] theorem decodeSetup_setupBytes (setup : Setup) : decodeSetupKnownType (setupBytes setup) = some setup := by
  simp [decodeSetupKnownType,setupBytes,writeU16,readU16,kSetupSize,join_halves]

@[simp] theorem decodeSegmentHeader_segmentHeaderBytes (header : SegmentHeader) (payload : Bytes) :
    decodeSegmentHeaderKnownType (segmentHeaderBytes header ++ payload) = some header := by
  simp [decodeSegmentHeaderKnownType,segmentHeaderBytes,writeU16,readU16,kSegmentHeaderSize,join_halves]

@[simp] theorem decodeAck_ackBytes (ack : Ack) : decodeAckKnownType (ackBytes ack) = some ack := by
  simp [decodeAckKnownType,ackBytes,writeU16,readU16,kAckSize,join_halves]

/-- A message decodes as the type its control byte names, and as no other. -/
theorem hasType_encodeControl (type expected : MessageType) (rest : Bytes) :
    hasType (encodeControl type :: rest) expected = decide (type = expected) := by
  simp [hasType,beq_eq_decide]

theorem hasType_unique {message : Bytes} {type other : MessageType} (left : hasType message type = true)
    (right : hasType message other = true) : type = other := by
  cases message with
  | nil => simp [hasType] at left
  | cons first rest =>
    rw [hasType_cons.mp left,hasType_encodeControl] at right
    exact of_decide_eq_true right

/-! ### Encoding into a span of the exact size -/

section exact
variable {output : Bytes}

theorem encodeSetup_exact {setup : Setup} (size : output.length = kSetupSize) :
    encodeSetup setup output = some (setupBytes setup) := by
  simp [encodeSetup,size,List.drop_eq_nil_of_le]
theorem encodeAck_exact {ack : Ack} (size : output.length = kAckSize) :
    encodeAck ack output = some (ackBytes ack) := by
  simp [encodeAck,size,List.drop_eq_nil_of_le]
theorem encodeProbe_exact {probe : Probe} (size : output.length = kProbeSize) :
    encodeProbe probe output = some (probeBytes probe) := by
  simp [encodeProbe,size,List.drop_eq_nil_of_le]
theorem encodeReject_exact {reject : Reject} (size : output.length = kRejectSize) :
    encodeReject reject output = some (rejectBytes reject) := by
  simp [encodeReject,size,List.drop_eq_nil_of_le]
theorem encodeAbort_exact {abort : Abort} (size : output.length = kAbortSize) :
    encodeAbort abort output = some (abortBytes abort) := by
  simp [encodeAbort,size,List.drop_eq_nil_of_le]
theorem encodeUserDatagram_exact {payload : Bytes} (size : output.length = payload.length + kUserDatagramHeaderSize) :
    encodeUserDatagram payload output = some (userDatagramBytes payload) := by
  simp [encodeUserDatagram,size,List.drop_eq_nil_of_le]

end exact
end WireSpaces.Codec
