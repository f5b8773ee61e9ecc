import WireSpaces.Codec

/-!
The wire format as a whole. The seven layouts are one sum of message values, each
with its encoder, its public decoder and the decoder that trusts the control byte.
Encoding and decoding are inverse in both directions and no byte string has two
readings.
-/
namespace WireSpaces.CodecLaws
open WireSpaces.Codec

/-- A value of one of the seven messages. A segment carries its remaining bytes. -/
inductive Message where
  | setup (setup : Setup)
  | segment (header : SegmentHeader) (payload : Bytes)
  | ack (ack : Ack)
  | probe (probe : Probe)
  | reject (reject : Reject)
  | userDatagram (payload : Bytes)
  | abort (abort : Abort)
  deriving Repr, DecidableEq

def Message.type : Message → MessageType
  | .setup _ => .kSetup
  | .segment .. => .kSegment
  | .ack _ => .kAck
  | .probe _ => .kProbe
  | .reject _ => .kReject
  | .userDatagram _ => .kUserDatagram
  | .abort _ => .kAbort

/-- The exact size of a message on the wire. -/
def Message.size : Message → Nat
  | .setup _ => kSetupSize
  | .segment _ payload => kSegmentHeaderSize + payload.length
  | .ack _ => kAckSize
  | .probe _ => kProbeSize
  | .reject _ => kRejectSize
  | .userDatagram payload => payload.length + kUserDatagramHeaderSize
  | .abort _ => kAbortSize

/-- Each message through its own encoder. The segment's encoder writes the header
    only, and the payload is placed behind it. -/
def encode : Message → Bytes → Option Bytes
  | .setup setup, output => encodeSetup setup output
  | .segment header payload, output =>
    (encodeSegmentHeader header output).map (fun written => written.take kSegmentHeaderSize ++ payload)
  | .ack ack, output => encodeAck ack output
  | .probe probe, output => encodeProbe probe output
  | .reject reject, output => encodeReject reject output
  | .userDatagram payload, output => encodeUserDatagram payload output
  | .abort abort, output => encodeAbort abort output

/-- The public decoder of a type. -/
def decode : MessageType → Bytes → Option Message
  | .kSetup, input => (decodeSetup input).map .setup
  | .kSegment, input => (decodeSegmentHeader input).map (.segment · (input.drop kSegmentHeaderSize))
  | .kAck, input => (decodeAck input).map .ack
  | .kProbe, input => (decodeProbe input).map .probe
  | .kReject, input => (decodeReject input).map .reject
  | .kUserDatagram, input => (decodeUserDatagram input).map .userDatagram
  | .kAbort, input => (decodeAbort input).map .abort

/-- The decoder an endpoint selects once the control byte is decoded. -/
def decodeKnownType : MessageType → Bytes → Option Message
  | .kSetup, input => (decodeSetupKnownType input).map .setup
  | .kSegment, input => (decodeSegmentHeaderKnownType input).map (.segment · (input.drop kSegmentHeaderSize))
  | .kAck, input => (decodeAckKnownType input).map .ack
  | .kProbe, input => (decodeProbeKnownType input).map .probe
  | .kReject, input => (decodeRejectKnownType input).map .reject
  | .kUserDatagram, input => (decodeUserDatagramKnownType input).map .userDatagram
  | .kAbort, input => (decodeAbortKnownType input).map .abort

/-- The bytes of a message. -/
def Message.bytes : Message → Bytes
  | .setup value => setupBytes value
  | .segment header payload => segmentHeaderBytes header ++ payload
  | .ack value => ackBytes value
  | .probe value => probeBytes value
  | .reject value => rejectBytes value
  | .userDatagram payload => userDatagramBytes payload
  | .abort value => abortBytes value

/-! ### Encoding -/

@[simp] theorem bytes_length (message : Message) : message.bytes.length = message.size := by
  cases message with
  | segment header payload =>
    simp only [Message.bytes,Message.size,segmentHeaderBytes,writeU16,kSegmentHeaderSize,List.length_append,
      List.length_cons,List.length_nil]
  | _ => rfl

/-- Every message starts with the control byte of its type. -/
theorem bytes_eq_cons (message : Message) : ∃ rest, message.bytes = encodeControl message.type :: rest := by
  cases message <;> exact ⟨_,rfl⟩

theorem encode_exact {message : Message} {output : Bytes} (size : output.length = message.size) :
    encode message output = some message.bytes := by
  cases message with
  | setup setup => exact encodeSetup_exact size
  | segment header payload =>
    have enough : ¬ output.length < kSegmentHeaderSize := by
      rw [size,Message.size]
      omega
    have four : (segmentHeaderBytes header).length = kSegmentHeaderSize := rfl
    rw [encode,encodeSegmentHeader,if_neg enough,Option.map_some,Message.bytes,List.take_left' four]
  | ack ack => exact encodeAck_exact size
  | probe probe => exact encodeProbe_exact size
  | reject reject => exact encodeReject_exact size
  | userDatagram payload => exact encodeUserDatagram_exact size
  | abort abort => exact encodeAbort_exact size

/-! ### Decoding -/

/-- A public decoder is the check of the control byte before the known-type decoder. -/
theorem decode_eq (type : MessageType) (input : Bytes) :
    decode type input = if hasType input type then decodeKnownType type input else none := by
  cases type
  all_goals
    simp only [decode,decodeKnownType,decodeSetup,decodeSegmentHeader,decodeAck,decodeProbe,decodeReject,
      decodeUserDatagram,decodeAbort]
    split <;> rfl

theorem decode_eq_some {type : MessageType} {input : Bytes} {message : Message} :
    decode type input = some message ↔ hasType input type = true ∧ decodeKnownType type input = some message := by
  rw [decode_eq]
  by_cases typed : hasType input type = true
  · simp [typed]
  · simp [typed]

theorem reason_ofValue_value (reason : RejectReason) : RejectReason.ofValue reason.value.toNat = some reason := by
  cases reason <;> rfl

theorem reason_value_ofValue {value : U8} {reason : RejectReason}
    (known : RejectReason.ofValue value.toNat = some reason) : reason.value = value := by
  have all : ∀ byte : Fin 256, ∀ r, RejectReason.ofValue byte.val = some r →
      r.value = BitVec.ofFin byte := by
    decide +kernel
  exact all value.toFin reason known

theorem decodeKnownType_bytes (message : Message) : decodeKnownType message.type message.bytes = some message := by
  cases message with
  | setup setup => simp [decodeKnownType,Message.type,Message.bytes]
  | segment header payload =>
    have four : (segmentHeaderBytes header).length = kSegmentHeaderSize := rfl
    simp [decodeKnownType,Message.type,Message.bytes,List.drop_left' four]
  | ack ack => simp [decodeKnownType,Message.type,Message.bytes]
  | probe probe => rfl
  | reject reject =>
    simp [decodeKnownType,Message.type,Message.bytes,decodeRejectKnownType,rejectBytes,kRejectSize,
      reason_ofValue_value]
  | userDatagram payload => rfl
  | abort abort => rfl

/-- A word read back is the two bytes it was read from. -/
theorem writeU16_readU16 (input : Bytes) (position : Nat) :
    writeU16 (readU16 input position) = [input.getD position 0,input.getD (position + 1) 0] := by
  rw [writeU16,readU16,low_half,high_half]

section shapes
variable {bytes : Bytes}

theorem three_of_length (size : 3 ≤ bytes.length) : ∃ a b c more, bytes = a :: b :: c :: more := by
  obtain ⟨a,behind,rfl⟩ := List.exists_cons_of_length_pos (show 0 < bytes.length by omega)
  rw [List.length_cons] at size
  obtain ⟨b,behind',rfl⟩ := List.exists_cons_of_length_pos (show 0 < behind.length by omega)
  rw [List.length_cons] at size
  obtain ⟨c,more,rfl⟩ := List.exists_cons_of_length_pos (show 0 < behind'.length by omega)
  exact ⟨a,b,c,more,rfl⟩

theorem five_of_length (size : bytes.length = 5) : ∃ a b c d e, bytes = [a,b,c,d,e] := by
  obtain ⟨a,b,c,more,rfl⟩ := three_of_length (show 3 ≤ bytes.length by omega)
  obtain ⟨d,e,rfl⟩ := List.length_eq_two.mp (show more.length = 2 by simpa using size)
  exact ⟨a,b,c,d,e,rfl⟩

theorem nine_of_length (size : bytes.length = 9) : ∃ a b c d e f g h i, bytes = [a,b,c,d,e,f,g,h,i] := by
  obtain ⟨a,b,c,more,rfl⟩ := three_of_length (show 3 ≤ bytes.length by omega)
  have left : more.length = 6 := by simpa using size
  obtain ⟨d,e,f,more',rfl⟩ := three_of_length (show 3 ≤ more.length by omega)
  obtain ⟨g,h,i,rfl⟩ := List.length_eq_three.mp (show more'.length = 3 by simpa using left)
  exact ⟨a,b,c,d,e,f,g,h,i,rfl⟩

end shapes

/-- What a known-type decoder accepts is the bytes of the value it returns, the
    control byte apart, which it does not look at. -/
theorem bytes_of_decodeKnownType {type : MessageType} {first : U8} {rest : Bytes} {message : Message}
    (decoded : decodeKnownType type (first :: rest) = some message) :
    message.type = type ∧ message.bytes = encodeControl type :: rest := by
  cases type with
  | kSetup =>
    obtain ⟨setup,read,rfl⟩ := Option.map_eq_some_iff.mp decoded
    rw [decodeSetupKnownType] at read
    obtain ⟨good,fields⟩ := Option.ite_none_left_eq_some.mp read
    push Not at good
    obtain ⟨size,reserved⟩ := good
    cases fields
    obtain ⟨a,b,c,d,e,f,g,h,i,rfl⟩ := nine_of_length (Nat.succ.inj size)
    have zero : c = 0 := reserved
    refine ⟨rfl,?_⟩
    simp [Message.bytes,setupBytes,writeU16_readU16,zero]
  | kSegment =>
    obtain ⟨header,read,rfl⟩ := Option.map_eq_some_iff.mp decoded
    rw [decodeSegmentHeaderKnownType] at read
    obtain ⟨enough,fields⟩ := Option.ite_none_left_eq_some.mp read
    cases fields
    rw [kSegmentHeaderSize,List.length_cons] at enough
    obtain ⟨a,b,c,rest,rfl⟩ := three_of_length (show 3 ≤ rest.length by omega)
    refine ⟨rfl,?_⟩
    simp [Message.bytes,segmentHeaderBytes,writeU16_readU16,kSegmentHeaderSize]
  | kAck =>
    obtain ⟨ack,read,rfl⟩ := Option.map_eq_some_iff.mp decoded
    rw [decodeAckKnownType] at read
    obtain ⟨size,fields⟩ := Option.ite_none_left_eq_some.mp read
    cases fields
    obtain ⟨a,b,c,d,e,rfl⟩ := five_of_length (Nat.succ.inj (not_not.mp size))
    refine ⟨rfl,?_⟩
    simp [Message.bytes,ackBytes,writeU16_readU16]
  | kProbe =>
    obtain ⟨probe,read,rfl⟩ := Option.map_eq_some_iff.mp decoded
    rw [decodeProbeKnownType] at read
    obtain ⟨size,fields⟩ := Option.ite_none_left_eq_some.mp read
    cases fields
    obtain ⟨a,rfl⟩ := List.length_eq_one_iff.mp (Nat.succ.inj (not_not.mp size))
    exact ⟨rfl,rfl⟩
  | kReject =>
    obtain ⟨reject,read,rfl⟩ := Option.map_eq_some_iff.mp decoded
    rw [decodeRejectKnownType] at read
    obtain ⟨size,fields⟩ := Option.ite_none_left_eq_some.mp read
    obtain ⟨reason,known,rfl⟩ := Option.map_eq_some_iff.mp fields
    obtain ⟨a,b,rfl⟩ := List.length_eq_two.mp (Nat.succ.inj (not_not.mp size))
    refine ⟨rfl,?_⟩
    rw [Message.bytes,rejectBytes,reason_value_ofValue known]
    rfl
  | kUserDatagram =>
    rw [decodeKnownType,decodeUserDatagramKnownType,if_neg (List.cons_ne_nil first rest)] at decoded
    cases decoded
    exact ⟨rfl,rfl⟩
  | kAbort =>
    obtain ⟨abort,read,rfl⟩ := Option.map_eq_some_iff.mp decoded
    rw [decodeAbortKnownType] at read
    obtain ⟨size,fields⟩ := Option.ite_none_left_eq_some.mp read
    cases fields
    obtain ⟨a,rfl⟩ := List.length_eq_one_iff.mp (Nat.succ.inj (not_not.mp size))
    exact ⟨rfl,rfl⟩

/-- The bytes a public decoder accepts are the encoding of what it returns. -/
theorem decode_bytes {type : MessageType} {input : Bytes} {message : Message}
    (decoded : decode type input = some message) : message.type = type ∧ message.bytes = input := by
  obtain ⟨typed,read⟩ := decode_eq_some.mp decoded
  cases input with
  | nil => simp [hasType] at typed
  | cons first rest =>
    obtain ⟨same,bytes⟩ := bytes_of_decodeKnownType read
    rw [hasType_cons.mp typed]
    exact ⟨same,bytes⟩

/-- Encoding and decoding are inverse: a message encoded into its exact size decodes
    to itself, an accepted byte string has one type and is the encoding of its
    reading, and after the control byte the known-type decoder accepts exactly what
    the public decoder of that type accepts. -/
theorem encode_decode_inverse :
    (∀ (message : Message) (output : Bytes), output.length = message.size →
      ∃ bytes, encode message output = some bytes ∧ bytes.length = message.size ∧
        decode message.type bytes = some message) ∧
    (∀ (input : Bytes) (type other : MessageType), (decode type input).isSome → (decode other input).isSome →
      type = other) ∧
    (∀ (input output : Bytes) (type : MessageType) (message : Message), decode type input = some message →
      output.length = input.length → message.type = type ∧ encode message output = some input) ∧
    ∀ (input : Bytes) (type : MessageType) (message : Message), decode type input = some message ↔
      ∃ first rest control, input = first :: rest ∧ decodeControl first = some control ∧ control.type = type ∧
        decodeKnownType control.type input = some message := by
  refine ⟨?_,?_,?_,?_⟩
  · intro message output size
    refine ⟨message.bytes,encode_exact size,bytes_length message,decode_eq_some.mpr ⟨?_,?_⟩⟩
    · obtain ⟨rest,starts⟩ := bytes_eq_cons message
      rw [starts,hasType_encodeControl,decide_eq_true rfl]
    · exact decodeKnownType_bytes message
  · intro input type other one two
    obtain ⟨left,read⟩ := Option.isSome_iff_exists.mp one
    obtain ⟨right,readToo⟩ := Option.isSome_iff_exists.mp two
    exact hasType_unique (decode_eq_some.mp read).1 (decode_eq_some.mp readToo).1
  · intro input output type message decoded size
    obtain ⟨typed,bytes⟩ := decode_bytes decoded
    refine ⟨typed,?_⟩
    rw [← bytes,bytes_length] at size
    rw [encode_exact size,bytes]
  · intro input type message
    rw [decode_eq_some]
    constructor
    · rintro ⟨typed,read⟩
      cases input with
      | nil => simp [hasType] at typed
      | cons first rest =>
        refine ⟨first,rest,⟨0,0,type⟩,rfl,?_,rfl,read⟩
        rw [hasType_cons.mp typed,decodeControl_encodeControl]
    · rintro ⟨first,rest,control,rfl,decoded,rfl,read⟩
      exact ⟨hasType_cons.mpr (decodeControl_eq_some decoded),read⟩

/-- An ACK in a buffer of its size, and the bytes of a SEGMENT. -/
theorem ack_and_segment_inverse :
    (∃ bytes, encode (.ack ⟨9,0x0102,3,255⟩) (List.replicate 6 0) = some bytes ∧ bytes.length = 6 ∧
      decode .kAck bytes = some (.ack ⟨9,0x0102,3,255⟩)) ∧
    encode (.segment ⟨9,0x0201⟩ [0xAA]) (List.replicate 5 0) = some [0x01,9,0x01,0x02,0xAA] := by
  obtain ⟨written,-,read,-⟩ := encode_decode_inverse
  exact ⟨written (.ack ⟨9,0x0102,3,255⟩) (List.replicate 6 0) (by decide),
    (read [0x01,9,0x01,0x02,0xAA] (List.replicate 5 0) .kSegment (.segment ⟨9,0x0201⟩ [0xAA]) (by decide) (by decide)).2⟩

end WireSpaces.CodecLaws
