import WireSpaces.HdlcRoundTrip

/-!
The host's side of the UART link: the Python tools' CRC over unbounded integers,
their frame encoder and their stream decoder. Frame by frame and byte by byte they
are the firmware's.
-/
namespace WireSpaces.HostLink
open WireSpaces.Codec WireSpaces.Crc WireSpaces.Hdlc WireSpaces.HdlcFrames WireSpaces.HdlcRoundTrip WireSpaces.Stuffing

def hdlcFlag : U8 := 0x7E
def hdlcEscape : U8 := 0x7D
def hdlcEscapeXor : U8 := 0x20
def hdlcCrcSize : Nat := 2

/-- One turn of the bit loop, on an integer that is masked to 16 bits. -/
def crcBit (result : Nat) : Nat :=
  (if result &&& 0x8000 ≠ 0 then (result <<< 1) ^^^ 0x1021 else result <<< 1) &&& 0xFFFF

def crcByte (result : Nat) (byte : U8) : Nat :=
  (List.range 8).foldl (fun result _ => crcBit result) (result ^^^ (byte.toNat <<< 8))

def crc16CcittFalse (data : Bytes) : Nat := data.foldl crcByte 0xFFFF

/-- `struct.pack("<H", value)` of a 16-bit value. -/
def packH (value : Nat) : Bytes := [BitVec.ofNat 8 value,BitVec.ofNat 8 (value / 256)]

/-- `int.from_bytes(data, byteorder="little")`. -/
def fromBytes : Bytes → Nat
  | [] => 0
  | byte :: rest => byte.toNat + 256 * fromBytes rest

def encodeHdlcFrame (frame : Bytes) : Bytes :=
  let crc := crc16CcittFalse frame
  let protectedFrame := frame ++ packH crc
  let encoded := protectedFrame.foldl (fun encoded byte =>
    if byte = hdlcFlag ∨ byte = hdlcEscape then encoded ++ [hdlcEscape] ++ [byte ^^^ hdlcEscapeXor]
    else encoded ++ [byte]) [hdlcFlag]
  encoded ++ [hdlcFlag]

structure HdlcStreamDecoder where
  maximumFrameSize : Nat
  frame : Bytes := []
  inFrame : Bool := false
  escaped : Bool := false
  deriving Repr, DecidableEq

/-- What a flag yields: the body of a frame that ends in its CRC. -/
def completed (d : HdlcStreamDecoder) : Option Bytes :=
  if d.inFrame ∧ d.frame ≠ [] ∧ ¬ d.escaped ∧ d.frame.length > hdlcCrcSize then
    let frame := d.frame.take (d.frame.length - hdlcCrcSize)
    let receivedCrc := fromBytes (d.frame.drop (d.frame.length - hdlcCrcSize))
    if receivedCrc = crc16CcittFalse frame then some frame else none
  else none

/-- The check behind every stored byte. -/
def dropLarge (d : HdlcStreamDecoder) : HdlcStreamDecoder :=
  if d.frame.length > d.maximumFrameSize + hdlcCrcSize then { d with frame := [], inFrame := false, escaped := false }
  else d

/-- The body of the loop of `feed`, and what it yields. -/
def feedOne (d : HdlcStreamDecoder) (byte : U8) : HdlcStreamDecoder × Option Bytes :=
  if byte = hdlcFlag then ({ d with frame := [], inFrame := true, escaped := false },completed d)
  else if ¬ d.inFrame then (d,none)
  else if d.escaped then
    (dropLarge { d with frame := d.frame ++ [byte ^^^ hdlcEscapeXor], escaped := false },none)
  else if byte = hdlcEscape then (dropLarge { d with escaped := true },none)
  else (dropLarge { d with frame := d.frame ++ [byte] },none)

def feed (d : HdlcStreamDecoder) : Bytes → HdlcStreamDecoder × List Bytes
  | [] => (d,[])
  | byte :: data =>
    let fed := feedOne d byte
    let rest := feed fed.1 data
    (rest.1,fed.2.toList ++ rest.2)

/-- Calls of `feed`, one a chunk: the decoder behind them and everything yielded. -/
def feedChunks (d : HdlcStreamDecoder) : List Bytes → HdlcStreamDecoder × List Bytes
  | [] => (d,[])
  | data :: chunks =>
    let fed := feed d data
    let rest := feedChunks fed.1 chunks
    (rest.1,fed.2 ++ rest.2)

/-! ### The CRC -/

theorem crcBit_eq (result : U16) : crcBit result.toNat = (shiftBit Crc16CcittFalse result).toNat := by
  have high : result.toNat &&& 0x8000 ≠ 0 ↔ result &&& kMsbBit 16 ≠ 0 := by
    rw [ne_eq,ne_eq,← BitVec.toNat_inj,BitVec.toNat_and]
    rfl
  have mask (value : Nat) : value &&& 0xFFFF = value % 2 ^ 16 := Nat.and_two_pow_sub_one_eq_mod value 16
  unfold crcBit shiftBit
  rw [mask]
  by_cases set : result.toNat &&& 0x8000 ≠ 0
  · rw [if_pos set,if_pos (high.mp set),BitVec.toNat_xor,BitVec.toNat_shiftLeft,Nat.xor_mod_two_pow]
    rfl
  · rw [if_neg set,if_neg (fun on => set (high.mpr on)),BitVec.toNat_shiftLeft]

theorem crcByte_eq (result : U16) (byte : U8) :
    crcByte result.toNat byte = (feedByte Crc16CcittFalse result byte).toNat := by
  have bits (turns : List Nat) (start : U16) : turns.foldl (fun result _ => crcBit result) start.toNat =
      (turns.foldl (fun result _ => shiftBit Crc16CcittFalse result) start).toNat := by
    induction turns generalizing start with
    | nil => rfl
    | cons turn turns ih => rw [List.foldl_cons,List.foldl_cons,crcBit_eq,ih]
  have start : result.toNat ^^^ (byte.toNat <<< 8) = (result ^^^ (byte.setWidth 16 <<< kDataShift 16)).toNat := by
    have small := byte.isLt
    rw [BitVec.toNat_xor,BitVec.toNat_shiftLeft,BitVec.toNat_setWidth,Nat.mod_eq_of_lt (show byte.toNat < 2 ^ 16 by omega),
      show kDataShift 16 = 8 from rfl,Nat.mod_eq_of_lt (by rw [Nat.shiftLeft_eq]; omega)]
  rw [crcByte,start,bits]
  rfl

theorem crc_eq (data : Bytes) : crc16CcittFalse data = (compute Crc16CcittFalse data).toNat := by
  have fold (start : U16) : data.foldl crcByte start.toNat = (data.foldl (feedByte Crc16CcittFalse) start).toNat := by
    induction data generalizing start with
    | nil => rfl
    | cons byte data ih => rw [List.foldl_cons,List.foldl_cons,crcByte_eq,ih]
  have plain : compute Crc16CcittFalse data = data.foldl (feedByte Crc16CcittFalse) 0xFFFF := by
    show _ ^^^ (0 : U16) = _
    rw [show (0 : U16) = 0#16 from rfl,BitVec.xor_zero]
    rfl
  rw [plain,crc16CcittFalse,← fold]
  rfl

theorem packH_eq (value : U16) : packH value.toNat = writeU16 value := by
  have low : BitVec.ofNat 8 value.toNat = value.setWidth 8 := by
    apply BitVec.eq_of_toNat_eq
    rw [BitVec.toNat_ofNat,BitVec.toNat_setWidth]
  have high : BitVec.ofNat 8 (value.toNat / 256) = (value >>> 8).setWidth 8 := by
    apply BitVec.eq_of_toNat_eq
    rw [BitVec.toNat_ofNat,BitVec.toNat_setWidth,BitVec.toNat_ushiftRight,Nat.shiftRight_eq_div_pow]
  rw [packH,writeU16,low,high]

/-- Two bytes read as a word are the ones the word is packed into. -/
theorem fromBytes_eq_iff {bytes : Bytes} (two : bytes.length = 2) (value : U16) :
    fromBytes bytes = value.toNat ↔ bytes = writeU16 value := by
  obtain ⟨low,high,rfl⟩ := List.length_eq_two.mp two
  have lowSmall := low.isLt
  have highSmall := high.isLt
  have small := value.isLt
  rw [← packH_eq,packH]
  simp only [fromBytes,List.cons.injEq,and_true]
  constructor
  · intro same
    constructor
    · apply BitVec.eq_of_toNat_eq
      rw [BitVec.toNat_ofNat]
      omega
    · apply BitVec.eq_of_toNat_eq
      rw [BitVec.toNat_ofNat]
      omega
  · rintro ⟨rfl,rfl⟩
    rw [BitVec.toNat_ofNat,BitVec.toNat_ofNat]
    omega

/-! ### The encoder -/

theorem encodeHdlcFrame_eq (frame : Bytes) : encodeHdlcFrame frame = encoding frame := by
  have fold (bytes start : Bytes) : bytes.foldl (fun encoded byte =>
      if byte = hdlcFlag ∨ byte = hdlcEscape then encoded ++ [hdlcEscape] ++ [byte ^^^ hdlcEscapeXor]
      else encoded ++ [byte]) start = start ++ stuff scheme bytes := by
    induction bytes generalizing start with
    | nil => simp
    | cons byte bytes ih =>
      rw [List.foldl_cons,ih,stuff_cons,← List.append_assoc]
      congr 1
      show _ = start ++ (if byte = kFlag ∨ byte = kEscape then [kEscape,byte ^^^ kEscapeXor] else [byte])
      by_cases reserved : byte = kFlag ∨ byte = kEscape
      · rw [if_pos reserved,if_pos (show byte = hdlcFlag ∨ byte = hdlcEscape from reserved),List.append_assoc]
        rfl
      · rw [if_neg reserved,if_neg (show ¬ (byte = hdlcFlag ∨ byte = hdlcEscape) from reserved)]
  simp only [encodeHdlcFrame]
  rw [fold,crc_eq,packH_eq]
  rfl

/-! ### The decoder -/

section decoder
variable {capacity : Nat} {d : HdlcDecoder capacity} {p : HdlcStreamDecoder}

/-- The two decoders hold the same frame. -/
structure Mirrors (d : HdlcDecoder capacity) (p : HdlcStreamDecoder) : Prop where
  limit : p.maximumFrameSize = capacity
  frame : p.frame = Hdlc.frame d
  inFrame : p.inFrame = d.inFrame
  escaped : p.escaped = d.escaped
  waits : d.frameReady = false

/-- A stored byte: checked before storing here, behind storing there. -/
theorem Mirrors.append (mirrors : Mirrors d p) (byte : U8) :
    Mirrors (append byte d) (dropLarge { p with frame := p.frame ++ [byte] }) := by
  obtain ⟨rfl,frame,inFrame,escaped,waits⟩ := mirrors
  have size := frame_length d
  have storage := d.storage_length
  have crc : hdlcCrcSize = kCrcSize := rfl
  have length : (p.frame ++ [byte]).length = d.frameSize + 1 := by
    rw [List.length_append,List.length_singleton,frame,size]
  unfold Hdlc.append dropLarge
  by_cases full : d.frameSize ≥ p.maximumFrameSize + kCrcSize
  · rw [dif_pos full,if_pos (by simp only [length]; omega)]
    exact ⟨rfl,rfl,rfl,rfl,waits⟩
  · rw [dif_neg full,if_neg (by simp only [length]; omega)]
    refine ⟨rfl,?_,inFrame,escaped,waits⟩
    simp only [frame]
    exact (take_set_succ (by omega) byte).symm

/-- A flag yields there what it completes here. -/
theorem Mirrors.completed (mirrors : Mirrors d p) :
    HostLink.completed p = if d.inFrame && !d.escaped && hasValidCrc d then
      some ((Hdlc.frame d).take ((Hdlc.frame d).length - 2)) else none := by
  obtain ⟨-,frame,inFrame,escaped,-⟩ := mirrors
  unfold HostLink.completed
  rw [frame,inFrame,escaped]
  by_cases open_ : d.inFrame = true ∧ d.escaped = false
  · obtain ⟨inside,plain⟩ := open_
    simp only [inside,plain,Bool.not_false,Bool.true_and,true_and,Bool.false_eq_true,not_false_eq_true]
    by_cases long : 3 ≤ (Hdlc.frame d).length
    · have some_ : Hdlc.frame d ≠ [] := by
        rintro empty
        simp [empty] at long
      have two : ((Hdlc.frame d).drop ((Hdlc.frame d).length - hdlcCrcSize)).length = 2 := by
        rw [List.length_drop]
        simp only [hdlcCrcSize]
        omega
      rw [if_pos ⟨some_,by simp only [hdlcCrcSize]; omega⟩]
      simp only [crc_eq,fromBytes_eq_iff two]
      have valid := hasValidCrc_iff d
      simp only [long,true_and] at valid
      by_cases good : hasValidCrc d = true
      · rw [if_pos good]
        exact if_pos (valid.mp good)
      · rw [if_neg good]
        exact if_neg (fun same => good (valid.mpr same))
    · have short : ¬ hasValidCrc d = true := fun valid => long ((hasValidCrc_iff d).mp valid).1
      rw [if_neg (by simp only [hdlcCrcSize]; rintro ⟨-,more⟩; omega),if_neg short]
  · have closed : (d.inFrame && !d.escaped && hasValidCrc d) = false := by
      cases inside : d.inFrame <;> cases plain : d.escaped <;> simp_all
    rw [closed,if_neg (fun all => open_ ⟨all.1,by simpa using all.2.2.1⟩)]
    rfl

private theorem step_unfinished {e : HdlcDecoder capacity} {byte : U8} (pushed : push byte d = (e,false)) :
    step d byte = (e,none) := by
  simp only [step,pushed,Bool.false_eq_true,if_false]

theorem step_mirrors (mirrors : Mirrors d p) (byte : U8) :
    Mirrors (step d byte).1 (feedOne p byte).1 ∧ (feedOne p byte).2 = (step d byte).2 := by
  have waits := mirrors.waits
  by_cases flag : byte = kFlag
  · have fed : feedOne p byte = ({ p with frame := [], inFrame := true, escaped := false },HostLink.completed p) :=
      if_pos flag
    rw [fed,mirrors.completed]
    by_cases done : (d.inFrame && !d.escaped && hasValidCrc d) = true
    · simp only [step,push,pushFlag,waits,flag,done,Bool.false_eq_true,if_false,if_true]
      refine ⟨⟨mirrors.limit,rfl,rfl,rfl,rfl⟩,?_⟩
      rw [frame_length]
      simp only [Hdlc.frame,List.take_take,kCrcSize,Nat.min_eq_left (Nat.sub_le _ _)]
    · simp only [step,push,pushFlag,waits,flag,done,Bool.false_eq_true,if_false,if_true]
      exact ⟨⟨mirrors.limit,rfl,rfl,rfl,rfl⟩,trivial⟩
  cases inside : d.inFrame with
  | false =>
    have fed : feedOne p byte = (p,none) := by
      have there := mirrors.inFrame
      simp [feedOne,show ¬ byte = hdlcFlag from flag,there,inside]
    rw [fed,step_unfinished (show push byte d = (d,false) by simp [push,waits,flag,inside])]
    exact ⟨mirrors,rfl⟩
  | true =>
    have there := mirrors.inFrame
    have escapedThere := mirrors.escaped
    cases escaped : d.escaped with
    | true =>
      have cleared : Mirrors { d with escaped := false } { p with escaped := false } :=
        ⟨mirrors.limit,mirrors.frame,mirrors.inFrame,rfl,waits⟩
      have pushed : push byte d = (append (byte ^^^ kEscapeXor) { d with escaped := false },false) := by
        simp [push,waits,flag,inside,escaped]
      have fed : feedOne p byte =
          (dropLarge { p with frame := p.frame ++ [byte ^^^ hdlcEscapeXor], escaped := false },none) := by
        simp [feedOne,show ¬ byte = hdlcFlag from flag,there,inside,escapedThere,escaped]
      rw [fed,step_unfinished pushed]
      exact ⟨cleared.append (byte ^^^ kEscapeXor),rfl⟩
    | false =>
      by_cases escape : byte = kEscape
      · have size := d.size_le
        have fits : ¬ p.frame.length > p.maximumFrameSize + hdlcCrcSize := by
          rw [mirrors.frame,frame_length,mirrors.limit]
          exact not_lt.mpr size
        have pushed : push byte d = ({ d with escaped := true },false) := by
          unfold push
          rw [waits,inside,escaped]
          simp only [Bool.false_eq_true,if_false,if_neg flag,Bool.not_true,if_pos escape]
        have fed : feedOne p byte = ({ p with escaped := true },none) := by
          have dropped : dropLarge { p with escaped := true } = { p with escaped := true } := if_neg fits
          unfold feedOne
          rw [if_neg (show ¬ byte = hdlcFlag from flag),if_neg (by simp [there,inside]),
            if_neg (by simp [escapedThere,escaped]),if_pos (show byte = hdlcEscape from escape),dropped]
        rw [fed,step_unfinished pushed]
        exact ⟨⟨mirrors.limit,mirrors.frame,mirrors.inFrame,rfl,waits⟩,rfl⟩
      · have pushed : push byte d = (append byte d,false) := by
          unfold push
          rw [waits,inside,escaped]
          simp only [Bool.false_eq_true,if_false,if_neg flag,Bool.not_true,if_neg escape]
        have fed : feedOne p byte = (dropLarge { p with frame := p.frame ++ [byte] },none) := by
          simp [feedOne,show ¬ byte = hdlcFlag from flag,there,inside,escapedThere,escaped,
            show ¬ byte = hdlcEscape from escape]
        rw [fed,step_unfinished pushed]
        exact ⟨mirrors.append byte,rfl⟩

theorem feed_mirrors (mirrors : Mirrors d p) (data : Bytes) :
    Mirrors (after d data) (feed p data).1 ∧ (feed p data).2 = frames d data := by
  induction data generalizing d p with
  | nil => exact ⟨mirrors,rfl⟩
  | cons byte data ih =>
    obtain ⟨next,same⟩ := step_mirrors mirrors byte
    obtain ⟨last,rest⟩ := ih next
    refine ⟨last,?_⟩
    rw [feed,same,rest,frames,frames,completions]
    cases (step d byte).2 <;> rfl

theorem feedChunks_mirrors (mirrors : Mirrors d p) (chunks : List Bytes) :
    (feedChunks p chunks).2 = frames d chunks.flatten := by
  induction chunks generalizing d p with
  | nil => rfl
  | cons data chunks ih =>
    obtain ⟨next,same⟩ := feed_mirrors mirrors data
    rw [feedChunks,same,ih next,List.flatten_cons,frames,frames,frames,completions_append,List.reduceOption_append]

end decoder

/-- The firmware's and the host's link agree: however a stream is cut into chunks,
    the host's decoder yields the frames the firmware's completes, and both encoders
    write the same bytes. -/
theorem host_link_agrees (capacity : Nat) :
    (∀ chunks : List Bytes, (feedChunks { maximumFrameSize := capacity } chunks).2 =
      frames ({} : HdlcDecoder capacity) chunks.flatten) ∧
    ∀ payload destination : Bytes, payload ≠ [] → encodedSize payload ≤ destination.length →
      encodeHdlcFrame payload = (encode payload destination).1.take (encode payload destination).2 := by
  constructor
  · intro chunks
    exact feedChunks_mirrors ⟨rfl,rfl,rfl,rfl,rfl⟩ chunks
  · intro payload destination nonempty room
    rw [encode_eq nonempty room,encodedSize_eq nonempty,List.take_left,encodeHdlcFrame_eq]

end WireSpaces.HostLink
