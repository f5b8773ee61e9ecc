import WireSpaces.Hdlc

/-!
What the HDLC decoder accepts. The parts of a stream between two flags decide
alone: a part is a frame when its escapes pair up, its content fits the array and
the content ends in its own CRC. The incremental decoder agrees with this on every
stream, because at every byte it holds the scan of the part it is in.
-/
namespace WireSpaces.HdlcFrames
open WireSpaces.Codec WireSpaces.Crc WireSpaces.Hdlc WireSpaces.Stuffing

/-- The link's stuffing. -/
def scheme : Scheme U8 where
  flag := kFlag
  escape := kEscape
  twist byte := byte ^^^ kEscapeXor
  twist_twist byte := by rw [BitVec.xor_assoc,BitVec.xor_self,BitVec.xor_zero]
  flag_ne_escape := by decide
  twist_flag := by decide
  twist_escape := by decide

/-- The CRC of a frame as its last two bytes, low byte first. -/
def trailer (payload : Bytes) : Bytes := writeU16 (compute Crc16CcittFalse payload)

/-- The frame in a part between two flags. -/
def accepted (capacity : Nat) (part : Bytes) : Option Bytes :=
  match unstuff scheme part with
  | none => none
  | some content =>
    let payload := content.take (content.length - 2)
    if 3 ≤ content.length ∧ content.length ≤ capacity + 2 ∧ content.drop (content.length - 2) = trailer payload then
      some payload
    else none

/-! ### The array -/

section decoder
variable {capacity : Nat}

theorem frame_length (d : HdlcDecoder capacity) : (frame d).length = d.frameSize := by
  have size := d.size_le
  have storage := d.storage_length
  rw [frame,List.length_take]
  omega

theorem take_set_succ {bytes : Bytes} {n : Nat} (inside : n < bytes.length) (byte : U8) :
    (bytes.set n byte).take (n + 1) = bytes.take n ++ [byte] := by
  rw [List.take_add_one,List.take_set_of_le (le_refl n),List.getElem?_set_self inside]
  rfl

/-- The word at the end of a span is a value when the span ends in its two bytes. -/
theorem readU16_eq_iff {bytes : Bytes} {n : Nat} (inside : n + 2 ≤ bytes.length) (value : U16) :
    readU16 bytes n = value ↔ (bytes.take (n + 2)).drop n = writeU16 value := by
  have pair : (bytes.take (n + 2)).drop n = [bytes.getD n 0,bytes.getD (n + 1) 0] := by
    apply List.ext_getElem?
    intro i
    rcases i with _ | _ | i
    · simp [List.getD_eq_getElem?_getD,List.getElem?_eq_getElem (show n < bytes.length by omega)]
    · simp [List.getD_eq_getElem?_getD,List.getElem?_eq_getElem (show n + 1 < bytes.length by omega)]
    · simp
  rw [pair,writeU16,readU16]
  constructor
  · rintro rfl
    rw [low_half,high_half]
  · intro same
    simp only [List.cons.injEq,and_true] at same
    rw [same.1,same.2,join_halves]

/-- The decoder checks the CRC of the bytes it holds. -/
theorem hasValidCrc_iff (d : HdlcDecoder capacity) :
    hasValidCrc d = true ↔ 3 ≤ (frame d).length ∧
      (frame d).drop ((frame d).length - 2) = trailer ((frame d).take ((frame d).length - 2)) := by
  have size := d.size_le
  have storage := d.storage_length
  have crcSize : kCrcSize = 2 := rfl
  rw [frame_length,hasValidCrc]
  by_cases short : d.frameSize ≤ kCrcSize
  · rw [if_pos short]
    simp only [Bool.false_eq_true,false_iff,not_and]
    omega
  · rw [if_neg short]
    have rest : (frame d).take (d.frameSize - 2) = d.storage.take (d.frameSize - 2) := by
      rw [frame,List.take_take,Nat.min_eq_left (Nat.sub_le _ _)]
    have room : d.frameSize - 2 + 2 ≤ d.storage.length := by omega
    have whole := readU16_eq_iff room (compute Crc16CcittFalse (d.storage.take (d.frameSize - 2)))
    rw [show d.frameSize - 2 + 2 = d.frameSize by omega] at whole
    rw [rest,trailer,beq_iff_eq,show d.frameSize - kCrcSize = d.frameSize - 2 from rfl,whole,frame]
    constructor
    · intro same
      exact ⟨by omega,same⟩
    · rintro ⟨-,same⟩
      exact same

/-! ### The decoder and the scan of its part -/

/-- The decoder holds the content scanned so far and its pending escape, or has
    given the part up because the content does not fit. -/
structure Tracks (d : HdlcDecoder capacity) (read : Bytes × Bool) : Prop where
  inside : read.1.length ≤ capacity + kCrcSize → d.inFrame = true ∧ d.escaped = read.2 ∧ frame d = read.1
  outside : capacity + kCrcSize < read.1.length → d.inFrame = false

theorem append_ready (byte : U8) (d : HdlcDecoder capacity) : (append byte d).frameReady = d.frameReady := by
  unfold append
  split <;> rfl

theorem append_tracks (byte : U8) {d : HdlcDecoder capacity} (active : d.inFrame = true) (plain : d.escaped = false) :
    Tracks (append byte d) (frame d ++ [byte],false) := by
  have size := frame_length d
  have storage := d.storage_length
  unfold append
  split
  · rename_i full
    refine ⟨?_,fun _ => rfl⟩
    intro fits
    rw [List.length_append,List.length_singleton] at fits
    omega
  · rename_i room
    refine ⟨fun _ => ⟨active,plain,?_⟩,?_⟩
    · exact take_set_succ (by omega) byte
    · intro excess
      rw [List.length_append,List.length_singleton] at excess
      omega

/-- Outside a frame every byte but the flag passes by. -/
theorem step_outside {d : HdlcDecoder capacity} (waits : d.frameReady = false) (outside : d.inFrame = false) {byte : U8}
    (other : byte ≠ kFlag) : step d byte = (d,none) := by
  simp [step,push,waits,other,outside]

/-- A byte that is no flag moves the decoder as it moves the scan. -/
theorem step_tracks {d : HdlcDecoder capacity} {read : Bytes × Bool} (waits : d.frameReady = false) (tracks : Tracks d read)
    {byte : U8} (other : byte ≠ kFlag) :
    (step d byte).2 = none ∧ (step d byte).1.frameReady = false ∧ Tracks (step d byte).1 (scanItem scheme read byte) := by
  by_cases excess : capacity + kCrcSize < read.1.length
  · rw [step_outside waits (tracks.outside excess) other]
    have longer : capacity + kCrcSize < (scanItem scheme read byte).1.length := excess.trans_le (scanItem_length_le read byte)
    exact ⟨rfl,waits,fun fits => absurd longer (not_lt.mpr fits),fun _ => tracks.outside excess⟩
  obtain ⟨active,escaped,holds⟩ := tracks.inside (not_lt.mp excess)
  obtain ⟨content,pending⟩ := read
  simp only at escaped holds
  subst holds
  cases pending with
  | true =>
    have next : step d byte = (append (byte ^^^ kEscapeXor) { d with escaped := false },none) := by
      simp [step,push,waits,other,active,escaped]
    rw [next]
    refine ⟨rfl,by rw [append_ready]; exact waits,?_⟩
    exact append_tracks (byte ^^^ kEscapeXor) (d := { d with escaped := false }) active rfl
  | false =>
    by_cases escape : byte = kEscape
    · have next : step d byte = ({ d with escaped := true },none) := by
        simp [step,push,waits,active,escaped,escape,show kEscape ≠ kFlag by decide]
      have moved : scanItem scheme (frame d,false) byte = (frame d,true) := by simp [scanItem,scheme,escape]
      rw [next,moved]
      exact ⟨rfl,waits,fun _ => ⟨active,rfl,rfl⟩,fun full => absurd full excess⟩
    · have next : step d byte = (append byte d,none) := by
        simp [step,push,waits,other,active,escaped,escape]
      have moved : scanItem scheme (frame d,false) byte = (frame d ++ [byte],false) := by simp [scanItem,scheme,escape]
      rw [next,moved]
      exact ⟨rfl,by rw [append_ready]; exact waits,append_tracks byte active escaped⟩

/-- A flag leaves the decoder at the start of a part. -/
theorem step_flag_tracks {d : HdlcDecoder capacity} (waits : d.frameReady = false) :
    (step d kFlag).1.frameReady = false ∧ Tracks (step d kFlag).1 ([],false) := by
  have pushed : push kFlag d = pushFlag d := by simp [push,waits]
  rw [step,pushed,pushFlag]
  by_cases completed : (d.inFrame && !d.escaped && hasValidCrc d) = true
  · rw [if_pos completed]
    exact ⟨rfl,fun _ => ⟨rfl,rfl,rfl⟩,fun excess => absurd excess (Nat.not_lt_zero _)⟩
  · rw [if_neg completed]
    exact ⟨waits,fun _ => ⟨rfl,rfl,rfl⟩,fun excess => absurd excess (Nat.not_lt_zero _)⟩

theorem step_flag_outside {d : HdlcDecoder capacity} (waits : d.frameReady = false) (outside : d.inFrame = false) :
    (step d kFlag).2 = none := by
  simp [step,push,waits,pushFlag,outside]

/-- A flag completes the frame of the part it closes. -/
theorem step_flag_accepts {d : HdlcDecoder capacity} (waits : d.frameReady = false) {part : Bytes}
    (tracks : Tracks d (scan scheme part)) : (step d kFlag).2 = accepted capacity part := by
  rw [accepted,unstuff_eq_scan]
  by_cases excess : capacity + kCrcSize < (scan scheme part).1.length
  · rw [step_flag_outside waits (tracks.outside excess)]
    split
    · rfl
    · rename_i content found
      split at found
      · cases found
      · obtain rfl := Option.some.inj found
        rw [if_neg (fun fits => absurd fits.2.1 (not_le.mpr excess))]
  obtain ⟨active,escaped,holds⟩ := tracks.inside (not_lt.mp excess)
  have fits : (frame d).length ≤ capacity + 2 := holds ▸ not_lt.mp excess
  rw [← holds,← escaped]
  have pushed : push kFlag d = pushFlag d := by simp [push,waits]
  rw [step,pushed,pushFlag,active]
  cases dangling : d.escaped with
  | true => rfl
  | false =>
    by_cases valid : hasValidCrc d = true
    · obtain ⟨long,crc⟩ := (hasValidCrc_iff d).mp valid
      simp only [valid,Bool.not_false,Bool.and_self,if_true,Bool.false_eq_true,if_false]
      rw [if_pos ⟨long,fits,crc⟩,frame_length]
      simp only [frame,kCrcSize,List.take_take,Nat.min_eq_left (Nat.sub_le _ _)]
    · have invalid := (hasValidCrc_iff d).not.mp valid
      simp only [valid,Bool.and_false,Bool.false_eq_true,if_false]
      rw [if_neg (fun all => invalid ⟨all.1,all.2.2⟩)]

/-! ### Streams -/

/-- The decoder after a stream: outside until the first flag, then in step with the open part. -/
structure Follows (d : HdlcDecoder capacity) (stream : Bytes) : Prop where
  waits : d.frameReady = false
  before : kFlag ∉ stream → d.inFrame = false
  within : kFlag ∈ stream → Tracks d (scan scheme (openPart kFlag stream))

theorem after_concat (d : HdlcDecoder capacity) (stream : Bytes) (byte : U8) :
    after d (stream ++ [byte]) = (step (after d stream) byte).1 := by
  simp [after]

theorem after_append (d : HdlcDecoder capacity) (stream more : Bytes) :
    after d (stream ++ more) = after (after d stream) more := by
  simp [after]

theorem completions_append (d : HdlcDecoder capacity) (stream more : Bytes) :
    completions d (stream ++ more) = completions d stream ++ completions (after d stream) more := by
  induction stream generalizing d with
  | nil => rfl
  | cons byte stream ih => exact congrArg _ (ih (step d byte).1)

theorem completions_length (d : HdlcDecoder capacity) (stream : Bytes) : (completions d stream).length = stream.length := by
  induction stream generalizing d with
  | nil => rfl
  | cons byte stream ih => exact congrArg _ (ih (step d byte).1)

theorem follows_after (capacity : Nat) (stream : Bytes) : Follows (after ({} : HdlcDecoder capacity) stream) stream := by
  induction stream using List.reverseRecOn with
  | nil => exact ⟨rfl,fun _ => rfl,by simp⟩
  | append_singleton stream byte ih =>
    rw [after_concat]
    by_cases flag : byte = kFlag
    · subst flag
      obtain ⟨waits,tracks⟩ := step_flag_tracks ih.waits
      refine ⟨waits,fun free => absurd (by simp) free,fun _ => ?_⟩
      rw [openPart_concat_flag]
      exact tracks
    by_cases member : kFlag ∈ stream
    · obtain ⟨-,waits,tracks⟩ := step_tracks ih.waits (ih.within member) flag
      refine ⟨waits,fun free => absurd (List.mem_append_left _ member) free,fun _ => ?_⟩
      rw [openPart_concat flag,scan_concat]
      exact tracks
    · rw [step_outside ih.waits (ih.before member) flag]
      refine ⟨ih.waits,fun _ => ih.before member,?_⟩
      intro inside
      exact absurd inside (by simp [member,Ne.symm flag])

/-- What the next byte completes. -/
theorem completion_after (stream : Bytes) (byte : U8) :
    (step (after ({} : HdlcDecoder capacity) stream) byte).2 =
      if byte = kFlag ∧ kFlag ∈ stream then accepted capacity (openPart kFlag stream) else none := by
  have follows := follows_after capacity stream
  by_cases flag : byte = kFlag
  · subst flag
    by_cases member : kFlag ∈ stream
    · rw [if_pos ⟨rfl,member⟩,step_flag_accepts follows.waits (follows.within member)]
    · rw [if_neg (fun both => member both.2),step_flag_outside follows.waits (follows.before member)]
  · rw [if_neg (fun both => flag both.1)]
    by_cases member : kFlag ∈ stream
    · exact (step_tracks follows.waits (follows.within member) flag).1
    · rw [step_outside follows.waits (follows.before member) flag]

theorem frames_eq (stream : Bytes) :
    frames ({} : HdlcDecoder capacity) stream = (closedParts kFlag stream).filterMap (accepted capacity) := by
  induction stream using List.reverseRecOn with
  | nil => rfl
  | append_singleton stream byte ih =>
    rw [frames,completions_append,List.reduceOption_append,← frames,ih]
    show _ ++ [(step (after {} stream) byte).2].reduceOption = _
    rw [completion_after]
    by_cases flag : byte = kFlag
    · subst flag
      rw [closedParts_concat_flag]
      by_cases member : kFlag ∈ stream
      · rw [if_pos ⟨rfl,member⟩,if_pos member,List.filterMap_append]
        cases verdict : accepted capacity (openPart kFlag stream) <;> simp [verdict]
      · rw [if_neg (fun both => member both.2),if_neg member,closedParts_of_not_mem member]
        rfl
    · rw [if_neg (fun both => flag both.1),closedParts_concat flag]
      simp

end decoder

/-- A fresh decoder completes exactly the frames of the parts between two flags, in
    order, and each one at the flag that closes its part. -/
theorem decoder_accepts_framing_grammar (capacity : Nat) (stream : Bytes) :
    frames ({} : HdlcDecoder capacity) stream =
        ((stream.splitOn kFlag).tail.dropLast).filterMap (accepted capacity) ∧
      ∀ k byte, stream[k]? = some byte → (completions ({} : HdlcDecoder capacity) stream)[k]? =
        some (if byte = kFlag ∧ kFlag ∈ stream.take k then accepted capacity (openPart kFlag (stream.take k)) else none) := by
  refine ⟨frames_eq stream,?_⟩
  intro k byte found
  obtain ⟨inside,same⟩ := List.getElem?_eq_some_iff.mp found
  have split : stream = stream.take k ++ byte :: stream.drop (k + 1) := by
    rw [← same,List.getElem_cons_drop,List.take_append_drop]
  have size : (completions ({} : HdlcDecoder capacity) (stream.take k)).length = k := by
    rw [completions_length,List.length_take,Nat.min_eq_left inside.le]
  rw [split,completions_append,List.getElem?_append_right (by rw [size]),size,Nat.sub_self,← split]
  show some _ = _
  rw [completion_after]

end WireSpaces.HdlcFrames
