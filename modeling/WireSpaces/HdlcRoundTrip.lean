import WireSpaces.HdlcFrames

/-!
The HDLC encoder against the decoder. An encoding is a flag, the stuffed payload
with its trailer, and a flag; the first flag brings a decoder of any history to the
start of a part, and the second one completes the payload.
-/
namespace WireSpaces.HdlcRoundTrip
open WireSpaces.Codec WireSpaces.Crc WireSpaces.Hdlc WireSpaces.HdlcFrames WireSpaces.Stuffing

/-! ### What `encode` writes -/

def body (payload : Bytes) : Bytes := stuff scheme (payload ++ trailer payload)

/-- The bytes of a payload on the wire. -/
def encoding (payload : Bytes) : Bytes := kFlag :: (body payload ++ [kFlag])

theorem stuffedSize_eq (byte : U8) : stuffedSize byte = (stuffItem scheme byte).length := by
  rw [stuffedSize,stuffItem]
  show _ = List.length (if byte = kFlag ∨ byte = kEscape then _ else _)
  split <;> rfl

theorem foldl_stuffedSize (bytes : Bytes) (start : Nat) :
    bytes.foldl (fun result byte => result + stuffedSize byte) start = start + (stuff scheme bytes).length := by
  induction bytes generalizing start with
  | nil => rfl
  | cons byte bytes ih =>
    rw [List.foldl_cons,ih,stuffedSize_eq,stuff_cons,List.length_append,Nat.add_assoc]

theorem encodedSize_eq {payload : Bytes} (nonempty : payload ≠ []) : encodedSize payload = (encoding payload).length := by
  rw [encodedSize,if_neg nonempty,foldl_stuffedSize]
  simp only [encoding,body,trailer,writeU16,stuff_append,stuff_cons,stuff_nil,List.length_append,List.length_cons,
    List.length_nil,stuffedSize_eq]
  omega

/-- The bytes written so far stand at the front of the destination. -/
def Wrote (destination written : Bytes) (out : Bytes × Nat) : Prop :=
  out = (written ++ destination.drop written.length,written.length)

theorem write_wrote {destination written : Bytes} {out : Bytes × Nat} (wrote : Wrote destination written out) (byte : U8)
    (room : written.length < destination.length) : Wrote destination (written ++ [byte]) (write out byte) := by
  obtain rfl := wrote
  rw [Wrote,write,List.set_append_right _ _ (le_refl _),Nat.sub_self,List.drop_eq_getElem_cons room,List.set_cons_zero]
  simp

theorem writeStuffed_wrote {destination written : Bytes} {out : Bytes × Nat} (wrote : Wrote destination written out) (byte : U8)
    (room : (written ++ stuffItem scheme byte).length ≤ destination.length) :
    Wrote destination (written ++ stuffItem scheme byte) (writeStuffed out byte) := by
  rw [writeStuffed,stuffItem] at *
  by_cases reserved : byte = kFlag ∨ byte = kEscape
  · have stuffed : byte = scheme.flag ∨ byte = scheme.escape := reserved
    rw [if_pos stuffed] at room ⊢
    rw [if_pos reserved]
    simp only [List.length_append,List.length_cons,List.length_nil] at room
    have first := write_wrote wrote kEscape (by omega)
    have second := write_wrote first (byte ^^^ kEscapeXor) (by simp only [List.length_append,List.length_singleton]; omega)
    rw [List.append_assoc] at second
    exact second
  · have plain : ¬ (byte = scheme.flag ∨ byte = scheme.escape) := reserved
    rw [if_neg plain] at room ⊢
    rw [if_neg reserved]
    simp only [List.length_append,List.length_singleton] at room
    exact write_wrote wrote byte (by omega)

theorem foldl_wrote {destination : Bytes} (bytes : Bytes) {written : Bytes} {out : Bytes × Nat}
    (wrote : Wrote destination written out) (room : (written ++ stuff scheme bytes).length ≤ destination.length) :
    Wrote destination (written ++ stuff scheme bytes) (bytes.foldl writeStuffed out) := by
  induction bytes generalizing written out with
  | nil => simpa using wrote
  | cons byte bytes ih =>
    rw [stuff_cons,← List.append_assoc] at room ⊢
    exact ih (writeStuffed_wrote wrote byte (le_trans (by simp) room)) room

theorem encode_eq {payload destination : Bytes} (nonempty : payload ≠ [])
    (room : encodedSize payload ≤ destination.length) :
    encode payload destination = (encoding payload ++ destination.drop (encodedSize payload),encodedSize payload) := by
  have size := encodedSize_eq nonempty
  have long : (encoding payload).length = (body payload).length + 2 := by simp [encoding]
  have accepted : ¬ (destination = [] ∨ encodedSize payload = 0 ∨ destination.length < encodedSize payload) := by
    rintro (rfl | zero | short)
    · simp at room
      omega
    · omega
    · omega
  have nothing : Wrote destination [] (destination,0) := rfl
  have first := write_wrote nothing kFlag (by simp only [List.length_nil]; omega)
  rw [List.nil_append] at first
  have parts : [kFlag] ++ stuff scheme payload ++ stuff scheme (trailer payload) = kFlag :: body payload := by
    simp [body]
  have bound : ([kFlag] ++ stuff scheme payload ++ stuff scheme (trailer payload)).length + 1 ≤ destination.length := by
    rw [parts,List.length_cons]
    omega
  have second := foldl_wrote payload first (by simp only [List.length_append] at bound ⊢; omega)
  have third := foldl_wrote (trailer payload) second (by omega)
  have last := write_wrote third kFlag (by omega)
  rw [parts] at last
  rw [size]
  rw [encode,if_neg accepted]
  exact last

/-- The flag stands at both ends of an encoding and nowhere else. -/
theorem encoding_flags (payload : Bytes) (i : Nat) (inside : i < (encoding payload).length) :
    (encoding payload)[i]? = some kFlag ↔ i = 0 ∨ i + 1 = (encoding payload).length := by
  have long : (encoding payload).length = (body payload).length + 2 := by simp [encoding]
  have free : kFlag ∉ body payload := flag_not_mem_stuff _
  rw [long] at inside ⊢
  rcases i with _ | i
  · simp [encoding]
  · rw [encoding,List.getElem?_cons_succ]
    by_cases within : i < (body payload).length
    · rw [List.getElem?_append_left within]
      refine iff_of_false ?_ (by omega)
      intro found
      exact free (List.mem_of_getElem? found)
    · obtain rfl : i = (body payload).length := by omega
      simp

/-! ### Decoding it -/

section decoding
variable {capacity : Nat}

theorem accepted_body {payload : Bytes} (nonempty : payload ≠ []) (fits : payload.length ≤ capacity) :
    accepted capacity (body payload) = some payload := by
  have positive := List.length_pos_iff.mpr nonempty
  have size : (payload ++ trailer payload).length - 2 = payload.length := by simp [trailer,writeU16]
  rw [accepted,body,unstuff_stuff]
  simp only [size,List.take_left,List.drop_left]
  exact if_pos ⟨by simp [trailer,writeU16]; omega,by simpa [trailer,writeU16] using fits,trivial⟩

/-- What a flag completes after some history. -/
def pendingFrame (capacity : Nat) (history : Bytes) : Option Bytes :=
  if kFlag ∈ history then accepted capacity (openPart kFlag history) else none

theorem completion_flag (history : Bytes) :
    (step (after ({} : HdlcDecoder capacity) history) kFlag).2 = pendingFrame capacity history := by
  rw [completion_after,pendingFrame]
  simp

/-- Bytes that are no flag complete nothing. -/
theorem completions_free (history : Bytes) {part : Bytes} (free : kFlag ∉ part) :
    completions (after ({} : HdlcDecoder capacity) history) part = List.replicate part.length none := by
  induction part generalizing history with
  | nil => rfl
  | cons byte part ih =>
    rw [List.mem_cons,not_or] at free
    have nothing : (step (after ({} : HdlcDecoder capacity) history) byte).2 = none := by
      rw [completion_after,if_neg (fun both => free.1 both.1.symm)]
    rw [completions,nothing,← after_concat,ih _ free.2]
    rfl

/-- An encoding completes its payload at its last byte, whatever came before; its
    first byte completes what the history left open. -/
theorem completions_encoding (history : Bytes) {payload : Bytes} (nonempty : payload ≠ []) (fits : payload.length ≤ capacity) :
    completions (after ({} : HdlcDecoder capacity) history) (encoding payload) =
      pendingFrame capacity history :: (List.replicate (body payload).length none ++ [some payload]) := by
  have free : kFlag ∉ body payload := flag_not_mem_stuff _
  rw [encoding,completions,completion_flag,← after_concat,completions_append,completions_free _ free,← after_append]
  congr 2
  rw [completions,completions,completion_flag,List.append_assoc,pendingFrame,if_pos (by simp)]
  show [accepted capacity (openPart kFlag (history ++ kFlag :: body payload))] = _
  rw [openPart_after_flag history free,accepted_body nonempty fits]

/-- Nothing is pending between two encodings. -/
theorem pendingFrame_encoding (history payload : Bytes) : pendingFrame capacity (history ++ encoding payload) = none := by
  have last : history ++ encoding payload = (history ++ kFlag :: body payload) ++ [kFlag] := by simp [encoding]
  rw [pendingFrame,last,openPart_concat_flag]
  split <;> rfl

theorem frames_encodings (history : Bytes) (idle : pendingFrame capacity history = none) {payloads : List Bytes}
    (each : ∀ payload ∈ payloads, payload ≠ [] ∧ payload.length ≤ capacity) :
    frames (after ({} : HdlcDecoder capacity) history) (payloads.flatMap encoding) = payloads := by
  induction payloads generalizing history with
  | nil => rfl
  | cons payload payloads ih =>
    obtain ⟨nonempty,fits⟩ := each payload (by simp)
    have rest := ih (history ++ encoding payload) (pendingFrame_encoding history payload)
      (fun other member => each other (List.mem_cons_of_mem _ member))
    rw [frames] at rest ⊢
    rw [List.flatMap_cons,completions_append,List.reduceOption_append,← after_append,rest,
      completions_encoding history nonempty fits,idle]
    simp [List.reduceOption]

end decoding

/-- What a payload's `encode` call leaves in its destination, up to the reported size. -/
def written (message : Bytes × Bytes) : Bytes :=
  (encode message.1 message.2).1.take (encode message.1 message.2).2

/-- An `encode` call with room writes exactly the announced bytes, with flags at the
    ends only; pushed after any history they complete the payload at the last byte,
    and the first byte completes at most what the history left open. So a sequence of
    encodings decodes to its payloads. -/
theorem encode_decode_round_trip (capacity : Nat) :
    (∀ payload destination history : Bytes, payload ≠ [] → payload.length ≤ capacity →
      encodedSize payload ≤ destination.length →
      let out := encode payload destination
      out.2 = encodedSize payload ∧ out.1.drop out.2 = destination.drop out.2 ∧
        (∀ i < out.2, out.1[i]? = some kFlag ↔ i = 0 ∨ i + 1 = out.2) ∧
        completions (after ({} : HdlcDecoder capacity) history) (out.1.take out.2) =
          pendingFrame capacity history :: (List.replicate (out.2 - 2) none ++ [some payload])) ∧
    ∀ messages : List (Bytes × Bytes),
      (∀ m ∈ messages, m.1 ≠ [] ∧ m.1.length ≤ capacity ∧ encodedSize m.1 ≤ m.2.length) →
      frames ({} : HdlcDecoder capacity) (messages.flatMap written) = messages.map Prod.fst := by
  constructor
  · intro payload destination history nonempty fits room out
    have result : out = _ := encode_eq nonempty room
    have size := encodedSize_eq nonempty
    have long : (encoding payload).length = (body payload).length + 2 := by simp [encoding]
    rw [result,size]
    refine ⟨rfl,List.drop_left,?_,?_⟩
    · intro i inside
      rw [List.getElem?_append_left inside]
      exact encoding_flags payload i inside
    · simp only [List.take_left]
      rw [completions_encoding history nonempty fits,long,Nat.add_sub_cancel]
  · intro messages each
    have bytes : messages.flatMap written = (messages.map Prod.fst).flatMap encoding := by
      rw [List.flatMap_map]
      refine List.flatMap_congr ?_
      intro m member
      obtain ⟨nonempty,-,room⟩ := each m member
      rw [written,encode_eq nonempty room,encodedSize_eq nonempty,List.take_left]
    rw [bytes]
    refine frames_encodings [] rfl ?_
    intro payload member
    obtain ⟨m,found,rfl⟩ := List.mem_map.mp member
    exact ⟨(each m found).1,(each m found).2.1⟩

/-- Two payloads with bytes to stuff, behind a part that an escape left open. -/
theorem stuffed_payloads_decode :
    completions (after ({} : HdlcDecoder 8) [kFlag,0x01,kEscape]) ((encode [kFlag,kEscape] (List.replicate 16 0)).1.take 8) =
      List.replicate 7 none ++ [some [kFlag,kEscape]] ∧
    frames ({} : HdlcDecoder 8) ([([kFlag,kEscape],List.replicate 16 0),([0x01],List.replicate 16 0)].flatMap written) =
      [[kFlag,kEscape],[0x01]] := by
  obtain ⟨each,all⟩ := encode_decode_round_trip 8
  obtain ⟨-,-,-,whole⟩ := each [kFlag,kEscape] (List.replicate 16 0) [kFlag,0x01,kEscape] (by decide) (by decide)
    (by decide +kernel)
  refine ⟨?_,all _ (by decide +kernel)⟩
  have size : (encode [kFlag,kEscape] (List.replicate 16 0)).2 = 8 := by decide +kernel
  have open_part : pendingFrame 8 [kFlag,0x01,kEscape] = none := by decide +kernel
  rw [size,open_part] at whole
  exact whole

end WireSpaces.HdlcRoundTrip
