import WireSpaces.HdlcFrames
import WireSpaces.CrcRemainder

/-!
Corrupted frames that the decoder rejects. The generator of the frame CRC has the
factor `X + 1`, so every odd number of wrong bits is found. It finds every burst of
two bytes inside the payload or inside the trailer; the trailer has its low byte
first, and one pattern across the boundary escapes it.
-/
namespace WireSpaces.HdlcErrors
open WireSpaces.Codec WireSpaces.Crc WireSpaces.Hdlc WireSpaces.HdlcFrames WireSpaces.Stuffing
open WireSpaces.BitPolynomials WireSpaces.CrcRemainder Polynomial

/-- What a fresh decoder completes of a string between two flags. -/
def receivedFrames (capacity : Nat) (received : Bytes) : List Bytes :=
  frames ({} : HdlcDecoder capacity) (kFlag :: (stuff scheme received ++ [kFlag]))

/-- The trailer of a string of the right size decides alone. -/
theorem receivedFrames_eq {capacity : Nat} {front : Bytes} (nonempty : front ≠ []) (fits : front.length ≤ capacity)
    (low high : U8) :
    receivedFrames capacity (front ++ [low,high]) = if [low,high] = trailer front then [front] else [] := by
  have positive := List.length_pos_iff.mpr nonempty
  have free : kFlag ∉ stuff scheme (front ++ [low,high]) := flag_not_mem_stuff _
  have parts : closedParts kFlag (kFlag :: (stuff scheme (front ++ [low,high]) ++ [kFlag])) =
      [stuff scheme (front ++ [low,high])] := by
    rw [← List.cons_append,closedParts_concat_flag,if_pos List.mem_cons_self]
    have before : closedParts kFlag (kFlag :: stuff scheme (front ++ [low,high])) = [] :=
      closedParts_after_flag [] free
    have last : openPart kFlag (kFlag :: stuff scheme (front ++ [low,high])) = stuff scheme (front ++ [low,high]) :=
      openPart_after_flag [] free
    rw [before,last]
    rfl
  have size : (front ++ [low,high]).length - 2 = front.length := by simp
  rw [receivedFrames,frames_eq,parts,List.filterMap_cons,List.filterMap_nil,accepted,unstuff_stuff]
  simp only [size,List.take_left,List.drop_left]
  by_cases valid : [low,high] = trailer front
  · rw [if_pos ⟨by simp; omega,by simpa using fits,valid⟩,if_pos valid]
  · rw [if_neg (fun all => valid all.2.2),if_neg valid]

theorem split_trailer {received : Bytes} {n : Nat} (size : received.length = n + 2) :
    ∃ front low high, received = front ++ [low,high] ∧ front.length = n := by
  obtain ⟨low,high,last⟩ : ∃ low high, received.drop n = [low,high] := List.length_eq_two.mp (by rw [List.length_drop]; omega)
  refine ⟨received.take n,low,high,?_,by rw [List.length_take]; omega⟩
  rw [← last,List.take_append_drop]

/-- The frame's CRC, which is not inverted at the end. -/
abbrev register (payload : Bytes) : U16 := payload.foldl (feedByte Crc16CcittFalse) Crc16CcittFalse.initial

theorem compute_register (payload : Bytes) : compute Crc16CcittFalse payload = register payload := by
  rw [compute_eq]
  exact BitVec.zero_xor

theorem trailer_eq (payload : Bytes) : trailer payload = writeU16 (register payload) := by
  rw [trailer,compute_register]

theorem residue_register (payload : Bytes) :
    residue Crc16CcittFalse (ofWord (register payload)) = residue Crc16CcittFalse (dividend Crc16CcittFalse payload) :=
  residue_foldl (by decide) Crc16CcittFalse _ payload

/-! ### Odd weight -/

theorem generator_eval_one : (generator Crc16CcittFalse).eval 1 = 0 := by
  rw [generator,eval_add,eval_one_ofWord]
  simp only [eval_pow,eval_X,one_pow]
  decide

/-- Every frame with its trailer has even weight. -/
theorem even_weight (payload : Bytes) : (ofBytes (payload ++ trailer payload)).eval 1 = 0 := by
  obtain ⟨quotient,difference⟩ := AdjoinRoot.mk_eq_mk.mp (residue_register payload)
  have register_parity : (ofWord (register payload)).eval 1 = (ofBytes payload).eval 1 := by
    have initial : (ofWord Crc16CcittFalse.initial).eval 1 = 0 := by
      rw [eval_one_ofWord]
      decide
    have values := congrArg (eval 1) difference
    rw [eval_sub,eval_mul,generator_eval_one,zero_mul,sub_eq_zero,dividend,eval_add,eval_mul,eval_mul,initial] at values
    simpa using values
  rw [ofWord_halves] at register_parity
  rw [trailer_eq,ofBytes_append,writeU16]
  simp only [ofBytes,eval_add,eval_mul,eval_pow,eval_X,one_pow,mul_one,List.length_nil,List.length_cons,add_zero]
    at register_parity ⊢
  rw [register_parity]
  exact CharTwo.add_self_eq_zero _

/-- A string that differs from a frame in an odd number of bits completes nothing. -/
theorem odd_corruption_rejected (capacity : Nat) (payload : Bytes) (nonempty : payload ≠ []) (fits : payload.length ≤ capacity)
    (received : Bytes) (size : received.length = payload.length + 2)
    (odd : Odd (distance (payload ++ trailer payload) received)) :
    frames ({} : HdlcDecoder capacity) (kFlag :: (stuff scheme received ++ [kFlag])) = [] := by
  obtain ⟨front,low,high,rfl,length⟩ := split_trailer size
  have some : front ≠ [] := by
    rintro rfl
    exact nonempty (List.length_eq_zero_iff.mp length.symm)
  show receivedFrames capacity (front ++ [low,high]) = []
  rw [receivedFrames_eq some (by omega),if_neg]
  intro valid
  have parity : (distance (payload ++ trailer payload) (front ++ [low,high]) : ZMod 2) = _ + _ :=
    distance_parity (by rw [size,List.length_append,trailer_eq]; rfl)
  rw [even_weight,zero_add] at parity
  rw [valid] at odd parity
  rw [even_weight,ZMod.natCast_eq_zero_iff_even] at parity
  exact (Nat.not_even_iff_odd.mpr odd) parity

/-- One bit of a short frame. -/
theorem single_bit_rejected : frames ({} : HdlcDecoder 4) (kFlag :: (stuff scheme [0x01,0xF0,0xE1] ++ [kFlag])) = [] := by
  refine odd_corruption_rejected 4 [0x00] (by decide) (by decide) [0x01,0xF0,0xE1] (by decide) ?_
  decide +kernel

/-! ### Bursts of two bytes -/

/-- The strings differ, and only within one pair of adjacent bytes. -/
def Burst (sent received : Bytes) : Prop :=
  received ≠ sent ∧ ∃ front back a b c d, sent = front ++ a :: b :: back ∧ received = front ++ c :: d :: back

/-- The burst across the boundary of payload and trailer that the CRC does not see. -/
def Unseen (payload received : Bytes) : Prop :=
  ∃ front last, payload = front ++ [last] ∧ received = front ++ [last ^^^ 0x89,
    (compute Crc16CcittFalse payload).setWidth 8 ^^^ 0xA1,(compute Crc16CcittFalse payload >>> 8).setWidth 8]

/-- Registers congruent modulo the generator are equal. -/
theorem eq_of_residue {x y : U16} (same : residue Crc16CcittFalse (ofWord x) = residue Crc16CcittFalse (ofWord y)) : x = y :=
  ofWord_injective ((eq_modByMonic Crc16CcittFalse same).trans (eq_modByMonic Crc16CcittFalse rfl).symm)

theorem residue_double (p : (ZMod 2)[X]) : residue Crc16CcittFalse p + residue Crc16CcittFalse p = 0 := by
  rw [← map_add,CharTwo.add_self_eq_zero,map_zero]

/-- The generator has a constant term, so shifts can be undone. -/
theorem shift_isUnit : IsUnit (residue Crc16CcittFalse X) := by
  have constant : (generator Crc16CcittFalse).coeff 0 = 1 := by
    rw [generator,coeff_add,coeff_ofWord,coeff_X_pow]
    decide
  have coprime : IsCoprime (X : (ZMod 2)[X]) (generator Crc16CcittFalse) := by
    rw [irreducible_X.coprime_iff_not_dvd,X_dvd_iff,constant]
    exact one_ne_zero
  obtain ⟨u,v,bezout⟩ := coprime
  have inverse : residue Crc16CcittFalse u * residue Crc16CcittFalse X = 1 := by
    rw [← map_mul,← map_one (residue Crc16CcittFalse),← bezout,map_add,map_mul,map_mul,AdjoinRoot.mk_self]
    ring
  exact IsUnit.of_mul_eq_one_right _ inverse

/-- Two bytes as they stand in a string. -/
def pair (x y : U8) : U16 := y.setWidth 16 ||| (x.setWidth 16 <<< 8)

theorem ofWord_pair (x y : U8) : ofWord (pair x y) = ofWord y + ofWord x * X ^ 8 := by
  rw [ofWord_halves,pair,low_half,high_half]

theorem dividend_pair (front back : Bytes) (x y : U8) : dividend Crc16CcittFalse (front ++ x :: y :: back) =
    ofWord Crc16CcittFalse.initial * X ^ (8 * (front.length + (back.length + 2))) +
      (ofBytes front * X ^ (8 * (back.length + 2)) + ofBytes back) * X ^ 16 + ofWord (pair x y) * X ^ (8 * back.length + 16) := by
  rw [dividend,ofBytes_append,ofWord_pair,List.length_append]
  simp only [ofBytes,List.length_cons]
  ring

/-- A burst of two bytes inside the payload changes the register. -/
theorem eq_of_register {front back : Bytes} {a b c d : U8}
    (same : register (front ++ a :: b :: back) = register (front ++ c :: d :: back)) : a = c ∧ b = d := by
  have residues := (residue_register (front ++ a :: b :: back)).symm.trans
    ((congrArg (fun word => residue Crc16CcittFalse (ofWord word)) same).trans (residue_register (front ++ c :: d :: back)))
  simp only [dividend_pair,map_add,add_right_inj,map_mul,map_pow] at residues
  have words : pair a b = pair c d := eq_of_residue ((shift_isUnit.pow _).mul_right_cancel residues)
  constructor
  · have high := congrArg (fun word : U16 => (word >>> 8).setWidth 8) words
    simpa only [pair,high_half] using high
  · have low := congrArg (fun word : U16 => word.setWidth 8) words
    simpa only [pair,low_half] using low

theorem writeU16_injective {x y : U16} (same : writeU16 x = writeU16 y) : x = y := by
  obtain ⟨low,high⟩ : x.setWidth 8 = (y.setWidth 8 : U8) ∧ (x >>> 8).setWidth 8 = ((y >>> 8).setWidth 8 : U8) := by
    simpa [writeU16] using same
  rw [← join_halves x,low,high,join_halves]

/-- The effect of another last byte does not depend on what is before it. -/
theorem register_last (front : Bytes) (x y : U8) :
    register (front ++ [x]) ^^^ register (front ++ [y]) = feedByte Crc16CcittFalse 0 (x ^^^ y) := by
  apply eq_of_residue
  have start : ofWord (0 : U16) = 0 := ofWord_zero
  rw [register,register,List.foldl_append,List.foldl_append]
  simp only [List.foldl_cons,List.foldl_nil]
  rw [ofWord_xor,map_add,residue_feedByte (by decide),residue_feedByte (by decide),residue_feedByte (by decide),ofWord_xor,
    start,map_zero,map_add]
  linear_combination (residue_double (ofWord (front.foldl (feedByte Crc16CcittFalse) Crc16CcittFalse.initial))) *
    residue Crc16CcittFalse X ^ 8

/-- The last bytes whose effect stays within the low half of the register. -/
theorem boundary_patterns : ∀ x : U8, ((feedByte Crc16CcittFalse 0 x) >>> 8).setWidth 8 = (0 : U8) → x = 0 ∨ x = 0x89 := by
  decide +kernel

theorem boundary_effect : feedByte Crc16CcittFalse 0 0x89 = 0xA1 := by decide +kernel

theorem register_changed (front : Bytes) (a c : U8) :
    register (front ++ [c]) = register (front ++ [a]) ^^^ feedByte Crc16CcittFalse 0 (a ^^^ c) := by
  rw [← register_last,← BitVec.xor_assoc,BitVec.xor_self,BitVec.zero_xor]

/-- Across the boundary the trailer fits for the unseen pattern only. -/
theorem boundary_iff {front : Bytes} {a c d : U8} :
    [d,(register (front ++ [a]) >>> 8).setWidth 8] = trailer (front ++ [c]) ↔
      c = a ∧ d = (register (front ++ [a])).setWidth 8 ∨
      c = a ^^^ 0x89 ∧ d = (register (front ++ [a])).setWidth 8 ^^^ 0xA1 := by
  have last : c = a ^^^ (a ^^^ c) := by rw [← BitVec.xor_assoc,BitVec.xor_self,BitVec.zero_xor]
  have fits : [d,(register (front ++ [a]) >>> 8).setWidth 8] = trailer (front ++ [c]) ↔
      d = (register (front ++ [a])).setWidth 8 ^^^ (feedByte Crc16CcittFalse 0 (a ^^^ c)).setWidth 8 ∧
        ((feedByte Crc16CcittFalse 0 (a ^^^ c)) >>> 8).setWidth 8 = (0 : U8) := by
    rw [trailer_eq,register_changed front a c,writeU16,BitVec.ushiftRight_xor_distrib,BitVec.setWidth_xor,BitVec.setWidth_xor]
    generalize ((register (front ++ [a]) >>> 8).setWidth 8 : U8) = high
    generalize ((feedByte Crc16CcittFalse 0 (a ^^^ c) >>> 8).setWidth 8 : U8) = upper
    have unchanged : high = high ^^^ upper ↔ upper = 0 := by
      constructor
      · intro same
        have cancelled := congrArg (high ^^^ ·) same
        simpa [← BitVec.xor_assoc] using cancelled.symm
      · rintro rfl
        exact BitVec.xor_zero.symm
    simp [unchanged]
  rw [fits]
  constructor
  · rintro ⟨low,upper⟩
    rcases boundary_patterns _ upper with none | blind
    · left
      rw [none] at last low
      exact ⟨by rw [last]; exact BitVec.xor_zero,by rw [low]; exact BitVec.xor_zero⟩
    · right
      rw [blind] at last low
      exact ⟨last,by rw [low,boundary_effect]; rfl⟩
  · rintro (⟨rfl,rfl⟩ | ⟨rfl,rfl⟩)
    · rw [BitVec.xor_self]
      exact ⟨BitVec.xor_zero.symm,by decide +kernel⟩
    · rw [← BitVec.xor_assoc,BitVec.xor_self,BitVec.zero_xor,boundary_effect]
      exact ⟨rfl,by decide⟩

theorem unseen_accepted {capacity : Nat} {payload received : Bytes} (fits : payload.length ≤ capacity)
    (unseen : Unseen payload received) : receivedFrames capacity received ≠ [] := by
  obtain ⟨front,last,rfl,rfl⟩ := unseen
  rw [compute_register,← List.singleton_append,← List.append_assoc,receivedFrames_eq (by simp) (by simpa using fits),
    if_pos (boundary_iff.mpr (.inr ⟨rfl,rfl⟩))]
  simp

/-- A burst that completes a frame is the unseen one. -/
theorem unseen_of_accepted {capacity : Nat} {payload received : Bytes} (nonempty : payload ≠ []) (fits : payload.length ≤ capacity)
    (burst : Burst (payload ++ trailer payload) received) (completed : receivedFrames capacity received ≠ []) :
    Unseen payload received := by
  obtain ⟨differs,front,back,a,b,c,d,sent,rfl⟩ := burst
  have valid {start : Bytes} (some : start ≠ []) (room : start.length ≤ capacity) {low high : U8}
      (same : front ++ c :: d :: back = start ++ [low,high]) : [low,high] = trailer start := by
    by_contra wrong
    rw [same,receivedFrames_eq some room,if_neg wrong] at completed
    exact completed rfl
  have positive := List.length_pos_iff.mpr nonempty
  rcases List.eq_nil_or_concat' back with rfl | ⟨back,high,rfl⟩
  · -- The burst lies in the trailer.
    obtain ⟨rfl,-⟩ := List.append_inj' sent (by rw [trailer_eq]; rfl)
    exact absurd (by rw [valid nonempty fits rfl]) differs
  · rcases List.eq_nil_or_concat' back with rfl | ⟨back,low,rfl⟩
    · -- It lies across the boundary.
      have split : payload ++ trailer payload = (front ++ [a]) ++ [b,high] := by rw [sent]; simp
      obtain ⟨rfl,last⟩ := List.append_inj' split (by rw [trailer_eq]; rfl)
      rw [trailer_eq,writeU16] at last
      obtain ⟨rfl,rfl⟩ : (register (front ++ [a])).setWidth 8 = b ∧ (register (front ++ [a]) >>> 8).setWidth 8 = high := by
        simpa using last
      have fitting : [d,(register (front ++ [a]) >>> 8).setWidth 8] = trailer (front ++ [c]) :=
        valid (by simp) (by simpa using fits) (by simp)
      rcases boundary_iff.mp fitting with ⟨rfl,rfl⟩ | ⟨rfl,rfl⟩
      · exact absurd sent.symm differs
      · exact ⟨front,a,rfl,by simp [compute_register]⟩
    · -- It lies in the payload, and the trailer is the sent one.
      have split : payload ++ trailer payload = (front ++ a :: b :: back) ++ [low,high] := by rw [sent]; simp
      obtain ⟨rfl,last⟩ := List.append_inj' split (by rw [trailer_eq]; rfl)
      have room : (front ++ c :: d :: back).length ≤ capacity := by simpa using fits
      have fitting : [low,high] = trailer (front ++ c :: d :: back) := valid (by simp) room (by simp)
      rw [← last,trailer_eq,trailer_eq] at fitting
      obtain ⟨rfl,rfl⟩ := eq_of_register (writeU16_injective fitting)
      exact absurd sent.symm differs

/-- A burst of two bytes completes nothing, but for one pattern of the last payload byte
    and the first trailer byte, which always completes a wrong frame. -/
theorem burst_rejected_iff (capacity : Nat) (payload : Bytes) (nonempty : payload ≠ []) (fits : payload.length ≤ capacity)
    (received : Bytes) (burst : Burst (payload ++ trailer payload) received) :
    frames ({} : HdlcDecoder capacity) (kFlag :: (stuff scheme received ++ [kFlag])) = [] ↔ ¬ Unseen payload received := by
  constructor
  · intro nothing unseen
    exact unseen_accepted fits unseen nothing
  · intro seen
    by_contra completed
    exact seen (unseen_of_accepted nonempty fits burst completed)

/-- A burst inside a payload of two bytes. -/
theorem payload_burst_rejected :
    frames ({} : HdlcDecoder 4) (kFlag :: (stuff scheme ([0x12,0x34] ++ trailer [0,0]) ++ [kFlag])) = [] := by
  refine (burst_rejected_iff 4 [0,0] (by decide) (by decide) _ ⟨by decide +kernel,[],trailer [0,0],0,0,0x12,0x34,rfl,rfl⟩).mpr ?_
  rintro ⟨front,last,payload,received⟩
  obtain ⟨rfl,-⟩ := List.append_inj' (show [0] ++ [0] = front ++ [last] from payload) rfl
  exact absurd (List.cons.inj received).1 (by decide)

/-- Not every burst of two bytes is rejected. -/
theorem burst_accepted : ¬ ∀ (capacity : Nat) (payload received : Bytes), payload ≠ [] → payload.length ≤ capacity →
    Burst (payload ++ trailer payload) received →
    frames ({} : HdlcDecoder capacity) (kFlag :: (stuff scheme received ++ [kFlag])) = [] := by
  intro all
  have nothing := all 1 [0x00] [0x89,0x51,0xE1] (by decide) (by decide)
    ⟨by decide +kernel,[],[0xE1],0x00,0xF0,0x89,0x51,by decide +kernel,rfl⟩
  exact absurd nothing (by decide +kernel)

end WireSpaces.HdlcErrors
