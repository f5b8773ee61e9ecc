import WireSpaces.Crc
import WireSpaces.BitPolynomials

/-!
The bitwise CRC is a polynomial remainder. Modulo the generator, each shift of the
register multiplies it by `X` and each byte adds itself at the top, so the register
holds the remainder of everything fed so far.
-/
namespace WireSpaces.CrcRemainder
open WireSpaces.Codec WireSpaces.Crc WireSpaces.BitPolynomials Polynomial

variable {w : Nat}

/-- `x^w + polynomial`. -/
noncomputable def generator (a : Algorithm w) : (ZMod 2)[X] := X ^ w + ofWord a.polynomial

/-- What the register stands for: the initial register and the input, both shifted up. -/
noncomputable def dividend (a : Algorithm w) (input : Bytes) : (ZMod 2)[X] :=
  ofWord a.initial * X ^ (8 * input.length) + ofBytes input * X ^ w

theorem generator_monic (a : Algorithm w) : (generator a).Monic := monic_X_pow_add (degree_ofWord _)

theorem degree_generator (a : Algorithm w) : (generator a).degree = w := by
  rw [generator,degree_add_eq_left_of_degree_lt (by rw [degree_X_pow]; exact degree_ofWord _),degree_X_pow]

/-! ### One step -/

/-- The test of the top bit. -/
theorem msb_test (word : BitVec w) : word &&& kMsbBit w ≠ 0 ↔ word.msb = true := by
  rw [BitVec.msb_eq_getLsbD_last,ne_eq,BitVec.eq_of_getLsbD_eq_iff,kMsbBit]
  simp only [BitVec.getLsbD_and,BitVec.getLsbD_shiftLeft,BitVec.getLsbD_one,BitVec.ofNat_eq_ofNat,BitVec.getLsbD_zero]
  constructor
  · intro differs
    by_contra clear
    refine differs fun i inside => ?_
    by_cases top : i = w - 1
    · subst top
      simp [clear]
    · have lower : i < w - 1 := by omega
      simp [lower]
  · intro top clear
    have inside := BitVec.lt_of_getLsbD top
    have bit := clear (w - 1) inside
    simp [top] at bit
    omega

/-- One shift is multiplication by `X` modulo the generator. -/
theorem shiftBit_generator (a : Algorithm w) (word : BitVec w) :
    ofWord (shiftBit a word) + generator a * C (coefficient word.msb) = X * ofWord word := by
  rw [X_mul_ofWord,shiftBit]
  by_cases top : word.msb = true
  · rw [if_pos ((msb_test word).mpr top),ofWord_xor,top,generator]
    simp only [coefficient,if_true,map_one,mul_one,one_mul]
    linear_combination CharTwo.add_self_eq_zero (ofWord a.polynomial)
  · rw [if_neg (fun test => top ((msb_test word).mp test))]
    simp [coefficient,top]

/-! ### The register -/

/-- Congruence modulo the generator. -/
noncomputable abbrev residue (a : Algorithm w) : (ZMod 2)[X] →+* AdjoinRoot (generator a) := AdjoinRoot.mk (generator a)

theorem residue_shiftBit (a : Algorithm w) (word : BitVec w) :
    residue a (ofWord (shiftBit a word)) = residue a X * residue a (ofWord word) := by
  rw [← map_mul,← shiftBit_generator,map_add,map_mul,AdjoinRoot.mk_self]
  ring

theorem residue_feedByte (wide : 8 ≤ w) (a : Algorithm w) (word : BitVec w) (byte : U8) :
    residue a (ofWord (feedByte a word byte)) =
      residue a (ofWord word) * residue a X ^ 8 + residue a (ofWord byte) * residue a X ^ w := by
  have shifts (n : Nat) (start : BitVec w) :
      residue a (ofWord ((List.range n).foldl (fun result _ => shiftBit a result) start)) =
        residue a X ^ n * residue a (ofWord start) := by
    induction n with
    | zero => simp
    | succ n ih =>
      rw [List.range_succ,List.foldl_append,List.foldl_cons,List.foldl_nil,residue_shiftBit,ih,pow_succ']
      ring
  rw [feedByte,shifts,ofWord_xor,kDataShift,ofWord_place wide,map_add,map_mul,map_pow]
  have powers : residue a X ^ w = residue a X ^ (w - 8) * residue a X ^ 8 := by
    rw [← pow_add,Nat.sub_add_cancel wide]
  rw [powers]
  ring

/-- The register after some input, modulo the generator. -/
theorem residue_foldl (wide : 8 ≤ w) (a : Algorithm w) (start : BitVec w) (input : Bytes) :
    residue a (ofWord (input.foldl (feedByte a) start)) =
      residue a (ofWord start * X ^ (8 * input.length) + ofBytes input * X ^ w) := by
  induction input using List.reverseRecOn with
  | nil => simp [ofBytes]
  | append_singleton input byte ih =>
    rw [List.foldl_append,List.foldl_cons,List.foldl_nil,residue_feedByte wide,ih,ofBytes_append,List.length_append]
    simp only [ofBytes,List.length_cons,List.length_nil,map_add,map_mul,map_pow,Nat.mul_add,Nat.zero_add,pow_add,
      Nat.mul_zero,pow_zero,mul_one,add_zero]
    ring

/-- A register is the remainder of what it is congruent to. -/
theorem eq_modByMonic (a : Algorithm w) {word : BitVec w} {p : (ZMod 2)[X]} (same : residue a (ofWord word) = residue a p) :
    ofWord word = p %ₘ generator a := by
  have divides : generator a ∣ ofWord word - p := AdjoinRoot.mk_eq_mk.mp same
  have small : ofWord word %ₘ generator a = ofWord word := by
    rw [modByMonic_eq_self_iff (generator_monic a),degree_generator]
    exact degree_ofWord word
  exact small.symm.trans (modByMonic_eq_of_dvd_sub (generator_monic a) divides)

theorem compute_eq (a : Algorithm w) (input : Bytes) : compute a input = a.xorOut ^^^ input.foldl (feedByte a) a.initial := by
  rw [BitVec.xor_comm]
  rfl

theorem foldl_update (a : Algorithm w) (chunks : List Bytes) (start : BitVec w) :
    chunks.foldl (fun state chunk => update a chunk state) start = chunks.flatten.foldl (feedByte a) start := by
  rw [List.foldl_flatten]
  rfl

/-- The CRC of a byte string is a remainder, in one computation or in chunks. -/
def Remainder (a : Algorithm w) : Prop :=
  ∀ input : Bytes, (∃ rest : BitVec w, ofWord rest = dividend a input %ₘ generator a ∧ compute a input = a.xorOut ^^^ rest) ∧
    ∀ chunks : List Bytes, chunks.flatten = input →
      finalize a (chunks.foldl (fun state chunk => update a chunk state) (init a)) = compute a input

theorem remainder_of_wide (wide : 8 ≤ w) (a : Algorithm w) : Remainder a := by
  intro input
  refine ⟨⟨input.foldl (feedByte a) a.initial,eq_modByMonic a (residue_foldl wide a _ input),compute_eq a input⟩,?_⟩
  intro chunks joined
  rw [foldl_update,joined]
  rfl

/-- The four algorithms of the library compute polynomial remainders, however their input is chunked. -/
theorem crc_polynomial_remainder :
    Remainder SaeJ1850 ∧ Remainder AutosarCrc8 ∧ Remainder Crc16CcittFalse ∧ Remainder Crc32Mpeg2 :=
  ⟨remainder_of_wide (by decide) _,remainder_of_wide (by decide) _,remainder_of_wide (by decide) _,
    remainder_of_wide (by decide) _⟩

end WireSpaces.CrcRemainder
