import Mathlib

/-!
Words and byte strings as polynomials over the field of two elements. A word's lowest
bit is the constant, a string's first byte has the highest powers; exclusive or is
addition and a shift is multiplication by `X`.
-/
namespace WireSpaces.BitPolynomials
open Polynomial

variable {w : Nat}

/-! ### Words -/

def coefficient (bit : Bool) : ZMod 2 := if bit then 1 else 0

theorem coefficient_xor (a b : Bool) : coefficient (a ^^ b) = coefficient a + coefficient b := by
  cases a <;> cases b <;> decide

noncomputable def ofWord (word : BitVec w) : (ZMod 2)[X] :=
  ∑ i ∈ Finset.range w, C (coefficient (word.getLsbD i)) * X ^ i

theorem coeff_ofWord (word : BitVec w) (i : Nat) : (ofWord word).coeff i = coefficient (word.getLsbD i) := by
  rw [ofWord,finsetSum_coeff]
  simp only [coeff_C_mul_X_pow]
  rw [Finset.sum_ite_eq]
  split_ifs with inside
  · rfl
  · rw [BitVec.getLsbD_of_ge word i (by simpa using inside)]
    rfl

theorem degree_ofWord (word : BitVec w) : (ofWord word).degree < w := by
  rw [degree_lt_iff_coeff_zero]
  intro i outside
  rw [coeff_ofWord,BitVec.getLsbD_of_ge word i outside]
  rfl

theorem ofWord_injective {a b : BitVec w} (same : ofWord a = ofWord b) : a = b := by
  apply BitVec.eq_of_getLsbD_eq
  intro i inside
  have equal : coefficient (a.getLsbD i) = coefficient (b.getLsbD i) := by rw [← coeff_ofWord,← coeff_ofWord,same]
  revert equal
  cases a.getLsbD i <;> cases b.getLsbD i <;> decide

theorem ofWord_xor (a b : BitVec w) : ofWord (a ^^^ b) = ofWord a + ofWord b := by
  ext i
  rw [coeff_add,coeff_ofWord,coeff_ofWord,coeff_ofWord,BitVec.getLsbD_xor,coefficient_xor]

@[simp] theorem ofWord_zero : ofWord (0#w) = 0 := by
  ext i
  rw [coeff_ofWord,BitVec.getLsbD_zero]
  rfl

/-- A shift by one place is multiplication by `X`, less what falls out at the top. -/
theorem X_mul_ofWord (word : BitVec w) : X * ofWord word = ofWord (word <<< 1) + C (coefficient word.msb) * X ^ w := by
  ext i
  rw [coeff_add,coeff_ofWord,coeff_C_mul_X_pow,BitVec.getLsbD_shiftLeft]
  cases i with
  | zero =>
    rw [coeff_X_mul_zero]
    by_cases empty : w = 0
    · subst empty
      rw [BitVec.msb_eq_getLsbD_last,BitVec.getLsbD_of_ge _ _ (by omega)]
      simp [coefficient]
    · simp [coefficient,Ne.symm empty]
  | succ i =>
    rw [coeff_X_mul,coeff_ofWord]
    by_cases top : i + 1 = w
    · subst top
      rw [BitVec.msb_eq_getLsbD_last]
      simp [coefficient]
    · by_cases inside : i + 1 < w
      · simp [top,inside]
      · rw [BitVec.getLsbD_of_ge word i (by omega)]
        simp [top,inside,coefficient]

/-- A narrower word at the top of a wider one. -/
theorem ofWord_place {n : Nat} (fits : n ≤ w) (word : BitVec n) :
    ofWord (word.setWidth w <<< (w - n)) = ofWord word * X ^ (w - n) := by
  ext i
  rw [coeff_ofWord,BitVec.getLsbD_shiftLeft,BitVec.getLsbD_setWidth]
  by_cases low : i < w - n
  · rw [coeff_mul_X_pow',if_neg (by omega)]
    simp [low,coefficient]
  · rw [coeff_mul_X_pow',if_pos (by omega),coeff_ofWord]
    by_cases inside : i < w
    · simp [low,inside,show i - (w - n) < w by omega]
    · rw [BitVec.getLsbD_of_ge word _ (by omega)]
      simp [coefficient]

/-- A word of two bytes. -/
theorem ofWord_halves (word : BitVec 16) :
    ofWord word = ofWord (word.setWidth 8) + ofWord ((word >>> 8).setWidth 8) * X ^ 8 := by
  ext i
  rw [coeff_add,coeff_mul_X_pow',coeff_ofWord,coeff_ofWord,coeff_ofWord,BitVec.getLsbD_setWidth,BitVec.getLsbD_setWidth,
    BitVec.getLsbD_ushiftRight]
  by_cases low : i < 8
  · simp [low,show ¬ 8 ≤ i by omega]
  · by_cases inside : i < 16
    · simp [low,show 8 ≤ i by omega,show i - 8 < 8 by omega,coefficient]
    · rw [BitVec.getLsbD_of_ge word i (by omega)]
      simp [low,show ¬ i - 8 < 8 by omega,coefficient]

/-! ### Weight -/

/-- The number of set bits. -/
def weight (word : BitVec w) : Nat := (List.range w).countP fun i => word.getLsbD i

theorem eval_one_ofWord (word : BitVec w) : (ofWord word).eval 1 = weight word := by
  have sum : ∀ n, ((Finset.range n).sum fun i => coefficient (word.getLsbD i)) =
      (((List.range n).countP fun i => word.getLsbD i : Nat) : ZMod 2) := by
    intro n
    induction n with
    | zero => simp
    | succ n ih =>
      rw [Finset.sum_range_succ,ih,List.range_succ,List.countP_append,Nat.cast_add]
      cases bit : word.getLsbD n <;> simp [coefficient,bit]
  rw [ofWord,eval_finsetSum,weight,← sum w]
  simp

theorem weight_xor (a b : BitVec w) : (weight (a ^^^ b) : ZMod 2) = weight a + weight b := by
  rw [← eval_one_ofWord,← eval_one_ofWord,← eval_one_ofWord,ofWord_xor,eval_add]

/-! ### Byte strings -/

/-- A byte string, most significant bit first. -/
noncomputable def ofBytes : List (BitVec 8) → (ZMod 2)[X]
  | [] => 0
  | byte :: rest => ofWord byte * X ^ (8 * rest.length) + ofBytes rest

theorem ofBytes_append (front back : List (BitVec 8)) :
    ofBytes (front ++ back) = ofBytes front * X ^ (8 * back.length) + ofBytes back := by
  induction front with
  | nil => simp [ofBytes]
  | cons byte rest ih =>
    rw [List.cons_append,ofBytes,ofBytes,ih,List.length_append,Nat.mul_add,pow_add]
    ring

theorem eval_one_ofBytes (bytes : List (BitVec 8)) : (ofBytes bytes).eval 1 = ((bytes.map weight).sum : Nat) := by
  induction bytes with
  | nil => simp [ofBytes]
  | cons byte rest ih =>
    rw [ofBytes,eval_add,eval_mul,ih,eval_one_ofWord]
    simp

/-- The number of bits in which two strings differ. -/
def distance (xs ys : List (BitVec 8)) : Nat := (List.zipWith (fun x y => weight (x ^^^ y)) xs ys).sum

/-- The parity of a distance is that of the weights. -/
theorem distance_parity {xs ys : List (BitVec 8)} (size : xs.length = ys.length) :
    (distance xs ys : ZMod 2) = (ofBytes xs).eval 1 + (ofBytes ys).eval 1 := by
  rw [eval_one_ofBytes,eval_one_ofBytes]
  induction xs generalizing ys with
  | nil =>
    rw [List.length_eq_zero_iff.mp size.symm]
    simp [distance]
  | cons x xs ih =>
    cases ys with
    | nil => cases size
    | cons y ys =>
      have rest := ih (Nat.succ.inj size)
      simp only [distance] at rest
      simp only [distance,List.zipWith_cons_cons,List.sum_cons,List.map_cons,Nat.cast_add,weight_xor,rest]
      ring

end WireSpaces.BitPolynomials
