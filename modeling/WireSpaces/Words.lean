import Mathlib

/-!
Fixed-width words: 32-bit counter subtraction, masks of low bits, runs of low
set bits, shifting out a run, and counting set bits by clearing the lowest one.
-/
namespace WireSpaces.Words

/-- Unsigned 32-bit subtraction of two counters held as natural numbers. -/
def sub32 (a b : Nat) : Nat := (a + (2 ^ 32 - b % 2 ^ 32)) % 2 ^ 32

theorem sub32_of_le {a b : Nat} (le : b ≤ a) (bound : a < 2 ^ 32) : sub32 a b = a - b := by
  unfold sub32; omega

/-! ### Low bits -/

/-- Exactly the bits below `count` are set. -/
def LowRun {w : Nat} (x : BitVec w) (count : Nat) : Prop :=
  ∀ j, x.getLsbD j = decide (j < count ∧ j < w)

theorem lowRun_ofNat (w count : Nat) : LowRun (BitVec.ofNat w (2 ^ count - 1)) count := by
  intro j
  simp only [BitVec.getLsbD_ofNat,Nat.testBit_two_pow_sub_one]
  by_cases inside : j < w <;> by_cases low : j < count <;> simp [inside,low]

theorem lowRun_zero {w : Nat} : LowRun (0#w) 0 := by
  intro j; simp

theorem lowRun_full {w count : Nat} {x : BitVec w} (run : LowRun x w) (le : w ≤ count) : LowRun x count := by
  intro j
  rw [run j]
  by_cases inside : j < w
  · simp [inside,show j < count by omega]
  · simp [inside]

/-- Shifting a run to the right drops its lowest bits. -/
theorem lowRun_shiftRight {w count : Nat} {x : BitVec w} (run : LowRun x count) (le : count ≤ w) (n : Nat) :
    LowRun (x >>> n) (count - n) := by
  intro j
  rw [BitVec.getLsbD_ushiftRight,run (n + j)]
  apply decide_eq_decide.mpr
  omega

/-- Setting the bit above a run extends it. -/
theorem lowRun_or_next {w count : Nat} {x : BitVec w} (run : LowRun x count) :
    LowRun (x ||| (1#w <<< count)) (count + 1) := by
  intro j
  rw [BitVec.getLsbD_or,run j,BitVec.getLsbD_shiftLeft]
  by_cases inside : j < w
  · rcases Nat.lt_trichotomy j count with low | same | high
    · simp [inside,low,show j < count + 1 by omega]
    · subst same
      simp [inside,show 0 < w by omega]
    · simp [inside,show ¬ j < count by omega,show ¬ j < count + 1 by omega,show j - count ≠ 0 by omega]
  · simp [inside]

theorem testBit_shiftLeft_one {w : Nat} (n j : Nat) : (1#w <<< n).getLsbD j = decide (j = n ∧ j < w) := by
  rw [BitVec.getLsbD_shiftLeft]
  by_cases inside : j < w
  · rcases Nat.lt_trichotomy j n with low | same | high
    · simp [inside,low,show j ≠ n by omega]
    · subst same; simp [inside,show 0 < w by omega]
    · simp [inside,show ¬ j < n by omega,show j ≠ n by omega,show j - n ≠ 0 by omega]
  · simp [inside]

/-- A single-bit test reads that bit. -/
theorem and_bit_eq_zero {w : Nat} (x : BitVec w) {n : Nat} (inside : n < w) :
    x &&& (1#w <<< n) = 0#w ↔ x.getLsbD n = false := by
  constructor
  · intro none
    have bit := congrArg (fun y => y.getLsbD n) none
    simpa [BitVec.getLsbD_and,testBit_shiftLeft_one,inside] using bit
  · intro clear
    apply BitVec.eq_of_getLsbD_eq
    intro j _
    rw [BitVec.getLsbD_and,testBit_shiftLeft_one]
    by_cases same : j = n
    · subst same; simp [clear]
    · simp [same]

/-! ### Shifting out the lowest set bits -/

/-- Shift right while the lowest bit is set, counting the shifts. -/
def shiftOnes {w : Nat} : Nat → BitVec w → Nat → BitVec w × Nat
  | 0, x, count => (x,count)
  | fuel + 1, x, count => if x &&& 1#w ≠ 0#w then shiftOnes fuel (x >>> 1) (count + 1) else (x,count)

theorem and_one_ne_zero {w : Nat} (x : BitVec w) : x &&& 1#w ≠ 0#w ↔ x.getLsbD 0 = true := by
  by_cases some : 0 < w
  · have bit := and_bit_eq_zero x some
    simp only [BitVec.shiftLeft_zero] at bit
    exact (not_congr bit).trans (by simp)
  · obtain rfl : w = 0 := by omega
    simp [BitVec.eq_nil x]

/-- What the loop leaves: the bits move down by the number of shifts, all
    shifted bits were set, and with enough fuel the lowest bit ends clear. -/
theorem shiftOnes_spec {w : Nat} (fuel : Nat) (x : BitVec w) (count : Nat) :
    ∃ n, shiftOnes fuel x count = (x >>> n,count + n) ∧ (∀ j < n, x.getLsbD j = true) ∧
      (w ≤ fuel → x.getLsbD n = false) := by
  -- A loop that stops early stops at a clear bit; one that uses all its fuel has shifted everything out.
  suffices stops : ∃ n, shiftOnes fuel x count = (x >>> n,count + n) ∧ (∀ j < n, x.getLsbD j = true) ∧
      (x.getLsbD n = false ∨ n = fuel) by
    obtain ⟨n,result,shifted,clear | exhausted⟩ := stops
    · exact ⟨n,result,shifted,fun _ => clear⟩
    · exact ⟨n,result,shifted,fun enough => BitVec.getLsbD_of_ge _ _ (by omega)⟩
  induction fuel generalizing x count with
  | zero => exact ⟨0,by simp [shiftOnes],by simp,.inr rfl⟩
  | succ fuel ih =>
    by_cases low : x.getLsbD 0 = true
    · obtain ⟨n,result,shifted,final⟩ := ih (x >>> 1) (count + 1)
      refine ⟨n + 1,?_,?_,?_⟩
      · rw [shiftOnes,if_pos ((and_one_ne_zero x).mpr low),result,← BitVec.shiftRight_add]
        simp only [Nat.add_assoc,Nat.add_comm 1 n]
      · intro j below
        cases j with
        | zero => exact low
        | succ k =>
          have := shifted k (by omega)
          rwa [BitVec.getLsbD_ushiftRight,Nat.add_comm] at this
      · rw [BitVec.getLsbD_ushiftRight,Nat.add_comm] at final
        exact final.imp id (by omega)
    · refine ⟨0,?_,by simp,.inl (by simpa using low)⟩
      rw [shiftOnes,if_neg (fun set => low ((and_one_ne_zero x).mp set))]; simp

/-! ### Counting set bits -/

/-- Clear the lowest set bit until none is left, counting the steps. -/
def clearLowest {w : Nat} : Nat → BitVec w → Nat → Nat
  | 0, _, count => count
  | fuel + 1, x, count => if x ≠ 0#w then clearLowest fuel (x &&& (x - 1#w)) (count + 1) else count

/-- Clearing the lowest set bit `i` leaves nothing at or below `i`. -/
private theorem and_pred_clear {w : Nat} (x : BitVec w) (i : Nat) (set : x.getLsbD i = true)
    (below : ∀ j < i, x.getLsbD j = false) : ∀ j ≤ i, (x &&& (x - 1#w)).getLsbD j = false := by
  intro j le
  rw [BitVec.getLsbD_and]
  rcases Nat.lt_or_eq_of_le le with lower | rfl
  · simp [below j lower]
  · have inside : j < w := BitVec.lt_of_getLsbD set
    have positive : 0 < 2 ^ j := Nat.two_pow_pos j
    have bound := x.isLt
    have low : x.toNat % 2 ^ j = 0 := by
      apply Nat.eq_of_testBit_eq
      intro k
      rw [Nat.testBit_mod_two_pow,Nat.zero_testBit]
      by_cases under : k < j
      · rw [BitVec.testBit_toNat,below k under]; simp
      · simp [under]
    have high : x.toNat / 2 ^ j % 2 = 1 := by
      have := set
      rw [← BitVec.testBit_toNat,Nat.testBit_eq_decide_div_mod_eq] at this
      simpa using this
    obtain ⟨q,shape⟩ : ∃ q, x.toNat = 2 ^ j * (q + 1) ∧ q % 2 = 0 := by
      have whole : x.toNat = 2 ^ j * (x.toNat / 2 ^ j) := (Nat.mul_div_cancel' (Nat.dvd_of_mod_eq_zero low)).symm
      generalize x.toNat / 2 ^ j = q at high whole
      exact ⟨q - 1,by rw [whole,Nat.sub_add_cancel (by omega)],by omega⟩
    have pred : (x - 1#w).toNat = 2 ^ j * q + (2 ^ j - 1) := by
      have one : (1#w).toNat = 1 := by simp [Nat.mod_eq_of_lt (Nat.one_lt_two_pow (by omega : w ≠ 0))]
      rw [BitVec.toNat_sub_of_le (by rw [BitVec.le_def,one,shape.1]; exact Nat.mul_pos positive (by omega)),one,shape.1,
        Nat.mul_add]
      omega
    have clear : (x - 1#w).getLsbD j = false := by
      rw [← BitVec.testBit_toNat,Nat.testBit_eq_decide_div_mod_eq,pred,Nat.mul_add_div positive,
        Nat.div_eq_of_lt (by omega)]
      simp [shape.2]
    simp [clear]

/-- Words with no bit at or above `high` or below `low` need at most
    `high - low` clearing steps. -/
private theorem clearLowest_between {w : Nat} (fuel : Nat) (x : BitVec w) (count low high : Nat)
    (under : ∀ j < low, x.getLsbD j = false) (above : ∀ j, high ≤ j → x.getLsbD j = false) :
    clearLowest fuel x count ≤ count + (high - low) := by
  induction fuel generalizing x count low with
  | zero => simp [clearLowest]
  | succ fuel ih =>
    by_cases zero : x = 0#w
    · simp [clearLowest,zero]
    · have some : ∃ i, x.getLsbD i = true := by
        by_contra none
        apply zero
        apply BitVec.eq_of_getLsbD_eq
        intro j _
        simpa using fun set => none ⟨j,set⟩
      -- The lowest set bit lies between the two bounds and is the one that goes.
      have set := Nat.find_spec some
      have below : ∀ j < Nat.find some, x.getLsbD j = false := fun j less => by
        simpa using Nat.find_min some less
      have lowLe : low ≤ Nat.find some := by
        by_contra less
        rw [under _ (by omega)] at set
        exact Bool.false_ne_true set
      have lessHigh : Nat.find some < high := by
        by_contra ge
        rw [above _ (by omega)] at set
        exact Bool.false_ne_true set
      have rest := ih (x &&& (x - 1#w)) (count + 1) (Nat.find some + 1)
        (fun j less => and_pred_clear x _ set below j (by omega))
        (fun j ge => by rw [BitVec.getLsbD_and,above j ge,Bool.false_and])
      rw [clearLowest,if_pos zero]
      omega

theorem clearLowest_le {w : Nat} (fuel : Nat) (x : BitVec w) (high : Nat)
    (above : ∀ j, high ≤ j → x.getLsbD j = false) : clearLowest fuel x 0 ≤ high := by
  simpa using clearLowest_between fuel x 0 0 high (by simp) above

end WireSpaces.Words
