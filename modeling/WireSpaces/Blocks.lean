import Mathlib.Order.Basic
import Mathlib.Data.Nat.Basic
import Mathlib.Data.List.Basic

/-!
A length cut into blocks of one size, of which the last may be shorter: where each
block lies, that the blocks tile the whole, and that a list is the join of its blocks.
-/
namespace WireSpaces.Blocks

/-- Blocks `0` to `final` of `size` each, but the last of `last`. -/
structure Cut where
  size : Nat
  final : Nat
  last : Nat
  last_pos : 1 ≤ last
  last_le : last ≤ size

namespace Cut
variable (cut : Cut) {i j : Nat}

def start (i : Nat) : Nat := i * cut.size

def length (i : Nat) : Nat := if i = cut.final then cut.last else cut.size

def total : Nat := cut.final * cut.size + cut.last

theorem start_succ (i : Nat) : cut.start (i + 1) = cut.start i + cut.size := Nat.succ_mul i cut.size

theorem length_final : cut.length cut.final = cut.last := if_pos rfl

theorem length_inner (inner : i < cut.final) : cut.length i = cut.size := if_neg (Nat.ne_of_lt inner)

/-- Where a block ends: at the start of the next, or at the end of the whole. -/
theorem stop (known : i ≤ cut.final) :
    cut.start i + cut.length i = if i = cut.final then cut.total else cut.start (i + 1) := by
  split
  case isTrue same =>
    rw [same,length_final]
    rfl
  case isFalse other => rw [length_inner cut (by omega),start_succ]

theorem start_mono (le : i ≤ j) : cut.start i ≤ cut.start j := Nat.mul_le_mul_right _ le

theorem stop_le_start (less : i < j) (known : j ≤ cut.final) : cut.start i + cut.length i ≤ cut.start j := by
  rw [cut.stop (by omega),if_neg (by omega)]
  exact cut.start_mono less

theorem stop_le_total (known : i ≤ cut.final) : cut.start i + cut.length i ≤ cut.total := by
  rcases Nat.lt_or_ge i cut.final with inner | last
  · exact Nat.le_trans (cut.stop_le_start inner le_rfl) (Nat.le_add_right _ _)
  · rw [cut.stop known,if_pos (by omega)]

theorem disjoint (other : i ≠ j) (left : i ≤ cut.final) (right : j ≤ cut.final) :
    cut.start i + cut.length i ≤ cut.start j ∨ cut.start j + cut.length j ≤ cut.start i := by
  rcases Nat.lt_or_gt_of_ne other with less | greater
  · exact .inl (cut.stop_le_start less right)
  · exact .inr (cut.stop_le_start greater left)

theorem cover {place : Nat} (inside : place < cut.total) :
    ∃ i ≤ cut.final, cut.start i ≤ place ∧ place < cut.start i + cut.length i := by
  have positive : 0 < cut.size := by
    have := cut.last_pos
    have := cut.last_le
    omega
  rcases Nat.lt_or_ge place (cut.start cut.final) with before | behind
  · have inner : place / cut.size < cut.final := Nat.div_lt_of_lt_mul (by rwa [Nat.mul_comm])
    refine ⟨place / cut.size,Nat.le_of_lt inner,Nat.div_mul_le_self _ _,?_⟩
    rw [length_inner cut inner,← start_succ]
    exact Nat.lt_mul_of_div_lt (Nat.lt_succ_self _) positive
  · exact ⟨cut.final,le_rfl,behind,by rwa [length_final]⟩

section slices
universe u
variable {α : Type u} {whole : List α}

/-- The part of a list that a block covers. -/
def slice (whole : List α) (i : Nat) : List α := (whole.drop (cut.start i)).take (cut.length i)

/-- The blocks before `count` join to what stands before block `count`. -/
theorem join_before {count : Nat} (known : count ≤ cut.final) :
    (List.range count).flatMap (cut.slice whole) = whole.take (cut.start count) := by
  induction count with
  | zero => simp [start]
  | succ count hypothesis =>
    rw [List.range_succ,List.flatMap_append,hypothesis (by omega),List.flatMap_singleton,slice,
      length_inner cut (by omega),start_succ,List.take_add]

/-- A list is the join of its blocks. -/
theorem join (fits : whole.length = cut.total) :
    (List.range (cut.final + 1)).flatMap (cut.slice whole) = whole := by
  have rest : (whole.drop (cut.start cut.final)).length = cut.last := by
    rw [List.length_drop,fits]
    exact Nat.add_sub_cancel_left _ _
  rw [List.range_succ,List.flatMap_append,join_before cut le_rfl,List.flatMap_singleton,slice,length_final]
  rw [← rest,List.take_length,List.take_append_drop]

end slices

end Cut

/-! ### Parts written into place -/

section parts
universe u
variable {α : Type u} {data whole part : List α} {offset place : Nat}

/-- A part written over a list at an offset. -/
def overwrite (data : List α) (offset : Nat) (part : List α) : List α :=
  data.take offset ++ part ++ data.drop (offset + part.length)

theorem length_overwrite (fits : offset + part.length ≤ data.length) : (overwrite data offset part).length = data.length := by
  simp only [overwrite,List.length_append,List.length_take,List.length_drop]
  omega

theorem getElem?_overwrite (fits : offset + part.length ≤ data.length) (place : Nat) :
    (overwrite data offset part)[place]? =
      if offset ≤ place ∧ place < offset + part.length then part[place - offset]? else data[place]? := by
  have taken : (data.take offset).length = offset := by rw [List.length_take]; omega
  rw [overwrite,List.append_assoc,List.getElem?_append,taken]
  split
  · rename_i before
    rw [if_neg (by omega),List.getElem?_take_of_lt before]
  rw [List.getElem?_append]
  split
  · rw [if_pos (by omega)]
  · rw [if_neg (by omega),List.getElem?_drop]
    congr 1
    omega

/-- The two lists have the same element, or none, at a place. -/
def Agrees (data whole : List α) (place : Nat) : Prop := data[place]? = whole[place]?

/-- Writing a list's own part at its own offset makes the data agree there, and nowhere less. -/
theorem agrees_overwrite {count : Nat} (fits : offset + ((whole.drop offset).take count).length ≤ data.length)
    (agrees : Agrees data whole place ∨ offset ≤ place ∧ place < offset + ((whole.drop offset).take count).length) :
    Agrees (overwrite data offset ((whole.drop offset).take count)) whole place := by
  rw [Agrees,getElem?_overwrite fits]
  split
  · rename_i inside
    rw [List.length_take,List.length_drop] at inside
    rw [List.getElem?_take_of_lt (by omega),List.getElem?_drop]
    congr 1
    omega
  · rename_i outside
    exact agrees.resolve_right outside

/-- Data that agrees with a list at every place of it starts with the list. -/
theorem take_of_agrees (all : ∀ place < whole.length, Agrees data whole place) : data.take whole.length = whole := by
  refine List.ext_getElem? fun place => ?_
  by_cases inside : place < whole.length
  · rw [List.getElem?_take_of_lt inside]
    exact all place inside
  · rw [List.getElem?_take_eq_none (not_lt.mp inside),List.getElem?_eq_none (not_lt.mp inside)]

end parts

end WireSpaces.Blocks
