import Mathlib.Data.List.Rotate

/-!
Circular storage: the cells from a start on, taken round the end of a list.
Filling the cell behind a run appends to it; moving the start on drops its first cell.
-/
namespace WireSpaces.Circular

/-- The `count` cells from `start` on, going round the end. -/
def run {α : Type*} (cells : List α) (start count : Nat) : List α := (cells.rotate start).take count

section
variable {α : Type*} {cells : List α} {cap start count : Nat}

theorem run_length (fits : count ≤ cells.length) : (run cells start count).length = count := by
  rw [run,List.length_take,List.length_rotate,Nat.min_eq_left fits]

theorem run_mod (length : cells.length = cap) : run cells (start % cap) count = run cells start count := by
  rw [run,← length,List.rotate_mod,run]

theorem getElem?_run {index : Nat} (inside : index < count) (fits : count ≤ cells.length) :
    (run cells start count)[index]? = cells[(index + start) % cells.length]? := by
  rw [run,List.getElem?_take_of_lt inside,List.getElem?_rotate (inside.trans_le fits)]

/-- Two cells of one turn are different cells. -/
theorem cell_ne {index : Nat} (before : index < count) (turn : count < cap) :
    (start + count) % cap ≠ (index + start) % cap := by
  intro same
  have apart : cap ∣ (start + count) - (index + start) := Nat.dvd_of_mod_eq_zero (Nat.sub_mod_eq_zero_of_mod_eq same)
  have := Nat.le_of_dvd (by omega) apart
  omega

theorem run_set (length : cells.length = cap) (room : count < cap) (value : α) :
    run (cells.set ((start + count) % cap) value) start (count + 1) = run cells start count ++ [value] := by
  subst length
  have length : (cells.set ((start + count) % cells.length) value).length = cells.length := List.length_set
  have positive : 0 < cells.length := by omega
  apply List.ext_getElem?
  intro index
  rcases Nat.lt_trichotomy index count with before | rfl | behind
  · rw [getElem?_run (by omega) (by omega),length,List.getElem?_append_left (by rwa [run_length room.le]),
      getElem?_run before room.le,List.getElem?_set_ne (cell_ne before room)]
  · rw [getElem?_run (by omega) (by omega),length,List.getElem?_append_right (run_length room.le).le,run_length room.le,
      Nat.add_comm index start,List.getElem?_set_self (Nat.mod_lt _ positive),Nat.sub_self,List.getElem?_cons_zero]
  · rw [List.getElem?_eq_none (by rw [run_length (by omega)]; omega),List.getElem?_eq_none]
    rw [List.length_append,run_length room.le,List.length_singleton]
    omega

theorem run_succ (held : count < cells.length) (inside : start < cells.length) :
    run cells start (count + 1) = cells[start] :: run cells (start + 1) count := by
  apply List.ext_getElem?
  intro index
  cases index with
  | zero =>
    rw [getElem?_run (by omega) (by omega),List.getElem?_cons_zero,Nat.zero_add,Nat.mod_eq_of_lt inside,
      List.getElem?_eq_getElem inside]
  | succ index =>
    rw [List.getElem?_cons_succ]
    rcases Nat.lt_or_ge index count with before | behind
    · rw [getElem?_run (by omega) (by omega),getElem?_run before held.le]
      congr 2
      omega
    · rw [List.getElem?_eq_none (by rw [run_length (by omega)]; omega),
        List.getElem?_eq_none (by rw [run_length held.le]; exact behind)]

end

end WireSpaces.Circular
