import Mathlib.Data.List.Basic

/-!
Machines whose moves show one event or none: the events of a run, how a run splits
at any event, and the rule for events that are barred until a machine resumes.
-/
namespace WireSpaces.Emissions
universe u v
variable {σ : Type u} {ε : Type v} {move : σ → Option ε → σ → Prop} {s t r : σ} {events : List ε}

/-- The events of a sequence of moves, in order. -/
inductive Emits (move : σ → Option ε → σ → Prop) : σ → List ε → σ → Prop where
  | refl (s : σ) : Emits move s [] s
  | tail {s t r : σ} {events : List ε} {label : Option ε} (run : Emits move s events t) (last : move t label r) :
      Emits move s (events ++ label.toList) r

theorem Emits.single {label : Option ε} (only : move s label t) : Emits move s label.toList t := .tail (.refl s) only

theorem Emits.trans {more : List ε} (first : Emits move s events t) (second : Emits move t more r) :
    Emits move s (events ++ more) r := by
  induction second with
  | refl => rwa [List.append_nil]
  | tail run last hypothesis =>
    rw [← List.append_assoc]
    exact .tail hypothesis last

theorem Emits.split {first second : List ε} (run : Emits move s (first ++ second) r) :
    ∃ t, Emits move s first t ∧ Emits move t second r := by
  generalize whole : first ++ second = events at run
  induction run generalizing second with
  | refl =>
    obtain ⟨rfl,rfl⟩ := List.append_eq_nil_iff.mp whole
    exact ⟨_,.refl _,.refl _⟩
  | @tail t r events label run last hypothesis =>
    cases label with
    | none =>
      rw [Option.toList_none,List.append_nil] at whole
      obtain ⟨middle,before,behind⟩ := hypothesis whole
      refine ⟨middle,before,?_⟩
      have longer := behind.tail last
      rwa [Option.toList_none,List.append_nil] at longer
    | some event =>
      rcases List.eq_nil_or_concat second with rfl | ⟨rest,final,rfl⟩
      · rw [List.append_nil] at whole
        exact ⟨r,whole ▸ .tail run last,.refl r⟩
      · rw [List.concat_eq_append,← List.append_assoc,Option.toList_some] at whole
        obtain ⟨older,newest⟩ := List.append_inj' whole rfl
        obtain ⟨middle,before,behind⟩ := hypothesis older
        obtain rfl := (List.cons.inj newest).1
        exact ⟨middle,before,by rw [List.concat_eq_append]; exact behind.tail last⟩

section barred
variable {Quiet : σ → Prop} {Closes Barred Resumes : ε → Prop}

variable (Quiet Barred Resumes) in
/-- What a quiet state keeps while nothing resumes. -/
theorem Emits.kept
    (stays : ∀ s label t, move s label t → Quiet s → (∀ e ∈ label, ¬Resumes e) → Quiet t ∧ ∀ e ∈ label, ¬Barred e)
    (run : Emits move s events t) (quiet : Quiet s) (none : ∀ e ∈ events, ¬Resumes e) :
    Quiet t ∧ ∀ e ∈ events, ¬Barred e := by
  induction run with
  | refl => exact ⟨quiet,by simp⟩
  | @tail t r events label run last hypothesis =>
    obtain ⟨reached,older⟩ := hypothesis fun e member => none e (List.mem_append_left _ member)
    obtain ⟨still,newest⟩ := stays _ _ _ last reached fun e member =>
      none e (List.mem_append_right _ (Option.mem_toList.mpr member))
    refine ⟨still,fun e member => ?_⟩
    rcases List.mem_append.mp member with old | new
    · exact older e old
    · exact newest e (Option.mem_toList.mp new)

/-- From a quiet state a barred event comes only behind one that resumes. -/
theorem Emits.barred_from
    (stays : ∀ s label t, move s label t → Quiet s → (∀ e ∈ label, ¬Resumes e) → Quiet t ∧ ∀ e ∈ label, ¬Barred e)
    (apart : ∀ e, Barred e → ¬Resumes e) (run : Emits move s events t) (quiet : Quiet s) {j : Nat} {e : ε}
    (found : events[j]? = some e) (barred : Barred e) : ∃ k < j, ∃ r, events[k]? = some r ∧ Resumes r := by
  by_contra without
  push Not at without
  obtain ⟨inside,rfl⟩ := List.getElem?_eq_some_iff.mp found
  rw [← List.take_append_drop (j + 1) events] at run
  obtain ⟨middle,before,-⟩ := run.split
  refine (before.kept Quiet Barred Resumes stays quiet ?_).2 events[j] ?_ barred
  · intro other member
    obtain ⟨k,place,rfl⟩ := List.mem_take_iff_getElem.mp member
    rcases Nat.lt_or_ge k j with earlier | last
    · exact without k earlier _ (List.getElem?_eq_getElem _)
    · obtain rfl : k = j := by omega
      exact apart _ barred
  · exact List.mem_take_iff_getElem.mpr ⟨j,by omega,rfl⟩

/-- A run that ends with a closing event ends quiet. -/
theorem Emits.closed (enters : ∀ s e t, move s (some e) t → Closes e → Quiet t)
    (stays : ∀ s label t, move s label t → Quiet s → (∀ e ∈ label, ¬Resumes e) → Quiet t ∧ ∀ e ∈ label, ¬Barred e)
    {e : ε} (run : Emits move s (events ++ [e]) t) (closes : Closes e) : Quiet t := by
  generalize whole : events ++ [e] = all at run
  induction run with
  | refl => simp at whole
  | @tail t r older label run last hypothesis =>
    cases label with
    | none =>
      rw [Option.toList_none,List.append_nil] at whole
      exact (stays _ _ _ last (hypothesis whole) (by simp)).1
    | some event =>
      obtain ⟨-,same⟩ := List.append_inj' whole rfl
      obtain rfl := (List.cons.inj same).1
      exact enters _ _ _ last closes

/-- Behind a closing event a barred one comes only after one that resumes. -/
theorem Emits.barred_after (enters : ∀ s e t, move s (some e) t → Closes e → Quiet t)
    (stays : ∀ s label t, move s label t → Quiet s → (∀ e ∈ label, ¬Resumes e) → Quiet t ∧ ∀ e ∈ label, ¬Barred e)
    (apart : ∀ e, Barred e → ¬Resumes e) (run : Emits move s events t) {i j : Nat} {c e : ε} (later : i < j)
    (closing : events[i]? = some c) (closes : Closes c) (found : events[j]? = some e) (barred : Barred e) :
    ∃ k, i < k ∧ k < j ∧ ∃ r, events[k]? = some r ∧ Resumes r := by
  obtain ⟨inside,rfl⟩ := List.getElem?_eq_some_iff.mp closing
  rw [← List.take_append_drop (i + 1) events] at run
  obtain ⟨middle,before,behind⟩ := run.split
  rw [List.take_succ_eq_append_getElem inside] at before
  have quiet := before.closed enters stays closes
  obtain ⟨k,earlier,r,resumed,resumes⟩ := behind.barred_from stays apart quiet (j := j - (i + 1)) (e := e)
    (by rw [List.getElem?_drop,← found]; congr 1; omega) barred
  rw [List.getElem?_drop] at resumed
  exact ⟨i + 1 + k,by omega,by omega,r,resumed,resumes⟩

end barred

end WireSpaces.Emissions
