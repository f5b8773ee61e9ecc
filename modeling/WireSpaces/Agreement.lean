import Mathlib.Data.List.Forall2
import Mathlib.Data.List.Sort

/-!
Relational reasoning about computations that may fail, and about lists taken in
another order. Two computations agree when they fail together and otherwise return
related values; why they fail is not compared.
-/
namespace WireSpaces.Agreement

variable {ε α β γ δ : Type*}

inductive Agree (R : α → β → Prop) : Except ε α → Except ε β → Prop
  | ok {a : α} {b : β} (related : R a b) : Agree R (.ok a) (.ok b)
  | error (e e' : ε) : Agree R (.error e) (.error e')

section agree
variable {R : α → β → Prop} {x : Except ε α} {y : Except ε β}

theorem Agree.accepts (agree : Agree R x y) : (∃ a, x = .ok a) ↔ ∃ b, y = .ok b := by
  cases agree with
  | ok => simp
  | error => simp

theorem Agree.related (agree : Agree R x y) {a : α} {b : β} (left : x = .ok a) (right : y = .ok b) : R a b := by
  cases agree with
  | ok related =>
    cases left
    cases right
    exact related
  | error => cases left

theorem Agree.mono {S : α → β → Prop} (agree : Agree R x y) (weaker : ∀ a b, R a b → S a b) : Agree S x y := by
  cases agree with
  | ok related => exact .ok (weaker _ _ related)
  | error e e' => exact .error e e'

/-- The related values are the ones returned. -/
theorem Agree.returned (agree : Agree R x y) : Agree (fun a b => R a b ∧ x = .ok a ∧ y = .ok b) x y := by
  cases agree with
  | ok related => exact .ok ⟨related,rfl,rfl⟩
  | error e e' => exact .error e e'

theorem agree_of_eq {x y : Except ε α} (same : x = y) : Agree (· = ·) x y := by
  subst same
  cases x with
  | ok a => exact .ok rfl
  | error e => exact .error e e

theorem agree_of_iff (accepts : (∃ a, x = .ok a) ↔ ∃ b, y = .ok b) (related : ∀ a b, x = .ok a → y = .ok b → R a b) :
    Agree R x y := by
  cases x with
  | ok a =>
    obtain ⟨b,rfl⟩ := accepts.mp ⟨a,rfl⟩
    exact .ok (related a b rfl rfl)
  | error e =>
    cases y with
    | ok b =>
      obtain ⟨a,same⟩ := accepts.mpr ⟨b,rfl⟩
      cases same
    | error e' => exact .error e e'

end agree

theorem Agree.bind {ε α β γ δ : Type} {R : α → β → Prop} {S : γ → δ → Prop} {x : Except ε α} {y : Except ε β}
    {f : α → Except ε γ} {g : β → Except ε δ} (agree : Agree R x y) (rest : ∀ a b, R a b → Agree S (f a) (g b)) :
    Agree S (x >>= f) (y >>= g) := by
  cases agree with
  | ok related => exact rest _ _ related
  | error e e' => exact .error e e'

theorem agree_mapM {ε α β γ δ : Type} {R : α → β → Prop} {S : γ → δ → Prop} {f : α → Except ε γ} {g : β → Except ε δ}
    {xs : List α} {ys : List β} (related : List.Forall₂ R xs ys) (each : ∀ a b, R a b → Agree S (f a) (g b)) :
    Agree (List.Forall₂ S) (xs.mapM f) (ys.mapM g) := by
  induction related with
  | nil => exact .ok .nil
  | cons here later ih =>
    rw [List.mapM_cons,List.mapM_cons]
    refine (each _ _ here).bind fun c d related => ih.bind fun cs ds rest => ?_
    exact .ok (.cons related rest)

/-! ### Rearranged lists -/

section rearranged
variable {R : α → β → Prop} {xs : List α} {ys : List β}

/-- A permutation, with related elements. -/
def Rearranged (R : α → β → Prop) (xs : List α) (ys : List β) : Prop := ∃ between, xs.Perm between ∧ List.Forall₂ R between ys

theorem rearranged_of_perm {xs ys : List α} (perm : xs.Perm ys) : Rearranged (· = ·) xs ys :=
  ⟨ys,perm,List.forall₂_eq_eq_eq ▸ rfl⟩

theorem forall₂_map_eq {f : α → γ} {g : β → γ} (related : List.Forall₂ R xs ys) (same : ∀ a b, R a b → f a = g b) :
    xs.map f = ys.map g := by
  induction related with
  | nil => rfl
  | cons here _ ih => rw [List.map_cons,List.map_cons,same _ _ here,ih]

theorem find?_forall₂ {p : α → Bool} {q : β → Bool} (same : ∀ a b, R a b → p a = q b)
    (related : List.Forall₂ R xs ys) : Option.Rel R (xs.find? p) (ys.find? q) := by
  induction related with
  | nil => exact .none
  | @cons a b xs ys here later ih =>
    rw [List.find?_cons,List.find?_cons,← same a b here]
    cases p a with
    | true => exact .some here
    | false => exact ih

theorem filter_forall₂ {p : α → Bool} {q : β → Bool} (same : ∀ a b, R a b → p a = q b)
    (related : List.Forall₂ R xs ys) : List.Forall₂ R (xs.filter p) (ys.filter q) := by
  induction related with
  | nil => exact .nil
  | @cons a b xs ys here later ih =>
    rw [List.filter_cons,List.filter_cons,← same a b here]
    cases p a with
    | true => exact .cons here ih
    | false => exact ih

theorem rearranged_map_perm {f : α → γ} {g : β → γ} (rearranged : Rearranged R xs ys) (same : ∀ a b, R a b → f a = g b) :
    (xs.map f).Perm (ys.map g) := by
  obtain ⟨between,perm,related⟩ := rearranged
  rw [← forall₂_map_eq related same]
  exact perm.map f

theorem rearranged_map {S : γ → δ → Prop} {f : α → γ} {g : β → δ} (rearranged : Rearranged R xs ys)
    (maps : ∀ a b, R a b → S (f a) (g b)) : Rearranged S (xs.map f) (ys.map g) := by
  obtain ⟨between,perm,related⟩ := rearranged
  refine ⟨between.map f,perm.map f,?_⟩
  rw [List.forall₂_map_left_iff,List.forall₂_map_right_iff]
  exact related.imp maps

theorem rearranged_and_left {P : α → Prop} (rearranged : Rearranged R xs ys) (every : ∀ a ∈ xs, P a) :
    Rearranged (fun a b => P a ∧ R a b) xs ys := by
  obtain ⟨between,perm,related⟩ := rearranged
  refine ⟨between,perm,(List.forall₂_and_left _ _).mpr ⟨?_,related⟩⟩
  exact fun a member => every a (perm.mem_iff.mpr member)

theorem rearranged_forall {P : α → Prop} {Q : β → Prop} (rearranged : Rearranged R xs ys) (same : ∀ a b, R a b → (P a ↔ Q b)) :
    (∀ a ∈ xs, P a) ↔ ∀ b ∈ ys, Q b := by
  obtain ⟨between,perm,related⟩ := rearranged
  simp only [perm.mem_iff]
  clear perm
  induction related with
  | nil => simp
  | cons here _ ih => rw [List.forall_mem_cons,List.forall_mem_cons,same _ _ here,ih]

end rearranged

theorem Agree.trans {R : α → β → Prop} {S : β → γ → Prop} {x : Except ε α} {y : Except ε β} {z : Except ε γ}
    (left : Agree R x y) (right : Agree S y z) : Agree (fun a c => ∃ b, R a b ∧ S b c) x z := by
  cases left with
  | ok first =>
    cases right with
    | ok second => exact .ok ⟨_,first,second⟩
  | error e e' =>
    cases right with
    | error _ e'' => exact .error e e''

theorem agree_mapM_perm {ε α γ : Type} {f : α → Except ε γ} {xs ys : List α} (perm : xs.Perm ys) :
    Agree List.Perm (xs.mapM f) (ys.mapM f) := by
  induction perm with
  | nil => exact .ok .nil
  | cons a _ ih =>
    rw [List.mapM_cons,List.mapM_cons]
    refine (agree_of_eq rfl).bind fun c d same => ih.bind fun cs ds related => ?_
    exact .ok (same ▸ related.cons c)
  | swap a b xs =>
    simp only [List.mapM_cons]
    cases f a with
    | error e =>
      cases f b with
      | error e' => exact .error e' e
      | ok => exact .error e e
    | ok c =>
      cases f b with
      | error e => exact .error e e
      | ok d =>
        cases xs.mapM f with
        | error e => exact .error e e
        | ok cs => exact .ok (.swap c d cs)
  | trans _ _ left right =>
    refine (left.trans right).mono ?_
    rintro a c ⟨b,first,second⟩
    exact first.trans second

theorem agree_mapM_rearranged {ε α β γ δ : Type} {R : α → β → Prop} {S : γ → δ → Prop} {f : α → Except ε γ} {g : β → Except ε δ}
    {xs : List α} {ys : List β} (rearranged : Rearranged R xs ys) (each : ∀ a b, R a b → Agree S (f a) (g b)) :
    Agree (Rearranged S) (xs.mapM f) (ys.mapM g) := by
  obtain ⟨between,perm,related⟩ := rearranged
  exact (agree_mapM_perm perm).trans (agree_mapM related each)

/-! ### Sorting -/

theorem orderedInsert_forall₂ {R : α → β → Prop} {r : α → α → Prop} {s : β → β → Prop} [DecidableRel r] [DecidableRel s]
    (same : ∀ a a' b b', R a b → R a' b' → (r a a' ↔ s b b')) {a : α} {b : β} (here : R a b) {xs : List α} {ys : List β}
    (related : List.Forall₂ R xs ys) : List.Forall₂ R (xs.orderedInsert r a) (ys.orderedInsert s b) := by
  induction related with
  | nil => exact .cons here .nil
  | @cons x y xs ys first rest ih =>
    rw [List.orderedInsert_cons,List.orderedInsert_cons]
    by_cases before : r a x
    · rw [if_pos before,if_pos ((same _ _ _ _ here first).mp before)]
      exact .cons here (.cons first rest)
    · rw [if_neg before,if_neg (fun other => before ((same _ _ _ _ here first).mpr other))]
      exact .cons first ih

/-- Sorting keeps related lists related when their orders correspond. -/
theorem insertionSort_forall₂ {R : α → β → Prop} {r : α → α → Prop} {s : β → β → Prop} [DecidableRel r] [DecidableRel s]
    (same : ∀ a a' b b', R a b → R a' b' → (r a a' ↔ s b b')) {xs : List α} {ys : List β} (related : List.Forall₂ R xs ys) :
    List.Forall₂ R (xs.insertionSort r) (ys.insertionSort s) := by
  induction related with
  | nil => exact .nil
  | cons here _ ih => exact orderedInsert_forall₂ same here ih

/-- Sorting forgets the order of a list whose elements are told apart by their keys. -/
theorem insertionSort_eq_of_perm {r : α → α → Prop} [DecidableRel r] [Std.Total r] [IsTrans α r] {xs ys : List α}
    (determined : ∀ a ∈ xs, ∀ b ∈ xs, r a b → r b a → a = b) (perm : xs.Perm ys) : xs.insertionSort r = ys.insertionSort r := by
  refine List.Perm.eq_of_pairwise ?_ (List.pairwise_insertionSort r xs) (List.pairwise_insertionSort r ys) ?_
  · intro a b left right
    exact determined a (List.mem_insertionSort r |>.mp left) b (perm.mem_iff.mpr (List.mem_insertionSort r |>.mp right))
  · exact (List.perm_insertionSort r xs).trans (perm.trans (List.perm_insertionSort r ys).symm)

end WireSpaces.Agreement
