import Mathlib.Data.List.Perm.Subperm
import Mathlib.Data.List.Nodup
import Mathlib.Logic.Relation
import Mathlib.Tactic.Common

/-!
Flooding of a shared medium. A transmission is heard as copies, each of them is handled once, in any
order, and is answered with more transmissions. Where every copy tells its transmission and every
answer its copy, a run never sends or hears the same twice and ends.
-/
namespace WireSpaces.Floods

/-- The copies that a transmission is heard as, and the transmissions that answer a copy. -/
structure Medium (T R : Type*) where
  copies : T → List R
  relays : R → List T

/-- What was sent, the copies on their way, and those that were handled. -/
structure State (T R : Type*) where
  sent : List T
  pending : List R
  handled : List R

section medium
variable {T R : Type*} (medium : Medium T R)

def start (first : List T) : State T R := ⟨first,first.flatMap medium.copies,[]⟩

/-- Any of the pending copies is handled next. -/
inductive Step : State T R → State T R → Prop where
  | handle (sent : List T) (before : List R) (copy : R) (after handled : List R) :
    Step ⟨sent,before ++ copy :: after,handled⟩
      ⟨sent ++ medium.relays copy,before ++ after ++ (medium.relays copy).flatMap medium.copies,handled ++ [copy]⟩

/-- A run from a state. -/
abbrev Run : State T R → State T R → Prop := Relation.ReflTransGen (Step medium)

theorem step_of_pending {s : State T R} (some : s.pending ≠ []) : ∃ s', Step medium s s' := by
  obtain ⟨sent,pending,handled⟩ := s
  cases pending with
  | nil => exact absurd rfl some
  | cons copy rest => exact ⟨_,.handle sent [] copy rest handled⟩

/-- A run that must end can be taken to its end. -/
theorem exists_rest {s : State T R} (ends : Acc (fun s' s => Step medium s s') s) : ∃ s', Run medium s s' ∧ s'.pending = [] := by
  induction ends with
  | intro s _ ih =>
    by_cases rest : s.pending = []
    · exact ⟨s,.refl,rest⟩
    · obtain ⟨next,step⟩ := step_of_pending medium rest
      obtain ⟨last,run,rested⟩ := ih next step
      exact ⟨last,.head step run,rested⟩

/-- No transmission and no copy arises in two ways. `Sound` bounds what is sent; `key` and `place` tell
    transmissions and copies apart. -/
structure Rooted {K P : Type*} (first : List T) (Sound : T → Prop) (key : T → K) (place : R → P) : Prop where
  first_sound : ∀ t ∈ first, Sound t
  first_once : (first.map key).Nodup
  relays_sound : ∀ t, Sound t → ∀ r ∈ medium.copies t, ∀ u ∈ medium.relays r, Sound u
  copies_once : ∀ t, Sound t → ((medium.copies t).map place).Nodup
  relays_once : ∀ t, Sound t → ∀ r ∈ medium.copies t, ((medium.relays r).map key).Nodup
  apart : ∀ t, Sound t → ∀ r ∈ medium.copies t, ∀ u ∈ medium.relays r, key u ∉ first.map key
  source : ∀ t t', Sound t → Sound t' → ∀ r ∈ medium.copies t, ∀ r' ∈ medium.copies t', place r = place r' → key t = key t'
  entry : ∀ t t', Sound t → Sound t' → ∀ r ∈ medium.copies t, ∀ r' ∈ medium.copies t',
    ∀ u ∈ medium.relays r, ∀ u' ∈ medium.relays r', key u = key u' → place r = place r'

/-- What every state of a run keeps. -/
structure Account {K : Type*} (first : List T) (Sound : T → Prop) (key : T → K) (s : State T R) : Prop where
  sound : ∀ t ∈ s.sent, Sound t
  once : (s.sent.map key).Nodup
  heard : (s.handled ++ s.pending).Perm (s.sent.flatMap medium.copies)
  origin : ∀ t, t ∈ s.sent ↔ t ∈ first ∨ ∃ r ∈ s.handled, t ∈ medium.relays r

end medium

section rooted
variable {T R K P : Type*} {medium : Medium T R} {first : List T} {Sound : T → Prop} {key : T → K} {place : R → P}
  (rooted : Rooted medium first Sound key place)
include rooted

/-- The copies of transmissions with distinct keys are in distinct places. -/
theorem places_nodup {sent : List T} (sound : ∀ t ∈ sent, Sound t) (once : (sent.map key).Nodup) :
    ((sent.flatMap medium.copies).map place).Nodup := by
  rw [List.map_flatMap,List.nodup_flatMap]
  refine ⟨fun t member => rooted.copies_once t (sound t member),?_⟩
  rw [List.Nodup,List.pairwise_map] at once
  refine once.imp_of_mem ?_
  intro t t' member member' distinct p here there
  obtain ⟨r,copy,rfl⟩ := List.mem_map.mp here
  obtain ⟨r',copy',same⟩ := List.mem_map.mp there
  exact distinct (rooted.source t t' (sound t member) (sound t' member') r copy r' copy' same.symm)

theorem account_start : Account medium first Sound key (start medium first) where
  sound := rooted.first_sound
  once := rooted.first_once
  heard := by simp [start]
  origin := by simp [start]

omit rooted in
/-- A copy that was handled or is on its way belongs to a transmission. -/
theorem Account.of_heard {s : State T R} (account : Account medium first Sound key s) {r : R} (copy : r ∈ s.handled ++ s.pending) :
    ∃ t ∈ s.sent, Sound t ∧ r ∈ medium.copies t := by
  obtain ⟨t,member,copied⟩ := List.mem_flatMap.mp (account.heard.mem_iff.mp copy)
  exact ⟨t,member,account.sound t member,copied⟩

omit rooted in
/-- At rest every copy was handled. -/
theorem Account.at_rest {s : State T R} (account : Account medium first Sound key s) (rest : s.pending = []) {t : T}
    (member : t ∈ s.sent) {r : R} (copied : r ∈ medium.copies t) : r ∈ s.handled := by
  have all := account.heard.mem_iff.mpr (List.mem_flatMap.mpr ⟨t,member,copied⟩)
  rwa [rest,List.append_nil] at all

theorem Account.heard_once {s : State T R} (account : Account medium first Sound key s) :
    ((s.handled ++ s.pending).map place).Nodup :=
  ((account.heard.map place).nodup_iff).mpr (places_nodup rooted account.sound account.once)

theorem account_step {s s' : State T R} (account : Account medium first Sound key s) (step : Step medium s s') :
    Account medium first Sound key s' := by
  cases step with
  | handle sent before copy after handled =>
    have heardOnce := account.heard_once rooted
    obtain ⟨t,member,sound,copied⟩ := account.of_heard (r := copy) (by simp)
    refine ⟨?_,?_,?_,?_⟩
    · intro u among
      rcases List.mem_append.mp among with old | new
      · exact account.sound u old
      · exact rooted.relays_sound t sound copy copied u new
    · rw [List.map_append]
      refine account.once.append (rooted.relays_once t sound copy copied) ?_
      intro k old new
      obtain ⟨u,here,rfl⟩ := List.mem_map.mp new
      obtain ⟨t',there,same⟩ := List.mem_map.mp old
      rcases (account.origin t').mp there with begun | ⟨r',done,relayed⟩
      · exact rooted.apart t sound copy copied u here (same ▸ List.mem_map_of_mem begun)
      -- The other way to this key was handled before, and in the same place.
      · obtain ⟨t'',-,sound',copied'⟩ := account.of_heard (r := r') (List.mem_append_left _ done)
        have places := rooted.entry t t'' sound sound' copy copied r' copied' u here t' relayed same.symm
        rw [List.map_append,List.nodup_append'] at heardOnce
        exact heardOnce.2.2 (List.mem_map_of_mem done) (places ▸ List.mem_map_of_mem (by simp))
    · have moved : (handled ++ [copy] ++ (before ++ after)).Perm (handled ++ (before ++ copy :: after)) := by
        rw [List.append_assoc,List.singleton_append]
        exact List.perm_middle.symm.append_left handled
      have whole := (moved.trans account.heard).append_right ((medium.relays copy).flatMap medium.copies)
      rwa [List.append_assoc,← List.flatMap_append] at whole
    · intro u
      rw [List.mem_append,account.origin u]
      simp only [List.mem_append,List.mem_singleton,or_and_right,exists_or,exists_eq_left,or_assoc]

theorem account_run {s : State T R} (run : Run medium (start medium first) s) : Account medium first Sound key s := by
  induction run with
  | refl => exact account_start rooted
  | tail _ step ih => exact account_step rooted ih step

/-- A run in a bounded number of places ends. -/
theorem terminates {places : List P} (within : ∀ t, Sound t → ∀ r ∈ medium.copies t, place r ∈ places) {s : State T R}
    (account : Account medium first Sound key s) : Acc (fun s' s => Step medium s s') s := by
  have bound {s : State T R} (account : Account medium first Sound key s) : s.handled.length ≤ places.length := by
    have once := account.heard_once rooted
    rw [List.map_append] at once
    rw [← List.length_map place]
    refine (List.Nodup.subperm once.of_append_left ?_).length_le
    intro p here
    obtain ⟨r,done,rfl⟩ := List.mem_map.mp here
    obtain ⟨t,-,sound,copied⟩ := account.of_heard (List.mem_append_left _ done)
    exact within t sound r copied
  -- Each step handles one copy more.
  induction left : places.length - s.handled.length using Nat.strongRecOn generalizing s with
  | _ n ih =>
    constructor
    intro s' step
    have next := account_step rooted account step
    have more : s'.handled.length = s.handled.length + 1 := by
      cases step with
      | handle => simp
    have most := bound next
    exact ih (places.length - s'.handled.length) (by omega) next rfl

end rooted

/-- What holds in one place only is met once at most. -/
theorem length_filter_once {α β : Type*} {place : α → β} {values : List α} (once : (values.map place).Nodup) {test : α → Bool}
    (same : ∀ a ∈ values, ∀ b ∈ values, test a = true → test b = true → place a = place b) {Met : Prop} [Decidable Met]
    (met : (∃ a ∈ values, test a = true) ↔ Met) : (values.filter test).length = if Met then 1 else 0 := by
  have apart : ((values.filter test).map place).Nodup := once.sublist (List.filter_sublist.map place)
  have of_kept {a : α} (kept : a ∈ values.filter test) : a ∈ values ∧ test a = true := List.mem_filter.mp kept
  cases kept : values.filter test with
  | nil =>
    rw [if_neg,List.length_nil]
    intro some
    obtain ⟨a,member,passes⟩ := met.mpr some
    exact List.filter_eq_nil_iff.mp kept a member passes
  | cons a others =>
    obtain ⟨member,passes⟩ := of_kept (kept ▸ List.mem_cons_self)
    rw [if_pos (met.mp ⟨a,member,passes⟩)]
    cases others with
    | nil => rfl
    | cons b more =>
      obtain ⟨member',passes'⟩ := of_kept (kept ▸ List.mem_cons_of_mem a List.mem_cons_self)
      rw [kept,List.map_cons,List.map_cons,same a member b member' passes passes'] at apart
      simp at apart

end WireSpaces.Floods
