import Mathlib.Data.String.Basic
import Mathlib.Data.List.Sort

/-!
The records of the deployment compiler, as its stages pass them on. A mapping of
declarations by name is the list of its values, found by name; a Python set is the
list of what was added to it.
-/
namespace WireSpaces.WiringModels

structure InterfaceDeclaration where
  name : String
  link : String
  egressBit : Option Nat := none
  deriving Repr, DecidableEq

structure HostDeclaration where
  name : String
  hostId : Nat
  interfaces : List InterfaceDeclaration
  deriving Repr, DecidableEq

structure LinkDeclaration where
  name : String
  linkType : String
  baudRate : Option Nat := none
  arbitrationBitrate : Option Nat := none
  dataBitrate : Option Nat := none
  deriving Repr, DecidableEq

structure GroupDeclaration where
  name : String
  hosts : List String
  deriving Repr, DecidableEq

structure PathDeclaration where
  name : String
  interfaces : List String
  deriving Repr, DecidableEq

structure RealizationDeclaration where
  name : String
  attachments : List String
  deriving Repr, DecidableEq

/-- `none` is an omitted field, `some []` an explicitly empty list. -/
structure WireDeclaration where
  name : String
  wireId : Nat
  hosts : Option (List String) := none
  groups : Option (List String) := none
  links : Option (List String) := none
  path : Option String := none
  realization : Option String := none
  deriving Repr, DecidableEq

structure AuthoredDeployment where
  hosts : List HostDeclaration
  links : List LinkDeclaration
  wires : List WireDeclaration
  groups : List GroupDeclaration := []
  paths : List PathDeclaration := []
  realizations : List RealizationDeclaration := []
  deriving Repr, DecidableEq

structure Attachment where
  host : String
  interface : String
  link : String
  deriving Repr, DecidableEq

def Attachment.reference (a : Attachment) : String := a.host ++ "." ++ a.interface

inductive Selection where
  | inferred | links | path | realization
  deriving Repr, DecidableEq

structure ResolvedWire where
  declaration : WireDeclaration
  members : List String
  transitHosts : List String
  attachments : List Attachment
  selection : Selection
  deriving Repr, DecidableEq

structure ResolvedDeployment where
  authored : AuthoredDeployment
  wires : List ResolvedWire
  deriving Repr, DecidableEq

/-! ### Sorting and failing -/

/-- `sorted(values, key=key)`: the order of equal keys is kept. -/
def sortedBy {α : Type} (key : α → String) (values : List α) : List α :=
  values.insertionSort (fun a b => key a ≤ key b)

def sorted (values : List String) : List String := sortedBy id values

/-- Why a stage did not return. `unending` is no exception but a loop without end. -/
inductive Failure where
  | valueError (message : String)
  | keyError
  | indexError
  | networkXError
  | stopIteration
  | unending
  deriving Repr, DecidableEq

abbrev Checked (α : Type) := Except Failure α

def require (condition : Prop) [Decidable condition] (message : String) : Checked Unit :=
  if condition then .ok () else .error (.valueError message)

/-- A subscript of a mapping. -/
def found {α : Type} : Option α → Checked α
  | some value => .ok value
  | none => .error .keyError

section checked
variable {α β : Type} {x : Checked α} {f : α → Checked β} {value : α} {result : β} {message : String}

theorem bind_eq_ok : (x >>= f) = .ok result ↔ ∃ value, x = .ok value ∧ f value = .ok result := by
  cases x with
  | error => simp [bind,Except.bind]
  | ok value => simp [bind,Except.bind]

theorem bind_eq_error {failure : Failure} :
    (x >>= f) = .error failure ↔ x = .error failure ∨ ∃ value, x = .ok value ∧ f value = .error failure := by
  cases x with
  | error => simp [bind,Except.bind]
  | ok value => simp [bind,Except.bind]

theorem require_eq_ok {condition : Prop} [Decidable condition] {done : Unit} :
    require condition message = .ok done ↔ condition := by
  unfold require
  by_cases holds : condition
  · simp [holds]
  · simp [holds]

theorem require_eq_error {condition : Prop} [Decidable condition] {failure : Failure} :
    require condition message = .error failure ↔ ¬condition ∧ failure = .valueError message := by
  unfold require
  by_cases holds : condition
  · simp [holds]
  · simp [holds,eq_comm]

theorem found_eq_ok {option : Option α} : found option = .ok value ↔ option = some value := by
  cases option <;> simp [found]

theorem mapM_eq_ok {values : List α} {results : List β} :
    values.mapM f = .ok results ↔ List.Forall₂ (fun value result => f value = .ok result) values results := by
  induction values generalizing results with
  | nil => simp [pure,Except.pure,eq_comm]
  | cons value rest ih =>
    simp only [List.mapM_cons,bind_eq_ok,ih,pure,Except.pure,Except.ok.injEq,List.forall₂_cons_left_iff]
    constructor
    · rintro ⟨result,here,others,later,rfl⟩
      exact ⟨result,others,here,later,rfl⟩
    · rintro ⟨result,others,here,later,rfl⟩
      exact ⟨result,here,others,later,rfl⟩

theorem of_mem_mapM {values : List α} {results : List β} (returned : values.mapM f = .ok results) {result : β}
    (member : result ∈ results) : ∃ value ∈ values, f value = .ok result := by
  induction mapM_eq_ok.mp returned with
  | nil => cases member
  | cons here later ih =>
    rcases List.mem_cons.mp member with rfl | among
    · exact ⟨_,List.mem_cons_self,here⟩
    · obtain ⟨value,listed,made⟩ := ih (mapM_eq_ok.mpr later) among
      exact ⟨value,List.mem_cons_of_mem _ listed,made⟩

/-- Results that show their values stand in their order. -/
theorem map_of_mapM {γ : Type} {shown : β → γ} {key : α → γ} {values : List α} {results : List β}
    (returned : values.mapM f = .ok results)
    (same : ∀ value ∈ values, ∀ result, f value = .ok result → shown result = key value) :
    results.map shown = values.map key := by
  induction mapM_eq_ok.mp returned with
  | nil => rfl
  | @cons value result values results here later ih =>
    have rest := ih (mapM_eq_ok.mpr later) fun other among => same other (List.mem_cons_of_mem _ among)
    rw [List.map_cons,List.map_cons,rest,same value List.mem_cons_self result here]

theorem of_mapM_error {values : List α} {failure : Failure} (failed : values.mapM f = .error failure) :
    ∃ value ∈ values, f value = .error failure := by
  induction values with
  | nil => cases failed
  | cons value rest ih =>
    simp only [List.mapM_cons,bind_eq_error] at failed
    rcases failed with here | ⟨result,-,later | ⟨results,-,never⟩⟩
    · exact ⟨value,List.mem_cons_self,here⟩
    · obtain ⟨other,among,stopped⟩ := ih later
      exact ⟨other,List.mem_cons_of_mem _ among,stopped⟩
    · cases never

theorem mapM_total {values : List α} (total : ∀ value ∈ values, ∃ result, f value = .ok result) :
    ∃ results, values.mapM f = .ok results := by
  cases returned : values.mapM f with
  | ok results => exact ⟨results,rfl⟩
  | error failure =>
    obtain ⟨value,among,failed⟩ := of_mapM_error returned
    obtain ⟨result,made⟩ := total value among
    rw [made] at failed
    cases failed

/-- A subscript by a name that is there. -/
theorem found_named {key : α → String} {values : List α} {name : String} (listed : name ∈ values.map key) :
    ∃ value ∈ values, key value = name ∧ found (values.find? (key · = name)) = .ok value := by
  obtain ⟨value,among,named⟩ := List.mem_map.mp listed
  have some : (values.find? (key · = name)).isSome = true :=
    List.find?_isSome.mpr ⟨value,among,decide_eq_true named⟩
  obtain ⟨first,here⟩ := Option.isSome_iff_exists.mp some
  have matching := List.find?_some here
  exact ⟨first,List.mem_of_find?_eq_some here,of_decide_eq_true matching,found_eq_ok.mpr here⟩

end checked
end WireSpaces.WiringModels
