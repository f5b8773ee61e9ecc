import WireSpaces.Agreement
import WireSpaces.WiringSchema

/-!
Documents that differ in authoring order and interface spelling. They are accepted
together, and their snapshots differ only in the order of lists that later stages
sort or search.
-/
namespace WireSpaces.WiringReordered
open WireSpaces.WiringModels WireSpaces.WiringSchema WireSpaces.Agreement

/-! ### Documents -/

/-- The name, Link and pinned bit that an interface states, however it is spelled. -/
def written : InterfaceInput → String × String × Option Int
  | .shorthand link => (link,link,none)
  | .entry link name egressBit => (name.getD link,link,egressBit)

def Respelled (a b : InterfaceInput) : Prop := written a = written b

structure HostReordered (a b : HostInput) : Prop where
  name : a.name = b.name
  hostId : a.hostId = b.hostId
  interfaces : Rearranged Respelled a.interfaces b.interfaces

/-- A list in another order; an omitted one stays omitted. -/
abbrev Listed : Option (List String) → Option (List String) → Prop := Option.Rel List.Perm

structure WireReordered (a b : WireInput) : Prop where
  name : a.name = b.name
  wireId : a.wireId = b.wireId
  hosts : Listed a.hosts b.hosts
  groups : Listed a.groups b.groups
  links : Listed a.links b.links
  path : a.path = b.path
  realization : a.realization = b.realization

/-- A group or a realization with its list in another order. -/
structure EntryReordered (a b : String × List String) : Prop where
  key : a.1 = b.1
  values : a.2.Perm b.2

/-- The second document is the first in another authoring order. A path keeps its elements. -/
structure Reordered (a b : Document) : Prop where
  hosts : Rearranged HostReordered a.hosts b.hosts
  links : a.links.Perm b.links
  wires : Rearranged WireReordered a.wires b.wires
  groups : Rearranged EntryReordered a.groups b.groups
  paths : a.paths.Perm b.paths
  realizations : Rearranged EntryReordered a.realizations b.realizations

/-! ### Structure -/

theorem structured_written (i : InterfaceInput) :
    i.structured = (identifier (written i).2.1 && identifier (written i).1 && (written i).2.2.all (between 0 7)) := by
  cases i with
  | shorthand link => simp [InterfaceInput.structured,written]
  | entry link name bit => cases name <;> simp [InterfaceInput.structured,written]

theorem declaration_written (i : InterfaceInput) :
    i.declaration = ⟨(written i).1,(written i).2.1,(written i).2.2.map Int.toNat⟩ := by
  cases i <;> rfl

theorem declaration_respelled {a b : InterfaceInput} (same : Respelled a b) : a.declaration = b.declaration := by
  rw [declaration_written,declaration_written,same]

theorem rearranged_length {α β : Type} {R : α → β → Prop} {xs : List α} {ys : List β} (rearranged : Rearranged R xs ys) :
    xs.length = ys.length := by
  obtain ⟨between,perm,related⟩ := rearranged
  exact perm.length_eq.trans related.length_eq

theorem names_perm {a b : List String} (perm : a.Perm b) : names a = names b := by
  rw [Bool.eq_iff_iff]
  simp only [names,Bool.and_eq_true,List.all_eq_true,perm.mem_iff,perm.nodup_iff,decide_eq_true_eq]

theorem listed_names {a b : Option (List String)} (listed : Listed a b) : a.all names = b.all names := by
  cases listed with
  | none => rfl
  | some perm => exact names_perm perm

theorem listed_isSome {a b : Option (List String)} (listed : Listed a b) : a.isSome = b.isSome := by
  cases listed <;> rfl

theorem listed_getD {a b : Option (List String)} (listed : Listed a b) : (a.getD []).Perm (b.getD []) := by
  cases listed with
  | none => exact .refl _
  | some perm => exact perm

theorem isEmpty_perm {α : Type} {a b : List α} (perm : a.Perm b) : a.isEmpty = b.isEmpty := by
  rw [Bool.eq_iff_iff,List.isEmpty_iff,List.isEmpty_iff,← List.length_eq_zero_iff,perm.length_eq,List.length_eq_zero_iff]

theorem host_structured {a b : HostInput} (reordered : HostReordered a b) : a.structured = true ↔ b.structured = true := by
  simp only [HostInput.structured,Bool.and_eq_true,List.all_eq_true,reordered.name,reordered.hostId,
    rearranged_length reordered.interfaces]
  rw [rearranged_forall reordered.interfaces]
  intro i j same
  rw [structured_written,structured_written,same]

theorem wire_structured {a b : WireInput} (reordered : WireReordered a b) : a.structured = true ↔ b.structured = true := by
  simp only [WireInput.structured,reordered.name,reordered.wireId,reordered.path,reordered.realization,
    listed_names reordered.hosts,listed_names reordered.groups,listed_names reordered.links,listed_isSome reordered.links,
    isEmpty_perm (listed_getD reordered.hosts),isEmpty_perm (listed_getD reordered.groups)]

theorem structured_reordered {a b : Document} (reordered : Reordered a b) : structured a = true ↔ structured b = true := by
  have hosts : a.hosts.isEmpty = b.hosts.isEmpty := by
    rw [Bool.eq_iff_iff,List.isEmpty_iff,List.isEmpty_iff,← List.length_eq_zero_iff,rearranged_length reordered.hosts,
      List.length_eq_zero_iff]
  simp only [structured,Bool.and_eq_true,List.all_eq_true,hosts,reordered.links.mem_iff,reordered.paths.mem_iff]
  rw [rearranged_forall reordered.hosts (fun _ _ => host_structured),
    rearranged_forall reordered.wires (fun _ _ => wire_structured),rearranged_forall reordered.groups,
    rearranged_forall reordered.realizations]
  · intro x y same
    simp only [same.key,same.values.mem_iff,same.values.nodup_iff,same.values.length_eq]
  · intro x y same
    rw [same.key,names_perm same.values]

/-! ### Acceptance -/

theorem wired_perm {links links' : List String} {a b : List InterfaceDeclaration} (known : ∀ link, link ∈ links ↔ link ∈ links')
    (perm : a.Perm b) (wired : Wired links a) : Wired links' b :=
  ⟨(perm.filterMap _).nodup_iff.mp wired.bits,fun i member => (known _).mp (wired.known i (perm.mem_iff.mpr member)),
    (perm.map _).nodup_iff.mp wired.once⟩

theorem interfaces_perm {a b : HostInput} (reordered : HostReordered a b) :
    a.declaration.interfaces.Perm b.declaration.interfaces :=
  rearranged_map_perm reordered.interfaces fun _ _ => declaration_respelled

theorem host_accepted {links links' : List String} (known : ∀ link, link ∈ links ↔ link ∈ links') {a b : HostInput}
    (reordered : HostReordered a b) : HostAccepted links a ↔ HostAccepted links' b := by
  have perm := interfaces_perm reordered
  constructor
  · rintro ⟨names,wired⟩
    exact ⟨(perm.map _).nodup_iff.mp names,wired_perm known perm wired⟩
  · rintro ⟨names,wired⟩
    exact ⟨(perm.map _).nodup_iff.mpr names,wired_perm (fun link => (known link).symm) perm.symm wired⟩

theorem wire_accepted {a b : Document} (reordered : Reordered a b) {w v : WireInput} (same : WireReordered w v) :
    WireAccepted a w ↔ WireAccepted b v := by
  have hosts := rearranged_map_perm reordered.hosts (fun _ _ same => same.name)
  have groups := rearranged_map_perm reordered.groups (fun _ _ same => same.key)
  have realizations := rearranged_map_perm reordered.realizations (fun _ _ same => same.key)
  have links := reordered.links.map (·.name)
  have paths := reordered.paths.map (·.1)
  have fields (d : Document) (u : WireInput) : WireAccepted d u ↔
      (∀ host ∈ u.hosts.getD [], host ∈ d.hosts.map (·.name)) ∧ (∀ group ∈ u.groups.getD [], group ∈ d.groups.map (·.1)) ∧
      (∀ link ∈ u.links.getD [], link ∈ d.links.map (·.name)) ∧ (∀ path ∈ u.path, path ∈ d.paths.map (·.1)) ∧
      ∀ value ∈ u.realization, value ∈ d.realizations.map (·.1) :=
    ⟨fun ⟨h,g,l,p,r⟩ => ⟨h,g,l,p,r⟩,fun ⟨h,g,l,p,r⟩ => ⟨h,g,l,p,r⟩⟩
  simp only [fields,(listed_getD same.hosts).mem_iff,(listed_getD same.groups).mem_iff,(listed_getD same.links).mem_iff,
    same.path,same.realization,hosts.mem_iff,groups.mem_iff,links.mem_iff,paths.mem_iff,realizations.mem_iff]

/-- Reordered documents are accepted together. -/
theorem accepted_reordered {a b : Document} (reordered : Reordered a b) : Accepted a ↔ Accepted b := by
  have hosts := rearranged_map_perm reordered.hosts (fun _ _ same => same.name)
  have ids := rearranged_map_perm reordered.hosts (fun _ _ same => same.hostId)
  have wires := rearranged_map_perm reordered.wires (fun _ _ same => same.name)
  have wireIds := rearranged_map_perm reordered.wires (fun _ _ same => same.wireId)
  have links := reordered.links.map (·.name)
  have fields (d : Document) : Accepted d ↔ structured d = true ∧ (d.hosts.map (·.name)).Nodup ∧ (d.links.map (·.name)).Nodup ∧
      (d.wires.map (·.name)).Nodup ∧ (∀ group ∈ d.groups, ∀ member ∈ group.2, member ∈ d.hosts.map (·.name)) ∧
      (d.hosts.map (·.hostId)).Nodup ∧ (∀ host ∈ d.hosts, HostAccepted (d.links.map (·.name)) host) ∧
      (d.wires.map (·.wireId)).Nodup ∧ ∀ wire ∈ d.wires, WireAccepted d wire :=
    ⟨fun ⟨s,h,l,w,g,i,k,n,v⟩ => ⟨s,h,l,w,g,i,k,n,v⟩,fun ⟨s,h,l,w,g,i,k,n,v⟩ => ⟨s,h,l,w,g,i,k,n,v⟩⟩
  rw [fields,fields,structured_reordered reordered,hosts.nodup_iff,links.nodup_iff,wires.nodup_iff,ids.nodup_iff,
    wireIds.nodup_iff,rearranged_forall reordered.wires (fun _ _ => wire_accepted reordered),
    rearranged_forall reordered.hosts (fun _ _ => host_accepted fun _ => links.mem_iff),rearranged_forall reordered.groups]
  intro x y same
  simp only [same.values.mem_iff,hosts.mem_iff]

/-! ### Snapshots -/

/-- A host with its interfaces in another order. -/
structure HostAlike (a b : HostDeclaration) : Prop where
  name : a.name = b.name
  hostId : a.hostId = b.hostId
  interfaces : a.interfaces.Perm b.interfaces
  names : (a.interfaces.map (·.name)).Nodup

structure WireAlike (a b : WireDeclaration) : Prop where
  name : a.name = b.name
  wireId : a.wireId = b.wireId
  hosts : Listed a.hosts b.hosts
  groups : Listed a.groups b.groups
  links : Listed a.links b.links
  path : a.path = b.path
  realization : a.realization = b.realization

structure GroupAlike (a b : GroupDeclaration) : Prop where
  name : a.name = b.name
  hosts : a.hosts.Perm b.hosts

structure RealizationAlike (a b : RealizationDeclaration) : Prop where
  name : a.name = b.name
  attachments : a.attachments.Perm b.attachments

/-- What the snapshots of reordered documents share. -/
structure Alike (a b : AuthoredDeployment) : Prop where
  hosts : List.Forall₂ HostAlike a.hosts b.hosts
  links : a.links = b.links
  wires : List.Forall₂ WireAlike a.wires b.wires
  groups : List.Forall₂ GroupAlike a.groups b.groups
  paths : a.paths = b.paths
  realizations : List.Forall₂ RealizationAlike a.realizations b.realizations

section sorting
variable {α : Type} {key : α → String}

instance sortedBy_total : Std.Total (fun a b : α => key a ≤ key b) := ⟨fun a b => le_total (key a) (key b)⟩

instance sortedBy_trans : IsTrans α (fun a b => key a ≤ key b) := ⟨fun _ _ _ => le_trans⟩

theorem sortedBy_eq_of_perm {xs ys : List α} (once : ∀ a ∈ xs, ∀ b ∈ xs, key a = key b → a = b) (perm : xs.Perm ys) :
    sortedBy key xs = sortedBy key ys :=
  insertionSort_eq_of_perm (fun a left b right below above => once a left b right (le_antisymm below above)) perm

theorem sorted_eq_of_perm {xs ys : List String} (perm : xs.Perm ys) : sorted xs = sorted ys :=
  sortedBy_eq_of_perm (fun _ _ _ _ same => same) perm

theorem sortedBy_forall₂ {R : α → α → Prop} (same : ∀ a b, R a b → key a = key b) {xs ys : List α}
    (related : List.Forall₂ R xs ys) : List.Forall₂ R (sortedBy key xs) (sortedBy key ys) :=
  insertionSort_forall₂ (fun a a' b b' left right => by rw [same a b left,same a' b' right]) related

/-- Sorted by keys that stand once, rearranged lists are related in place. -/
theorem sortedBy_rearranged {R : α → α → Prop} (same : ∀ a b, R a b → key a = key b) {xs ys : List α}
    (once : (xs.map key).Nodup) (rearranged : Rearranged R xs ys) : List.Forall₂ R (sortedBy key xs) (sortedBy key ys) := by
  obtain ⟨between,perm,related⟩ := rearranged
  rw [sortedBy_eq_of_perm (fun a left b right => List.inj_on_of_nodup_map once left right) perm]
  exact sortedBy_forall₂ same related

end sorting

theorem snapshot_alike {a b : Document} (accepted : Accepted a) (reordered : Reordered a b) :
    Alike (snapshot a) (snapshot b) := by
  have named {α β : Type} {key : β → String} {make : α → β} {values : List α} (once : (values.map (key ∘ make)).Nodup) :
      ((values.map make).map key).Nodup := by
    rw [List.map_map]
    exact once
  refine ⟨?_,?_,?_,?_,?_,?_⟩
  · refine sortedBy_rearranged (fun _ _ same => same.name) (named accepted.hostNames)
      (rearranged_map (rearranged_and_left reordered.hosts accepted.hosts) ?_)
    rintro x y ⟨host,same⟩
    exact ⟨same.name,congrArg Int.toNat same.hostId,interfaces_perm same,host.names⟩
  · have once : ((a.links.map LinkInput.declaration).map (·.name)).Nodup := named accepted.linkNames
    exact sortedBy_eq_of_perm (fun x left y right => List.inj_on_of_nodup_map once left right) (reordered.links.map _)
  · refine sortedBy_rearranged (fun _ _ same => same.name) (named accepted.wireNames) (rearranged_map reordered.wires ?_)
    intro x y same
    exact ⟨same.name,congrArg Int.toNat same.wireId,same.hosts,same.groups,same.links,same.path,same.realization⟩
  · refine sortedBy_rearranged (fun _ _ same => same.name) (named a.groups_keys) (rearranged_map reordered.groups ?_)
    intro x y same
    exact ⟨same.key,same.values⟩
  · have once : ((a.paths.map fun path => PathDeclaration.mk path.1 path.2).map (·.name)).Nodup := named a.paths_keys
    exact sortedBy_eq_of_perm (fun x left y right => List.inj_on_of_nodup_map once left right) (reordered.paths.map _)
  · refine sortedBy_rearranged (fun _ _ same => same.name) (named a.realizations_keys) (rearranged_map reordered.realizations ?_)
    intro x y same
    exact ⟨same.key,same.values⟩

/-- Parsing forgets the authoring order. -/
theorem parseDeployment_agree {a b : Document} (reordered : Reordered a b) :
    Agree (fun x y => Valid x ∧ Alike x y) (parseDeployment a) (parseDeployment b) := by
  refine agree_of_iff ?_ ?_
  · simp only [parseDeployment_eq_ok,exists_and_left,exists_eq',and_true]
    exact accepted_reordered reordered
  · intro x y left right
    have valid := parse_valid left
    obtain ⟨accepted,rfl⟩ := parseDeployment_eq_ok.mp left
    obtain ⟨-,rfl⟩ := parseDeployment_eq_ok.mp right
    exact ⟨valid,snapshot_alike accepted reordered⟩

end WireSpaces.WiringReordered
