import WireSpaces.WiringProjection
import WireSpaces.WiringTrees
import Mathlib.Data.Nat.BitIndices

/-!
Egress bits and masks of a projection. The loop over a host's interfaces gives each a bit of its own,
so the sum of some interfaces' masks is the union of their bits.
-/
namespace WireSpaces.WiringMasks
open WireSpaces.WiringModels WireSpaces.WiringTopology WireSpaces.WiringProjection WireSpaces.WiringSchema WireSpaces.WiringTrees

/-! ### The assignment of bits -/

/-- What the loop over the interfaces assigns when `taken` are the reserved and assigned bits. -/
inductive Assigned : List Nat → List InterfaceProjection → Prop where
  | nil (taken : List Nat) : Assigned taken []
  | pinned {taken : List Nat} {interface : InterfaceProjection} {rest : List InterfaceProjection}
      (given : interface.declaration.egressBit = some interface.egressBit) (others : Assigned taken rest) :
      Assigned taken (interface :: rest)
  | automatic {taken : List Nat} {interface : InterfaceProjection} {rest : List InterfaceProjection}
      (omitted : interface.declaration.egressBit = none) (inside : interface.egressBit < 8)
      (free : interface.egressBit ∉ taken) (lowest : ∀ bit < interface.egressBit, bit ∈ taken)
      (others : Assigned (interface.egressBit :: taken) rest) : Assigned taken (interface :: rest)

/-- The loop never runs out of bits while the taken ones and the interfaces to come are at most eight. -/
theorem projectInterfaces_assigned {links : List LinkDeclaration} {taken : List Nat} {interfaces : List InterfaceDeclaration}
    (known : ∀ interface ∈ interfaces, interface.link ∈ links.map (·.name))
    (room : taken.length + (interfaces.filter (·.egressBit = none)).length ≤ 8) :
    ∃ projected, projectInterfaces links taken interfaces = .ok projected ∧ projected.map (·.declaration) = interfaces ∧
      Assigned taken projected := by
  induction interfaces generalizing taken with
  | nil => exact ⟨[],rfl,rfl,.nil taken⟩
  | cons interface rest ih =>
    have later : ∀ other ∈ rest, other.link ∈ links.map (·.name) := fun other among => known other (List.mem_cons_of_mem _ among)
    obtain ⟨link,linkIs⟩ : ∃ link, links.find? (·.name = interface.link) = some link := by
      rw [← Option.isSome_iff_exists,List.find?_isSome]
      obtain ⟨link,among,same⟩ := List.mem_map.mp (known interface List.mem_cons_self)
      exact ⟨link,among,by simpa using same⟩
    rw [projectInterfaces]
    cases given : interface.egressBit with
    | some bit =>
      rw [List.filter_cons_of_neg (by simp [given])] at room
      obtain ⟨projected,done,declared,assigned⟩ := ih later room
      refine ⟨⟨interface,bit,link.baudRate,canProjection link⟩ :: projected,?_,by rw [List.map_cons,declared],.pinned given assigned⟩
      simp [bind,Except.bind,linkIs,done,found,pure,Except.pure]
    | none =>
      rw [List.filter_cons_of_pos (by simp [given]),List.length_cons] at room
      obtain ⟨bit,bitIs⟩ : ∃ bit, (List.range 8).find? (· ∉ taken) = some bit := by
        rw [← Option.isSome_iff_exists,List.find?_isSome]
        by_contra full
        push Not at full
        have all : List.range 8 ⊆ taken := fun bit among => by simpa using full bit among
        have count := (List.nodup_range.subperm all).length_le
        rw [List.length_range] at count
        omega
      obtain ⟨free,inside,lowest⟩ := List.find?_range_eq_some.mp bitIs
      have fewer : (bit :: taken).length + (rest.filter (·.egressBit = none)).length ≤ 8 := by
        rw [List.length_cons]
        omega
      obtain ⟨projected,done,declared,assigned⟩ := ih later fewer
      refine ⟨⟨interface,bit,link.baudRate,canProjection link⟩ :: projected,?_,by rw [List.map_cons,declared],
        .automatic given (List.mem_range.mp inside) (by simpa using free) (fun other below => by simpa using lowest other below) assigned⟩
      simp only [bitIs,bind,Except.bind,linkIs,done,found,pure,Except.pure]

section assigned
variable {taken : List Nat} {projected : List InterfaceProjection} (assigned : Assigned taken projected)
include assigned

theorem Assigned.free {interface : InterfaceProjection} (member : interface ∈ projected)
    (omitted : interface.declaration.egressBit = none) : interface.egressBit ∉ taken ∧ interface.egressBit < 8 := by
  induction assigned with
  | nil => cases member
  | pinned given others ih =>
    rcases List.mem_cons.mp member with rfl | later
    · rw [given] at omitted
      cases omitted
    · exact ih later
  | automatic omitted' inside free lowest others ih =>
    rcases List.mem_cons.mp member with rfl | later
    · exact ⟨free,inside⟩
    · obtain ⟨apart,below⟩ := ih later
      exact ⟨fun among => apart (List.mem_cons_of_mem _ among),below⟩

theorem Assigned.given {interface : InterfaceProjection} (member : interface ∈ projected) {bit : Nat}
    (given : interface.declaration.egressBit = some bit) : interface.egressBit = bit := by
  induction assigned with
  | nil => cases member
  | pinned given' others ih =>
    rcases List.mem_cons.mp member with rfl | later
    · exact Option.some.inj (given'.symm.trans given)
    · exact ih later
  | automatic omitted inside free lowest others ih =>
    rcases List.mem_cons.mp member with rfl | later
    · rw [omitted] at given
      cases given
    · exact ih later

/-- Reserved bits that are different make all bits different. -/
theorem Assigned.nodup (reserved : ∀ bit ∈ projected.filterMap (·.declaration.egressBit), bit ∈ taken)
    (once : (projected.filterMap (·.declaration.egressBit)).Nodup) : (projected.map (·.egressBit)).Nodup := by
  induction assigned with
  | nil => exact List.nodup_nil
  | @pinned taken interface rest given others ih =>
    simp only [List.filterMap_cons,given] at reserved once
    obtain ⟨alone,once'⟩ := List.nodup_cons.mp once
    rw [List.map_cons,List.nodup_cons]
    refine ⟨?_,ih (fun bit among => reserved bit (List.mem_cons_of_mem _ among)) once'⟩
    rintro shared
    obtain ⟨other,among,same⟩ := List.mem_map.mp shared
    cases pinned : other.declaration.egressBit with
    | none =>
      apply (others.free among pinned).1
      rw [same]
      exact reserved _ List.mem_cons_self
    | some bit =>
      apply alone
      rw [← same,others.given among pinned]
      exact List.mem_filterMap.mpr ⟨other,among,pinned⟩
  | @automatic taken interface rest omitted inside free lowest others ih =>
    simp only [List.filterMap_cons,omitted] at reserved once
    rw [List.map_cons,List.nodup_cons]
    refine ⟨?_,ih (fun bit among => List.mem_cons_of_mem _ (reserved bit among)) once⟩
    rintro shared
    obtain ⟨other,among,same⟩ := List.mem_map.mp shared
    cases pinned : other.declaration.egressBit with
    | none =>
      apply (others.free among pinned).1
      rw [same]
      exact List.mem_cons_self
    | some bit =>
      apply free
      rw [← same,others.given among pinned]
      exact reserved bit (List.mem_filterMap.mpr ⟨other,among,pinned⟩)

theorem Assigned.lowest (ordered : projected.Pairwise fun i j => i.declaration.name < j.declaration.name)
    {interface : InterfaceProjection} (member : interface ∈ projected) (omitted : interface.declaration.egressBit = none) :
    ∀ bit < interface.egressBit, bit ∈ taken ∨
      ∃ other ∈ projected, other.declaration.name < interface.declaration.name ∧ other.egressBit = bit := by
  induction assigned with
  | nil => cases member
  | pinned given others ih =>
    obtain ⟨-,ordered'⟩ := List.pairwise_cons.mp ordered
    rcases List.mem_cons.mp member with rfl | later
    · rw [given] at omitted
      cases omitted
    · intro bit below
      refine (ih ordered' later bit below).imp_right ?_
      rintro ⟨other,among,earlier⟩
      exact ⟨other,List.mem_cons_of_mem _ among,earlier⟩
  | @automatic taken first rest omitted' inside free lowest others ih =>
    obtain ⟨before,ordered'⟩ := List.pairwise_cons.mp ordered
    rcases List.mem_cons.mp member with rfl | later
    · exact fun bit below => .inl (lowest bit below)
    · intro bit below
      rcases ih ordered' later bit below with among | ⟨other,among,earlier⟩
      · rcases List.mem_cons.mp among with rfl | old
        · exact .inr ⟨first,List.mem_cons_self,before _ later,rfl⟩
        · exact .inl old
      · exact .inr ⟨other,List.mem_cons_of_mem _ among,earlier⟩

end assigned

/-! ### The interfaces of a host -/

/-- The interfaces of a host with their bits, by ascending bit. -/
structure Numbered (host : HostDeclaration) (interfaces : List InterfaceProjection) : Prop where
  declared : (interfaces.map (·.declaration)).Perm host.interfaces
  ascending : (interfaces.map (·.egressBit)).SortedLT
  inside : ∀ i ∈ interfaces, i.egressBit < 8
  given : ∀ i ∈ interfaces, ∀ bit, i.declaration.egressBit = some bit → i.egressBit = bit
  free : ∀ i ∈ interfaces, i.declaration.egressBit = none → i.egressBit ∉ host.interfaces.filterMap (·.egressBit)
  lowest : ∀ i ∈ interfaces, i.declaration.egressBit = none → ∀ bit < i.egressBit,
    bit ∈ host.interfaces.filterMap (·.egressBit) ∨
      ∃ other ∈ interfaces, other.declaration.name < i.declaration.name ∧ other.egressBit = bit

theorem sortedByNumber_perm {α : Type} (key : α → Nat) (values : List α) : (sortedByNumber key values).Perm values :=
  List.perm_insertionSort _ values

theorem mem_sortedByNumber {α : Type} {key : α → Nat} {values : List α} {a : α} : a ∈ sortedByNumber key values ↔ a ∈ values :=
  (sortedByNumber_perm key values).mem_iff

/-- Different keys are sorted in a strictly ascending order. -/
theorem insertionSort_ascending {α κ : Type} [LinearOrder κ] {key : α → κ} [DecidableRel fun a b : α => key a ≤ key b]
    {values : List α} (once : (values.map key).Nodup) :
    (values.insertionSort fun a b => key a ≤ key b).Pairwise fun a b => key a < key b := by
  have total : Std.Total fun a b : α => key a ≤ key b := ⟨fun a b => le_total (key a) (key b)⟩
  have trans : IsTrans α fun a b => key a ≤ key b := ⟨fun _ _ _ => le_trans⟩
  have sorted := List.pairwise_insertionSort (fun a b : α => key a ≤ key b) values
  have once' := ((List.perm_insertionSort (fun a b : α => key a ≤ key b) values).map key).nodup_iff.mpr once
  exact (sorted.and (List.pairwise_map.mp once')).imp fun ⟨le,ne⟩ => lt_of_le_of_ne le ne

/-- A valid host gets bits for all its interfaces; only the number of its Wires can be too large. -/
theorem projectHost_eq {links : List LinkDeclaration} {host : HostDeclaration} (valid : ValidHost links host)
    (wires : List ResolvedWire) : ∃ interfaces, Numbered host interfaces ∧
      projectHost links wires host = do
        let memberships := (wires.filter fun wire => host.name ∈ wire.members).map (·.declaration)
        require (memberships.length ≤ 6) ("Host " ++ host.name ++ " exceeds six membership Wires")
        return ⟨host,interfaces,memberships,wires.filterMap (routeOf host.name interfaces)⟩ := by
  have perm := sortedBy_perm (·.name) host.interfaces
  have count : (host.interfaces.filterMap (·.egressBit)).length +
      ((sortedBy (·.name) host.interfaces).filter (·.egressBit = none)).length = host.interfaces.length := by
    rw [(perm.filter _).length_eq]
    generalize host.interfaces = interfaces
    induction interfaces with
    | nil => rfl
    | cons interface rest ih =>
      cases given : interface.egressBit <;> simp [given] at ih ⊢ <;> omega
  obtain ⟨projected,done,declared,assigned⟩ := projectInterfaces_assigned
    (fun interface member => valid.wired.known interface (perm.mem_iff.mp member))
    (count.trans_le valid.few)
  have pinned : projected.filterMap (·.declaration.egressBit) = (sortedBy (·.name) host.interfaces).filterMap (·.egressBit) := by
    rw [← declared,List.filterMap_map]
    rfl
  have same : (projected.filterMap (·.declaration.egressBit)).Perm (host.interfaces.filterMap (·.egressBit)) := by
    rw [pinned]
    exact perm.filterMap _
  have once := assigned.nodup (fun bit among => same.mem_iff.mp among) (same.nodup_iff.mpr valid.wired.bits)
  have ordered : projected.Pairwise fun i j => i.declaration.name < j.declaration.name := by
    have names : (sortedBy (·.name) host.interfaces).Pairwise fun a b => a.name < b.name := insertionSort_ascending valid.names
    rw [← declared,List.pairwise_map] at names
    exact names
  have among {i : InterfaceProjection} (member : i ∈ projected) : i.declaration ∈ host.interfaces := by
    rw [← perm.mem_iff,← declared]
    exact List.mem_map_of_mem member
  refine ⟨sortedByNumber (·.egressBit) projected,⟨?_,?_,?_,?_,?_,?_⟩,?_⟩
  · refine ((sortedByNumber_perm _ projected).map _).trans ?_
    rw [declared]
    exact perm
  · exact (List.pairwise_map.mpr (insertionSort_ascending once)).sortedLT
  · intro i member
    rw [mem_sortedByNumber] at member
    cases given : i.declaration.egressBit with
    | none => exact (assigned.free member given).2
    | some bit =>
      rw [assigned.given member given]
      exact valid.bits _ (among member) bit given
  · intro i member bit given
    exact assigned.given (mem_sortedByNumber.mp member) given
  · intro i member omitted
    exact (assigned.free (mem_sortedByNumber.mp member) omitted).1
  · intro i member omitted bit below
    simpa only [mem_sortedByNumber] using assigned.lowest ordered (mem_sortedByNumber.mp member) omitted bit below
  · simp only [projectHost,done]
    rfl

/-! ### Masks -/

/-- The bitwise union of the masks of some interfaces. -/
def union (interfaces : List InterfaceProjection) : Nat := (interfaces.map InterfaceProjection.mask).foldr (· ||| ·) 0

theorem testBit_union {interfaces : List InterfaceProjection} {bit : Nat} :
    (union interfaces).testBit bit = true ↔ ∃ i ∈ interfaces, i.egressBit = bit := by
  induction interfaces with
  | nil => simp [union]
  | cons interface rest ih =>
    have parts : union (interface :: rest) = interface.mask ||| union rest := rfl
    rw [parts,Nat.testBit_or,Bool.or_eq_true,ih,InterfaceProjection.mask,Nat.one_shiftLeft,Nat.testBit_two_pow,decide_eq_true_eq]
    simp

section masks
variable {host : HostDeclaration} {interfaces : List InterfaceProjection} (numbered : Numbered host interfaces)
include numbered

/-- No bit is summed twice, so a mask has the bits of the selected interfaces. -/
theorem testBit_egressMask {selected : List String} {bit : Nat} : (egressMask interfaces selected).testBit bit = true ↔
    ∃ i ∈ interfaces, i.declaration.name ∈ selected ∧ i.egressBit = bit := by
  have ascending : ((interfaces.filter fun i => i.declaration.name ∈ selected).map (·.egressBit)).SortedLT :=
    (numbered.ascending.pairwise.sublist (List.filter_sublist.map _)).sortedLT
  have sum : egressMask interfaces selected =
      (((interfaces.filter fun i => i.declaration.name ∈ selected).map (·.egressBit)).map (2 ^ ·)).sum := by
    rw [egressMask,List.map_map]
    congr 1
    apply List.map_congr_left
    intro i _
    rw [InterfaceProjection.mask,Nat.one_shiftLeft,Function.comp_apply]
  rw [sum,← Nat.mem_bitIndices,Nat.bitIndices_sum_map_two_pow ascending]
  simp [and_assoc]

theorem egressMask_eq_union (selected : List String) :
    egressMask interfaces selected = union (interfaces.filter fun i => i.declaration.name ∈ selected) := by
  apply Nat.eq_of_testBit_eq
  intro bit
  rw [Bool.eq_iff_iff,testBit_egressMask numbered,testBit_union]
  simp [and_assoc]

theorem egressMask_lt (selected : List String) : egressMask interfaces selected < 2 ^ 8 := by
  apply Nat.lt_pow_two_of_testBit
  intro bit high
  rw [Bool.eq_false_iff]
  intro set
  obtain ⟨i,member,-,rfl⟩ := (testBit_egressMask numbered).mp set
  have := numbered.inside i member
  omega

theorem egressMask_ne_zero {selected : List String} : egressMask interfaces selected ≠ 0 ↔
    ∃ i ∈ interfaces, i.declaration.name ∈ selected := by
  constructor
  · intro some
    obtain ⟨bit,set⟩ := Nat.exists_testBit_of_ne_zero some
    obtain ⟨i,member,chosen,-⟩ := (testBit_egressMask numbered).mp set
    exact ⟨i,member,chosen⟩
  · rintro ⟨i,member,chosen⟩ zero
    have set := (testBit_egressMask numbered).mpr ⟨i,member,chosen,rfl⟩
    rw [zero,Nat.zero_testBit] at set
    cases set

end masks

/-! ### Whole deployments -/

/-- What the projection of a host holds. -/
structure Lowered (wires : List ResolvedWire) (host : HostProjection) : Prop where
  numbered : Numbered host.declaration host.interfaces
  memberships : host.memberships = (wires.filter fun wire => host.declaration.name ∈ wire.members).map (·.declaration)
  few : host.memberships.length ≤ 6
  routes : host.routes = wires.filterMap (routeOf host.declaration.name host.interfaces)

section deployment
variable {resolved : ResolvedDeployment} (valid : Valid resolved.authored)
include valid

/-- Projecting a resolved deployment fails only for a host of more than six Wires. -/
theorem projectDeployment_error {failure : Failure} (failed : projectDeployment resolved = .error failure) :
    ∃ host ∈ resolved.authored.hosts, failure = .valueError ("Host " ++ host.name ++ " exceeds six membership Wires") ∧
      6 < (resolved.wires.filter fun wire => host.name ∈ wire.members).length := by
  simp only [projectDeployment,bind_eq_error] at failed
  rcases failed with stopped | ⟨hosts,-,never⟩
  · obtain ⟨host,member,stopped⟩ := of_mapM_error stopped
    obtain ⟨interfaces,-,equal⟩ := projectHost_eq (valid.hosts host member) (sortedByNumber (·.declaration.wireId) resolved.wires)
    simp only [equal,bind_eq_error,require_eq_error,List.length_map,((sortedByNumber_perm _ resolved.wires).filter _).length_eq] at stopped
    rcases stopped with ⟨many,reason⟩ | ⟨-,-,never⟩
    · exact ⟨host,member,reason,Nat.not_le.mp many⟩
    · cases never
  · cases never

theorem projectDeployment_lowered {projection : TargetProjection} (projects : projectDeployment resolved = .ok projection) :
    projection.resolved = resolved ∧ (projection.hosts.map (·.declaration)).Perm resolved.authored.hosts ∧
      ∀ host ∈ projection.hosts, Lowered (sortedByNumber (·.declaration.wireId) resolved.wires) host := by
  simp only [projectDeployment,bind_eq_ok] at projects
  obtain ⟨hosts,projected,done⟩ := projects
  obtain rfl := Except.ok.inj done
  have each (declaration : HostDeclaration) (member : declaration ∈ resolved.authored.hosts) (host : HostProjection)
      (made : projectHost resolved.authored.links (sortedByNumber (·.declaration.wireId) resolved.wires) declaration = .ok host) :
      host.declaration = declaration ∧ Lowered (sortedByNumber (·.declaration.wireId) resolved.wires) host := by
    obtain ⟨interfaces,numbered,equal⟩ := projectHost_eq (valid.hosts declaration member)
      (sortedByNumber (·.declaration.wireId) resolved.wires)
    rw [equal] at made
    simp only [bind_eq_ok,require_eq_ok,exists_const] at made
    obtain ⟨few,done⟩ := made
    obtain rfl := Except.ok.inj done
    exact ⟨rfl,numbered,rfl,few,rfl⟩
  refine ⟨rfl,?_,?_⟩
  · refine ((sortedBy_perm _ hosts).map _).trans ?_
    have shown : hosts.map (·.declaration) = resolved.authored.hosts.map id :=
      map_of_mapM projected fun declaration member host made => (each declaration member host made).1
    rw [shown,List.map_id]
  · intro host member
    obtain ⟨declaration,listed,made⟩ := of_mem_mapM projected (mem_sortedBy.mp member)
    exact (each declaration listed host made).2

end deployment

theorem resolveDeployment_wires {nx : NetworkX} {authored : AuthoredDeployment} {resolved : ResolvedDeployment}
    (accepted : resolveDeployment nx authored = .ok resolved) :
    resolved.authored = authored ∧ (resolved.wires.map (·.declaration)).Perm authored.wires := by
  simp only [resolveDeployment,bind_eq_ok] at accepted
  obtain ⟨chains,-,realizations,-,wires,resolving,done⟩ := accepted
  obtain rfl := Except.ok.inj done
  refine ⟨rfl,((sortedBy_perm _ wires).map _).trans ?_⟩
  have shown : wires.map (·.declaration) = authored.wires.map id := by
    refine map_of_mapM resolving fun wire _ result made => ?_
    simp only [resolveWire,bind_eq_ok] at made
    obtain ⟨expanded,-,-,-,⟨selected,mode⟩,-,done⟩ := made
    obtain rfl := Except.ok.inj done
    rfl
  rw [shown,List.map_id]

/-! ### The interfaces of a Wire -/

/-- The attachment an interface of a host is. -/
def attachmentOf (host : HostProjection) (interface : InterfaceProjection) : Attachment :=
  ⟨host.declaration.name,interface.declaration.name,interface.declaration.link⟩

/-- The interfaces of a host that a Wire selects. -/
def selectedOn (wire : ResolvedWire) (host : HostProjection) : List InterfaceProjection :=
  host.interfaces.filter fun i => attachmentOf host i ∈ wire.attachments

/-- The summed mask of a host on a Wire. -/
def maskOn (wire : ResolvedWire) (host : HostProjection) : Nat :=
  egressMask host.interfaces ((wire.attachments.filter fun a => a.host = host.declaration.name).map (·.interface))

/-- What the stages before leave for a host and a Wire: the host's interfaces are named and numbered apart, and what
    the Wire selects of the host are interfaces of it. -/
structure Selects (wire : ResolvedWire) (host : HostProjection) : Prop where
  numbered : Numbered host.declaration host.interfaces
  names : (host.interfaces.map (·.declaration.name)).Nodup
  declared : ∀ a ∈ wire.attachments, a.host = host.declaration.name → ∃ i ∈ host.interfaces, a = attachmentOf host i

section selects
variable {wire : ResolvedWire} {host : HostProjection} (selects : Selects wire host)
include selects

theorem Selects.named_iff {i : InterfaceProjection} (member : i ∈ host.interfaces) :
    i.declaration.name ∈ (wire.attachments.filter fun a => a.host = host.declaration.name).map (·.interface) ↔
      attachmentOf host i ∈ wire.attachments := by
  simp only [List.mem_map,List.mem_filter,decide_eq_true_eq]
  constructor
  · rintro ⟨a,⟨attached,mine⟩,same⟩
    obtain ⟨j,among,rfl⟩ := selects.declared a attached mine
    obtain rfl := List.inj_on_of_nodup_map selects.names among member same
    exact attached
  · intro attached
    exact ⟨attachmentOf host i,⟨attached,rfl⟩,rfl⟩

theorem Selects.mask_eq_union : maskOn wire host = union (selectedOn wire host) := by
  rw [maskOn,egressMask_eq_union selects.numbered]
  congr 1
  apply List.filter_congr
  intro i member
  exact decide_eq_decide.mpr (selects.named_iff member)

theorem Selects.testBit_mask {i : InterfaceProjection} (member : i ∈ host.interfaces) :
    (maskOn wire host).testBit i.egressBit = true ↔ attachmentOf host i ∈ wire.attachments := by
  rw [selects.mask_eq_union,testBit_union]
  constructor
  · rintro ⟨j,chosen,same⟩
    obtain ⟨among,attached⟩ := List.mem_filter.mp chosen
    obtain rfl := List.inj_on_of_nodup_map selects.numbered.ascending.nodup among member same
    exact of_decide_eq_true attached
  · intro attached
    exact ⟨i,List.mem_filter.mpr ⟨member,decide_eq_true attached⟩,rfl⟩

theorem Selects.mask_ne_zero : maskOn wire host ≠ 0 ↔ ∃ i ∈ host.interfaces, attachmentOf host i ∈ wire.attachments := by
  rw [maskOn,egressMask_ne_zero selects.numbered]
  constructor
  · rintro ⟨i,member,chosen⟩
    exact ⟨i,member,(selects.named_iff member).mp chosen⟩
  · rintro ⟨i,member,attached⟩
    exact ⟨i,member,(selects.named_iff member).mpr attached⟩

end selects

theorem mem_routes {wires : List ResolvedWire} {host : HostProjection} (lowered : Lowered wires host) {route : RouteProjection} :
    route ∈ host.routes ↔ ∃ wire ∈ wires, route = ⟨wire.declaration,maskOn wire host⟩ ∧
      (maskOn wire host ≠ 0 ∨ host.declaration.name ∈ wire.members) := by
  simp only [lowered.routes,List.mem_filterMap,routeOf,Option.ite_none_right_eq_some,Option.some.injEq,maskOn]
  constructor
  · rintro ⟨wire,member,condition,rfl⟩
    exact ⟨wire,member,rfl,condition⟩
  · rintro ⟨wire,member,rfl,condition⟩
    exact ⟨wire,member,condition,rfl⟩

/-! ### Accepted deployments -/

/-- What the stages behind a projection establish. -/
structure Compiled (nx : NetworkX) (projection : TargetProjection) : Prop where
  valid : Valid projection.resolved.authored
  resolves : resolveDeployment nx projection.resolved.authored = .ok projection.resolved
  wires : (projection.resolved.wires.map (·.declaration)).Perm projection.resolved.authored.wires
  hosts : (projection.hosts.map (·.declaration)).Perm projection.resolved.authored.hosts
  lowered : ∀ host ∈ projection.hosts, Lowered (sortedByNumber (·.declaration.wireId) projection.resolved.wires) host

theorem projected_compiled {nx : NetworkX} {document : Document} {authored : AuthoredDeployment} {resolved : ResolvedDeployment}
    {projection : TargetProjection} (parsed : parseDeployment document = .ok authored)
    (accepted : resolveDeployment nx authored = .ok resolved) (projects : projectDeployment resolved = .ok projection) :
    Compiled nx projection ∧ projection.resolved = resolved ∧ resolved.authored = authored := by
  obtain ⟨rfl,wires⟩ := resolveDeployment_wires accepted
  have valid := parse_valid parsed
  obtain ⟨rfl,hosts,lowered⟩ := projectDeployment_lowered valid projects
  exact ⟨⟨valid,accepted,wires,hosts,lowered⟩,rfl,rfl⟩

theorem compileDeployment_compiled {nx : NetworkX} {document : Document} {projection : TargetProjection}
    (compiled : compileDeployment nx document = .ok projection) : Compiled nx projection := by
  simp only [compileDeployment,bind_eq_ok] at compiled
  obtain ⟨authored,parsed,resolved,accepted,projects⟩ := compiled
  exact (projected_compiled parsed accepted projects).1

section compiled
variable {nx : NetworkX} {projection : TargetProjection} (compiled : Compiled nx projection)
include compiled

theorem Compiled.declaration_mem {host : HostProjection} (member : host ∈ projection.hosts) :
    host.declaration ∈ projection.resolved.authored.hosts :=
  compiled.hosts.mem_iff.mp (List.mem_map_of_mem member)

theorem Compiled.wire_ids : (projection.resolved.wires.map (·.declaration.wireId)).Nodup := by
  have ids := ((compiled.wires.map (·.wireId)).nodup_iff).mpr compiled.valid.wireIds
  rwa [List.map_map] at ids

theorem Compiled.wire_inj {wire wire' : ResolvedWire} (left : wire ∈ projection.resolved.wires)
    (right : wire' ∈ projection.resolved.wires) (same : wire.declaration = wire'.declaration) : wire = wire' :=
  List.inj_on_of_nodup_map compiled.wire_ids left right (by rw [same])

theorem Compiled.host_names : (projection.hosts.map (·.declaration.name)).Nodup := by
  have once := ((compiled.hosts.map (·.name)).nodup_iff).mpr compiled.valid.hostNames
  rwa [List.map_map] at once

/-- Hosts are known by their names. -/
theorem Compiled.host_inj {host host' : HostProjection} (left : host ∈ projection.hosts) (right : host' ∈ projection.hosts)
    (same : host.declaration.name = host'.declaration.name) : host = host' :=
  List.inj_on_of_nodup_map compiled.host_names left right same

/-- A host is attached to a Link once. -/
theorem Compiled.links_once {host : HostProjection} (member : host ∈ projection.hosts) :
    (host.interfaces.map (·.declaration.link)).Nodup := by
  have wired := (compiled.valid.hosts _ (compiled.declaration_mem member)).wired
  have once := (((compiled.lowered host member).numbered.declared.map (·.link)).nodup_iff).mpr wired.once
  rwa [List.map_map] at once

theorem Compiled.selects (lawful : nx.Lawful) {wire : ResolvedWire} (among : wire ∈ projection.resolved.wires)
    {host : HostProjection} (member : host ∈ projection.hosts) : Selects wire host := by
  have lowered := compiled.lowered host member
  have valid := compiled.valid.hosts _ (compiled.declaration_mem member)
  refine ⟨lowered.numbered,?_,?_⟩
  · have names := ((lowered.numbered.declared.map (·.name)).nodup_iff).mpr valid.names
    rwa [List.map_map] at names
  · intro a attached mine
    obtain ⟨declaration,listed,hostIs,interface,has,nameIs,linkIs⟩ :=
      mem_declaredBy.mp (resolved_declared lawful compiled.resolves wire among a attached)
    obtain rfl := List.inj_on_of_nodup_map compiled.valid.hostNames listed (compiled.declaration_mem member) (hostIs.trans mine)
    obtain ⟨i,known,rfl⟩ := List.mem_map.mp (lowered.numbered.declared.mem_iff.mpr has)
    exact ⟨i,known,by rw [attachmentOf,nameIs,linkIs,hostIs]⟩

/-- What a Wire selects are interfaces of the hosts. -/
theorem Compiled.attached (lawful : nx.Lawful) {wire : ResolvedWire} (among : wire ∈ projection.resolved.wires) {a : Attachment}
    (attached : a ∈ wire.attachments) : ∃ host ∈ projection.hosts, ∃ i ∈ host.interfaces, a = attachmentOf host i := by
  obtain ⟨declaration,listed,hostIs,-⟩ := mem_declaredBy.mp (resolved_declared lawful compiled.resolves wire among a attached)
  obtain ⟨host,member,rfl⟩ := List.mem_map.mp (compiled.hosts.mem_iff.mpr listed)
  exact ⟨host,member,(compiled.selects lawful among member).declared a attached hostIs.symm⟩

/-- The route entries of a host on a Wire. -/
theorem Compiled.route_iff {wire : ResolvedWire} (among : wire ∈ projection.resolved.wires) {host : HostProjection}
    (member : host ∈ projection.hosts) {route : RouteProjection} (onWire : route.wire = wire.declaration) :
    route ∈ host.routes ↔
      route.egressMask = maskOn wire host ∧ (maskOn wire host ≠ 0 ∨ host.declaration.name ∈ wire.members) := by
  rw [mem_routes (compiled.lowered host member)]
  constructor
  · rintro ⟨wire',other,rfl,condition⟩
    obtain rfl := compiled.wire_inj (mem_sortedByNumber.mp other) among onWire
    exact ⟨rfl,condition⟩
  · rintro ⟨mask,condition⟩
    refine ⟨wire,mem_sortedByNumber.mpr among,?_,condition⟩
    rw [← onWire,← mask]

end compiled

/-- The bits and the masks of an accepted deployment. Projection never runs out of bits; an interface has its own bit
    below eight, the authored one or else the least that is neither authored on the host nor given to a smaller name; and a
    host's mask on a Wire is the union of the bits of the attachments the Wire selects there. -/
theorem egress_bits_and_masks_sound (nx : NetworkX) (lawful : nx.Lawful) (document : Document) (authored : AuthoredDeployment)
    (parsed : parseDeployment document = .ok authored) (resolved : ResolvedDeployment)
    (accepted : resolveDeployment nx authored = .ok resolved) :
    (∀ failure, projectDeployment resolved = .error failure →
      ∃ host ∈ authored.hosts, failure = .valueError ("Host " ++ host.name ++ " exceeds six membership Wires")) ∧
    ∀ projection, projectDeployment resolved = .ok projection →
      (projection.hosts.map (·.declaration)).Perm authored.hosts ∧ ∀ host ∈ projection.hosts,
        (host.interfaces.map (·.declaration)).Perm host.declaration.interfaces ∧
        (host.interfaces.map (·.egressBit)).Nodup ∧
        (∀ i ∈ host.interfaces, i.egressBit < 8 ∧ match i.declaration.egressBit with
          | some bit => i.egressBit = bit
          | none => IsLeast {bit | bit ∉ host.declaration.interfaces.filterMap (·.egressBit) ∧
              ∀ other ∈ host.interfaces, other.declaration.name < i.declaration.name → other.egressBit ≠ bit} i.egressBit) ∧
        ∀ wire ∈ resolved.wires,
          (∀ a ∈ wire.attachments, a.host = host.declaration.name → ∃ i ∈ selectedOn wire host, a = attachmentOf host i) ∧
          maskOn wire host = union (selectedOn wire host) ∧ maskOn wire host < 2 ^ 8 ∧
          ((∃ route ∈ host.routes, route.wire = wire.declaration) ↔
            maskOn wire host ≠ 0 ∨ host.declaration.name ∈ wire.members) ∧
          ∀ route ∈ host.routes, route.wire = wire.declaration → route.egressMask = maskOn wire host := by
  refine ⟨?_,?_⟩
  · intro failure failed
    obtain ⟨rfl,-⟩ := resolveDeployment_wires accepted
    obtain ⟨host,member,reason,-⟩ := projectDeployment_error (parse_valid parsed) failed
    exact ⟨host,member,reason⟩
  intro projection projects
  obtain ⟨compiled,rfl,rfl⟩ := projected_compiled parsed accepted projects
  refine ⟨compiled.hosts,fun host member => ?_⟩
  have numbered := (compiled.lowered host member).numbered
  refine ⟨numbered.declared,numbered.ascending.nodup,?_,?_⟩
  · intro i among
    refine ⟨numbered.inside i among,?_⟩
    split
    case h_1 bit given => exact numbered.given i among bit given
    case h_2 omitted =>
      refine ⟨⟨numbered.free i among omitted,?_⟩,?_⟩
      · intro other listed smaller same
        obtain rfl := List.inj_on_of_nodup_map numbered.ascending.nodup listed among same
        exact lt_irrefl _ smaller
      · rintro bit ⟨unreserved,unassigned⟩
        by_contra below
        rcases numbered.lowest i among omitted bit (Nat.not_le.mp below) with reserved | ⟨other,listed,smaller,same⟩
        · exact unreserved reserved
        · exact unassigned other listed smaller same
  · intro wire among
    have selects := compiled.selects lawful among member
    refine ⟨?_,selects.mask_eq_union,egressMask_lt numbered _,⟨?_,?_⟩,?_⟩
    · intro a attached mine
      obtain ⟨i,listed,rfl⟩ := selects.declared a attached mine
      exact ⟨i,List.mem_filter.mpr ⟨listed,decide_eq_true attached⟩,rfl⟩
    · rintro ⟨route,listed,onWire⟩
      exact ((compiled.route_iff among member onWire).mp listed).2
    · intro condition
      exact ⟨⟨wire.declaration,maskOn wire host⟩,(compiled.route_iff among member rfl).mpr ⟨rfl,condition⟩,rfl⟩
    · intro route listed onWire
      exact ((compiled.route_iff among member onWire).mp listed).1

/-- The hosts of a document with the bits of their interfaces. -/
def numbering (nx : NetworkX) (document : Document) : Checked (List (String × List (String × Nat))) := do
  let projection ← compileDeployment nx document
  return projection.hosts.map fun host => (host.declaration.name,host.interfaces.map fun i => (i.declaration.name,i.egressBit))

/-- A gateway's pinned port keeps its bit, and the bus beside it gets the lowest. -/
theorem gateway_numbering : numbering WiringSearch.layered gateway =
    .ok [("A",[("Bus",0),("Bypass",1)]),("B",[("Bus",0)]),("C",[("Bypass",0),("Serial",1)]),("G",[("Bus",0),("Port",3)])] := by
  decide +kernel

theorem gateway_projected : ∃ projection, compileDeployment WiringSearch.layered gateway = .ok projection ∧
    (projection.hosts.map fun host => (host.declaration.name,host.interfaces.map fun i => (i.declaration.name,i.egressBit))) =
      [("A",[("Bus",0),("Bypass",1)]),("B",[("Bus",0)]),("C",[("Bypass",0),("Serial",1)]),("G",[("Bus",0),("Port",3)])] := by
  have evaluated := gateway_numbering
  simp only [numbering,bind_eq_ok] at evaluated
  obtain ⟨projection,accepted,listed⟩ := evaluated
  exact ⟨projection,accepted,Except.ok.inj listed⟩

theorem gateway_masks_union : ∃ authored resolved projection, parseDeployment gateway = .ok authored ∧
    resolveDeployment WiringSearch.layered authored = .ok resolved ∧ projectDeployment resolved = .ok projection ∧
    projection.hosts.map (·.declaration.name) = ["A","B","C","G"] ∧
    ∀ host ∈ projection.hosts, ∀ wire ∈ resolved.wires, maskOn wire host = union (selectedOn wire host) := by
  obtain ⟨projection,compiles,listed⟩ := gateway_projected
  simp only [compileDeployment,bind_eq_ok] at compiles
  obtain ⟨authored,parsed,resolved,accepted,projects⟩ := compiles
  have names := congrArg (List.map Prod.fst) listed
  rw [List.map_map] at names
  refine ⟨authored,resolved,projection,parsed,accepted,projects,names,fun host member wire among => ?_⟩
  have sound := (egress_bits_and_masks_sound WiringSearch.layered WiringSearch.layered_lawful gateway authored parsed resolved
    accepted).2 projection projects
  exact ((sound.2 host member).2.2.2 wire among).2.1

end WireSpaces.WiringMasks
