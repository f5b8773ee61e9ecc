import WireSpaces.WiringTrees
import WireSpaces.WiringReordered
import WireSpaces.WiringCodegen
import WireSpaces.WiringInspection

/-!
Compilation does not depend on authoring order. Each stage agrees on deployments
that are alike, also where NetworkX visits nodes and edges in another order, which
two lawful instances of it stand for.
-/
namespace WireSpaces.WiringOrder
open WireSpaces.WiringModels WireSpaces.WiringTopology WireSpaces.WiringSchema WireSpaces.WiringInference
open WireSpaces.WiringTrees WireSpaces.WiringReordered WireSpaces.WiringProjection WireSpaces.WiringCodegen
open WireSpaces.WiringInspection WireSpaces.Agreement

/-! ### Lists and lookups -/

theorem agree_require {p q : Prop} [Decidable p] [Decidable q] {message message' : String} (same : p ↔ q) :
    Agree (fun _ _ => True) (require p message) (require q message') := by
  unfold require
  by_cases holds : p
  · rw [if_pos holds,if_pos (same.mp holds)]
    exact .ok trivial
  · rw [if_neg holds,if_neg (fun other => holds (same.mpr other))]
    exact .error _ _

theorem agree_found {α β : Type} {R : α → β → Prop} {x : Option α} {y : Option β} (related : Option.Rel R x y) :
    Agree R (found x) (found y) := by
  cases related with
  | none => exact .error _ _
  | some related => exact .ok related

/-! ### The physical graph -/

theorem interfacesOf_alike {a b : HostDeclaration} (alike : HostAlike a b) : interfacesOf a = interfacesOf b := by
  rw [interfacesOf,interfacesOf,alike.name,
    sortedBy_eq_of_perm (fun i left j right => List.inj_on_of_nodup_map alike.names left right) alike.interfaces]

theorem sortedHosts_alike {hosts hosts' : List HostDeclaration} (alike : List.Forall₂ HostAlike hosts hosts') :
    List.Forall₂ HostAlike (sortedBy (·.name) hosts) (sortedBy (·.name) hosts') :=
  sortedBy_forall₂ (fun _ _ same => same.name) alike

theorem declaredBy_alike {hosts hosts' : List HostDeclaration} (alike : List.Forall₂ HostAlike hosts hosts') :
    declaredBy hosts = declaredBy hosts' := by
  rw [declaredBy,declaredBy,List.flatMap_def,List.flatMap_def,
    forall₂_map_eq (sortedHosts_alike alike) fun _ _ => interfacesOf_alike]

theorem init_alike {nx nx' : NetworkX} (lawful : nx.Lawful) (lawful' : nx'.Lawful) {hosts hosts' : List HostDeclaration}
    (alike : List.Forall₂ HostAlike hosts hosts') : PhysicalGraph.init nx hosts = PhysicalGraph.init nx' hosts' := by
  have declared := declaredBy_alike alike
  have names : (sortedBy (·.name) hosts).map (·.name) = (sortedBy (·.name) hosts').map (·.name) :=
    forall₂_map_eq (sortedHosts_alike alike) fun _ _ same => same.name
  have graph : (PhysicalGraph.init nx hosts).graph = (PhysicalGraph.init nx' hosts').graph := by
    simp only [PhysicalGraph.init,declared,names]
  have here : (PhysicalGraph.init nx hosts).declared = (PhysicalGraph.init nx' hosts').declared := declared
  have bridges : (PhysicalGraph.init nx hosts).bridges = (PhysicalGraph.init nx' hosts').bridges := by
    ext a
    rw [(init_physical nx lawful hosts).bridges,(init_physical nx' lawful' hosts').bridges,here,graph]
  generalize PhysicalGraph.init nx hosts = left at graph here bridges
  generalize PhysicalGraph.init nx' hosts' = right at graph here bridges
  cases left
  cases right
  cases graph
  cases here
  cases bridges
  rfl

/-! ### Selections -/

theorem lookUp_nodup {g : PhysicalGraph} {label : String} {refs : List String} {selected : List Attachment}
    (returned : lookUp g label refs = .ok selected) : selected.Nodup := by
  induction refs generalizing selected with
  | nil =>
    cases returned
    exact List.nodup_nil
  | cons ref rest ih =>
    simp only [lookUp,bind_eq_ok,require_eq_ok,found_eq_ok,exists_const,pure,Except.pure,Except.ok.injEq] at returned
    obtain ⟨-,b,-,others,later,rfl⟩ := returned
    exact (ih later).insert

theorem lookUp_agree {g : PhysicalGraph} {label label' : String} {refs refs' : List String} (perm : refs.Perm refs') :
    Agree (fun x y => x.Perm y ∧ ∀ a ∈ x, a ∈ g.declared) (lookUp g label refs) (lookUp g label' refs') := by
  refine agree_of_iff ?_ ?_
  · simp only [lookUp_eq_ok,perm.mem_iff]
  · intro selected selected' left right
    refine ⟨?_,lookUp_declared left⟩
    rw [List.perm_ext_iff_of_nodup (lookUp_nodup left) (lookUp_nodup right)]
    intro a
    simp only [mem_lookUp left,mem_lookUp right,perm.mem_iff]

theorem build_perm {hosts : List String} {attachments attachments' : List Attachment} (perm : attachments.Perm attachments') :
    Graph.build hosts attachments = Graph.build hosts attachments' := by
  have nodes : (Graph.build hosts attachments).nodes = (Graph.build hosts attachments').nodes := by
    ext x
    simp only [Graph.build,List.mem_toFinset,List.mem_append,List.mem_map,perm.mem_iff]
  have edges : (Graph.build hosts attachments).edges = (Graph.build hosts attachments').edges := by
    ext x
    simp only [Graph.build,List.mem_toFinset,List.mem_map,perm.mem_iff]
  generalize Graph.build hosts attachments = left at nodes edges
  generalize Graph.build hosts attachments' = right at nodes edges
  cases left
  cases right
  cases nodes
  cases edges
  rfl

section networkx
variable {nx nx' : NetworkX} (lawful : nx.Lawful) (lawful' : nx'.Lawful)
include lawful lawful'

theorem isConnected_eq (graph : Graph) : nx.isConnected graph = nx'.isConnected graph := by
  rw [Bool.eq_iff_iff,lawful.isConnected,lawful'.isConnected]

theorem isTree_eq (graph : Graph) : nx.isTree graph = nx'.isTree graph := by
  rw [Bool.eq_iff_iff,lawful.isTree,lawful'.isTree]

/-- What a Path or a Realization resolves to, up to the order of its sets. -/
structure ChoiceAlike (g : PhysicalGraph) (x y : List Attachment × List String) : Prop where
  selected : x.1.Perm y.1
  visited : x.2.Perm y.2
  declared : ∀ a ∈ x.1, a ∈ g.declared

theorem realization_agree {g : PhysicalGraph} {a b : RealizationDeclaration} (alike : RealizationAlike a b) :
    Agree (ChoiceAlike g) (realization nx g a) (realization nx' g b) := by
  unfold realization
  refine (lookUp_agree alike.attachments).bind fun selected selected' ⟨perm,declared⟩ => ?_
  have links : sorted (selected.map (·.link)).dedup = sorted (selected'.map (·.link)).dedup :=
    sorted_eq_of_perm (perm.map _).dedup
  have graph : Graph.build [] selected = Graph.build [] selected' := build_perm perm
  simp only [graph,links,alike.name,isConnected_eq lawful lawful',isTree_eq lawful lawful']
  refine (agree_of_eq rfl).bind fun _ _ _ => (agree_of_eq rfl).bind fun _ _ _ => (agree_of_eq rfl).bind fun _ _ _ => ?_
  exact .ok ⟨perm,(perm.map _).dedup,declared⟩

theorem legacy_eq {g : PhysicalGraph} {a b : WireDeclaration} (alike : WireAlike a b) (members : List String) :
    legacy nx g a members = legacy nx' g b members := by
  have perm : (a.links.getD []).dedup.Perm (b.links.getD []).dedup := (listed_getD alike.links).dedup
  have selected : attachmentsOn g (a.links.getD []).dedup = attachmentsOn g (b.links.getD []).dedup := by
    simp only [attachmentsOn,perm.mem_iff]
  simp only [legacy,selected,sorted_eq_of_perm perm,alike.name]
  generalize attachmentsOn g (b.links.getD []).dedup = chosen
  congr 1
  funext _
  split
  · rfl
  next least others leastIs =>
    have root : .host least ∈ (Graph.build members chosen).nodes := by
      have among : least ∈ members ++ chosen.map (·.host) := mem_sortedBy.mp (leastIs ▸ List.mem_cons_self)
      simp only [Graph.build,List.mem_toFinset,List.mem_append,List.mem_map] at among ⊢
      aesop
    have component : nx.nodeConnectedComponent (Graph.build members chosen) (.host least) =
        nx'.nodeConnectedComponent (Graph.build members chosen) (.host least) := by
      ext x
      rw [lawful.component _ _ _ root,lawful'.component _ _ _ root]
    rw [component,isTree_eq lawful lawful',isConnected_eq lawful lawful']

theorem legacy_agree {g : PhysicalGraph} {a b : WireDeclaration} (alike : WireAlike a b) (members : List String) :
    Agree (fun x y => x.Perm y ∧ ∀ c ∈ x, c ∈ g.declared) (legacy nx g a members) (legacy nx' g b members) := by
  have same := legacy_eq lawful lawful' (g := g) alike members
  refine agree_of_iff (by rw [same]) ?_
  intro x y left right
  obtain rfl : x = y := Except.ok.inj (left.symm.trans (same.trans right))
  exact ⟨.refl _,legacy_declared left⟩

end networkx

/-! ### Inference under any search -/

section climb
variable {nx : NetworkX} {g : PhysicalGraph} {wire : WireDeclaration} {first member : String} {parents : Node → Option Node}

theorem climb_nodup {fuel : Nat} {node : Node} {selected result : List Attachment} (nodup : selected.Nodup)
    (returned : climb nx g wire first member parents fuel node selected = .ok result) : result.Nodup := by
  induction fuel generalizing node selected with
  | zero => cases returned
  | succ fuel ih =>
    rw [climb,bind_eq_ok] at returned
    obtain ⟨parent,-,returned⟩ := returned
    cases parent with
    | none =>
      obtain rfl := Except.ok.inj returned
      exact nodup
    | some parent =>
      obtain ⟨used,-,returned⟩ := bind_eq_ok.mp returned
      split_ifs at returned with bridge
      · exact ih nodup.insert returned
      · obtain ⟨alternative,-,failed⟩ := bind_eq_ok.mp returned
        cases failed

theorem inferEach_nodup {rest : List String} {selected result : List Attachment} (nodup : selected.Nodup)
    (returned : inferEach nx g wire first parents rest selected = .ok result) : result.Nodup := by
  induction rest generalizing selected with
  | nil =>
    obtain rfl := Except.ok.inj returned
    exact nodup
  | cons member rest ih =>
    simp only [inferEach,bind_eq_ok] at returned
    obtain ⟨-,-,climbed,here,later⟩ := returned
    exact ih (climb_nodup nodup here) later

end climb

/-- Two searches infer the same attachments. -/
theorem infer_agree {nx nx' : NetworkX} (lawful : nx.Lawful) (lawful' : nx'.Lawful) {g : PhysicalGraph} (physical : Physical g)
    (a b : WireDeclaration) (members : List String) :
    Agree (fun x y => x.Perm y ∧ ∀ c ∈ x, c ∈ g.declared) (infer nx g a members) (infer nx' g b members) := by
  match members with
  | [] => exact .error _ _
  | [m] => exact .ok ⟨.refl _,by simp⟩
  | first :: second :: others =>
    rw [infer,infer]
    · split_ifs with inside
      · by_cases only : ∀ m ∈ second :: others, ∃! p : g.graph.simple.Walk (.host first) (.host m), p.IsPath
        · obtain ⟨x,left,members⟩ := inferEach_ok physical lawful inside only []
          obtain ⟨y,right,members'⟩ := inferEach_ok physical lawful' inside only []
          rw [left,right]
          refine .ok ⟨?_,?_⟩
          · rw [List.perm_ext_iff_of_nodup (inferEach_nodup .nil left) (inferEach_nodup .nil right)]
            intro c
            rw [members,members']
          · intro c member
            exact (edgeAttachment_eq_some ((members c).mp member |>.resolve_left (by simp)).1).1
        · push Not at only
          obtain ⟨m,among,several⟩ := only
          obtain ⟨message,left⟩ := inferEach_error physical lawful inside among several []
          obtain ⟨message',right⟩ := inferEach_error physical lawful' inside among several []
          rw [left,right]
          exact .error _ _
      · exact .error _ _
    · simp
    · simp

/-! ### Resolution -/

theorem group_found {a b : AuthoredDeployment} (alike : Alike a b) (name : String) :
    Option.Rel GroupAlike (a.groups.find? (·.name = name)) (b.groups.find? (·.name = name)) :=
  find?_forall₂ (fun x y same => by rw [same.name]) alike.groups

theorem expand_agree {a b : AuthoredDeployment} (alike : Alike a b) {w v : WireDeclaration} (same : WireAlike w v) :
    Agree List.Perm (expand a w) (expand b v) := by
  unfold expand
  have groups := rearranged_of_perm (listed_getD same.groups)
  have each (x y : String) (equal : x = y) : Agree GroupAlike (found (a.groups.find? (·.name = x))) (found (b.groups.find? (·.name = y))) := by
    subst equal
    exact agree_found (group_found alike x)
  refine (agree_mapM_rearranged groups each).bind ?_
  rintro found found' ⟨between,perm,related⟩
  refine .ok (((listed_getD same.hosts).append ?_).dedup)
  refine (perm.flatMap_right _).trans ?_
  clear perm
  induction related with
  | nil => exact .refl _
  | cons here _ ih =>
    rw [List.flatMap_cons,List.flatMap_cons]
    exact here.hosts.append ih

section resolution
variable {nx nx' : NetworkX} (lawful : nx.Lawful) (lawful' : nx'.Lawful)

/-- A named choice. -/
structure EntryAlike (g : PhysicalGraph) (x y : String × List Attachment × List String) : Prop where
  name : x.1 = y.1
  choice : ChoiceAlike g x.2 y.2

theorem named_agree {g : PhysicalGraph} {label label' name : String} {resolved resolved' : List (String × List Attachment × List String)}
    (alike : List.Forall₂ (EntryAlike g) resolved resolved') {expanded expanded' : List String} (perm : expanded.Perm expanded') :
    Agree (fun x y => x.Perm y ∧ ∀ a ∈ x, a ∈ g.declared) (named label name resolved expanded)
      (named label' name resolved' expanded') := by
  unfold named
  refine (agree_found (find?_forall₂ (fun x y same => by rw [same.name]) alike)).bind fun x y same => ?_
  refine (agree_require ?_).bind fun _ _ _ => .ok ⟨same.choice.selected,same.choice.declared⟩
  simp only [perm.mem_iff,same.choice.visited.mem_iff]

include lawful lawful'

theorem selectionOf_agree {hosts hosts' : List HostDeclaration} (hostsAlike : List.Forall₂ HostAlike hosts hosts')
    {chains realizations realizations' : List (String × List Attachment × List String)}
    (chained : ∀ entry ∈ chains, ∀ a ∈ entry.2.1, a ∈ (PhysicalGraph.init nx hosts).declared)
    (realized : List.Forall₂ (EntryAlike (PhysicalGraph.init nx hosts)) realizations realizations') {w v : WireDeclaration}
    (same : WireAlike w v) {expanded expanded' : List String} (perm : expanded.Perm expanded') :
    Agree (fun x y => (x.1.Perm y.1 ∧ ∀ a ∈ x.1, a ∈ declaredBy hosts) ∧ x.2 = y.2)
      (selectionOf nx (PhysicalGraph.init nx hosts) chains realizations w expanded)
      (selectionOf nx' (PhysicalGraph.init nx' hosts') chains realizations' v expanded') := by
  rw [← init_alike lawful lawful' hostsAlike]
  have physical := init_physical nx lawful hosts
  have sortedMembers := sorted_eq_of_perm perm
  have entries : List.Forall₂ (EntryAlike (PhysicalGraph.init nx hosts)) chains chains := by
    rw [List.forall₂_same]
    intro entry member
    exact ⟨rfl,.refl _,.refl _,chained entry member⟩
  unfold selectionOf
  rw [same.path,same.realization,sortedMembers]
  cases v.path with
  | some path => exact (named_agree entries perm).bind fun x y related => .ok ⟨related,rfl⟩
  | none =>
    cases v.realization with
    | some value => exact (named_agree realized perm).bind fun x y related => .ok ⟨related,rfl⟩
    | none =>
      have given := listed_isSome same.links
      cases left : w.links with
      | some links =>
        cases right : v.links with
        | none => simp [left,right] at given
        | some links' => exact (legacy_agree lawful lawful' same _).bind fun x y related => .ok ⟨related,rfl⟩
      | none =>
        cases right : v.links with
        | some links' => simp [left,right] at given
        | none => exact (infer_agree lawful lawful' physical w v _).bind fun x y related => .ok ⟨related,rfl⟩

/-- Resolved Wires that differ only in the lists of their declarations. -/
structure ResolvedAlike (x y : ResolvedWire) : Prop where
  declaration : WireAlike x.declaration y.declaration
  members : x.members = y.members
  transitHosts : x.transitHosts = y.transitHosts
  attachments : x.attachments = y.attachments
  selection : x.selection = y.selection

structure DeploymentAlike (x y : ResolvedDeployment) : Prop where
  authored : Alike x.authored y.authored
  wires : List.Forall₂ ResolvedAlike x.wires y.wires

theorem resolveWire_agree {a b : AuthoredDeployment} (valid : Valid a) (alike : Alike a b)
    {chains realizations realizations' : List (String × List Attachment × List String)}
    (chained : ∀ entry ∈ chains, ∀ a' ∈ entry.2.1, a' ∈ (PhysicalGraph.init nx a.hosts).declared)
    (realized : List.Forall₂ (EntryAlike (PhysicalGraph.init nx a.hosts)) realizations realizations') {w v : WireDeclaration}
    (same : WireAlike w v) :
    Agree ResolvedAlike (resolveWire nx a (PhysicalGraph.init nx a.hosts) chains realizations w)
      (resolveWire nx' b (PhysicalGraph.init nx' b.hosts) chains realizations' v) := by
  unfold resolveWire
  refine (expand_agree alike same).bind fun expanded expanded' perm => ?_
  refine (agree_require ?_).bind fun _ _ _ => ?_
  · rw [not_iff_not,← List.length_eq_zero_iff,perm.length_eq,List.length_eq_zero_iff]
  refine (selectionOf_agree lawful lawful' alike.hosts chained realized same perm).bind ?_
  rintro ⟨selected,mode⟩ ⟨selected',mode'⟩ ⟨⟨chosen,declared⟩,modes⟩
  refine .ok ⟨same,sorted_eq_of_perm perm,?_,?_,modes⟩
  · refine sorted_eq_of_perm ?_
    simp only [perm.mem_iff]
    exact (chosen.map _).dedup.filter _
  · -- References tell declared attachments apart.
    refine sortedBy_eq_of_perm ?_ chosen
    intro x left y right equal
    have standing : interface? (PhysicalGraph.init nx a.hosts) x.reference = some x :=
      interface?_declared valid (declared x left)
    rw [equal,interface?_declared valid (declared y right)] at standing
    exact (Option.some.inj standing).symm

theorem resolveDeployment_agree {a b : AuthoredDeployment} (valid : Valid a) (alike : Alike a b) :
    Agree DeploymentAlike (resolveDeployment nx a) (resolveDeployment nx' b) := by
  have graph := init_alike lawful lawful' alike.hosts
  unfold resolveDeployment
  refine Agree.bind (R := fun x y => x = y ∧ ∀ entry ∈ x, ∀ c ∈ entry.2.1, c ∈ (PhysicalGraph.init nx a.hosts).declared)
    ?_ fun chains chains' related => ?_
  · rw [← alike.paths,← graph]
    refine agree_of_iff Iff.rfl ?_
    intro x y left right
    obtain rfl : x = y := Except.ok.inj (left.symm.trans right)
    refine ⟨rfl,?_⟩
    intro entry member
    obtain ⟨path,-,made⟩ := of_mem_mapM left member
    obtain ⟨value,returned,done⟩ := bind_eq_ok.mp made
    obtain rfl := Except.ok.inj done
    simp only [chain,bind_eq_ok] at returned
    obtain ⟨-,-,selected,looked,hops,-,finished⟩ := returned
    obtain rfl := Except.ok.inj finished
    exact lookUp_declared looked
  obtain ⟨rfl,chained⟩ := related
  refine Agree.bind (agree_mapM (S := EntryAlike (PhysicalGraph.init nx a.hosts)) alike.realizations ?_) fun x y realized => ?_
  · intro x y same
    rw [← graph]
    refine (realization_agree lawful lawful' same).bind fun s t choice => .ok ⟨same.name,choice⟩
  refine (agree_mapM alike.wires fun w v same => resolveWire_agree lawful lawful' valid alike chained realized same).bind ?_
  intro wires wires' resolved
  exact .ok ⟨alike,sortedBy_forall₂ (fun _ _ same => same.declaration.name) resolved⟩

end resolution

/-! ### Projection -/

theorem sortedByNumber_forall₂ {α : Type} {key : α → Nat} {R : α → α → Prop} (same : ∀ a b, R a b → key a = key b)
    {xs ys : List α} (related : List.Forall₂ R xs ys) : List.Forall₂ R (sortedByNumber key xs) (sortedByNumber key ys) :=
  insertionSort_forall₂ (fun a a' b b' left right => by rw [same a b left,same a' b' right]) related

theorem projectInterfaces_eq {links : List LinkDeclaration} {bits bits' : List Nat} (same : ∀ bit, bit ∈ bits ↔ bit ∈ bits')
    (interfaces : List InterfaceDeclaration) : projectInterfaces links bits interfaces = projectInterfaces links bits' interfaces := by
  induction interfaces generalizing bits bits' with
  | nil => rfl
  | cons interface rest ih =>
    rw [projectInterfaces,projectInterfaces]
    cases interface.egressBit with
    | some bit => simp only [bind,Except.bind,ih same]
    | none =>
      have free : (List.range 8).find? (fun bit => decide (bit ∉ bits)) = (List.range 8).find? (fun bit => decide (bit ∉ bits')) := by
        simp only [same]
      rw [free]
      cases (List.range 8).find? (fun bit => decide (bit ∉ bits')) with
      | none => rfl
      | some bit =>
        have longer : ∀ other, other ∈ bit :: bits ↔ other ∈ bit :: bits' := by simp [same]
        simp only [bind,Except.bind,ih longer]

structure RouteAlike (x y : RouteProjection) : Prop where
  wire : WireAlike x.wire y.wire
  egressMask : x.egressMask = y.egressMask

structure HostProjectionAlike (x y : HostProjection) : Prop where
  declaration : HostAlike x.declaration y.declaration
  interfaces : x.interfaces = y.interfaces
  memberships : List.Forall₂ WireAlike x.memberships y.memberships
  routes : List.Forall₂ RouteAlike x.routes y.routes

/-- Projections that differ only in lists no output shows in order. -/
structure TargetAlike (x y : TargetProjection) : Prop where
  resolved : DeploymentAlike x.resolved y.resolved
  hosts : List.Forall₂ HostProjectionAlike x.hosts y.hosts

theorem routeOf_alike {name : String} {interfaces : List InterfaceProjection} {x y : ResolvedWire} (alike : ResolvedAlike x y) :
    Option.Rel RouteAlike (routeOf name interfaces x) (routeOf name interfaces y) := by
  simp only [routeOf,alike.attachments,alike.members]
  split_ifs
  · exact .some ⟨alike.declaration,rfl⟩
  · exact .none

theorem projectHost_agree {links : List LinkDeclaration} {wires wires' : List ResolvedWire}
    (resolved : List.Forall₂ ResolvedAlike wires wires') {a b : HostDeclaration} (alike : HostAlike a b) :
    Agree HostProjectionAlike (projectHost links wires a) (projectHost links wires' b) := by
  have ordered : sortedBy (·.name) a.interfaces = sortedBy (·.name) b.interfaces :=
    sortedBy_eq_of_perm (fun i left j right => List.inj_on_of_nodup_map alike.names left right) alike.interfaces
  have memberships : List.Forall₂ WireAlike ((wires.filter fun wire => a.name ∈ wire.members).map (·.declaration))
      ((wires'.filter fun wire => b.name ∈ wire.members).map (·.declaration)) := by
    rw [List.forall₂_map_left_iff,List.forall₂_map_right_iff,alike.name]
    exact (filter_forall₂ (fun x y same => by rw [same.members]) resolved).imp fun _ _ same => same.declaration
  have assigned : projectInterfaces links (a.interfaces.filterMap (·.egressBit)) (sortedBy (·.name) b.interfaces) =
      projectInterfaces links (b.interfaces.filterMap (·.egressBit)) (sortedBy (·.name) b.interfaces) :=
    projectInterfaces_eq (fun bit => (alike.interfaces.filterMap _).mem_iff) _
  simp only [projectHost,ordered,assigned]
  refine (agree_of_eq rfl).bind fun interfaces _ same => ?_
  subst same
  refine (agree_require (by rw [memberships.length_eq])).bind fun _ _ _ => .ok ⟨alike,rfl,memberships,?_⟩
  rw [alike.name]
  exact List.rel_filterMap (fun _ _ same => routeOf_alike same) resolved

theorem projectDeployment_agree {x y : ResolvedDeployment} (alike : DeploymentAlike x y) :
    Agree TargetAlike (projectDeployment x) (projectDeployment y) := by
  have wires : List.Forall₂ ResolvedAlike (sortedByNumber (·.declaration.wireId) x.wires)
      (sortedByNumber (·.declaration.wireId) y.wires) :=
    sortedByNumber_forall₂ (fun _ _ same => same.declaration.wireId) alike.wires
  unfold projectDeployment
  rw [alike.authored.links]
  refine (agree_mapM alike.authored.hosts fun a b same => projectHost_agree wires same).bind fun hosts hosts' projected => ?_
  exact .ok ⟨alike,sortedBy_forall₂ (fun _ _ same => same.declaration.name) projected⟩

/-- Reordered documents compile together, to projections that are alike. -/
theorem compileDeployment_agree {nx nx' : NetworkX} (lawful : nx.Lawful) (lawful' : nx'.Lawful) {a b : Document}
    (reordered : Reordered a b) : Agree TargetAlike (compileDeployment nx a) (compileDeployment nx' b) := by
  unfold compileDeployment
  refine (parseDeployment_agree reordered).bind fun x y ⟨valid,alike⟩ => ?_
  exact (resolveDeployment_agree lawful lawful' valid alike).bind fun _ _ resolved => projectDeployment_agree resolved

/-! ### Output -/

theorem routeLine_alike {interfaces : List InterfaceProjection} {x y : RouteProjection} (alike : RouteAlike x y) :
    routeLine interfaces x = routeLine interfaces y := by
  simp only [routeLine,alike.wire.name,alike.egressMask]

theorem hostInfo_alike {name : String} {memberships memberships' : List WireDeclaration}
    (alike : List.Forall₂ WireAlike memberships memberships') : hostInfo name memberships = hostInfo name memberships' := by
  have names : memberships.map (fun wire => "k" ++ wire.name) = memberships'.map (fun wire => "k" ++ wire.name) :=
    forall₂_map_eq alike fun _ _ same => by rw [same.name]
  simp only [hostInfo,names,alike.length_eq]

theorem emitHeader_alike {x y : TargetProjection} (alike : TargetAlike x y) (nspace localHost : String) :
    emitHeader x nspace localHost = emitHeader y nspace localHost := by
  have authored := alike.resolved.authored
  have names : x.resolved.authored.hosts.map (·.name) = y.resolved.authored.hosts.map (·.name) :=
    forall₂_map_eq authored.hosts fun _ _ same => same.name
  have hosts : (sortedBy (·.name) x.resolved.authored.hosts).map hostConstant =
      (sortedBy (·.name) y.resolved.authored.hosts).map hostConstant :=
    forall₂_map_eq (sortedHosts_alike authored.hosts) fun _ _ same => by rw [hostConstant,hostConstant,same.name,same.hostId]
  have wires : (sortedByNumber (·.wireId) x.resolved.authored.wires).map wireConstant =
      (sortedByNumber (·.wireId) y.resolved.authored.wires).map wireConstant := by
    refine forall₂_map_eq (R := WireAlike) ?_ fun _ _ same => by rw [wireConstant,wireConstant,same.name,same.wireId]
    exact sortedByNumber_forall₂ (fun _ _ same => same.wireId) authored.wires
  have found : Option.Rel HostProjectionAlike (x.hosts.find? (·.declaration.name = localHost))
      (y.hosts.find? (·.declaration.name = localHost)) :=
    find?_forall₂ (fun _ _ same => by rw [same.declaration.name]) alike.hosts
  simp only [emitHeader,names,hosts,wires]
  generalize x.hosts.find? (·.declaration.name = localHost) = left at found
  generalize y.hosts.find? (·.declaration.name = localHost) = right at found
  cases found with
  | none => rfl
  | @some host host' same =>
    have routes : host.routes.map (routeLine host'.interfaces) = host'.routes.map (routeLine host'.interfaces) :=
      forall₂_map_eq same.routes fun _ _ => routeLine_alike
    have info : hostInfo localHost host.memberships = hostInfo localHost host'.memberships := hostInfo_alike same.memberships
    simp only [found,bind,Except.bind,routes,same.interfaces,info]

/-! ### Inspection -/

theorem sortKeysIn_eq (fields : List (String × Json)) : sortKeysIn fields = fields.map fun field => (field.1,field.2.sortKeys) := by
  induction fields with
  | nil => rfl
  | cons field rest ih => rw [sortKeysIn,ih,List.map_cons]

/-- One field in two objects. -/
def FieldAlike (x y : String × Json) : Prop := x.1 = y.1 ∧ x.2.sortKeys = y.2.sortKeys

theorem sortKeys_object {x y : List (String × Json)} (alike : List.Forall₂ FieldAlike x y) :
    (Json.object x).sortKeys = (Json.object y).sortKeys := by
  have fields : sortKeysIn x = sortKeysIn y := by
    rw [sortKeysIn_eq,sortKeysIn_eq]
    exact forall₂_map_eq alike fun a b same => Prod.ext same.1 same.2
  rw [Json.sortKeys,Json.sortKeys,fields]

/-- Fields in another order, whose keys stand once. -/
theorem sortKeys_object_perm {x y : List (String × Json)} (once : (x.map (·.1)).Nodup) (perm : x.Perm y) :
    (Json.object x).sortKeys = (Json.object y).sortKeys := by
  rw [Json.sortKeys,Json.sortKeys,sortKeysIn_eq,sortKeysIn_eq]
  congr 1
  refine sortedBy_eq_of_perm ?_ (perm.map _)
  intro a left b right same
  obtain ⟨field,member,rfl⟩ := List.mem_map.mp left
  obtain ⟨field',member',rfl⟩ := List.mem_map.mp right
  rw [List.inj_on_of_nodup_map once member member' same]

theorem fieldAlike_refl (x : String × Json) : FieldAlike x x := ⟨rfl,rfl⟩

theorem hostInspection_alike {links : List LinkDeclaration} {x y : HostProjection} (alike : HostProjectionAlike x y) :
    hostInspection links x = hostInspection links y := by
  have memberships : x.memberships.map (·.name) = y.memberships.map (·.name) :=
    forall₂_map_eq alike.memberships fun _ _ same => same.name
  simp only [hostInspection,alike.declaration.name,alike.declaration.hostId,alike.interfaces,memberships]

theorem sourceList_alike {key : String} {x y : Option (List String)} (listed : Listed x y) : sourceList key x = sourceList key y := by
  cases listed with
  | none => rfl
  | some perm => rw [sourceList,sourceList,sorted_eq_of_perm perm]

theorem wireSource_alike {x y : WireDeclaration} (alike : WireAlike x y) : wireSource x = wireSource y := by
  simp only [wireSource,alike.name,alike.wireId,sourceList_alike alike.hosts,sourceList_alike alike.groups,
    sourceList_alike alike.links,alike.path,alike.realization]

theorem groupSources_agree {a b : AuthoredDeployment} (alike : Alike a b) {x y : WireDeclaration} (same : WireAlike x y) :
    Agree (fun u v => (Json.object u).sortKeys = (Json.object v).sortKeys) (groupSources a x) (groupSources b y) := by
  have groups := rearranged_of_perm (listed_getD same.groups).dedup
  have each (left right : String) (equal : left = right) : Agree (· = ·)
      (do let group ← found (a.groups.find? (·.name = left)); return (left,strings (sorted group.hosts)))
      (do let group ← found (b.groups.find? (·.name = right)); return (right,strings (sorted group.hosts))) := by
    subst equal
    refine (agree_found (group_found alike left)).bind fun _ _ group => .ok ?_
    rw [sorted_eq_of_perm group.hosts]
  refine (agree_mapM_rearranged groups each).returned.mono ?_
  rintro u v ⟨⟨between,perm,equal⟩,left,-⟩
  rw [List.forall₂_eq_eq_eq] at equal
  subst equal
  refine sortKeys_object_perm ?_ perm
  -- The keys are the group names, each once.
  have keys : (x.groups.getD []).dedup = u.map (·.1) := by
    refine (List.map_id _).symm.trans (forall₂_map_eq (mapM_eq_ok.mp left) ?_)
    intro name field made
    obtain ⟨group,-,done⟩ := bind_eq_ok.mp made
    obtain rfl := Except.ok.inj done
    rfl
  rw [← keys]
  exact List.nodup_dedup _

theorem realizationSource_eq {a b : AuthoredDeployment} (alike : Alike a b) (name : Option String) :
    realizationSource a name = realizationSource b name := by
  cases name with
  | none => rfl
  | some name =>
    have found : Option.Rel RealizationAlike (a.realizations.find? (·.name = name)) (b.realizations.find? (·.name = name)) :=
      find?_forall₂ (fun _ _ same => by rw [same.name]) alike.realizations
    rw [realizationSource,realizationSource]
    generalize a.realizations.find? (·.name = name) = left at found
    generalize b.realizations.find? (·.name = name) = right at found
    cases found with
    | none => rfl
    | some same => simp only [WiringModels.found,bind,Except.bind,sorted_eq_of_perm same.attachments]

theorem routeMasks_alike {hosts hosts' : List HostProjection} (alike : List.Forall₂ HostProjectionAlike hosts hosts') (name : String) :
    routeMasks hosts name = routeMasks hosts' name := by
  rw [routeMasks,routeMasks,List.flatMap_def,List.flatMap_def]
  congr 1
  refine forall₂_map_eq alike fun x y same => ?_
  rw [same.declaration.name]
  refine forall₂_map_eq (R := RouteAlike) (filter_forall₂ (fun _ _ route => by rw [route.wire.name]) same.routes) ?_
  intro r t route
  rw [route.egressMask]

theorem wireInspection_agree {x y : TargetProjection} (alike : TargetAlike x y) {w v : ResolvedWire} (same : ResolvedAlike w v) :
    Agree FieldAlike (wireInspection x w) (wireInspection y v) := by
  have authored := alike.resolved.authored
  have paths : pathSource x.resolved.authored w.declaration.path = pathSource y.resolved.authored v.declaration.path := by
    rw [same.declaration.path]
    cases v.declaration.path with
    | none => rfl
    | some name => rw [pathSource,pathSource,authored.paths]
  have realizations : realizationSource x.resolved.authored w.declaration.realization =
      realizationSource y.resolved.authored v.declaration.realization := by
    rw [same.declaration.realization]
    exact realizationSource_eq authored _
  simp only [wireInspection,paths,realizations,wireSource_alike same.declaration,same.declaration.name,same.declaration.wireId,
    same.members,same.transitHosts,same.attachments,same.selection,routeMasks_alike alike.hosts]
  refine (groupSources_agree authored same.declaration).bind fun groups groups' equal => ?_
  refine (agree_of_eq rfl).bind fun path _ samePath => (agree_of_eq rfl).bind fun value _ sameValue => ?_
  subst samePath sameValue
  have source : FieldAlike ("groups",.object groups) ("groups",.object groups') := ⟨rfl,equal⟩
  have rest (fields : List (String × Json)) : List.Forall₂ FieldAlike fields fields :=
    List.forall₂_same.mpr fun field _ => fieldAlike_refl field
  refine .ok ⟨rfl,sortKeys_object ?_⟩
  refine .cons (fieldAlike_refl _) (.cons (fieldAlike_refl _) (.cons (fieldAlike_refl _) (.cons (fieldAlike_refl _)
    (.cons (fieldAlike_refl _) (.cons (fieldAlike_refl _) (.cons ⟨rfl,sortKeys_object ?_⟩ .nil))))))
  exact .cons (fieldAlike_refl _) (.cons source (rest _))

theorem explainDeployment_agree {x y : TargetProjection} (alike : TargetAlike x y) (localHost : String) :
    Agree (fun u v => u.sortKeys = v.sortKeys) (explainDeployment x localHost) (explainDeployment y localHost) := by
  have names : x.hosts.map (·.declaration.name) = y.hosts.map (·.declaration.name) :=
    forall₂_map_eq alike.hosts fun _ _ same => same.declaration.name
  simp only [explainDeployment,names,alike.resolved.authored.links]
  refine (agree_of_eq rfl).bind fun _ _ _ => ?_
  refine (agree_mapM alike.hosts fun _ _ same => agree_of_eq (hostInspection_alike same)).bind fun hosts hosts' equal => ?_
  refine (agree_mapM alike.resolved.wires fun _ _ same => wireInspection_agree alike same).bind fun wires wires' fields => ?_
  rw [List.forall₂_eq_eq_eq] at equal
  subst equal
  refine .ok (sortKeys_object ?_)
  exact .cons (fieldAlike_refl _) (.cons (fieldAlike_refl _) (.cons (fieldAlike_refl _) (.cons ⟨rfl,sortKeys_object fields⟩ .nil)))

/-- Documents that differ only in authoring order compile together. Their headers are the
    same text, or refused alike, and their inspections are the same under sorted keys,
    whatever order NetworkX takes nodes and edges in. -/
theorem compilation_order_independent (nx nx' : NetworkX) (lawful : nx.Lawful) (lawful' : nx'.Lawful) (a b : Document)
    (reordered : Reordered a b) :
    ((∃ x, compileDeployment nx a = .ok x) ↔ ∃ y, compileDeployment nx' b = .ok y) ∧
    ∀ x y, compileDeployment nx a = .ok x → compileDeployment nx' b = .ok y → ∀ localHost,
      (∀ nspace, emitHeader x nspace localHost = emitHeader y nspace localHost) ∧
      ((∃ u v, explainDeployment x localHost = .ok u ∧ explainDeployment y localHost = .ok v ∧ u.sortKeys = v.sortKeys) ∨
        ∃ e e', explainDeployment x localHost = .error e ∧ explainDeployment y localHost = .error e') := by
  have agree := compileDeployment_agree lawful lawful' reordered
  refine ⟨agree.accepts,?_⟩
  intro x y left right localHost
  have alike := agree.related left right
  refine ⟨fun nspace => emitHeader_alike alike nspace localHost,?_⟩
  have inspected := explainDeployment_agree alike localHost
  generalize explainDeployment x localHost = u at inspected
  generalize explainDeployment y localHost = v at inspected
  cases inspected with
  | ok same => exact .inl ⟨_,_,rfl,rfl,same⟩
  | error e e' => exact .inr ⟨e,e',rfl,rfl⟩

/-- The gateway's deployment, authored in another order and with other spellings. -/
def shuffled : Document where
  hosts := [⟨"C",4,[.entry "Bypass" none none,.shorthand "Serial"]⟩,⟨"B",2,[.entry "Bus" (some "Bus") none]⟩,
    ⟨"G",3,[.entry "Serial" (some "Port") (some 3),.shorthand "Bus"]⟩,⟨"A",1,[.shorthand "Bypass",.shorthand "Bus"]⟩]
  links := [⟨"Bypass","Local",none,none,none⟩,⟨"Serial","UART_HDLC",some 115200,none,none⟩,⟨"Bus","CAN",none,some 500000,none⟩]
  wires := [⟨"Direct",5,some ["B","A"],none,some ["Bus"],none,none⟩,⟨"Alone",4,some ["B"],none,none,none,none⟩,
    ⟨"Whole",3,none,some ["Ends"],some ["Serial","Bus"],none,none⟩,⟨"Chain",2,some ["C","A"],none,none,some "Long",none⟩,
    ⟨"Tree",1,some ["C","B"],none,none,none,some "Backbone"⟩]
  groups := [("Ends",["C","A"])]
  paths := [("Long",["A.Bus","G.Bus","G.Port","C.Serial"])]
  realizations := [("Backbone",["B.Bus","G.Bus","G.Port","C.Serial"])]
  paths_keys := gateway.paths_keys

theorem gateway_reordered : Reordered gateway shuffled := by
  have omitted : Listed none none := .none
  have listed {a b : List String} (perm : a.Perm b) : Listed (some a) (some b) := .some perm
  refine ⟨⟨[gateway.hosts[3],gateway.hosts[1],gateway.hosts[2],gateway.hosts[0]],by decide,?_⟩,by decide,
    ⟨gateway.wires.reverse,by decide,?_⟩,⟨gateway.groups,.refl _,?_⟩,by decide,⟨gateway.realizations,.refl _,?_⟩⟩
  · refine .cons ⟨rfl,rfl,⟨[.shorthand "Bypass",.shorthand "Serial"],by decide,?_⟩⟩
      (.cons ⟨rfl,rfl,⟨[.shorthand "Bus"],by decide,?_⟩⟩
      (.cons ⟨rfl,rfl,⟨[.entry "Serial" (some "Port") (some 3),.shorthand "Bus"],by decide,?_⟩⟩
      (.cons ⟨rfl,rfl,⟨[.shorthand "Bypass",.shorthand "Bus"],by decide,?_⟩⟩ .nil)))
    · exact .cons rfl (.cons rfl .nil)
    · exact .cons rfl .nil
    · exact .cons rfl (.cons rfl .nil)
    · exact .cons rfl (.cons rfl .nil)
  · exact .cons ⟨rfl,rfl,listed (by decide),omitted,listed (by decide),rfl,rfl⟩
      (.cons ⟨rfl,rfl,listed (by decide),omitted,omitted,rfl,rfl⟩
      (.cons ⟨rfl,rfl,omitted,listed (by decide),listed (by decide),rfl,rfl⟩
      (.cons ⟨rfl,rfl,listed (by decide),omitted,omitted,rfl,rfl⟩
      (.cons ⟨rfl,rfl,listed (by decide),omitted,omitted,rfl,rfl⟩ .nil))))
  · exact .cons ⟨rfl,by decide⟩ .nil
  · exact .cons ⟨rfl,by decide⟩ .nil

theorem gateway_headers : ∃ x y header, compileDeployment WiringSearch.layered gateway = .ok x ∧
    compileDeployment WiringSearch.layered shuffled = .ok y ∧ emitHeader x "demo" "G" = .ok header ∧
    emitHeader y "demo" "G" = .ok header := by
  obtain ⟨accepts,same⟩ := compilation_order_independent WiringSearch.layered WiringSearch.layered WiringSearch.layered_lawful
    WiringSearch.layered_lawful gateway shuffled gateway_reordered
  have evaluated : (do
      let x ← compileDeployment WiringSearch.layered gateway
      emitHeader x "demo" "G").toOption.isSome = true := by decide +kernel
  cases returned : (do
      let x ← compileDeployment WiringSearch.layered gateway
      emitHeader x "demo" "G") with
  | error e =>
    rw [returned] at evaluated
    cases evaluated
  | ok header =>
    obtain ⟨x,left,emitted⟩ := bind_eq_ok.mp returned
    obtain ⟨y,right⟩ := accepts.mp ⟨x,left⟩
    exact ⟨x,y,header,left,right,emitted,((same x y left right "G").1 "demo").symm.trans emitted⟩

end WireSpaces.WiringOrder
