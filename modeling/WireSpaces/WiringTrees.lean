import WireSpaces.WiringInference
import WireSpaces.WiringSchema

/-!
Resolved Wires are trees. Each of the four selections yields attachments whose
host/Link graph is acyclic and connected, with two hosts on every Link.
-/
namespace WireSpaces.WiringTrees
open WireSpaces.WiringModels WireSpaces.WiringTopology WireSpaces.WiringInference WireSpaces.WiringSchema WireSpaces.Trees
open SimpleGraph hiding edge

/-! ### Selections -/

/-- The graph of a selection. -/
abbrev formed (selected : List Attachment) : Graph := Graph.build [] selected

/-- A selection that is a tree of hosts and Links, each Link between two hosts. -/
structure Branched (selected : List Attachment) : Prop where
  acyclic : (formed selected).simple.IsAcyclic
  connected : ∀ x ∈ (formed selected).nodes, ∀ y ∈ (formed selected).nodes, (formed selected).simple.Reachable x y
  pairs : ∀ a ∈ selected, ∃ b ∈ selected, b.link = a.link ∧ b.host ≠ a.host

theorem host_mem_formed {selected : List Attachment} {host : String} :
    .host host ∈ (formed selected).nodes ↔ ∃ a ∈ selected, a.host = host := by
  simp [Graph.build]

theorem link_mem_formed {selected : List Attachment} {link : String} :
    .link link ∈ (formed selected).nodes ↔ ∃ a ∈ selected, a.link = link := by
  simp [Graph.build]

theorem formed_adj {selected : List Attachment} {x y : Node} :
    (formed selected).simple.Adj x y ↔ ∃ a ∈ selected, s(x,y) = edge a := build_adj

/-- A host that reaches another node of a selection has an attachment in it. -/
theorem attached_of_reachable {selected : List Attachment} {host : String} {x : Node}
    (reachable : (formed selected).simple.Reachable (.host host) x) (other : x ≠ .host host) : ∃ a ∈ selected, a.host = host := by
  obtain ⟨y,adj⟩ := exists_adj reachable other.symm
  obtain ⟨a,member,same⟩ := formed_adj.mp adj
  refine ⟨a,member,?_⟩
  rcases Sym2.eq_iff.mp same with ⟨here,-⟩ | ⟨here,-⟩
  · exact (Node.host.inj here).symm
  · cases here

theorem connected_of_root {selected : List Attachment} (root : Node)
    (reaches : ∀ x ∈ (formed selected).nodes, (formed selected).simple.Reachable root x) :
    ∀ x ∈ (formed selected).nodes, ∀ y ∈ (formed selected).nodes, (formed selected).simple.Reachable x y :=
  fun x left y right => (reaches x left).symm.trans (reaches y right)

/-- Only the set of attachments matters. -/
theorem branched_congr {selected selected' : List Attachment} (same : ∀ a, a ∈ selected ↔ a ∈ selected')
    (branched : Branched selected) : Branched selected' := by
  have graphs : (formed selected').simple = (formed selected).simple := by
    ext x y
    simp only [formed_adj,same]
  have nodes (x : Node) : x ∈ (formed selected').nodes ↔ x ∈ (formed selected).nodes := by
    cases x <;> simp [host_mem_formed,link_mem_formed,same]
  refine ⟨graphs ▸ branched.acyclic,?_,?_⟩
  · intro x left y right
    rw [graphs]
    exact branched.connected x ((nodes x).mp left) y ((nodes y).mp right)
  · intro a member
    obtain ⟨b,among,shared⟩ := branched.pairs a ((same a).mpr member)
    exact ⟨b,(same b).mp among,shared⟩

theorem branched_nil : Branched [] := by
  refine ⟨?_,?_,by simp⟩
  · rw [isAcyclic_iff_forall_adj_isBridge]
    intro x y adj
    obtain ⟨a,member,-⟩ := formed_adj.mp adj
    cases member
  · intro x member
    cases x <;> simp [host_mem_formed,link_mem_formed] at member

/-! ### Inferred Wires -/

section inferred
variable {nx : NetworkX} {g : PhysicalGraph} (physical : Physical g) {first : String} {rest : List String}
  {selected : List Attachment}
  (only : ∀ m ∈ rest, ∃! p : g.graph.simple.Walk (.host first) (.host m), p.IsPath)
  (members : ∀ a, a ∈ selected ↔ edgeAttachment g.declared a.host a.link = some a ∧
    ∃ m ∈ rest, ∃ p : g.graph.simple.Walk (.host first) (.host m), p.IsPath ∧ edge a ∈ p.edges)
include physical members

/-- The edges of a member's path are selected. -/
theorem path_selected {m : String} (among : m ∈ rest) {p : g.graph.simple.Walk (.host first) (.host m)} (path : p.IsPath) :
    ∀ e ∈ p.edges, e ∈ (formed selected).simple.edgeSet := by
  intro e used
  induction e with
  | h x y =>
    obtain ⟨a,standing⟩ := (physical.edges x y).mp (p.adj_of_mem_edges used)
    obtain ⟨same,declared⟩ := attachmentIn_eq_some.mp standing
    exact formed_adj.mpr ⟨a,(members a).mpr ⟨declared,m,among,p,path,same ▸ used⟩,same.symm⟩

theorem reachable_on_path {m : String} (among : m ∈ rest) {p : g.graph.simple.Walk (.host first) (.host m)} (path : p.IsPath)
    {x : Node} (visited : x ∈ p.support) : (formed selected).simple.Reachable (.host first) x := by
  have inside := path_selected physical members among path
  exact ⟨(p.transfer _ inside).takeUntil x (by rwa [Walk.support_transfer])⟩

include only in
theorem inferred_branched : Branched selected := by
  have bridges (a : Attachment) (member : a ∈ selected) : g.graph.simple.IsBridge (edge a) := by
    obtain ⟨-,m,among,p,path,used⟩ := (members a).mp member
    refine (unique_path_iff_bridges path).mp ?_ _ used
    exact fun q other => (only m among).unique other path
  refine ⟨acyclic_of_bridges (G := g.graph.simple) ?_ ?_,connected_of_root (.host first) ?_,?_⟩
  · intro x y adj
    obtain ⟨a,member,same⟩ := formed_adj.mp adj
    obtain ⟨-,m,among,p,path,used⟩ := (members a).mp member
    exact p.adj_of_mem_edges (same ▸ used)
  · intro e member
    induction e with
    | h x y =>
      obtain ⟨a,among,same⟩ := formed_adj.mp member
      exact same ▸ bridges a among
  · intro x member
    obtain ⟨a,chosen,onEdge⟩ : ∃ a ∈ selected, x ∈ edge a := by
      cases x with
      | host host =>
        obtain ⟨a,chosen,rfl⟩ := host_mem_formed.mp member
        exact ⟨a,chosen,Sym2.mem_mk_left ..⟩
      | link link =>
        obtain ⟨a,chosen,rfl⟩ := link_mem_formed.mp member
        exact ⟨a,chosen,Sym2.mem_mk_right ..⟩
    obtain ⟨-,m,among,p,path,used⟩ := (members a).mp chosen
    exact reachable_on_path physical members among path (p.mem_support_of_mem_edges used onEdge)
  · -- Links are no ends of the paths, so a path leaves each by another edge.
    intro a member
    obtain ⟨-,m,among,p,path,used⟩ := (members a).mp member
    obtain ⟨x,y,distinct,left,right⟩ := two_neighbours path (p.snd_mem_support_of_mem_edges used) (by simp) (by simp)
    have selectedAt (x : Node) (used : s(x,.link a.link) ∈ p.edges) : ∃ b ∈ selected, b.link = a.link ∧ x = .host b.host := by
      obtain ⟨b,chosen,same⟩ := formed_adj.mp (path_selected physical members among path _ used)
      rcases Sym2.eq_iff.mp same with ⟨host,link⟩ | ⟨-,link⟩
      · exact ⟨b,chosen,(Node.link.inj link).symm,host⟩
      · cases link
    obtain ⟨b,chosen,onLink,rfl⟩ := selectedAt x left
    obtain ⟨c,chosen',onLink',rfl⟩ := selectedAt y right
    by_cases mine : b.host = a.host
    · exact ⟨c,chosen',onLink',fun same => distinct (by rw [mine,same])⟩
    · exact ⟨b,chosen,onLink,mine⟩

include only in
theorem inferred_attached (nodup : (first :: rest).Nodup) (several : rest ≠ []) :
    ∀ m ∈ first :: rest, ∃ a ∈ selected, a.host = m := by
  have reach (m : String) (among : m ∈ rest) : (formed selected).simple.Reachable (.host first) (.host m) := by
    obtain ⟨p,path,-⟩ := only m among
    exact reachable_on_path physical members among path p.end_mem_support
  have distinct (m : String) (among : m ∈ rest) : first ≠ m := by
    rintro rfl
    exact (List.nodup_cons.mp nodup).1 among
  intro m member
  rcases List.mem_cons.mp member with rfl | among
  · obtain ⟨other,among⟩ := List.exists_mem_of_ne_nil rest several
    exact attached_of_reachable (reach other among) (fun same => distinct other among (Node.host.inj same).symm)
  · exact attached_of_reachable (reach m among).symm (fun same => distinct m among (Node.host.inj same))

end inferred

/-- A Wire's members are attached, unless it is a single member without attachments. -/
def Covers (members : List String) (selected : List Attachment) : Prop :=
  (∃ m, members = [m]) ∧ selected = [] ∨ ∀ m ∈ members, ∃ a ∈ selected, a.host = m

/-- Inference of two members or more returns only over unique paths, and then their attachments. -/
theorem infer_several {nx : NetworkX} (lawful : nx.Lawful) {g : PhysicalGraph} (physical : Physical g) {wire : WireDeclaration}
    {first second : String} {others : List String} {selected : List Attachment}
    (returned : infer nx g wire (first :: second :: others) = .ok selected) :
    (∀ m ∈ second :: others, ∃! p : g.graph.simple.Walk (.host first) (.host m), p.IsPath) ∧
      ∀ a, a ∈ selected ↔ edgeAttachment g.declared a.host a.link = some a ∧
        ∃ m ∈ second :: others, ∃ p : g.graph.simple.Walk (.host first) (.host m), p.IsPath ∧ edge a ∈ p.edges := by
  rw [infer] at returned
  · split_ifs at returned with inside
    have only : ∀ m ∈ second :: others, ∃! p : g.graph.simple.Walk (.host first) (.host m), p.IsPath := by
      intro m among
      by_contra ambiguous
      obtain ⟨message,failed⟩ : ∃ message, inferEach nx g wire first _ (second :: others) [] =
        .error (.valueError message) := inferEach_error physical lawful inside among ambiguous []
      cases returned.symm.trans failed
    obtain ⟨result,done,members⟩ := inferEach_ok physical lawful inside only []
    obtain rfl : selected = result := Except.ok.inj (returned.symm.trans done)
    simp only [List.not_mem_nil,false_or] at members
    exact ⟨only,members⟩
  · simp

theorem infer_branched {nx : NetworkX} (lawful : nx.Lawful) {hosts : List HostDeclaration} {wire : WireDeclaration}
    {members : List String} {selected : List Attachment} (nodup : members.Nodup)
    (returned : infer nx (PhysicalGraph.init nx hosts) wire members = .ok selected) :
    Branched selected ∧ Covers members selected := by
  match members with
  | [] => cases returned
  | [m] =>
    cases returned
    exact ⟨branched_nil,.inl ⟨⟨m,rfl⟩,rfl⟩⟩
  | first :: second :: others =>
    have physical := init_physical nx lawful hosts
    obtain ⟨only,members⟩ := infer_several lawful physical returned
    exact ⟨inferred_branched physical only members,.inr (inferred_attached physical only members nodup (by simp))⟩

theorem infer_declared {nx : NetworkX} (lawful : nx.Lawful) {g : PhysicalGraph} (physical : Physical g) {wire : WireDeclaration}
    {members : List String} {selected : List Attachment} (returned : infer nx g wire members = .ok selected) :
    ∀ a ∈ selected, a ∈ g.declared := by
  intro a member
  match members with
  | [] => cases returned
  | [m] =>
    cases returned
    cases member
  | first :: second :: others =>
    obtain ⟨-,chosen⟩ := infer_several lawful physical returned
    exact (edgeAttachment_eq_some ((chosen a).mp member).1).1

/-! ### Paths -/

section explicit
variable {g : PhysicalGraph} {label : String}

theorem lookUp_eq_ok {refs : List String} : (∃ selected, lookUp g label refs = .ok selected) ↔
    ∀ ref ∈ refs, interface? g ref ≠ none := by
  induction refs with
  | nil => simp [lookUp]
  | cons ref rest ih =>
    rw [List.forall_mem_cons,← ih]
    simp only [lookUp,bind_eq_ok,require_eq_ok,found_eq_ok,exists_const,pure,Except.pure,Except.ok.injEq]
    constructor
    · rintro ⟨_,known,_,-,others,later,-⟩
      exact ⟨known,others,later⟩
    · rintro ⟨known,others,later⟩
      obtain ⟨a,standing⟩ := Option.ne_none_iff_exists'.mp known
      exact ⟨_,known,a,standing,others,later,rfl⟩

theorem mem_lookUp {refs : List String} {selected : List Attachment} (returned : lookUp g label refs = .ok selected)
    (a : Attachment) : a ∈ selected ↔ ∃ ref ∈ refs, interface? g ref = some a := by
  induction refs generalizing selected with
  | nil =>
    cases returned
    simp
  | cons ref rest ih =>
    simp only [lookUp,bind_eq_ok,require_eq_ok,found_eq_ok,exists_const,pure,Except.pure,Except.ok.injEq] at returned
    obtain ⟨-,b,standing,others,later,rfl⟩ := returned
    simp only [List.mem_insert_iff,ih later,List.mem_cons,exists_eq_or_imp,standing,Option.some.injEq,eq_comm (a := a)]

theorem lookUp_declared {refs : List String} {selected : List Attachment} (returned : lookUp g label refs = .ok selected) :
    ∀ a ∈ selected, a ∈ g.declared := by
  intro a member
  obtain ⟨ref,-,standing⟩ := (mem_lookUp returned a).mp member
  exact List.mem_reverse.mp (List.mem_of_find?_eq_some standing)

/-- A hop over a new Link to a new host keeps a selection a tree. -/
theorem branched_hop {a b : Attachment} {selected : List Attachment} (branched : Branched selected)
    (joint : selected = [] ∨ ∃ c ∈ selected, c.host = a.host) (shared : a.link = b.link) (distinct : a.host ≠ b.host)
    (newHost : ∀ c ∈ selected, c.host ≠ b.host) (newLink : ∀ c ∈ selected, c.link ≠ a.link) : Branched (a :: b :: selected) := by
  have grown : (formed (a :: b :: selected)).simple = (formed selected).simple ⊔
      SimpleGraph.edge (.host a.host) (.link a.link) ⊔ SimpleGraph.edge (.link a.link) (.host b.host) := by
    ext x y
    simp only [sup_adj,edge_adj,formed_adj,List.mem_cons,exists_eq_or_imp,edge]
    cases x <;> cases y <;> simp [shared,or_comm,or_left_comm]
  have adjA : (formed (a :: b :: selected)).simple.Adj (.link a.link) (.host a.host) :=
    formed_adj.mpr ⟨a,by simp,Sym2.eq_swap⟩
  have adjB : (formed (a :: b :: selected)).simple.Adj (.link a.link) (.host b.host) :=
    formed_adj.mpr ⟨b,by simp,by rw [shared]; exact Sym2.eq_swap⟩
  have older (c : Attachment) (member : c ∈ selected) (x : Node) (inside : x ∈ (formed selected).nodes) :
      (formed (a :: b :: selected)).simple.Reachable (.link a.link) x := by
    obtain ⟨d,among,same⟩ := joint.resolve_left (List.ne_nil_of_mem member)
    have start : .host a.host ∈ (formed selected).nodes := host_mem_formed.mpr ⟨d,among,same⟩
    refine adjA.reachable.trans ((branched.connected _ start x inside).mono ?_)
    rw [grown,sup_assoc]
    exact le_sup_left
  refine ⟨?_,connected_of_root (.link a.link) ?_,?_⟩
  · rw [grown]
    refine acyclic_hang branched.acyclic ?_ ?_ (by simp) (by simp) (by simpa using distinct)
    · intro x adj
      obtain ⟨c,member,same⟩ := formed_adj.mp adj
      exact newLink c member (by cases x <;> simp_all [edge])
    · intro x adj
      obtain ⟨c,member,same⟩ := formed_adj.mp adj
      exact newHost c member (by cases x <;> simp_all [edge])
  · intro x member
    cases x with
    | host host =>
      obtain ⟨c,among,rfl⟩ := host_mem_formed.mp member
      rcases List.mem_cons.mp among with rfl | among
      · exact adjA.reachable
      rcases List.mem_cons.mp among with rfl | among
      · exact adjB.reachable
      · exact older c among _ (host_mem_formed.mpr ⟨c,among,rfl⟩)
    | link link =>
      obtain ⟨c,among,rfl⟩ := link_mem_formed.mp member
      rcases List.mem_cons.mp among with rfl | among
      · exact Reachable.refl _
      rcases List.mem_cons.mp among with rfl | among
      · rw [shared]
      · exact older c among _ (link_mem_formed.mpr ⟨c,among,rfl⟩)
  · intro c member
    rcases List.mem_cons.mp member with rfl | member
    · exact ⟨b,by simp,shared.symm,distinct.symm⟩
    rcases List.mem_cons.mp member with rfl | member
    · exact ⟨a,by simp,shared,distinct⟩
    · obtain ⟨d,among,pair⟩ := branched.pairs c member
      exact ⟨d,List.mem_cons_of_mem _ (List.mem_cons_of_mem _ among),pair⟩

/-- What the loop of `chain` has established for the attachments behind it. -/
structure Chained (hops : Hops) (selected : List Attachment) : Prop where
  hosts : ∀ host, host ∈ hops.visitedHosts ↔ ∃ a ∈ selected, a.host = host
  links : ∀ link, link ∈ hops.visitedLinks ↔ ∃ a ∈ selected, a.link = link
  start : hops.previous = none → selected = []
  joint : ∀ previous, hops.previous = some previous → ∃ a ∈ selected, a.host = previous.1
  branched : Branched selected

theorem hop_eq_ok {left right : String} {hops hops' : Hops} (returned : hop g label left right hops = .ok hops') :
    ∃ a b, interface? g left = some a ∧ interface? g right = some b ∧ a.link = b.link ∧ a.host ≠ b.host ∧
      ∃ visited, (hops.previous = none ∧ visited = hops.visitedHosts.insert a.host ∨
        ∃ previous, hops.previous = some previous ∧ a.host = previous.1 ∧ visited = hops.visitedHosts) ∧
      b.host ∉ visited ∧ a.link ∉ hops.visitedLinks ∧
      hops' = ⟨visited.insert b.host,hops.visitedLinks.insert a.link,some (b.host,right)⟩ := by
  unfold hop at returned
  cases previously : hops.previous with
  | none =>
    simp only [previously,bind_eq_ok,found_eq_ok,require_eq_ok,exists_const,pure,Except.pure,Except.ok.injEq] at returned
    obtain ⟨a,leftIs,b,rightIs,⟨shared,distinct⟩,visited,rfl,⟨newHost,newLink⟩,rfl⟩ := returned
    exact ⟨a,b,leftIs,rightIs,shared,distinct,_,.inl ⟨rfl,rfl⟩,newHost,newLink,rfl⟩
  | some previous =>
    simp only [previously,bind_eq_ok,found_eq_ok,require_eq_ok,exists_const,pure,Except.pure,Except.ok.injEq] at returned
    obtain ⟨a,leftIs,b,rightIs,⟨shared,distinct⟩,same,-,visited,rfl,⟨newHost,newLink⟩,rfl⟩ := returned
    exact ⟨a,b,leftIs,rightIs,shared,distinct,_,.inr ⟨previous,rfl,same,rfl⟩,newHost,newLink,rfl⟩

theorem hop_chained {left right : String} {hops hops' : Hops} {selected : List Attachment} (chained : Chained hops selected)
    (returned : hop g label left right hops = .ok hops') :
    ∃ a b, interface? g left = some a ∧ interface? g right = some b ∧ Chained hops' (a :: b :: selected) := by
  obtain ⟨a,b,leftIs,rightIs,shared,distinct,visited,before,newHost,newLink,rfl⟩ := hop_eq_ok returned
  -- Whichever hop it is, the visited hosts are the earlier ones and the one it starts at.
  obtain ⟨joint,seen⟩ : (selected = [] ∨ ∃ c ∈ selected, c.host = a.host) ∧
      ∀ host, host ∈ visited ↔ host = a.host ∨ ∃ c ∈ selected, c.host = host := by
    rcases before with ⟨first,rfl⟩ | ⟨previous,next,same,rfl⟩
    · refine ⟨.inl (chained.start first),?_⟩
      intro host
      rw [List.mem_insert_iff,chained.hosts]
    · have joint := chained.joint previous next
      rw [← same] at joint
      refine ⟨.inr joint,?_⟩
      intro host
      rw [chained.hosts]
      constructor
      · exact .inr
      · rintro (rfl | earlier)
        · exact joint
        · exact earlier
  refine ⟨a,b,leftIs,rightIs,?_,?_,by simp,?_,?_⟩
  · intro host
    simp only [List.mem_insert_iff,seen,List.mem_cons,exists_eq_or_imp,eq_comm (a := host)]
    tauto
  · intro link
    simp only [List.mem_insert_iff,chained.links,List.mem_cons,exists_eq_or_imp,← shared,eq_comm (a := link)]
    tauto
  · rintro previous same
    cases same
    exact ⟨b,by simp,rfl⟩
  · refine branched_hop chained.branched joint shared distinct ?_ ?_
    · intro c member same
      exact newHost ((seen b.host).mpr (.inr ⟨c,member,same⟩))
    · intro c member same
      exact newLink ((chained.links a.link).mpr ⟨c,member,same⟩)

theorem hopAll_chained {refs : List String} {hops hops' : Hops} {selected : List Attachment} (even : refs.length % 2 = 0)
    (chained : Chained hops selected) (returned : hopAll g label refs hops = .ok hops') :
    ∃ selected', Chained hops' selected' ∧
      ∀ a, a ∈ selected' ↔ a ∈ selected ∨ ∃ ref ∈ refs, interface? g ref = some a := by
  induction refs, hops using hopAll.induct generalizing selected with
  | case1 left right rest hops ih =>
    rw [hopAll,bind_eq_ok] at returned
    obtain ⟨next,hopped,later⟩ := returned
    obtain ⟨a,b,leftIs,rightIs,chained⟩ := hop_chained chained hopped
    obtain ⟨selected',chained',members⟩ := ih next (by simp at even; omega) chained later
    refine ⟨selected',chained',?_⟩
    intro c
    simp only [members,List.mem_cons,exists_eq_or_imp,leftIs,rightIs,Option.some.injEq,eq_comm (a := c)]
    tauto
  | case2 refs hops short =>
    match refs with
    | [] =>
      cases returned
      exact ⟨selected,chained,by simp⟩
    | [_] => cases even
    | left :: right :: rest => exact absurd rfl (short left right rest)

theorem chain_branched {path : PathDeclaration} {selected : List Attachment} {visited : List String}
    (returned : chain g path = .ok (selected,visited)) :
    Branched selected ∧ ∀ host, host ∈ visited ↔ ∃ a ∈ selected, a.host = host := by
  simp only [chain,bind_eq_ok,require_eq_ok,exists_const] at returned
  obtain ⟨⟨-,even⟩,chosen,looked,hops,hopped,done⟩ := returned
  obtain ⟨rfl,rfl⟩ := Prod.mk.inj (Except.ok.inj done)
  have start : Chained {} [] := ⟨by simp,by simp,fun _ => rfl,by simp,branched_nil⟩
  obtain ⟨selected',chained,members⟩ := hopAll_chained even start hopped
  have same (a : Attachment) : a ∈ selected' ↔ a ∈ chosen := by
    rw [members,mem_lookUp looked]
    simp
  refine ⟨branched_congr same chained.branched,?_⟩
  intro host
  rw [chained.hosts]
  simp only [same]

end explicit

/-! ### Realizations and whole Links -/

theorem requireDegrees_eq_ok {graph : Graph} {message : String → String} {links : List String} {done : Unit} :
    requireDegrees graph message links = .ok done ↔ ∀ link ∈ links, .link link ∈ graph.nodes ∧ graph.degree link ≥ 2 := by
  induction links with
  | nil => simp [requireDegrees]
  | cons link rest ih =>
    simp only [requireDegrees,bind_eq_ok,require_eq_ok,exists_const,ih,List.forall_mem_cons]

/-- On a Link of degree two a host is not alone. -/
theorem exists_other {graph : Graph} {link : String} (degree : graph.degree link ≥ 2) (host : String) :
    ∃ pair ∈ graph.edges, pair.2 = link ∧ pair.1 ≠ host := by
  obtain ⟨left,leftIn,right,rightIn,distinct⟩ := Finset.one_lt_card.mp degree
  obtain ⟨leftEdge,onLeft⟩ := Finset.mem_filter.mp leftIn
  obtain ⟨rightEdge,onRight⟩ := Finset.mem_filter.mp rightIn
  by_cases mine : left.1 = host
  · refine ⟨right,rightEdge,onRight,?_⟩
    intro same
    exact distinct (Prod.ext (mine.trans same.symm) (onLeft.trans onRight.symm))
  · exact ⟨left,leftEdge,onLeft,mine⟩

theorem mem_build_edges {hosts : List String} {attachments : List Attachment} {pair : String × String} :
    pair ∈ (Graph.build hosts attachments).edges ↔ ∃ a ∈ attachments, a.host = pair.1 ∧ a.link = pair.2 := by
  simp [Graph.build,Prod.ext_iff]

theorem realization_branched {nx : NetworkX} (lawful : nx.Lawful) {g : PhysicalGraph} {declaration : RealizationDeclaration}
    {selected : List Attachment} {visited : List String} (returned : realization nx g declaration = .ok (selected,visited)) :
    Branched selected ∧ ∀ host, host ∈ visited ↔ ∃ a ∈ selected, a.host = host := by
  simp only [realization,bind_eq_ok,require_eq_ok,requireDegrees_eq_ok,exists_const] at returned
  obtain ⟨chosen,-,degrees,-,tree,done⟩ := returned
  obtain ⟨rfl,rfl⟩ := Prod.mk.inj (Except.ok.inj done)
  obtain ⟨⟨-,connected⟩,acyclic⟩ := (lawful.isTree _).mp tree
  refine ⟨⟨acyclic,connected,?_⟩,by simp⟩
  intro a member
  have listed : a.link ∈ sorted (chosen.map (·.link)).dedup :=
    mem_sortedBy.mpr (List.mem_dedup.mpr (List.mem_map_of_mem member))
  obtain ⟨pair,among,onLink,other⟩ := exists_other (degrees _ listed).2 a.host
  obtain ⟨b,chosenB,host,link⟩ := mem_build_edges.mp among
  exact ⟨b,chosenB,link.trans onLink,fun same => other (host.symm.trans same)⟩

theorem mem_declaredBy {hosts : List HostDeclaration} {a : Attachment} : a ∈ declaredBy hosts ↔
    ∃ host ∈ hosts, host.name = a.host ∧ ∃ interface ∈ host.interfaces, interface.name = a.interface ∧ interface.link = a.link := by
  simp only [declaredBy,interfacesOf,List.mem_flatMap,List.mem_map,mem_sortedBy]
  constructor
  · rintro ⟨host,among,interface,listed,rfl⟩
    exact ⟨host,among,rfl,interface,listed,rfl,rfl⟩
  · rintro ⟨host,among,hostIs,interface,listed,nameIs,linkIs⟩
    exact ⟨host,among,interface,listed,by rw [hostIs,nameIs,linkIs]⟩

/-- In a valid deployment each declared attachment stands behind its reference. -/
theorem interface?_declared {nx : NetworkX} {authored : AuthoredDeployment} (valid : Valid authored) {a : Attachment}
    (declared : a ∈ declaredBy authored.hosts) : interface? (PhysicalGraph.init nx authored.hosts) a.reference = some a := by
  obtain ⟨b,standing⟩ : ∃ b, interface? (PhysicalGraph.init nx authored.hosts) a.reference = some b := by
    rw [← Option.isSome_iff_exists,interface?,List.find?_isSome]
    exact ⟨a,List.mem_reverse.mpr declared,by simp⟩
  have same : b.reference = a.reference := by simpa using List.find?_some standing
  obtain ⟨host,hostIn,hostIs,i,iIn,iName,iLink⟩ := mem_declaredBy.mp declared
  obtain ⟨host',hostIn',hostIs',i',iIn',iName',iLink'⟩ :=
    mem_declaredBy.mp (List.mem_reverse.mp (List.mem_of_find?_eq_some standing))
  obtain ⟨hosts,interfaces⟩ := reference_injective (by rw [← hostIs']; exact (valid.hosts host' hostIn').identifier)
    (by rw [← hostIs]; exact (valid.hosts host hostIn).identifier) same
  obtain rfl := List.inj_on_of_nodup_map valid.hostNames hostIn' hostIn (hostIs'.trans (hosts.trans hostIs.symm))
  obtain rfl := List.inj_on_of_nodup_map (valid.hosts host' hostIn).names iIn' iIn (iName'.trans (interfaces.trans iName.symm))
  have links : b.link = a.link := iLink'.symm.trans iLink
  obtain rfl : b = a := by
    cases a
    cases b
    simp_all
  exact standing

theorem mem_attachmentsOn {nx : NetworkX} {authored : AuthoredDeployment} (valid : Valid authored) {links : List String}
    {a : Attachment} : a ∈ attachmentsOn (PhysicalGraph.init nx authored.hosts) links ↔
      a ∈ declaredBy authored.hosts ∧ a.link ∈ links := by
  simp only [attachmentsOn,List.mem_dedup,List.mem_filter,decide_eq_true_eq]
  constructor
  · rintro ⟨declared,-,onLink⟩
    exact ⟨declared,onLink⟩
  · rintro ⟨declared,onLink⟩
    exact ⟨declared,interface?_declared valid declared,onLink⟩

/-- The component of a connected graph is the graph. -/
theorem component_simple {nx : NetworkX} (lawful : nx.Lawful) {graph : Graph} {root : Node} (inside : root ∈ graph.nodes)
    (connected : ∀ x ∈ graph.nodes, ∀ y ∈ graph.nodes, graph.simple.Reachable x y) :
    (graph.subgraph (nx.nodeConnectedComponent graph root)).simple = graph.simple := by
  have whole (x : Node) (member : x ∈ graph.nodes) : x ∈ nx.nodeConnectedComponent graph root :=
    (lawful.component graph root x inside).mpr (connected root inside x member)
  ext x y
  rw [simple_adj,simple_adj]
  constructor
  · rintro ⟨pair,member,same⟩
    exact ⟨pair,(Finset.mem_filter.mp member).1,same⟩
  · rintro ⟨pair,member,same⟩
    have ends := graph.closed pair member
    exact ⟨pair,Finset.mem_filter.mpr ⟨member,whole _ ends.1,whole _ ends.2⟩,same⟩

theorem legacy_declared {nx : NetworkX} {g : PhysicalGraph} {wire : WireDeclaration} {members : List String}
    {selected : List Attachment} (returned : legacy nx g wire members = .ok selected) : ∀ a ∈ selected, a ∈ g.declared := by
  simp only [legacy,bind_eq_ok] at returned
  obtain ⟨-,-,returned⟩ := returned
  split at returned
  · cases returned
  · simp only [bind_eq_ok] at returned
    obtain ⟨-,-,-,-,done⟩ := returned
    obtain rfl := Except.ok.inj done
    intro a member
    exact (List.mem_filter.mp (List.mem_dedup.mp member)).1

theorem legacy_branched {nx : NetworkX} (lawful : nx.Lawful) {authored : AuthoredDeployment} (valid : Valid authored)
    {wire : WireDeclaration} {members : List String} (nodup : members.Nodup) {selected : List Attachment}
    (returned : legacy nx (PhysicalGraph.init nx authored.hosts) wire members = .ok selected) :
    Branched selected ∧ Covers members selected := by
  simp only [legacy,bind_eq_ok,requireDegrees_eq_ok,exists_const] at returned
  obtain ⟨degrees,returned⟩ := returned
  generalize chosenIs : attachmentsOn (PhysicalGraph.init nx authored.hosts) (wire.links.getD []).dedup = chosen at returned
  split at returned
  · cases returned
  next least others leastIs =>
    simp only [bind_eq_ok,require_eq_ok,exists_const] at returned
    obtain ⟨tree,whole,done⟩ := returned
    obtain rfl := Except.ok.inj done
    have same : (Graph.build members chosen).simple = (formed chosen).simple := by
      ext x y
      rw [build_adj,formed_adj]
    have inner {x : Node} (member : x ∈ (formed chosen).nodes) : x ∈ (Graph.build members chosen).nodes := by
      simp only [Graph.build,List.map_nil,List.nil_append,List.mem_toFinset,List.mem_append] at member ⊢
      tauto
    have memberNode {m : String} (member : m ∈ members) : .host m ∈ (Graph.build members chosen).nodes := by
      simp [Graph.build,member]
    have root : .host least ∈ (Graph.build members chosen).nodes := by
      have among : least ∈ members ++ chosen.map (·.host) := mem_sortedBy.mp (leastIs ▸ List.mem_cons_self)
      rcases List.mem_append.mp among with member | attached
      · exact memberNode member
      · obtain ⟨a,chosenA,rfl⟩ := List.mem_map.mp attached
        exact inner (host_mem_formed.mpr ⟨a,chosenA,rfl⟩)
    obtain ⟨-,connected⟩ := (lawful.isConnected _).mp whole
    have acyclic := ((lawful.isTree _).mp tree).2
    rw [component_simple lawful root connected,same] at acyclic
    rw [same] at connected
    refine ⟨⟨acyclic,fun x left y right => connected x (inner left) y (inner right),?_⟩,?_⟩
    · intro a member
      rw [← chosenIs,mem_attachmentsOn valid] at member
      obtain ⟨pair,among,onLink,other⟩ := exists_other (degrees _ (mem_sortedBy.mpr member.2)).2 a.host
      obtain ⟨b,declared,host,link⟩ := mem_build_edges.mp among
      have shared : b.link = a.link := link.trans onLink
      refine ⟨b,?_,shared,fun same => other (host.symm.trans same)⟩
      rw [← chosenIs,mem_attachmentsOn valid,shared]
      exact ⟨declared,member.2⟩
    · by_cases empty : chosen = []
      · -- Without attachments nothing is joined, so there is one member.
        left
        refine ⟨?_,empty⟩
        cases members with
        | nil =>
          subst empty
          simp [sorted,sortedBy] at leastIs
        | cons first rest =>
          cases rest with
          | nil => exact ⟨first,rfl⟩
          | cons second more =>
            have joined := connected (.host first) (memberNode (by simp)) (.host second) (memberNode (by simp))
            obtain ⟨a,chosenA,-⟩ := attached_of_reachable joined (by
              rintro equal
              obtain rfl := Node.host.inj equal
              exact absurd nodup (by simp))
            rw [empty] at chosenA
            cases chosenA
      · right
        intro m member
        obtain ⟨a,chosenA⟩ := List.exists_mem_of_ne_nil chosen empty
        exact attached_of_reachable (connected _ (memberNode member) (.link a.link)
          (inner (link_mem_formed.mpr ⟨a,chosenA,rfl⟩))) (by simp)

/-! ### Resolved Wires -/

theorem expand_eq_ok {authored : AuthoredDeployment} {wire : WireDeclaration} {expanded : List String}
    (returned : expand authored wire = .ok expanded) : expanded.Nodup := by
  simp only [expand,bind_eq_ok] at returned
  obtain ⟨groups,-,done⟩ := returned
  obtain rfl := Except.ok.inj done
  exact List.nodup_dedup _

theorem sorted_nodup {names : List String} (nodup : names.Nodup) : (sorted names).Nodup :=
  (sortedBy_perm id names).nodup_iff.mpr nodup

/-- A selection by name covers the members if the named one visits the hosts it attaches. -/
theorem named_branched {label name : String} {resolved : List (String × List Attachment × List String)} {expanded : List String}
    {selected : List Attachment} (returned : named label name resolved expanded = .ok selected)
    (trees : ∀ entry ∈ resolved, Branched entry.2.1 ∧ ∀ host, host ∈ entry.2.2 ↔ ∃ a ∈ entry.2.1, a.host = host) :
    Branched selected ∧ Covers (sorted expanded) selected := by
  simp only [named,bind_eq_ok,found_eq_ok,require_eq_ok,exists_const] at returned
  obtain ⟨entry,listed,visits,done⟩ := returned
  obtain rfl := Except.ok.inj done
  obtain ⟨branched,visited⟩ := trees entry (List.mem_of_find?_eq_some listed)
  refine ⟨branched,.inr ?_⟩
  intro m member
  exact (visited m).mp (visits m (mem_sortedBy.mp member))

theorem selectionOf_branched {nx : NetworkX} (lawful : nx.Lawful) {authored : AuthoredDeployment} (valid : Valid authored)
    {chains realizations : List (String × List Attachment × List String)}
    (trees : ∀ entry ∈ chains ++ realizations, Branched entry.2.1 ∧ ∀ host, host ∈ entry.2.2 ↔ ∃ a ∈ entry.2.1, a.host = host)
    {wire : WireDeclaration} {expanded : List String} (nodup : expanded.Nodup) {selected : List Attachment} {mode : Selection}
    (returned : selectionOf nx (PhysicalGraph.init nx authored.hosts) chains realizations wire expanded = .ok (selected,mode)) :
    Branched selected ∧ Covers (sorted expanded) selected := by
  unfold selectionOf at returned
  split at returned
  all_goals
    rw [bind_eq_ok] at returned
    obtain ⟨chosen,selects,done⟩ := returned
    obtain ⟨rfl,-⟩ := Prod.mk.inj (Except.ok.inj done)
  · exact named_branched selects (fun entry member => trees entry (List.mem_append_left _ member))
  · exact named_branched selects (fun entry member => trees entry (List.mem_append_right _ member))
  · exact legacy_branched lawful valid (sorted_nodup nodup) selects
  · exact infer_branched lawful (sorted_nodup nodup) selects

/-- What stands behind a Wire of a resolved deployment. -/
structure Origin (nx : NetworkX) (authored : AuthoredDeployment) (resolved : ResolvedWire) : Prop where
  declared : resolved.declaration ∈ authored.wires
  members : ∃ expanded, expand authored resolved.declaration = .ok expanded ∧ expanded ≠ [] ∧
    resolved.members = sorted expanded
  branched : Branched resolved.attachments
  covers : Covers resolved.members resolved.attachments
  transit : ∀ host, host ∈ resolved.transitHosts ↔ (∃ a ∈ resolved.attachments, a.host = host) ∧ host ∉ resolved.members

theorem resolveDeployment_origin {nx : NetworkX} (lawful : nx.Lawful) {authored : AuthoredDeployment} (valid : Valid authored)
    {resolved : ResolvedDeployment} (returned : resolveDeployment nx authored = .ok resolved) :
    ∀ wire ∈ resolved.wires, Origin nx authored wire := by
  simp only [resolveDeployment,bind_eq_ok] at returned
  obtain ⟨chains,chained,realizations,realized,wires,resolving,done⟩ := returned
  obtain rfl := Except.ok.inj done
  have trees : ∀ entry ∈ chains ++ realizations,
      Branched entry.2.1 ∧ ∀ host, host ∈ entry.2.2 ↔ ∃ a ∈ entry.2.1, a.host = host := by
    intro entry member
    rcases List.mem_append.mp member with among | among
    · obtain ⟨path,-,made⟩ := of_mem_mapM chained among
      obtain ⟨value,returned,done⟩ := bind_eq_ok.mp made
      obtain rfl := Except.ok.inj done
      exact chain_branched returned
    · obtain ⟨declaration,-,made⟩ := of_mem_mapM realized among
      obtain ⟨value,returned,done⟩ := bind_eq_ok.mp made
      obtain rfl := Except.ok.inj done
      exact realization_branched lawful returned
  intro wire member
  obtain ⟨declaration,declared,made⟩ := of_mem_mapM resolving (mem_sortedBy.mp member)
  simp only [resolveWire,bind_eq_ok,require_eq_ok,exists_const] at made
  obtain ⟨expanded,expands,some,⟨selected,mode⟩,selects,done⟩ := made
  obtain rfl := Except.ok.inj done
  obtain ⟨branched,covers⟩ := selectionOf_branched lawful valid trees (expand_eq_ok expands) selects
  have same (a : Attachment) : a ∈ selected ↔ a ∈ sortedBy Attachment.reference selected := mem_sortedBy.symm
  refine ⟨declared,⟨expanded,expands,some,rfl⟩,branched_congr same branched,?_,?_⟩
  · rcases covers with ⟨single,rfl⟩ | attached
    · exact .inl ⟨single,rfl⟩
    · refine .inr ?_
      simpa only [same] using attached
  · intro host
    simp only [sorted,mem_sortedBy,List.mem_filter,List.mem_dedup,List.mem_map,decide_eq_true_eq]

/-! ### Selected attachments are declared -/

theorem selectionOf_declared {nx : NetworkX} (lawful : nx.Lawful) {hosts : List HostDeclaration}
    {chains realizations : List (String × List Attachment × List String)}
    (entries : ∀ entry ∈ chains ++ realizations, ∀ a ∈ entry.2.1, a ∈ declaredBy hosts) {wire : WireDeclaration}
    {expanded : List String} {selected : List Attachment} {mode : Selection}
    (returned : selectionOf nx (PhysicalGraph.init nx hosts) chains realizations wire expanded = .ok (selected,mode)) :
    ∀ a ∈ selected, a ∈ declaredBy hosts := by
  have listed {label name : String} {resolved : List (String × List Attachment × List String)} {chosen : List Attachment}
      (known : ∀ entry ∈ resolved, entry ∈ chains ++ realizations) (selects : named label name resolved expanded = .ok chosen) :
      ∀ a ∈ chosen, a ∈ declaredBy hosts := by
    simp only [named,bind_eq_ok,found_eq_ok,require_eq_ok,exists_const] at selects
    obtain ⟨entry,listed,-,done⟩ := selects
    obtain rfl := Except.ok.inj done
    exact entries entry (known entry (List.mem_of_find?_eq_some listed))
  unfold selectionOf at returned
  split at returned
  all_goals
    rw [bind_eq_ok] at returned
    obtain ⟨chosen,selects,done⟩ := returned
    obtain ⟨rfl,-⟩ := Prod.mk.inj (Except.ok.inj done)
  · exact listed (fun entry member => List.mem_append_left _ member) selects
  · exact listed (fun entry member => List.mem_append_right _ member) selects
  · exact legacy_declared selects
  · exact infer_declared lawful (init_physical nx lawful hosts) selects

theorem resolved_declared {nx : NetworkX} (lawful : nx.Lawful) {authored : AuthoredDeployment} {resolved : ResolvedDeployment}
    (returned : resolveDeployment nx authored = .ok resolved) :
    ∀ wire ∈ resolved.wires, ∀ a ∈ wire.attachments, a ∈ declaredBy authored.hosts := by
  simp only [resolveDeployment,bind_eq_ok] at returned
  obtain ⟨chains,chained,realizations,realized,wires,resolving,done⟩ := returned
  obtain rfl := Except.ok.inj done
  have entries : ∀ entry ∈ chains ++ realizations, ∀ a ∈ entry.2.1, a ∈ declaredBy authored.hosts := by
    intro entry member
    rcases List.mem_append.mp member with among | among
    · obtain ⟨path,-,made⟩ := of_mem_mapM chained among
      obtain ⟨value,returned,done⟩ := bind_eq_ok.mp made
      obtain rfl := Except.ok.inj done
      simp only [chain,bind_eq_ok] at returned
      obtain ⟨-,-,selected,looked,hops,-,finished⟩ := returned
      obtain rfl := Except.ok.inj finished
      exact lookUp_declared looked
    · obtain ⟨declaration,-,made⟩ := of_mem_mapM realized among
      obtain ⟨value,returned,done⟩ := bind_eq_ok.mp made
      obtain rfl := Except.ok.inj done
      simp only [realization,bind_eq_ok] at returned
      obtain ⟨selected,looked,-,-,-,-,-,-,finished⟩ := returned
      obtain rfl := Except.ok.inj finished
      exact lookUp_declared looked
  intro wire member
  obtain ⟨declaration,-,made⟩ := of_mem_mapM resolving (mem_sortedBy.mp member)
  simp only [resolveWire,bind_eq_ok,require_eq_ok,exists_const] at made
  obtain ⟨expanded,-,-,⟨selected,mode⟩,selects,done⟩ := made
  obtain rfl := Except.ok.inj done
  intro a attached
  exact selectionOf_declared lawful entries selects a (mem_sortedBy.mp attached)

/-- Every Wire of a resolved deployment is a tree over its attachments: acyclic, connected,
    through all members but a lone one without attachments, with two hosts on each Link, and
    its transit hosts are the attached ones that are no members. -/
theorem resolved_wire_tree (nx : NetworkX) (lawful : nx.Lawful) (document : Document) (authored : AuthoredDeployment)
    (parsed : parseDeployment document = .ok authored) (resolved : ResolvedDeployment)
    (accepted : resolveDeployment nx authored = .ok resolved) (wire : ResolvedWire) (member : wire ∈ resolved.wires) :
    let graph := Graph.build [] wire.attachments
    graph.simple.IsAcyclic ∧
    (∀ x ∈ graph.nodes, ∀ y ∈ graph.nodes, graph.simple.Reachable x y) ∧
    ((∃ m, wire.members = [m]) ∧ wire.attachments = [] ∨ ∀ m ∈ wire.members, .host m ∈ graph.nodes) ∧
    (∀ link, .link link ∈ graph.nodes → ∃ a ∈ wire.attachments, ∃ b ∈ wire.attachments,
      a.link = link ∧ b.link = link ∧ a.host ≠ b.host) ∧
    ∀ host, host ∈ wire.transitHosts ↔ (∃ a ∈ wire.attachments, a.host = host) ∧ host ∉ wire.members := by
  have origin := resolveDeployment_origin lawful (parse_valid parsed) accepted wire member
  refine ⟨origin.branched.acyclic,origin.branched.connected,?_,?_,origin.transit⟩
  · simp only [host_mem_formed]
    exact origin.covers
  · intro link inside
    obtain ⟨a,attached,rfl⟩ := link_mem_formed.mp inside
    obtain ⟨b,other,shared,distinct⟩ := origin.branched.pairs a attached
    exact ⟨a,attached,b,other,rfl,shared,distinct.symm⟩

/-- A shared bus with a branch behind a gateway; a bypass Link makes inference ambiguous. -/
def gateway : Document where
  hosts := [⟨"A",1,[.shorthand "Bus",.shorthand "Bypass"]⟩,⟨"B",2,[.shorthand "Bus"]⟩,
    ⟨"G",3,[.shorthand "Bus",.entry "Serial" (some "Port") (some 3)]⟩,⟨"C",4,[.shorthand "Serial",.shorthand "Bypass"]⟩]
  links := [⟨"Bus","CAN",none,some 500000,none⟩,⟨"Serial","UART_HDLC",some 115200,none,none⟩,⟨"Bypass","Local",none,none,none⟩]
  wires := [⟨"Tree",1,some ["B","C"],none,none,none,some "Backbone"⟩,⟨"Chain",2,some ["A","C"],none,none,some "Long",none⟩,
    ⟨"Whole",3,none,some ["Ends"],some ["Bus","Serial"],none,none⟩,⟨"Alone",4,some ["B"],none,none,none,none⟩,
    ⟨"Direct",5,some ["A","B"],none,some ["Bus"],none,none⟩]
  groups := [("Ends",["A","C"])]
  paths := [("Long",["A.Bus","G.Bus","G.Port","C.Serial"])]
  realizations := [("Backbone",["C.Serial","G.Port","G.Bus","B.Bus"])]

/-- The transit hosts of the Wires of a document. -/
def transits (nx : NetworkX) (document : Document) : Checked (List (String × List String)) := do
  let authored ← parseDeployment document
  let resolved ← resolveDeployment nx authored
  return resolved.wires.map fun wire => (wire.declaration.name,wire.transitHosts)

theorem gateway_trees :
    transits WiringSearch.layered gateway =
      .ok [("Alone",[]),("Chain",["G"]),("Direct",["G"]),("Tree",["G"]),("Whole",["B","G"])] ∧
    ∃ authored resolved, parseDeployment gateway = .ok authored ∧
      resolveDeployment WiringSearch.layered authored = .ok resolved ∧ resolved.wires ≠ [] ∧
      ∀ wire ∈ resolved.wires, (Graph.build [] wire.attachments).simple.IsAcyclic ∧
        ∀ host, host ∈ wire.transitHosts ↔ (∃ a ∈ wire.attachments, a.host = host) ∧ host ∉ wire.members := by
  have evaluated : transits WiringSearch.layered gateway =
      .ok [("Alone",[]),("Chain",["G"]),("Direct",["G"]),("Tree",["G"]),("Whole",["B","G"])] := by decide +kernel
  refine ⟨evaluated,?_⟩
  simp only [transits,bind_eq_ok] at evaluated
  obtain ⟨authored,parsed,resolved,accepted,listed⟩ := evaluated
  refine ⟨authored,resolved,parsed,accepted,?_,?_⟩
  · rintro empty
    rw [empty] at listed
    cases listed
  · intro wire member
    have tree := resolved_wire_tree WiringSearch.layered WiringSearch.layered_lawful gateway authored parsed resolved accepted
      wire member
    exact ⟨tree.1,tree.2.2.2.2⟩

end WireSpaces.WiringTrees
