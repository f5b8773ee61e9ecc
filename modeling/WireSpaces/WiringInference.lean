import WireSpaces.WiringSearch
import WireSpaces.Trees

/-!
Inference of a Wire: the bridge test along the search tree decides whether the
simple paths from the first member are unique, and what it selects is the least
connected subgraph through all members.
-/
namespace WireSpaces.WiringInference
open WireSpaces.WiringModels WireSpaces.WiringTopology WireSpaces.Trees SimpleGraph

/-! ### Graphs and attachments -/

/-- The edge an attachment stands on. -/
def edge (a : Attachment) : Sym2 Node := s(.host a.host,.link a.link)

theorem edgeAttachment_eq_some {declared : List Attachment} {host link : String} {a : Attachment}
    (standing : edgeAttachment declared host link = some a) : a ∈ declared ∧ a.host = host ∧ a.link = link := by
  have member := List.mem_of_find?_eq_some standing
  have fits := List.find?_some standing
  exact ⟨List.mem_reverse.mp member,by simpa using fits⟩

/-- One attachment stands on an edge. -/
theorem standing_unique {declared : List Attachment} {a b : Attachment}
    (left : edgeAttachment declared a.host a.link = some a) (right : edgeAttachment declared b.host b.link = some b)
    (same : edge a = edge b) : a = b := by
  obtain ⟨host,link⟩ : a.host = b.host ∧ a.link = b.link := by simpa [edge] using same
  rw [host,link,right] at left
  exact (Option.some.inj left).symm

theorem attachmentIn_eq_some {declared : List Attachment} {x y : Node} {a : Attachment} :
    attachmentIn declared x y = some a ↔ edge a = s(x,y) ∧ edgeAttachment declared a.host a.link = some a := by
  have same {host link : String} : edgeAttachment declared host link = some a ↔
      (host = a.host ∧ link = a.link) ∧ edgeAttachment declared a.host a.link = some a := by
    constructor
    · intro standing
      obtain ⟨-,rfl,rfl⟩ := edgeAttachment_eq_some standing
      exact ⟨⟨rfl,rfl⟩,standing⟩
    · rintro ⟨⟨rfl,rfl⟩,standing⟩
      exact standing
  cases x with
  | host host =>
    cases y with
    | host => simp [attachmentIn,edge]
    | link link =>
      rw [attachmentIn,same]
      simp [edge,eq_comm]
  | link link =>
    cases y with
    | link => simp [attachmentIn,edge]
    | host host =>
      rw [attachmentIn,same]
      simp [edge,eq_comm,and_comm]

/-- The graph of a physical graph has the declared attachments as edges, and its
    bridges are the attachments standing on a bridge. -/
structure Physical (g : PhysicalGraph) : Prop where
  edges : ∀ x y, g.graph.simple.Adj x y ↔ ∃ a, attachmentIn g.declared x y = some a
  bridges : ∀ a, a ∈ g.bridges ↔ edgeAttachment g.declared a.host a.link = some a ∧ g.graph.simple.IsBridge (edge a)

theorem build_adj {hosts : List String} {attachments : List Attachment} {x y : Node} :
    (Graph.build hosts attachments).simple.Adj x y ↔ ∃ a ∈ attachments, s(x,y) = edge a := by
  rw [simple_adj]
  simp [Graph.build,edge]

theorem init_physical (nx : NetworkX) (lawful : nx.Lawful) (hosts : List HostDeclaration) :
    Physical (PhysicalGraph.init nx hosts) := by
  have edges : ∀ x y, (PhysicalGraph.init nx hosts).graph.simple.Adj x y ↔
      ∃ a, attachmentIn (PhysicalGraph.init nx hosts).declared x y = some a := by
    intro x y
    rw [PhysicalGraph.init,build_adj]
    constructor
    · rintro ⟨a,member,same⟩
      obtain ⟨b,standing⟩ : ∃ b, edgeAttachment (declaredBy hosts) a.host a.link = some b := by
        rw [← Option.isSome_iff_exists,edgeAttachment,List.find?_isSome]
        exact ⟨a,List.mem_reverse.mpr member,by simp⟩
      obtain ⟨-,host,link⟩ := edgeAttachment_eq_some standing
      refine ⟨b,attachmentIn_eq_some.mpr ⟨?_,?_⟩⟩
      · rw [same,edge,edge,host,link]
      · rw [host,link]
        exact standing
    · rintro ⟨a,standing⟩
      obtain ⟨same,declared⟩ := attachmentIn_eq_some.mp standing
      exact ⟨a,(edgeAttachment_eq_some declared).1,same.symm⟩
  refine ⟨edges,?_⟩
  intro a
  have listed : a ∈ (PhysicalGraph.init nx hosts).bridges ↔
      ∃ x y, (x,y) ∈ nx.bridges (PhysicalGraph.init nx hosts).graph ∧
        attachmentIn (PhysicalGraph.init nx hosts).declared x y = some a := by
    simp [PhysicalGraph.init]
  rw [listed]
  constructor
  · rintro ⟨x,y,member,standing⟩
    obtain ⟨same,declared⟩ := attachmentIn_eq_some.mp standing
    rw [same]
    exact ⟨declared,((lawful.bridges _ x y).mp (.inl member)).2⟩
  · rintro ⟨declared,bridge⟩
    have standing : attachmentIn (PhysicalGraph.init nx hosts).declared (.host a.host) (.link a.link) = some a :=
      attachmentIn_eq_some.mpr ⟨rfl,declared⟩
    rcases (lawful.bridges _ _ _).mpr ⟨(edges _ _).mpr ⟨a,standing⟩,bridge⟩ with member | member
    · exact ⟨_,_,member,standing⟩
    · exact ⟨_,_,member,attachmentIn_eq_some.mpr ⟨Sym2.eq_swap,declared⟩⟩

/-! ### Climbing a search tree -/

/-- A walk that goes from each node to its parent, up to the source. -/
def Ascends {G : SimpleGraph Node} (parents : Node → Option Node) {source : Node} :
    {node : Node} → G.Walk node source → Prop
  | _, .nil => parents source = none
  | node, .cons (v := parent) _ rest => parents node = some parent ∧ Ascends parents rest

section search
variable {nx : NetworkX} (lawful : nx.Lawful) {graph : Graph} {source : Node} (inside : source ∈ graph.nodes)
include lawful inside

/-- From every node it reaches, the search leads back along a shortest path. -/
theorem exists_ascent {node : Node} (reachable : graph.simple.Reachable source node) :
    ∃ p : graph.simple.Walk node source, p.length = graph.simple.dist source node ∧
      Ascends (nx.bfsPredecessors graph source) p := by
  induction far : graph.simple.dist source node generalizing node with
  | zero =>
    obtain rfl := (reachable.dist_eq_zero_iff).mp far
    refine ⟨.nil,rfl,?_⟩
    by_contra listed
    exact ((lawful.bfs_reaches graph source source inside).mp listed).1 rfl
  | succ n ih =>
    have other : node ≠ source := by
      rintro rfl
      rw [dist_self] at far
      cases far
    obtain ⟨parent,listed⟩ := Option.ne_none_iff_exists'.mp
      ((lawful.bfs_reaches graph source node inside).mpr ⟨other,reachable⟩)
    obtain ⟨adj,step⟩ := lawful.bfs_tree graph source node parent inside listed
    obtain ⟨rest,length,ascends⟩ := ih (reachable.trans adj.symm.reachable) (by omega)
    exact ⟨.cons adj.symm rest,by rw [Walk.length_cons,length],listed,ascends⟩

theorem parentOf_ne_none {node : Node} :
    parentOf (nx.bfsPredecessors graph source) source node ≠ none ↔ graph.simple.Reachable source node := by
  have law := lawful.bfs_reaches graph source node inside
  unfold parentOf
  cases listed : nx.bfsPredecessors graph source node with
  | some parent => simpa using (law.mp (by simp [listed])).2
  | none =>
    by_cases same : node = source
    · simp [same]
    · rw [listed] at law
      simp only [same,if_false,ne_eq,not_true_eq_false,false_iff]
      intro reachable
      exact law.mpr ⟨same,reachable⟩ rfl

/-- The search's path back decides whether there is only one simple path. -/
theorem exists_climb {node : Node} (reachable : graph.simple.Reachable source node) :
    ∃ p : graph.simple.Walk node source, Ascends (nx.bfsPredecessors graph source) p ∧
      p.length < graph.nodes.card + 1 ∧ p.IsPath ∧
      ((∃! q : graph.simple.Walk source node, q.IsPath) ↔ ∀ e ∈ p.edges, graph.simple.IsBridge e) := by
  obtain ⟨p,length,ascends⟩ := exists_ascent lawful inside reachable
  have short := dist_lt_card inside reachable
  have path : p.IsPath := p.isPath_of_length_eq_dist (by rw [length,dist_comm])
  have only := unique_path_iff_bridges path.reverse
  rw [Walk.edges_reverse] at only
  simp only [List.mem_reverse] at only
  refine ⟨p,ascends,by omega,path,?_⟩
  rw [← only]
  constructor
  · rintro ⟨q,-,unique⟩ other isPath
    rw [unique other isPath,unique p.reverse path.reverse]
  · intro unique
    exact ⟨p.reverse,path.reverse,unique⟩

end search

/-- Without the edge of an attachment, exactly that edge is gone. -/
theorem view_adj {g : PhysicalGraph} {a : Attachment} (standing : edgeAttachment g.declared a.host a.link = some a) {x y : Node} :
    (g.graph.view fun pair => edgeAttachment g.declared pair.1 pair.2 ≠ some a).simple.Adj x y ↔
      (g.graph.simple.deleteEdges {edge a}).Adj x y := by
  rw [simple_adj,deleteEdges_adj,simple_adj,Set.mem_singleton_iff]
  simp only [Graph.view,Finset.mem_filter,decide_eq_true_eq]
  constructor
  · rintro ⟨pair,⟨member,other⟩,same⟩
    refine ⟨⟨pair,member,same⟩,?_⟩
    rintro excluded
    rw [excluded,edge] at same
    obtain ⟨host,link⟩ : a.host = pair.1 ∧ a.link = pair.2 := by simpa using same
    exact other (by rw [← host,← link]; exact standing)
  · rintro ⟨⟨pair,member,same⟩,other⟩
    refine ⟨pair,⟨member,?_⟩,same⟩
    intro excluded
    obtain ⟨-,host,link⟩ := edgeAttachment_eq_some excluded
    exact other (by rw [same,edge,host,link])

section loops
variable {nx : NetworkX} {g : PhysicalGraph} (physical : Physical g)
include physical

theorem attachment_of_adj {x y : Node} (adj : g.graph.simple.Adj x y) :
    ∃ a, attachment g x y = .ok a ∧ edge a = s(x,y) ∧ edgeAttachment g.declared a.host a.link = some a := by
  obtain ⟨a,standing⟩ := (physical.edges x y).mp adj
  exact ⟨a,found_eq_ok.mpr standing,attachmentIn_eq_some.mp standing⟩

theorem retrace_ok {parents : Node → Option Node} {H : SimpleGraph Node} (below : H ≤ g.graph.simple) {start node : Node}
    {p : H.Walk node start} (ascends : Ascends parents p) {fuel : Nat} (enough : p.length < fuel) (path : List String)
    (shortest : p.IsPath) : ∃ result, retrace g parents start fuel node path = .ok result := by
  induction p generalizing fuel path with
  | nil =>
    obtain ⟨fuel,rfl⟩ := Nat.exists_eq_succ_of_ne_zero (by omega : fuel ≠ 0)
    exact ⟨path.reverse,by simp [retrace]⟩
  | @cons node parent start adj rest ih =>
    obtain ⟨fuel,rfl⟩ := Nat.exists_eq_succ_of_ne_zero (by omega : fuel ≠ 0)
    rw [Walk.cons_isPath_iff] at shortest
    have other : node ≠ start := fun same => shortest.2 (same ▸ rest.end_mem_support)
    obtain ⟨a,used,-,-⟩ := attachment_of_adj physical (below adj)
    rw [Walk.length_cons] at enough
    obtain ⟨result,returned⟩ := ih ascends.2 (show rest.length < fuel by omega) (path ++ [a.reference]) shortest.1
    refine ⟨result,?_⟩
    rw [retrace,if_neg other,ascends.1]
    simp only [found,used,bind,Except.bind]
    exact returned

/-- The diagnostic search for a way around an attachment that is no bridge finds one. -/
theorem alternativePath_ok (lawful : nx.Lawful) {x y : Node} {a : Attachment} (adj : g.graph.simple.Adj x y)
    (same : edge a = s(x,y)) (standing : edgeAttachment g.declared a.host a.link = some a)
    (detour : ¬ g.graph.simple.IsBridge (edge a)) : ∃ result, alternativePath nx g x y a = .ok result := by
  have inside : x ∈ g.graph.nodes := by
    obtain ⟨pair,member,ends⟩ := simple_adj.mp adj
    have closed := g.graph.closed pair member
    rcases Sym2.eq_iff.mp ends with ⟨rfl,-⟩ | ⟨rfl,-⟩
    · exact closed.1
    · exact closed.2
  generalize viewIs : (g.graph.view fun pair => edgeAttachment g.declared pair.1 pair.2 ≠ some a) = view
  have removed : view.simple = g.graph.simple.deleteEdges {edge a} := by
    ext u v
    rw [← viewIs]
    exact view_adj standing
  have nodes : view.nodes = g.graph.nodes := by rw [← viewIs]; rfl
  have around : view.simple.Reachable x y := by
    rw [removed,same]
    rw [same,isBridge_iff,not_not] at detour
    exact detour
  have start : x ∈ view.nodes := nodes ▸ inside
  obtain ⟨p,length,ascends⟩ := exists_ascent lawful start around
  have short := dist_lt_card start around
  rw [nodes] at short
  rw [alternativePath,viewIs]
  refine retrace_ok physical (by rw [removed]; exact deleteEdges_le _) ascends (by omega) [] ?_
  exact p.isPath_of_length_eq_dist (by rw [length,dist_comm])

section climb
variable {wire : WireDeclaration} {first member : String} {parents : Node → Option Node} {node : Node}

/-- One turn of the climb: a bridge is selected, anything else is an ambiguity. -/
theorem climb_step (lawful : nx.Lawful) {parent : Node} (up : parents node = some parent)
    (adj : g.graph.simple.Adj node parent) (fuel : Nat) (selected : List Attachment) :
    ∃ a, edge a = s(node,parent) ∧ edgeAttachment g.declared a.host a.link = some a ∧
      (g.graph.simple.IsBridge (edge a) → climb nx g wire first member parents (fuel + 1) node selected =
        climb nx g wire first member parents fuel parent (selected.insert a)) ∧
      (¬ g.graph.simple.IsBridge (edge a) → ∃ message,
        climb nx g wire first member parents (fuel + 1) node selected = .error (.valueError message)) := by
  obtain ⟨a,used,same,standing⟩ := attachment_of_adj physical adj
  have known : parentOf parents (.host first) node = some (some parent) := by simp [parentOf,up]
  have bridge := physical.bridges a
  simp only [standing,true_and] at bridge
  refine ⟨a,same,standing,?_,?_⟩
  · intro isBridge
    rw [climb,known]
    simp only [found,used,bind,Except.bind,if_pos (bridge.mpr isBridge)]
  · intro detour
    obtain ⟨alternative,returned⟩ := alternativePath_ok physical lawful adj same standing detour
    rw [climb,known]
    simp only [found,used,bind,Except.bind,if_neg (fun listed => detour (bridge.mp listed)),returned]
    exact ⟨_,rfl⟩

/-- Along a path of bridges the climb selects the path's attachments. -/
theorem climb_ok (lawful : nx.Lawful) {p : g.graph.simple.Walk node (.host first)} (ascends : Ascends parents p)
    {fuel : Nat} (enough : p.length < fuel) (bridges : ∀ e ∈ p.edges, g.graph.simple.IsBridge e)
    (selected : List Attachment) :
    ∃ result, climb nx g wire first member parents fuel node selected = .ok result ∧
      ∀ a, a ∈ result ↔ a ∈ selected ∨ edgeAttachment g.declared a.host a.link = some a ∧ edge a ∈ p.edges := by
  generalize rootIs : Node.host first = root at p ascends
  induction p generalizing fuel selected with
  | nil =>
    subst rootIs
    obtain ⟨fuel,rfl⟩ := Nat.exists_eq_succ_of_ne_zero (by omega : fuel ≠ 0)
    refine ⟨selected,?_,by simp⟩
    have listed : parents (.host first) = none := ascends
    have top : parentOf parents (.host first) (.host first) = some none := by simp [parentOf,listed]
    rw [climb,top]
    rfl
  | @cons node parent root adj rest ih =>
    obtain ⟨fuel,rfl⟩ := Nat.exists_eq_succ_of_ne_zero (by omega : fuel ≠ 0)
    rw [Walk.length_cons] at enough
    rw [Walk.edges_cons] at bridges
    obtain ⟨a,same,standing,steps,-⟩ := climb_step physical lawful ascends.1 adj fuel selected
    obtain ⟨result,returned,members⟩ := ih (selected.insert a) rootIs ascends.2 (show rest.length < fuel by omega)
      (fun e later => bridges e (List.mem_cons_of_mem _ later))
    refine ⟨result,?_,?_⟩
    · rw [steps (same ▸ bridges _ List.mem_cons_self)]
      exact returned
    · intro b
      rw [members,List.mem_insert_iff,Walk.edges_cons,List.mem_cons]
      constructor
      · rintro ((rfl | old) | ⟨stands,later⟩)
        · exact .inr ⟨standing,.inl same⟩
        · exact .inl old
        · exact .inr ⟨stands,.inr later⟩
      · rintro (old | ⟨stands,now | later⟩)
        · exact .inl (.inr old)
        · exact .inl (.inl (standing_unique stands standing (now.trans same.symm)))
        · exact .inr ⟨stands,later⟩

/-- Off the bridges the climb ends in an error that says so. -/
theorem climb_error (lawful : nx.Lawful) {p : g.graph.simple.Walk node (.host first)} (ascends : Ascends parents p)
    {fuel : Nat} (enough : p.length < fuel) {e : Sym2 Node} (used : e ∈ p.edges) (detour : ¬ g.graph.simple.IsBridge e)
    (selected : List Attachment) :
    ∃ message, climb nx g wire first member parents fuel node selected = .error (.valueError message) := by
  generalize rootIs : Node.host first = root at p ascends
  induction p generalizing fuel selected with
  | nil => cases used
  | @cons node parent root adj rest ih =>
    obtain ⟨fuel,rfl⟩ := Nat.exists_eq_succ_of_ne_zero (by omega : fuel ≠ 0)
    rw [Walk.length_cons] at enough
    rw [Walk.edges_cons,List.mem_cons] at used
    obtain ⟨a,same,-,steps,stops⟩ := climb_step physical lawful ascends.1 adj fuel selected
    by_cases bridge : g.graph.simple.IsBridge (edge a)
    · have later : e ∈ rest.edges := by
        refine used.resolve_left ?_
        rintro rfl
        exact detour (same ▸ bridge)
      rw [steps bridge]
      exact ih (selected.insert a) rootIs ascends.2 (show rest.length < fuel by omega) later
    · exact stops bridge

end climb

/-! ### Whole inference -/

variable {wire : WireDeclaration} {first : String}

theorem inferEach_ok (lawful : nx.Lawful) (inside : .host first ∈ g.graph.nodes) {rest : List String}
    (only : ∀ m ∈ rest, ∃! p : g.graph.simple.Walk (.host first) (.host m), p.IsPath) (selected : List Attachment) :
    ∃ result, inferEach nx g wire first (nx.bfsPredecessors g.graph (.host first)) rest selected = .ok result ∧
      ∀ a, a ∈ result ↔ a ∈ selected ∨ edgeAttachment g.declared a.host a.link = some a ∧
        ∃ m ∈ rest, ∃ p : g.graph.simple.Walk (.host first) (.host m), p.IsPath ∧ edge a ∈ p.edges := by
  induction rest generalizing selected with
  | nil => exact ⟨selected,rfl,by simp⟩
  | cons member rest ih =>
    have single := only member List.mem_cons_self
    obtain ⟨q,-⟩ := single.exists
    have reachable : g.graph.simple.Reachable (.host first) (.host member) := ⟨q⟩
    obtain ⟨p,ascends,short,path,bridges⟩ := exists_climb lawful inside reachable
    obtain ⟨climbed,returned,here⟩ := climb_ok physical lawful ascends short (bridges.mp single) selected
    obtain ⟨result,rests,members⟩ := ih (fun m later => only m (List.mem_cons_of_mem _ later)) climbed
    refine ⟨result,?_,?_⟩
    · rw [inferEach,require,if_pos ((parentOf_ne_none lawful inside).mpr reachable)]
      simp only [bind,Except.bind]
      rw [returned]
      exact rests
    · -- The member's only simple path is the climbed one, read from the root.
      intro a
      have reversed : (∃ p : g.graph.simple.Walk (.host first) (.host member), p.IsPath ∧ edge a ∈ p.edges) ↔
          edge a ∈ p.edges := by
        constructor
        · rintro ⟨other,isPath,used⟩
          rw [single.unique isPath path.reverse,Walk.edges_reverse,List.mem_reverse] at used
          exact used
        · intro used
          exact ⟨p.reverse,path.reverse,by rwa [Walk.edges_reverse,List.mem_reverse]⟩
      rw [members,here]
      simp only [List.mem_cons,exists_eq_or_imp,reversed]
      tauto

theorem inferEach_error (lawful : nx.Lawful) (inside : .host first ∈ g.graph.nodes) {rest : List String} {m : String}
    (among : m ∈ rest) (several : ¬ ∃! p : g.graph.simple.Walk (.host first) (.host m), p.IsPath)
    (selected : List Attachment) :
    ∃ message, inferEach nx g wire first (nx.bfsPredecessors g.graph (.host first)) rest selected =
      .error (.valueError message) := by
  induction rest generalizing selected with
  | nil => cases among
  | cons member rest ih =>
    by_cases reachable : g.graph.simple.Reachable (.host first) (.host member)
    · obtain ⟨p,ascends,short,path,bridges⟩ := exists_climb lawful inside reachable
      rw [inferEach,require,if_pos ((parentOf_ne_none lawful inside).mpr reachable)]
      simp only [bind,Except.bind]
      by_cases all : ∀ e ∈ p.edges, g.graph.simple.IsBridge e
      · obtain ⟨climbed,returned,-⟩ := climb_ok physical lawful ascends short all selected
        rw [returned]
        refine ih ?_ climbed
        rcases List.mem_cons.mp among with rfl | later
        · exact absurd (bridges.mpr all) several
        · exact later
      · push Not at all
        obtain ⟨e,used,detour⟩ := all
        obtain ⟨message,failed⟩ := climb_error physical lawful ascends short used detour selected
        rw [failed]
        exact ⟨message,rfl⟩
    · rw [inferEach,require,if_neg (fun known => reachable ((parentOf_ne_none lawful inside).mp known))]
      exact ⟨_,rfl⟩

end loops

theorem host_mem_nodes {nx : NetworkX} {hosts : List HostDeclaration} {host : HostDeclaration} (known : host ∈ hosts) :
    .host host.name ∈ (PhysicalGraph.init nx hosts).graph.nodes := by
  simp only [PhysicalGraph.init,Graph.build,List.mem_toFinset,List.mem_append,List.mem_map]
  refine .inl (.inl ⟨host.name,⟨host,?_,rfl⟩,rfl⟩)
  exact (List.perm_insertionSort _ hosts).mem_iff.mpr known

section inference
variable {nx : NetworkX} {hosts : List HostDeclaration} {wire : WireDeclaration} {first : String} {rest : List String}
  (several : rest ≠ []) (known : ∃ host ∈ hosts, host.name = first)
include several known

theorem infer_eq : infer nx (PhysicalGraph.init nx hosts) wire (first :: rest) =
    inferEach nx (PhysicalGraph.init nx hosts) wire first
      (nx.bfsPredecessors (PhysicalGraph.init nx hosts).graph (.host first)) rest [] := by
  obtain ⟨second,others,rfl⟩ := List.exists_cons_of_ne_nil several
  obtain ⟨host,member,rfl⟩ := known
  rw [infer,if_pos (host_mem_nodes member)]
  simp

/-- With only one simple path to each other member, these paths are selected; they form the
    least connected subgraph through the members. -/
theorem infer_ok (lawful : nx.Lawful)
    (only : ∀ m ∈ rest, ∃! p : (PhysicalGraph.init nx hosts).graph.simple.Walk (.host first) (.host m), p.IsPath) :
    ∃ selected, infer nx (PhysicalGraph.init nx hosts) wire (first :: rest) = .ok selected ∧
      (∀ a, a ∈ selected ↔ edgeAttachment (PhysicalGraph.init nx hosts).declared a.host a.link = some a ∧
        ∃ m ∈ rest, ∃ p : (PhysicalGraph.init nx hosts).graph.simple.Walk (.host first) (.host m),
          p.IsPath ∧ edge a ∈ p.edges) ∧
      ∃ T : (PhysicalGraph.init nx hosts).graph.simple.Subgraph, (∀ e, e ∈ T.edgeSet ↔ ∃ a ∈ selected, edge a = e) ∧
        IsLeast {H : (PhysicalGraph.init nx hosts).graph.simple.Subgraph |
          H.Connected ∧ ∀ m ∈ first :: rest, .host m ∈ H.verts} T := by
  have physical := init_physical nx lawful hosts
  have inside : .host first ∈ (PhysicalGraph.init nx hosts).graph.nodes := by
    obtain ⟨host,member,rfl⟩ := known
    exact host_mem_nodes member
  obtain ⟨selected,returned,members⟩ := inferEach_ok physical lawful inside only []
  simp only [List.not_mem_nil,false_or] at members
  refine ⟨selected,by rw [infer_eq several known]; exact returned,members,?_⟩
  have ends : ∀ b ∈ rest.map Node.host,
      ∃! p : (PhysicalGraph.init nx hosts).graph.simple.Walk (.host first) b, p.IsPath := by
    intro b member
    obtain ⟨m,among,rfl⟩ := List.mem_map.mp member
    exact only m among
  obtain ⟨T,least,edges⟩ := exists_least ends
  refine ⟨T,?_,?_⟩
  · intro e
    rw [edges]
    constructor
    · rintro ⟨b,member,p,path,used⟩
      obtain ⟨m,among,rfl⟩ := List.mem_map.mp member
      -- Every edge of the physical graph has the attachment that stands on it.
      induction e with
      | h x y =>
        obtain ⟨a,standing⟩ := (physical.edges x y).mp (p.adj_of_mem_edges used)
        obtain ⟨same,declared⟩ := attachmentIn_eq_some.mp standing
        exact ⟨a,(members a).mpr ⟨declared,m,among,p,path,same ▸ used⟩,same⟩
    · rintro ⟨a,member,rfl⟩
      obtain ⟨-,m,among,p,path,used⟩ := (members a).mp member
      exact ⟨.host m,List.mem_map_of_mem among,p,path,used⟩
  · simpa using least

theorem infer_error (lawful : nx.Lawful) {m : String} (among : m ∈ rest)
    (other : ¬ ∃! p : (PhysicalGraph.init nx hosts).graph.simple.Walk (.host first) (.host m), p.IsPath) :
    ∃ message, infer nx (PhysicalGraph.init nx hosts) wire (first :: rest) = .error (.valueError message) := by
  have inside : .host first ∈ (PhysicalGraph.init nx hosts).graph.nodes := by
    obtain ⟨host,member,rfl⟩ := known
    exact host_mem_nodes member
  rw [infer_eq several known]
  exact inferEach_error (init_physical nx lawful hosts) lawful inside among other []

end inference

/-- Inference returns exactly when each other member has only one simple path from the
    first; it then selects these paths, which are the least connected subgraph through
    the members, whichever member comes first. Otherwise it raises a `ValueError`. -/
theorem infer_unique_minimal_tree (nx : NetworkX) (lawful : nx.Lawful) (hosts : List HostDeclaration)
    (wire : WireDeclaration) (first : String) (rest : List String) (several : rest ≠ [])
    (known : ∀ m ∈ first :: rest, ∃ host ∈ hosts, host.name = m) :
    let g := PhysicalGraph.init nx hosts
    let only := ∀ m ∈ rest, ∃! p : g.graph.simple.Walk (.host first) (.host m), p.IsPath
    ((∃ selected, infer nx g wire (first :: rest) = .ok selected) ↔ only) ∧
    (∀ selected, infer nx g wire (first :: rest) = .ok selected →
      (∀ a, a ∈ selected ↔ edgeAttachment g.declared a.host a.link = some a ∧
        ∃ m ∈ rest, ∃ p : g.graph.simple.Walk (.host first) (.host m), p.IsPath ∧ edge a ∈ p.edges) ∧
      (∃ T : g.graph.simple.Subgraph, (∀ e, e ∈ T.edgeSet ↔ ∃ a ∈ selected, edge a = e) ∧
        IsLeast {H : g.graph.simple.Subgraph | H.Connected ∧ ∀ m ∈ first :: rest, .host m ∈ H.verts} T) ∧
      ∀ others, others.Perm (first :: rest) →
        ∃ selected', infer nx g wire others = .ok selected' ∧ ∀ a, a ∈ selected' ↔ a ∈ selected) ∧
    (¬ only → ∃ message, infer nx g wire (first :: rest) = .error (.valueError message)) := by
  intro g only
  have start := known first List.mem_cons_self
  have stuck (ambiguous : ¬ only) : ∃ message, infer nx g wire (first :: rest) = .error (.valueError message) := by
    simp only [only,not_forall] at ambiguous
    obtain ⟨m,among,other⟩ := ambiguous
    exact infer_error several start lawful among other
  have returns {selected : List Attachment} (returned : infer nx g wire (first :: rest) = .ok selected) : only := by
    by_contra ambiguous
    obtain ⟨message,failed⟩ := stuck ambiguous
    rw [returned] at failed
    cases failed
  refine ⟨⟨?_,?_⟩,?_,stuck⟩
  · rintro ⟨selected,returned⟩
    exact returns returned
  · intro unique
    obtain ⟨selected,returned,-⟩ := infer_ok several start lawful unique
    exact ⟨selected,returned⟩
  · intro selected returned
    have unique := returns returned
    obtain ⟨selected₁,returned₁,members,T,edges,least⟩ := infer_ok several start lawful unique
    obtain rfl : selected = selected₁ := Except.ok.inj (returned.symm.trans returned₁)
    refine ⟨members,⟨T,edges,least⟩,?_⟩
    intro others reordered
    obtain ⟨first',rest',rfl⟩ := List.exists_cons_of_ne_nil (l := others) (by rintro rfl; exact List.not_perm_nil_cons _ _ reordered)
    have several' : rest' ≠ [] := by
      rintro rfl
      have length := reordered.length_eq
      simp only [List.length_cons,List.length_nil] at length
      exact several (List.length_eq_zero_iff.mp (by omega))
    have reach (m : String) (among : m ∈ first :: rest) : ∃! p : g.graph.simple.Walk (.host first) (.host m), p.IsPath := by
      rcases List.mem_cons.mp among with rfl | later
      · exact only_self _
      · exact unique m later
    have unique' : ∀ m ∈ rest', ∃! p : g.graph.simple.Walk (.host first') (.host m), p.IsPath := fun m among =>
      only_between (reach first' (reordered.mem_iff.mp List.mem_cons_self))
        (reach m (reordered.mem_iff.mp (List.mem_cons_of_mem _ among)))
    obtain ⟨selected',returned',members',T',edges',least'⟩ := infer_ok several'
      (known first' (reordered.mem_iff.mp List.mem_cons_self)) lawful unique'
    simp only [reordered.mem_iff] at least'
    obtain rfl : T = T' := least.unique least'
    refine ⟨selected',returned',?_⟩
    intro a
    constructor
    · intro member
      obtain ⟨b,among,same⟩ := (edges (edge a)).mp ((edges' (edge a)).mpr ⟨a,member,rfl⟩)
      rwa [← standing_unique ((members b).mp among).1 ((members' a).mp member).1 same]
    · intro member
      obtain ⟨b,among,same⟩ := (edges' (edge a)).mp ((edges (edge a)).mpr ⟨a,member,rfl⟩)
      rwa [← standing_unique ((members' b).mp among).1 ((members a).mp member).1 same]

/-- Two hosts on a Link, the second also on two parallel Links to a third. -/
def parallel : List HostDeclaration :=
  [⟨"A",1,[⟨"X","X",none⟩]⟩,⟨"B",2,[⟨"X","X",none⟩,⟨"Y","Y",none⟩,⟨"Z","Z",none⟩]⟩,
    ⟨"C",3,[⟨"Y","Y",none⟩,⟨"Z","Z",none⟩]⟩]

theorem infer_beside_cycle :
    (∃! p : (PhysicalGraph.init WiringSearch.layered parallel).graph.simple.Walk (.host "A") (.host "B"), p.IsPath) ∧
      ¬ ∃! p : (PhysicalGraph.init WiringSearch.layered parallel).graph.simple.Walk (.host "A") (.host "C"), p.IsPath := by
  have bridged := infer_unique_minimal_tree WiringSearch.layered WiringSearch.layered_lawful parallel ⟨"W",1,none,none,none,none,none⟩
    "A" ["B"] (by decide) (by decide)
  have cyclic := infer_unique_minimal_tree WiringSearch.layered WiringSearch.layered_lawful parallel ⟨"W",1,none,none,none,none,none⟩
    "A" ["C"] (by decide) (by decide)
  constructor
  · exact bridged.1.mp ⟨[⟨"A","X","X"⟩,⟨"B","X","X"⟩],by decide +kernel⟩ "B" (by simp)
  · intro only
    obtain ⟨selected,returned⟩ := cyclic.1.mpr (by simpa using only)
    have failed : (infer WiringSearch.layered (PhysicalGraph.init WiringSearch.layered parallel)
      ⟨"W",1,none,none,none,none,none⟩ ["A","C"]).toOption = none := by decide +kernel
    rw [returned] at failed
    cases failed

end WireSpaces.WiringInference
