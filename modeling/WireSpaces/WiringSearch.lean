import WireSpaces.WiringTopology

/-!
An executable instance of the NetworkX calls: everything is read off the layers of a
breadth-first search. It shows that the laws can be met and lets examples run.
-/
namespace WireSpaces.WiringSearch
open WireSpaces.WiringModels WireSpaces.WiringTopology SimpleGraph

instance (edges : Finset (String × String)) : DecidableRel (Joined edges)
  | .host host, .link link => inferInstanceAs (Decidable ((host,link) ∈ edges))
  | .link link, .host host => inferInstanceAs (Decidable ((host,link) ∈ edges))
  | .host _, .host _ => isFalse id
  | .link _, .link _ => isFalse id

/-- The nodes within a number of steps of the source. -/
def layer (g : Graph) (source : Node) : Nat → Finset Node
  | 0 => {source}
  | n + 1 => layer g source n ∪ g.nodes.filter fun v => ∃ u ∈ layer g source n, Joined g.edges u v

def component (g : Graph) (source : Node) : Finset Node := layer g source g.nodes.card

def isBridge (g : Graph) (pair : String × String) : Bool :=
  .link pair.2 ∉ component (g.view fun other => other ≠ pair) (.host pair.1)

def depth (g : Graph) (source node : Node) : Option Nat :=
  (List.range (g.nodes.card + 1)).find? fun n => node ∈ layer g source n

/-- The least neighbour one layer closer to the source. -/
def predecessor (g : Graph) (source : Node) : Node → Option Node
  | .host name => do
    let n ← depth g source (.host name)
    let link ← ((g.edges.filter fun pair => n ≠ 0 ∧ pair.1 = name ∧ .link pair.2 ∈ layer g source (n - 1)).image (·.2)).min
    return .link link
  | .link name => do
    let n ← depth g source (.link name)
    let host ← ((g.edges.filter fun pair => n ≠ 0 ∧ pair.2 = name ∧ .host pair.1 ∈ layer g source (n - 1)).image (·.1)).min
    return .host host

def connected (g : Graph) : Bool := decide (g.nodes.Nonempty ∧ ∀ a ∈ g.nodes, ∀ b ∈ g.nodes, b ∈ component g a)

def layered : NetworkX where
  bridges g := (g.edges.filter fun pair => isBridge g pair).image fun pair => (.host pair.1,.link pair.2)
  bfsPredecessors := predecessor
  nodeConnectedComponent := component
  isConnected := connected
  isTree g := connected g && decide (∀ pair ∈ g.edges, isBridge g pair)

theorem mem_layer {g : Graph} {source node : Node} {n : Nat} :
    node ∈ layer g source n ↔ ∃ p : g.simple.Walk source node, p.length ≤ n := by
  induction n generalizing node with
  | zero =>
    rw [layer,Finset.mem_singleton]
    constructor
    · rintro rfl
      exact ⟨.nil,le_refl 0⟩
    · rintro ⟨p,short⟩
      exact (Walk.eq_of_length_eq_zero (Nat.le_zero.mp short)).symm
  | succ n ih =>
    rw [layer,Finset.mem_union,Finset.mem_filter,ih]
    constructor
    · rintro (⟨p,short⟩ | ⟨-,u,near,joined⟩)
      · exact ⟨p,short.trans (Nat.le_succ n)⟩
      · obtain ⟨p,short⟩ := ih.mp near
        have adj : g.simple.Adj u node := joined
        exact ⟨p.concat adj,by rw [Walk.length_concat]; omega⟩
    · rintro ⟨p,short⟩
      by_cases shorter : p.length ≤ n
      · exact .inl ⟨p,shorter⟩
      · right
        have some_ : ¬ p.Nil := by
          intro empty
          rw [Walk.length_eq_zero_iff.mpr empty] at shorter
          omega
        have adj : g.simple.Adj p.penultimate node := p.adj_penultimate some_
        obtain ⟨pair,member,ends⟩ := simple_adj.mp adj
        have closed := g.closed pair member
        refine ⟨?_,p.penultimate,ih.mpr ⟨p.dropLast,?_⟩,adj⟩
        · rcases Sym2.eq_iff.mp ends with ⟨-,rfl⟩ | ⟨-,rfl⟩
          · exact closed.2
          · exact closed.1
        · rw [Walk.length_dropLast]
          omega

theorem mem_layer_iff_dist {g : Graph} {source node : Node} {n : Nat} :
    node ∈ layer g source n ↔ g.simple.Reachable source node ∧ g.simple.dist source node ≤ n := by
  rw [mem_layer]
  constructor
  · rintro ⟨p,short⟩
    exact ⟨⟨p⟩,(dist_le p).trans short⟩
  · rintro ⟨reachable,short⟩
    obtain ⟨p,length⟩ := reachable.exists_walk_length_eq_dist
    exact ⟨p,length.le.trans short⟩

theorem mem_component {g : Graph} {source node : Node} (inside : source ∈ g.nodes) :
    node ∈ component g source ↔ g.simple.Reachable source node := by
  rw [component,mem_layer_iff_dist]
  exact ⟨And.left,fun reachable => ⟨reachable,(dist_lt_card inside reachable).le⟩⟩

theorem isBridge_iff_simple {g : Graph} {pair : String × String} (member : pair ∈ g.edges) :
    isBridge g pair = true ↔ g.simple.IsBridge s(.host pair.1,.link pair.2) := by
  have removed : (g.view fun other => other ≠ pair).simple = g.simple.deleteEdges {s(.host pair.1,.link pair.2)} := by
    ext x y
    rw [deleteEdges_adj,simple_adj,simple_adj,Set.mem_singleton_iff]
    simp only [Graph.view,Finset.mem_filter,decide_eq_true_eq]
    constructor
    · rintro ⟨other,⟨among,different⟩,ends⟩
      refine ⟨⟨other,among,ends⟩,?_⟩
      rw [ends]
      intro same
      obtain ⟨host,link⟩ : other.1 = pair.1 ∧ other.2 = pair.2 := by simpa using same
      exact different (Prod.ext host link)
    · rintro ⟨⟨other,among,ends⟩,different⟩
      exact ⟨other,⟨among,fun same => different (by rw [ends,same])⟩,ends⟩
  have inside : .host pair.1 ∈ (g.view fun other => other ≠ pair).nodes := (g.closed pair member).1
  rw [isBridge,decide_eq_true_eq,mem_component inside,removed,isBridge_iff]

section predecessor
variable {g : Graph} {source node : Node}

theorem depth_eq_some (inside : source ∈ g.nodes) {n : Nat} :
    depth g source node = some n ↔ g.simple.Reachable source node ∧ g.simple.dist source node = n := by
  rw [depth,List.find?_range_eq_some]
  simp only [decide_eq_true_eq,mem_layer_iff_dist,List.mem_range,Bool.not_eq_true',decide_eq_false_iff_not,not_and,not_le]
  constructor
  · rintro ⟨⟨reachable,short⟩,-,least⟩
    refine ⟨reachable,?_⟩
    by_contra other
    exact absurd (least _ (by omega) reachable) (lt_irrefl _)
  · rintro ⟨reachable,rfl⟩
    exact ⟨⟨reachable,le_refl _⟩,(dist_lt_card inside reachable).trans (Nat.lt_succ_self _),fun j less _ => less⟩

/-- The neighbours of a node one layer closer to the source. -/
def Closer (g : Graph) (source node parent : Node) : Prop :=
  ∃ n, depth g source node = some n ∧ n ≠ 0 ∧ g.simple.Adj parent node ∧ parent ∈ layer g source (n - 1)

theorem closer_of_predecessor {parent : Node} (listed : predecessor g source node = some parent) :
    Closer g source node parent := by
  cases node with
  | host name =>
    obtain ⟨n,far,rest⟩ := Option.bind_eq_some_iff.mp listed
    obtain ⟨link,least,same⟩ := Option.bind_eq_some_iff.mp rest
    obtain ⟨pair,member,rfl⟩ := Finset.mem_image.mp (Finset.mem_of_min least)
    obtain ⟨edge,some_,rfl,near⟩ := Finset.mem_filter.mp member
    cases same
    exact ⟨n,far,some_,edge,near⟩
  | link name =>
    obtain ⟨n,far,rest⟩ := Option.bind_eq_some_iff.mp listed
    obtain ⟨host,least,same⟩ := Option.bind_eq_some_iff.mp rest
    obtain ⟨pair,member,rfl⟩ := Finset.mem_image.mp (Finset.mem_of_min least)
    obtain ⟨edge,some_,rfl,near⟩ := Finset.mem_filter.mp member
    cases same
    exact ⟨n,far,some_,edge,near⟩

theorem predecessor_of_closer {parent : Node} (closer : Closer g source node parent) : predecessor g source node ≠ none := by
  obtain ⟨n,far,some_,adj,near⟩ := closer
  cases node with
  | host name =>
    cases parent with
    | host => cases adj
    | link link =>
      have edge : (name,link) ∈ g.edges := adj
      obtain ⟨least,found⟩ := Finset.min_of_mem (Finset.mem_image_of_mem (·.2)
        (Finset.mem_filter.mpr ⟨edge,some_,rfl,near⟩ :
          (name,link) ∈ g.edges.filter fun pair => n ≠ 0 ∧ pair.1 = name ∧ .link pair.2 ∈ layer g source (n - 1)))
      intro none
      have made : predecessor g source (.host name) = some (.link least) :=
        Option.bind_eq_some_iff.mpr ⟨n,far,Option.bind_eq_some_iff.mpr ⟨least,found,rfl⟩⟩
      rw [none] at made
      cases made
  | link name =>
    cases parent with
    | link => cases adj
    | host host =>
      have edge : (host,name) ∈ g.edges := adj
      obtain ⟨least,found⟩ := Finset.min_of_mem (Finset.mem_image_of_mem (·.1)
        (Finset.mem_filter.mpr ⟨edge,some_,rfl,near⟩ :
          (host,name) ∈ g.edges.filter fun pair => n ≠ 0 ∧ pair.2 = name ∧ .host pair.1 ∈ layer g source (n - 1)))
      intro none
      have made : predecessor g source (.link name) = some (.host least) :=
        Option.bind_eq_some_iff.mpr ⟨n,far,Option.bind_eq_some_iff.mpr ⟨least,found,rfl⟩⟩
      rw [none] at made
      cases made

theorem closer_dist (inside : source ∈ g.nodes) {parent : Node} (closer : Closer g source node parent) :
    g.simple.dist source node = g.simple.dist source parent + 1 := by
  obtain ⟨n,far,some_,adj,near⟩ := closer
  obtain ⟨reachable,rfl⟩ := (depth_eq_some inside).mp far
  obtain ⟨reaches,short⟩ := mem_layer_iff_dist.mp near
  obtain ⟨p,length⟩ := reaches.exists_walk_length_eq_dist
  have longer := dist_le (p.concat adj)
  rw [Walk.length_concat] at longer
  omega

end predecessor

theorem layered_lawful : layered.Lawful where
  bridges := by
    intro g a b
    simp only [layered,Finset.mem_image,Finset.mem_filter,Prod.mk.injEq]
    constructor
    · rintro (⟨pair,⟨member,bridge⟩,rfl,rfl⟩ | ⟨pair,⟨member,bridge⟩,rfl,rfl⟩)
      · exact ⟨member,(isBridge_iff_simple member).mp bridge⟩
      · rw [Sym2.eq_swap]
        exact ⟨member,(isBridge_iff_simple member).mp bridge⟩
    · rintro ⟨adj,bridge⟩
      obtain ⟨pair,member,ends⟩ := simple_adj.mp adj
      rw [ends] at bridge
      rcases Sym2.eq_iff.mp ends with ⟨rfl,rfl⟩ | ⟨rfl,rfl⟩
      · exact .inl ⟨pair,⟨member,(isBridge_iff_simple member).mpr bridge⟩,rfl,rfl⟩
      · exact .inr ⟨pair,⟨member,(isBridge_iff_simple member).mpr bridge⟩,rfl,rfl⟩
  bfs_reaches := by
    intro g source node inside
    constructor
    · intro listed
      obtain ⟨parent,some_⟩ := Option.ne_none_iff_exists'.mp listed
      obtain ⟨n,far,positive,-,-⟩ := closer_of_predecessor some_
      obtain ⟨reachable,rfl⟩ := (depth_eq_some inside).mp far
      refine ⟨?_,reachable⟩
      rintro rfl
      exact positive dist_self
    · rintro ⟨other,reachable⟩
      obtain ⟨p,length⟩ := reachable.exists_walk_length_eq_dist
      have some_ : ¬ p.Nil := Walk.not_nil_of_ne other.symm
      have positive : p.length ≠ 0 := fun zero => some_ (Walk.length_eq_zero_iff.mp zero)
      refine predecessor_of_closer ⟨_,(depth_eq_some inside).mpr ⟨reachable,rfl⟩,by omega,p.adj_penultimate some_,?_⟩
      refine mem_layer.mpr ⟨p.dropLast,?_⟩
      rw [Walk.length_dropLast]
      omega
  bfs_tree := by
    intro g source node parent inside listed
    have closer := closer_of_predecessor listed
    refine ⟨?_,closer_dist inside closer⟩
    obtain ⟨n,-,-,adj,-⟩ := closer
    exact adj
  component := fun g source node inside => mem_component inside
  isConnected := by
    intro g
    simp only [layered,connected,decide_eq_true_eq]
    exact and_congr_right fun _ => forall₂_congr fun a inside => forall₂_congr fun b _ => mem_component inside
  isTree := by
    intro g
    simp only [layered,connected,Bool.and_eq_true,decide_eq_true_eq]
    refine and_congr (and_congr_right fun _ => forall₂_congr fun a inside => forall₂_congr fun b _ => mem_component inside) ?_
    rw [isAcyclic_iff_forall_isBridge]
    constructor
    · intro bridges e used
      induction e with
      | h x y =>
        obtain ⟨pair,member,ends⟩ := simple_adj.mp used
        rw [ends]
        exact (isBridge_iff_simple member).mp (bridges pair member)
    · intro bridges pair member
      exact (isBridge_iff_simple member).mpr (bridges (show s(.host pair.1,.link pair.2) ∈ g.simple.edgeSet from member))

end WireSpaces.WiringSearch
