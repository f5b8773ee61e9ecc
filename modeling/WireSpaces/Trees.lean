import Mathlib.Combinatorics.SimpleGraph.Acyclic
import Mathlib.Combinatorics.SimpleGraph.Metric
import Mathlib.Combinatorics.SimpleGraph.Connectivity.Subgraph

/-!
Bridges and unique paths of a simple graph. A path is the only one between its ends
exactly when all its edges are bridges, and paths of bridges from one vertex span the
least connected subgraph through their ends.
-/
namespace WireSpaces.Trees
open SimpleGraph

variable {V : Type*} {G : SimpleGraph V}

/-- An edge of a trail splits it into two parts that avoid the edge. -/
theorem reachable_sides {a b x y : V} {p : G.Walk a b} (once : p.edges.Nodup) (used : s(x,y) ∈ p.edges) :
    (G.deleteEdges {s(x,y)}).Reachable a x ∧ (G.deleteEdges {s(x,y)}).Reachable y b ∨
      (G.deleteEdges {s(x,y)}).Reachable a y ∧ (G.deleteEdges {s(x,y)}).Reachable x b := by
  induction p with
  | nil => cases used
  | @cons a c b adj rest ih =>
    rw [Walk.edges_cons,List.nodup_cons] at once
    rw [Walk.edges_cons,List.mem_cons] at used
    by_cases first : s(x,y) = s(a,c)
    · have avoids : s(x,y) ∉ rest.edges := first ▸ once.1
      have behind : (G.deleteEdges {s(x,y)}).Reachable c b := reachable_deleteEdges_iff_exists_walk.mpr ⟨rest,avoids⟩
      rcases Sym2.eq_iff.mp first with ⟨rfl,rfl⟩ | ⟨rfl,rfl⟩
      · exact .inl ⟨Reachable.refl _,behind⟩
      · exact .inr ⟨Reachable.refl _,behind⟩
    · have step : (G.deleteEdges {s(x,y)}).Reachable a c := by
        apply Adj.reachable
        rw [deleteEdges_adj]
        exact ⟨adj,fun same => first same.symm⟩
      rcases ih once.2 (used.resolve_left first) with ⟨left,right⟩ | ⟨left,right⟩
      · exact .inl ⟨step.trans left,right⟩
      · exact .inr ⟨step.trans left,right⟩

/-- Every walk between the ends of a trail crosses the trail's bridges. -/
theorem bridge_mem_edges {a b : V} {p : G.Walk a b} (once : p.edges.Nodup) {e : Sym2 V} (used : e ∈ p.edges)
    (bridge : G.IsBridge e) (q : G.Walk a b) : e ∈ q.edges := by
  induction e with
  | h x y =>
    by_contra avoids
    have around : (G.deleteEdges {s(x,y)}).Reachable a b := reachable_deleteEdges_iff_exists_walk.mpr ⟨q,avoids⟩
    apply isBridge_iff.mp bridge
    rcases reachable_sides once used with ⟨left,right⟩ | ⟨left,right⟩
    · exact left.symm.trans (around.trans right.symm)
    · exact right.trans (around.symm.trans left)

theorem path_eq_of_bridges {a b : V} {p : G.Walk a b} (path : p.IsPath) (bridges : ∀ e ∈ p.edges, G.IsBridge e)
    {q : G.Walk a b} (other : q.IsPath) : q = p := by
  induction p with
  | nil => exact Walk.eq_nil_iff_nil.mpr (Walk.isPath_iff_nil.mp other)
  | @cons a c b adj rest ih =>
    have crossed := bridge_mem_edges path.isTrail.edges_nodup (List.mem_cons_self : s(a,c) ∈ (Walk.cons adj rest).edges)
      (bridges _ List.mem_cons_self) q
    rw [Walk.cons_isPath_iff] at path
    cases q with
    | nil => cases crossed
    | @cons _ d _ adj' rest' =>
      rw [Walk.cons_isPath_iff] at other
      rw [Walk.edges_cons,List.mem_cons] at crossed
      have first : s(a,c) = s(a,d) :=
        crossed.resolve_right fun later => other.2 (rest'.fst_mem_support_of_mem_edges later)
      obtain rfl : c = d := Sym2.congr_right.mp first
      rw [ih path.1 (fun e later => bridges e (List.mem_cons_of_mem _ later)) other.1]

/-- A path is the only one between its ends exactly when all its edges are bridges. -/
theorem unique_path_iff_bridges {a b : V} {p : G.Walk a b} (path : p.IsPath) :
    (∀ q : G.Walk a b, q.IsPath → q = p) ↔ ∀ e ∈ p.edges, G.IsBridge e := by
  classical
  constructor
  · intro unique e used
    induction e with
    | h x y =>
      by_contra detour
      rw [isBridge_iff,not_not] at detour
      have around : (G.deleteEdges {s(x,y)}).Reachable a b := by
        rcases reachable_sides path.isTrail.edges_nodup used with ⟨left,right⟩ | ⟨left,right⟩
        · exact left.trans (detour.trans right)
        · exact left.trans (detour.symm.trans right)
      obtain ⟨q,avoids⟩ := reachable_deleteEdges_iff_exists_walk.mp around
      have same := unique q.toPath q.toPath.2
      exact avoids (Walk.edges_toPath_subset_edges q (same ▸ used))
  · intro bridges q other
    exact path_eq_of_bridges path bridges other

theorem only_self (a : V) : ∃! p : G.Walk a a, p.IsPath :=
  ⟨.nil,.nil,fun _ path => Walk.eq_nil_iff_nil.mpr (Walk.isPath_iff_nil.mp path)⟩

/-- Two vertices with only one path each from a third have only one between them. -/
theorem only_between {a b c : V} (left : ∃! p : G.Walk a b, p.IsPath)
    (right : ∃! p : G.Walk a c, p.IsPath) : ∃! p : G.Walk b c, p.IsPath := by
  classical
  obtain ⟨p,path,unique⟩ := left
  obtain ⟨q,path',unique'⟩ := right
  have first := (unique_path_iff_bridges path).mp unique
  have second := (unique_path_iff_bridges path').mp unique'
  let joined := (p.reverse.append q).toPath
  refine ⟨joined,joined.2,?_⟩
  apply (unique_path_iff_bridges joined.2).mpr
  intro e used
  have among := Walk.edges_toPath_subset_edges _ used
  rw [Walk.edges_append,Walk.edges_reverse,List.mem_append,List.mem_reverse] at among
  exact among.elim (first e) (second e)

/-- A graph whose edges are bridges of a larger one is acyclic. -/
theorem acyclic_of_bridges {H : SimpleGraph V} (below : H ≤ G) (bridges : ∀ e ∈ H.edgeSet, G.IsBridge e) : H.IsAcyclic :=
  isAcyclic_iff_forall_isBridge.mpr fun e edge => (bridges e edge).anti below

/-- A path leaves a vertex between its ends by another edge than it enters it. -/
theorem two_neighbours {a b v : V} {p : G.Walk a b} (path : p.IsPath) (visited : v ∈ p.support) (start : v ≠ a) (finish : v ≠ b) :
    ∃ x y, x ≠ y ∧ s(x,v) ∈ p.edges ∧ s(y,v) ∈ p.edges := by
  induction p with
  | nil => exact absurd (List.mem_singleton.mp visited) start
  | @cons a c b adj rest ih =>
    rw [Walk.cons_isPath_iff] at path
    have later : v ∈ rest.support := (List.mem_cons.mp visited).resolve_left start
    by_cases here : v = c
    · subst here
      cases rest with
      | nil => exact absurd rfl finish
      | @cons _ d _ next others =>
        refine ⟨a,d,?_,by simp,by simp⟩
        rintro rfl
        exact path.2 (List.mem_cons_of_mem _ others.start_mem_support)
    · obtain ⟨x,y,distinct,left,right⟩ := ih path.1 later here finish
      exact ⟨x,y,distinct,List.mem_cons_of_mem _ left,List.mem_cons_of_mem _ right⟩

/-- A vertex that reaches another has an edge. -/
theorem exists_adj {a b : V} (reachable : G.Reachable a b) (distinct : a ≠ b) : ∃ c, G.Adj a c := by
  obtain ⟨walk⟩ := reachable
  cases walk with
  | nil => exact absurd rfl distinct
  | cons adj _ => exact ⟨_,adj⟩

/-- Two new vertices hung behind one another on a vertex of an acyclic graph. -/
theorem acyclic_hang {a b c : V} (acyclic : G.IsAcyclic) (middle : ∀ x, ¬ G.Adj b x) (last : ∀ x, ¬ G.Adj c x)
    (first : a ≠ b) (second : b ≠ c) (third : a ≠ c) : (G ⊔ edge a b ⊔ edge b c).IsAcyclic := by
  have apart : ¬ G.Reachable a b := fun reachable => (exists_adj reachable.symm first.symm).elim middle
  refine (acyclic.sup_edge_of_not_reachable apart).sup_edge_of_not_reachable ?_
  intro reachable
  obtain ⟨x,adj⟩ := exists_adj reachable.symm second.symm
  rcases (sup_adj ..).mp adj with old | hung
  · exact last x old
  · obtain ⟨⟨rfl,-⟩ | ⟨rfl,-⟩,-⟩ := (edge_adj ..).mp hung
    · exact third rfl
    · exact second rfl

/-! ### Away from a root -/

section rooted
variable {root : V}

theorem exists_closer {v : V} (reachable : G.Reachable root v) (other : v ≠ root) :
    ∃ u, G.Adj u v ∧ G.Reachable root u ∧ G.dist root v = G.dist root u + 1 := by
  obtain ⟨p,length⟩ := reachable.exists_walk_length_eq_dist
  have moves : ¬p.Nil := Walk.not_nil_of_ne other.symm
  have positive : p.length ≠ 0 := fun zero => moves (Walk.length_eq_zero_iff.mp zero)
  have before : G.dist root p.penultimate ≤ p.length - 1 := by
    rw [← Walk.length_dropLast]
    exact dist_le p.dropLast
  have after : G.dist root v ≤ G.dist root p.penultimate + 1 := by
    obtain ⟨q,short⟩ := (show G.Reachable root p.penultimate from ⟨p.dropLast⟩).exists_walk_length_eq_dist
    rw [← short,← Walk.length_concat q (p.adj_penultimate moves)]
    exact dist_le _
  exact ⟨p.penultimate,p.adj_penultimate moves,⟨p.dropLast⟩,by omega⟩

/-- In a forest a vertex has one neighbour that is closer to a root. -/
theorem closer_unique (acyclic : G.IsAcyclic) {u w v : V} (reachable : G.Reachable root v) (left : G.Adj u v) (right : G.Adj w v)
    (far : G.dist root v = G.dist root u + 1) (far' : G.dist root v = G.dist root w + 1) : u = w := by
  have through {x : V} (adj : G.Adj x v) (further : G.dist root v = G.dist root x + 1) :
      ∃ q : G.Walk root v, q.IsPath ∧ q.penultimate = x := by
    obtain ⟨p,path,length⟩ := (reachable.trans adj.symm.reachable).exists_path_of_dist
    refine ⟨p.concat adj,?_,p.penultimate_concat adj⟩
    apply Walk.isPath_of_length_eq_dist
    rw [Walk.length_concat,length,further]
  obtain ⟨p,path,rfl⟩ := through left far
  obtain ⟨q,path',rfl⟩ := through right far'
  have same := (isAcyclic_iff_subsingleton_path.mp acyclic root v).elim ⟨p,path⟩ ⟨q,path'⟩
  rw [Subtype.mk.inj same]

end rooted

/-! ### The least connected subgraph through some vertices -/

theorem toSubgraph_le {H : G.Subgraph} {a b : V} (p : G.Walk a b) (start : a ∈ H.verts)
    (edges : ∀ e ∈ p.edges, e ∈ H.edgeSet) : p.toSubgraph ≤ H := by
  cases p with
  | nil => exact singletonSubgraph_le_iff a H |>.mpr start
  | cons adj rest =>
    rw [Walk.toSubgraph_le_iff Walk.not_nil_cons]
    exact edges

/-- The union of walks from one vertex. -/
def union {root : V} : (walks : List (Σ b, G.Walk root b)) → G.Subgraph
  | [] => G.singletonSubgraph root
  | walk :: rest => walk.2.toSubgraph ⊔ union rest

section union
variable {root : V} {walks : List (Σ b, G.Walk root b)}

theorem root_mem_union : root ∈ (union walks).verts := by
  induction walks with
  | nil => exact Set.mem_singleton root
  | cons walk rest ih => exact .inr ih

theorem end_mem_union {walk : Σ b, G.Walk root b} (member : walk ∈ walks) : walk.1 ∈ (union walks).verts := by
  induction walks with
  | nil => cases member
  | cons first rest ih =>
    rcases List.mem_cons.mp member with rfl | later
    · exact .inl (by simp)
    · exact .inr (ih later)

theorem mem_union_edgeSet {e : Sym2 V} : e ∈ (union walks).edgeSet ↔ ∃ walk ∈ walks, e ∈ walk.2.edges := by
  induction walks with
  | nil => simp [union]
  | cons walk rest ih =>
    rw [union,Subgraph.edgeSet_sup,Set.mem_union,ih,Walk.mem_edges_toSubgraph]
    simp only [List.mem_cons,exists_eq_or_imp]

theorem union_connected : (union walks).Connected := by
  induction walks with
  | nil => exact Subgraph.singletonSubgraph_connected
  | cons walk rest ih =>
    refine Subgraph.connected_sup walk.2.toSubgraph_connected.preconnected ih.preconnected ⟨root,?_,root_mem_union⟩
    exact walk.2.start_mem_verts_toSubgraph

/-- Walks of bridges lie in every connected subgraph through their ends. -/
theorem union_le {H : G.Subgraph} (connected : H.Connected) (start : root ∈ H.verts)
    (ends : ∀ walk ∈ walks, walk.1 ∈ H.verts) (once : ∀ walk ∈ walks, walk.2.IsPath)
    (bridges : ∀ walk ∈ walks, ∀ e ∈ walk.2.edges, G.IsBridge e) : union walks ≤ H := by
  induction walks with
  | nil =>
    rw [union,singletonSubgraph_le_iff]
    exact start
  | cons walk rest ih =>
    refine sup_le ?_ (ih (fun w later => ends w (List.mem_cons_of_mem _ later))
      (fun w later => once w (List.mem_cons_of_mem _ later)) (fun w later => bridges w (List.mem_cons_of_mem _ later)))
    obtain ⟨inner,inside⟩ := ((Subgraph.connected_iff_forall_exists_walk_subgraph H).mp connected).2 start
      (ends walk List.mem_cons_self)
    apply toSubgraph_le walk.2 start
    intro e used
    have crossed := bridge_mem_edges (once walk List.mem_cons_self).isTrail.edges_nodup used
      (bridges walk List.mem_cons_self e used) inner
    exact Subgraph.edgeSet_mono inside (inner.mem_edges_toSubgraph.mpr crossed)

end union

/-- Unique paths from a vertex span the least connected subgraph through their ends. -/
theorem exists_least {root : V} {ends : List V} (only : ∀ b ∈ ends, ∃! p : G.Walk root b, p.IsPath) :
    ∃ T : G.Subgraph, IsLeast {H : G.Subgraph | H.Connected ∧ ∀ b ∈ root :: ends, b ∈ H.verts} T ∧
      ∀ e, e ∈ T.edgeSet ↔ ∃ b ∈ ends, ∃ p : G.Walk root b, p.IsPath ∧ e ∈ p.edges := by
  choose path isPath unique using only
  let walks : List (Σ b, G.Walk root b) := ends.attach.map fun b => ⟨b.1,path b.1 b.2⟩
  have listed (walk : Σ b, G.Walk root b) : walk ∈ walks ↔ ∃ b, ∃ among : b ∈ ends, walk = ⟨b,path b among⟩ := by
    simp [walks,eq_comm]
  refine ⟨union walks,⟨⟨union_connected,?_⟩,?_⟩,?_⟩
  · intro b member
    rcases List.mem_cons.mp member with rfl | among
    · exact root_mem_union
    · exact end_mem_union ((listed _).mpr ⟨b,among,rfl⟩)
  · rintro H ⟨connected,through⟩
    refine union_le connected (through root List.mem_cons_self) ?_ ?_ ?_
    · rintro walk member
      obtain ⟨b,among,rfl⟩ := (listed walk).mp member
      exact through b (List.mem_cons_of_mem _ among)
    · rintro walk member
      obtain ⟨b,among,rfl⟩ := (listed walk).mp member
      exact isPath b among
    · rintro walk member
      obtain ⟨b,among,rfl⟩ := (listed walk).mp member
      exact (unique_path_iff_bridges (isPath b among)).mp (unique b among)
  · intro e
    rw [mem_union_edgeSet]
    constructor
    · rintro ⟨walk,member,used⟩
      obtain ⟨b,among,rfl⟩ := (listed walk).mp member
      exact ⟨b,among,path b among,isPath b among,used⟩
    · rintro ⟨b,among,p,other,used⟩
      refine ⟨⟨b,path b among⟩,(listed _).mpr ⟨b,among,rfl⟩,?_⟩
      rw [unique b among p other] at used
      exact used

end WireSpaces.Trees
