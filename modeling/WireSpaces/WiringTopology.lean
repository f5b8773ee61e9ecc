import WireSpaces.WiringModels
import Mathlib.Combinatorics.SimpleGraph.Acyclic
import Mathlib.Combinatorics.SimpleGraph.Metric
import Mathlib.Data.Finset.Option

/-!
Topology resolution over the host/Link graph. The NetworkX functions the compiler
calls are a parameter; what the compiler relies on is stated as `NetworkX.Lawful`,
against the simple graph on all nodes in which absent nodes are isolated.
-/
namespace WireSpaces.WiringTopology
open WireSpaces.WiringModels

inductive Node where
  | host (name : String)
  | link (name : String)
  deriving Repr, DecidableEq

/-- An `nx.Graph` of hosts and Links. Every edge here joins a host and a Link, and
    adding an edge adds its ends. -/
structure Graph where
  nodes : Finset Node
  edges : Finset (String × String)
  closed : ∀ edge ∈ edges, .host edge.1 ∈ nodes ∧ .link edge.2 ∈ nodes

/-- `add_nodes_from` the hosts, then `add_edges_from` the attachments. -/
def Graph.build (hosts : List String) (attachments : List Attachment) : Graph where
  nodes := (hosts.map Node.host ++ attachments.map (Node.host ·.host) ++ attachments.map (Node.link ·.link)).toFinset
  edges := (attachments.map fun a => (a.host,a.link)).toFinset
  closed := by
    intro edge member
    obtain ⟨a,among,rfl⟩ := List.mem_map.mp (List.mem_toFinset.mp member)
    simp only [List.mem_toFinset,List.mem_append,List.mem_map]
    exact ⟨.inl (.inr ⟨a,among,rfl⟩),.inr ⟨a,among,rfl⟩⟩

def Graph.degree (g : Graph) (link : String) : Nat := (g.edges.filter fun edge => edge.2 = link).card

/-- `nx.subgraph_view` with an edge filter. -/
def Graph.view (g : Graph) (kept : String × String → Bool) : Graph where
  nodes := g.nodes
  edges := g.edges.filter fun edge => kept edge
  closed := fun edge member => g.closed edge (Finset.mem_of_mem_filter edge member)

def Graph.subgraph (g : Graph) (kept : Finset Node) : Graph where
  nodes := g.nodes ∩ kept
  edges := g.edges.filter fun edge => .host edge.1 ∈ kept ∧ .link edge.2 ∈ kept
  closed := by
    intro edge member
    obtain ⟨among,inside⟩ := Finset.mem_filter.mp member
    exact ⟨Finset.mem_inter.mpr ⟨(g.closed edge among).1,inside.1⟩,Finset.mem_inter.mpr ⟨(g.closed edge among).2,inside.2⟩⟩

/-- The calls into NetworkX; `bfsPredecessors` is the dictionary of the yielded pairs.
    `isConnected` and `isTree` are false of the graph without nodes, where NetworkX raises. -/
structure NetworkX where
  bridges : Graph → Finset (Node × Node)
  bfsPredecessors : Graph → Node → Node → Option Node
  nodeConnectedComponent : Graph → Node → Finset Node
  isConnected : Graph → Bool
  isTree : Graph → Bool

/-! ### The physical graph -/

/-- Shared Links are nodes, and interfaces are edges. `declared` holds every
    attachment in the order of insertion: behind an edge and behind a reference stands
    the last one. -/
structure PhysicalGraph where
  graph : Graph
  declared : List Attachment
  bridges : Finset Attachment

def interfacesOf (host : HostDeclaration) : List Attachment :=
  (sortedBy (·.name) host.interfaces).map fun interface => ⟨host.name,interface.name,interface.link⟩

def declaredBy (hosts : List HostDeclaration) : List Attachment := (sortedBy (·.name) hosts).flatMap interfacesOf

def edgeAttachment (declared : List Attachment) (host link : String) : Option Attachment :=
  declared.reverse.find? fun a => a.host = host ∧ a.link = link

def attachmentIn (declared : List Attachment) : Node → Node → Option Attachment
  | .host host, .link link => edgeAttachment declared host link
  | .link link, .host host => edgeAttachment declared host link
  | _, _ => none

def PhysicalGraph.init (nx : NetworkX) (hosts : List HostDeclaration) : PhysicalGraph :=
  let declared := declaredBy hosts
  let graph := Graph.build ((sortedBy (·.name) hosts).map (·.name)) declared
  { graph := graph, declared := declared
    bridges := (nx.bridges graph).biUnion fun edge => (attachmentIn declared edge.1 edge.2).toFinset }

section physical
variable (nx : NetworkX) (g : PhysicalGraph)

def attachment (a b : Node) : Checked Attachment := found (attachmentIn g.declared a b)

/-- `self.interfaces.get(ref)`. -/
def interface? (ref : String) : Option Attachment := g.declared.reverse.find? (·.reference = ref)

/-! ### Inference -/

/-- The loop of `alternative_path`, from `node` back to `start`. -/
def retrace (parents : Node → Option Node) (start : Node) : Nat → Node → List String → Checked (List String)
  | 0, _, _ => .error .unending
  | fuel + 1, node, path =>
    if node = start then .ok path.reverse
    else do
      let parent ← found (parents node)
      let used ← attachment g node parent
      retrace parents start fuel parent (path ++ [used.reference])

def alternativePath (start finish : Node) (excluded : Attachment) : Checked (List String) :=
  let graph := g.graph.view fun edge => edgeAttachment g.declared edge.1 edge.2 ≠ some excluded
  retrace g (nx.bfsPredecessors graph start) start (g.graph.nodes.card + 1) finish []

/-- `parents`: the root has no parent, any other known node the one of the search. -/
def parentOf (parents : Node → Option Node) (root node : Node) : Option (Option Node) :=
  match parents node with
  | some parent => some (some parent)
  | none => if node = root then some none else none

/-- The inner loop of `infer`: select the attachments from a node up to the root. -/
def climb (wire : WireDeclaration) (first member : String) (parents : Node → Option Node) :
    Nat → Node → List Attachment → Checked (List Attachment)
  | 0, _, _ => .error .unending
  | fuel + 1, node, selected => do
    match ← found (parentOf parents (.host first) node) with
    | none => return selected
    | some parent =>
      let used ← attachment g node parent
      if used ∈ g.bridges then climb wire first member parents fuel parent (selected.insert used)
      else
        let alternative ← alternativePath nx g node parent used
        .error (.valueError ("Wire " ++ wire.name ++ ": ambiguous connectivity from " ++ first ++ " to " ++ member ++ "; " ++
          used.reference ++ " on Link " ++ used.link ++ " conflicts with attachments " ++ " -> ".intercalate alternative ++
          ". Choose an explicit Path, Realization or Links selection."))

/-- The outer loop of `infer`, over the members behind the first. -/
def inferEach (wire : WireDeclaration) (first : String) (parents : Node → Option Node) :
    List String → List Attachment → Checked (List Attachment)
  | [], selected => .ok selected
  | member :: rest, selected => do
    require (parentOf parents (.host first) (.host member) ≠ none)
      ("Wire " ++ wire.name ++ ": disconnected members " ++ first ++ " and " ++ member)
    let selected ← climb nx g wire first member parents (g.graph.nodes.card + 1) (.host member) selected
    inferEach wire first parents rest selected

def infer (wire : WireDeclaration) : List String → Checked (List Attachment)
  | [] => .error .indexError
  | [_] => .ok []
  | first :: rest =>
    if .host first ∈ g.graph.nodes then inferEach nx g wire first (nx.bfsPredecessors g.graph (.host first)) rest []
    else .error .networkXError

/-! ### Explicit selections -/

/-- What the loop of `chain` remembers. -/
structure Hops where
  visitedHosts : List String := []
  visitedLinks : List String := []
  previous : Option (String × String) := none

/-- One hop pair of a chain: the host and interface it ends at are the previous of the next. -/
def hop (label left right : String) (hops : Hops) : Checked Hops := do
  let a ← found (interface? g left)
  let b ← found (interface? g right)
  require (a.link = b.link ∧ a.host ≠ b.host) (label ++ ": invalid hop pair " ++ left ++ ", " ++ right)
  let visited ← match hops.previous with
    | none => pure (hops.visitedHosts.insert a.host)
    | some (previousHost,previousInterface) => do
      require (a.host = previousHost) (label ++ ": consecutive hops must join through the same host")
      require (left ≠ previousInterface) (label ++ ": transit host must use distinct interfaces")
      pure hops.visitedHosts
  require (b.host ∉ visited ∧ a.link ∉ hops.visitedLinks) (label ++ ": repeated host or Link creates a cycle")
  return ⟨visited.insert b.host,hops.visitedLinks.insert a.link,some (b.host,right)⟩

/-- The hops of an even chain, pair by pair. -/
def hopAll (label : String) : List String → Hops → Checked Hops
  | left :: right :: rest, hops => do
    let hops ← hop g label left right hops
    hopAll label rest hops
  | _, hops => .ok hops

/-- The attachments behind references; an unknown one is reported. -/
def lookUp (label : String) : List String → Checked (List Attachment)
  | [] => .ok []
  | ref :: rest => do
    require (interface? g ref ≠ none) (label ++ ": unknown interface " ++ ref)
    let a ← found (interface? g ref)
    let others ← lookUp label rest
    return others.insert a

def chain (path : PathDeclaration) : Checked (List Attachment × List String) := do
  let label := "Path " ++ path.name
  require (path.interfaces.length ≥ 2 ∧ path.interfaces.length % 2 = 0)
    (label ++ ": requires complete hop pairs (at least one hop)")
  let selected ← lookUp g label path.interfaces
  let hops ← hopAll g label path.interfaces {}
  return (selected,hops.visitedHosts)

/-- Each Link of a list has two attachments in the graph. -/
def requireDegrees (graph : Graph) (message : String → String) : List String → Checked Unit
  | [] => .ok ()
  | link :: rest => do
    require (.link link ∈ graph.nodes ∧ graph.degree link ≥ 2) (message link)
    requireDegrees graph message rest

def realization (declaration : RealizationDeclaration) : Checked (List Attachment × List String) := do
  let label := "Realization " ++ declaration.name
  let selected ← lookUp g label declaration.attachments
  let graph := Graph.build [] selected
  requireDegrees graph (fun link => label ++ ": dangling Link " ++ link ++ " needs two attachments")
    (sorted (selected.map (·.link)).dedup)
  require (nx.isConnected graph = true) (label ++ ": disconnected attachments")
  require (nx.isTree graph = true) (label ++ ": propagation cycle")
  return (selected,(selected.map (·.host)).dedup)

/-- The values of `self.interfaces` on the given Links. -/
def attachmentsOn (links : List String) : List Attachment :=
  (g.declared.filter fun a => interface? g a.reference = some a ∧ a.link ∈ links).dedup

def legacy (wire : WireDeclaration) (members : List String) : Checked (List Attachment) := do
  let selectedLinks := (wire.links.getD []).dedup
  let selected := attachmentsOn g selectedLinks
  let graph := Graph.build members selected
  requireDegrees g.graph (fun link => "Wire " ++ wire.name ++ ": Link " ++ link ++ " needs at least two attached hosts")
    (sorted selectedLinks)
  match sorted (members ++ selected.map (·.host)) with
  | [] => .error (.valueError "min() iterable argument is empty")
  | least :: _ => do
    let component := graph.subgraph (nx.nodeConnectedComponent graph (.host least))
    require (nx.isTree component = true) ("Wire " ++ wire.name ++ " contains a propagation loop")
    require (nx.isConnected graph = true) ("Wire " ++ wire.name ++ " is disconnected")
    return selected

end physical

/-! ### The stage -/

/-- A list of strings as Python prints it. -/
def listed (names : List String) : String := "[" ++ ", ".intercalate (names.map fun name => "'" ++ name ++ "'") ++ "]"

/-- `expanded`: the member hosts of a Wire, its own and its groups'. -/
def expand (authored : AuthoredDeployment) (wire : WireDeclaration) : Checked (List String) := do
  let groups ← (wire.groups.getD []).mapM fun group => found (authored.groups.find? (·.name = group))
  return ((wire.hosts.getD []) ++ groups.flatMap (·.hosts)).dedup

/-- The selection of a Wire that names a Path or a Realization, resolved before. -/
def named (label name : String) (resolved : List (String × List Attachment × List String)) (expanded : List String) :
    Checked (List Attachment) := do
  let (_,selected,visited) ← found (resolved.find? (·.1 = name))
  require (∀ host ∈ expanded, host ∈ visited)
    (label ++ " is missing members " ++ listed (sorted (expanded.filter (· ∉ visited))))
  return selected

section stage
variable (nx : NetworkX)

/-- The attachments a Wire selects, and how. -/
def selectionOf (graph : PhysicalGraph) (chains realizations : List (String × List Attachment × List String))
    (wire : WireDeclaration) (expanded : List String) : Checked (List Attachment × Selection) :=
  match wire.path, wire.realization, wire.links with
  | some path, _, _ => do
    let selected ← named ("Wire " ++ wire.name ++ ": Path " ++ path) path chains expanded
    return (selected,.path)
  | none, some realization, _ => do
    let selected ← named ("Wire " ++ wire.name ++ ": Realization " ++ realization) realization realizations expanded
    return (selected,.realization)
  | none, none, some _ => do
    let selected ← legacy nx graph wire (sorted expanded)
    return (selected,.links)
  | none, none, none => do
    let selected ← infer nx graph wire (sorted expanded)
    return (selected,.inferred)

def resolveWire (authored : AuthoredDeployment) (graph : PhysicalGraph)
    (chains realizations : List (String × List Attachment × List String)) (wire : WireDeclaration) : Checked ResolvedWire := do
  let expanded ← expand authored wire
  require (expanded ≠ []) ("Wire " ++ wire.name ++ " requires at least one member host")
  let (selected,mode) ← selectionOf nx graph chains realizations wire expanded
  return { declaration := wire, members := sorted expanded,
           transitHosts := sorted (((selected.map (·.host)).dedup).filter (· ∉ expanded)),
           attachments := sortedBy Attachment.reference selected, selection := mode }

/-- Expand membership and resolve attachments; never assign target egress bits. -/
def resolveDeployment (authored : AuthoredDeployment) : Checked ResolvedDeployment := do
  let graph := PhysicalGraph.init nx authored.hosts
  let chains ← authored.paths.mapM fun path => do pure (path.name,← chain graph path)
  let realizations ← authored.realizations.mapM fun value => do pure (value.name,← realization nx graph value)
  let wires ← authored.wires.mapM (resolveWire nx authored graph chains realizations)
  return ⟨authored,sortedBy (·.declaration.name) wires⟩

end stage

/-! ### What the compiler relies on -/

/-- Adjacency of a graph, on all nodes. -/
def Joined (edges : Finset (String × String)) : Node → Node → Prop
  | .host host, .link link => (host,link) ∈ edges
  | .link link, .host host => (host,link) ∈ edges
  | _, _ => False

def Graph.simple (g : Graph) : SimpleGraph Node where
  Adj := Joined g.edges
  symm := ⟨by rintro (a | a) (b | b) joined <;> exact joined⟩
  loopless := ⟨by rintro (a | a) joined <;> exact joined⟩

/-- The documented behaviour of the NetworkX calls. -/
structure NetworkX.Lawful (nx : NetworkX) : Prop where
  bridges : ∀ (g : Graph) (a b : Node), (a,b) ∈ nx.bridges g ∨ (b,a) ∈ nx.bridges g ↔
    g.simple.Adj a b ∧ g.simple.IsBridge s(a,b)
  bfs_reaches : ∀ (g : Graph) (source node : Node), source ∈ g.nodes →
    (nx.bfsPredecessors g source node ≠ none ↔ node ≠ source ∧ g.simple.Reachable source node)
  bfs_tree : ∀ (g : Graph) (source node parent : Node), source ∈ g.nodes → nx.bfsPredecessors g source node = some parent →
    g.simple.Adj parent node ∧ g.simple.dist source node = g.simple.dist source parent + 1
  component : ∀ (g : Graph) (source node : Node), source ∈ g.nodes →
    (node ∈ nx.nodeConnectedComponent g source ↔ g.simple.Reachable source node)
  isConnected : ∀ g : Graph, nx.isConnected g = true ↔
    g.nodes.Nonempty ∧ ∀ a ∈ g.nodes, ∀ b ∈ g.nodes, g.simple.Reachable a b
  isTree : ∀ g : Graph, nx.isTree g = true ↔
    (g.nodes.Nonempty ∧ ∀ a ∈ g.nodes, ∀ b ∈ g.nodes, g.simple.Reachable a b) ∧ g.simple.IsAcyclic

/-! ### Graphs as simple graphs -/

open SimpleGraph

theorem simple_adj {g : Graph} {x y : Node} :
    g.simple.Adj x y ↔ ∃ pair ∈ g.edges, s(x,y) = s(Node.host pair.1,Node.link pair.2) := by
  cases x <;> cases y <;> simp [Graph.simple,Joined]

/-- What a node of a graph reaches is a node of it. -/
theorem reachable_mem {g : Graph} {x y : Node} (inside : x ∈ g.nodes) (reachable : g.simple.Reachable x y) : y ∈ g.nodes := by
  obtain ⟨walk⟩ := reachable
  induction walk with
  | nil => exact inside
  | @cons x z y adj rest ih =>
    obtain ⟨pair,member,same⟩ := simple_adj.mp adj
    have ends := g.closed pair member
    apply ih
    rcases Sym2.eq_iff.mp same with ⟨-,rfl⟩ | ⟨-,rfl⟩
    · exact ends.2
    · exact ends.1

/-- Shortest paths visit each node at most once. -/
theorem dist_lt_card {g : Graph} {x y : Node} (inside : x ∈ g.nodes) (reachable : g.simple.Reachable x y) :
    g.simple.dist x y < g.nodes.card := by
  obtain ⟨p,path,length⟩ := reachable.exists_path_of_dist
  have within : p.support.toFinset ⊆ g.nodes := by
    intro z member
    exact reachable_mem inside ⟨p.takeUntil z (List.mem_toFinset.mp member)⟩
  have count := Finset.card_le_card within
  rw [List.toFinset_card_of_nodup path.support_nodup,Walk.length_support,length] at count
  omega

end WireSpaces.WiringTopology
