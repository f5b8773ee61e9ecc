import WireSpaces.Floods
import WireSpaces.GeneratedHost

/-!
The hosts of a compiled deployment on their Links. A packet of a Wire floods the tree of the Wire's
attachments: each of its Links carries it once, away from the host it comes from.
-/
namespace WireSpaces.Network
open WireSpaces.Codec WireSpaces.Packet WireSpaces.Router WireSpaces.WiringModels WireSpaces.WiringTopology WireSpaces.WiringTrees
open WireSpaces.WiringProjection WireSpaces.WiringSchema WireSpaces.WiringMasks WireSpaces.GeneratedHost WireSpaces.Floods
open WireSpaces.WiringInference (edge)
open SimpleGraph hiding edge

/-! ### Hosts on Links -/

/-- A packet that a host put on a Link. -/
structure Transmission where
  host : HostProjection
  link : String
  packet : PacketBuffer

/-- A copy of it at an interface of another host. -/
structure Reception where
  host : HostProjection
  interface : InterfaceProjection
  packet : PacketBuffer

/-- Every Link accepts. -/
def accepting : InterfaceProjection → PacketBuffer → LinkAdmission := fun _ _ => .kAccepted

/-- Every other host that is attached to the Link hears a transmission, selected or not. -/
def copies (hosts : List HostProjection) (transmission : Transmission) : List Reception :=
  (hosts.filter fun host => host.declaration.name ≠ transmission.host.declaration.name).flatMap fun host =>
    (host.interfaces.filter fun i => i.declaration.link = transmission.link).map fun i => ⟨host,i,transmission.packet⟩

/-- The receptions of a host go to its router under the index of their interface. -/
def received (dispatchers : Reception → List DispatchTableEntry) (reception : Reception) : Received InterfaceProjection :=
  receive (routes reception.host) (forwarder reception.host.interfaces accepting) reception.packet
    (ingressConstant reception.interface) (dispatchers reception) (hostInfo reception.host)

/-- What a host puts on the Links of the interfaces that its Forwarder tried. -/
def transmissions (host : HostProjection) (packet : PacketBuffer) (tried : List InterfaceProjection) : List Transmission :=
  tried.map fun i => ⟨host,i.declaration.link,packet⟩

def network (hosts : List HostProjection) (dispatchers : Reception → List DispatchTableEntry) : Medium Transmission Reception where
  copies := copies hosts
  relays reception :=
    let received := received dispatchers reception
    transmissions reception.host received.packet received.forwarded

/-- What a host sends that originates a packet. -/
def originated (host : HostProjection) (packet : PacketBuffer) : List Transmission :=
  transmissions host packet (forward (routes host) (forwarder host.interfaces accepting) packet).2

theorem mem_copies {hosts : List HostProjection} {t : Transmission} {r : Reception} : r ∈ copies hosts t ↔
    r.host ∈ hosts ∧ r.host.declaration.name ≠ t.host.declaration.name ∧ r.interface ∈ r.host.interfaces ∧
      r.interface.declaration.link = t.link ∧ r.packet = t.packet := by
  simp only [copies,List.mem_flatMap,List.mem_filter,List.mem_map,decide_eq_true_eq]
  constructor
  · rintro ⟨host,⟨member,other⟩,i,⟨known,onLink⟩,rfl⟩
    exact ⟨member,other,known,onLink,rfl⟩
  · rintro ⟨member,other,known,onLink,same⟩
    exact ⟨r.host,⟨member,other⟩,r.interface,⟨known,onLink⟩,by rw [← same]⟩

/-- The place of a reception: a host is attached to a Link once. -/
def Reception.place (r : Reception) : String × String := (r.host.declaration.name,r.interface.declaration.link)

/-- The copies of a transmission are in different places. -/
theorem copies_once {hosts : List HostProjection} (names : (hosts.map (·.declaration.name)).Nodup)
    (links : ∀ host ∈ hosts, (host.interfaces.map (·.declaration.link)).Nodup) (t : Transmission) :
    ((copies hosts t).map Reception.place).Nodup := by
  rw [copies,List.map_flatMap,List.nodup_flatMap]
  refine ⟨?_,?_⟩
  · intro host among
    apply List.Nodup.of_map Prod.snd
    rw [List.map_map,List.map_map]
    exact (links host (List.mem_filter.mp among).1).sublist (List.filter_sublist.map _)
  · have once : (hosts.filter fun host => host.declaration.name ≠ t.host.declaration.name).Pairwise
        fun host host' => host.declaration.name ≠ host'.declaration.name :=
      List.pairwise_map.mp (names.sublist (List.filter_sublist.map _))
    refine once.imp ?_
    intro host host' distinct place here there
    simp only [List.map_map,List.mem_map] at here there
    obtain ⟨i,-,rfl⟩ := here
    obtain ⟨i',-,same⟩ := there
    exact distinct (Prod.mk.inj same).1.symm

theorem mem_transmissions {host : HostProjection} {packet : PacketBuffer} {tried : List InterfaceProjection} {t : Transmission} :
    t ∈ transmissions host packet tried ↔ ∃ i ∈ tried, t = ⟨host,i.declaration.link,packet⟩ := by
  simp only [transmissions,List.mem_map,eq_comm]

/-! ### Receptions -/

theorem forwarder_accepting {interfaces : List InterfaceProjection} (inside : ∀ i ∈ interfaces, i.egressBit < 8)
    (packet : PacketBuffer) (selected : InterfaceSet) :
    forwarder interfaces accepting packet selected = (.kAccepted,chosen interfaces selected) := by
  rw [forwarder_eq inside]
  by_cases none : chosen interfaces selected = []
  · rw [if_pos none]
  · have some : (chosen interfaces selected).map (accepting · packet) ≠ [] := by simpa using none
    rw [if_neg none,(admission_spec some).1.mpr (by simp [accepting])]

/-- The packet of a reception under its new tag. -/
def Reception.tagged (r : Reception) : PacketBuffer := { r.packet with ingressIndex := ingressConstant r.interface }

section compiled
variable {nx : NetworkX} {projection : TargetProjection} (compiled : Compiled nx projection) (lawful : nx.Lawful)
  {wire : ResolvedWire} (among : wire ∈ projection.resolved.wires)
include compiled lawful among

theorem originated_eq {host : HostProjection} (member : host ∈ projection.hosts) {packet : PacketBuffer}
    (onWire : packet.header.wire = wireNumber wire.declaration) (index : packet.ingressIndex = 0) (routed : Routed wire host) :
    originated host packet = transmissions host packet (outgoing wire host none) := by
  have selects := compiled.selects lawful among member
  have arrives : ∀ i ∈ (none : Option InterfaceProjection), i ∈ host.interfaces := by simp
  rw [originated,forward_selected compiled among member lawful _ onWire arrives index routed (by simp),if_neg (by simp),
    forwarder_accepting selects.numbered.inside,chosen_selectEgress selects arrives]

variable {r : Reception} (member : r.host ∈ projection.hosts) (known : r.interface ∈ r.host.interfaces)
  (onWire : r.packet.header.wire = wireNumber wire.declaration) (dispatchers : Reception → List DispatchTableEntry)
include member known onWire

theorem received_eq :
    let outcome := forward (routes r.host) (forwarder r.host.interfaces accepting) r.tagged
    (received dispatchers r).result.routing = outcome.1 ∧ (received dispatchers r).forwarded = outcome.2 ∧
      (received dispatchers r).packet.header = r.packet.header ∧ ((received dispatchers r).dispatched = true ↔
        outcome.1 ≠ .kNoRoute ∧ outcome.1 ≠ .kInvalidIngress ∧ r.host.declaration.name ∈ wire.members) := by
  have selects := compiled.selects lawful among member
  have arrival : ingressConstant r.interface ≠ 0 := indexOf_ne_zero (selects.numbered.inside r.interface known)
  have arrived := receive_arrival (routes r.host) (forwarder r.host.interfaces accepting) r.packet arrival (dispatchers r)
    (hostInfo r.host)
  rw [onWire,isMemberOf_iff compiled among member] at arrived
  exact arrived

/-- A reception at a selected interface is admitted, and goes on at the other ones. -/
theorem received_selected (selected : attachmentOf r.host r.interface ∈ wire.attachments) :
    ((received dispatchers r).result.routing = .kAccepted ∨ (received dispatchers r).result.routing = .kNoEgress) ∧
    (received dispatchers r).forwarded = outgoing wire r.host (some r.interface) ∧
    ((received dispatchers r).dispatched = true ↔ r.host.declaration.name ∈ wire.members) := by
  have selects := compiled.selects lawful among member
  have arrives : ∀ i ∈ some r.interface, i ∈ r.host.interfaces := by simpa using known
  have routed : Routed wire r.host := .inl ⟨r.interface,known,selected⟩
  have tagged : r.tagged.header.wire = wireNumber wire.declaration := onWire
  obtain ⟨routing,forwarded,-,dispatched⟩ := received_eq compiled lawful among member known onWire dispatchers
  have outcome : forward (routes r.host) (forwarder r.host.interfaces accepting) r.tagged =
      (if outgoing wire r.host (some r.interface) = [] then .kNoEgress else .kAccepted,outgoing wire r.host (some r.interface)) := by
    rw [forward_selected compiled among member lawful _ tagged arrives rfl routed (by simpa using selected),
      forwarder_accepting selects.numbered.inside,chosen_selectEgress selects arrives]
    by_cases leaf : outgoing wire r.host (some r.interface) = []
    · rw [if_pos ⟨by simp,leaf⟩,if_pos leaf,leaf]
    · rw [if_neg (fun both => leaf both.2),if_neg leaf]
  rw [outcome] at routing forwarded dispatched
  rw [routing,dispatched]
  refine ⟨?_,forwarded,?_⟩
  · by_cases leaf : outgoing wire r.host (some r.interface) = []
    · exact .inr (if_pos leaf)
    · exact .inl (if_neg leaf)
  · by_cases leaf : outgoing wire r.host (some r.interface) = []
    · simp [leaf]
    · simp [leaf]

/-- A reception at another interface is refused. -/
theorem received_refused (refused : attachmentOf r.host r.interface ∉ wire.attachments) :
    ((received dispatchers r).result.routing = .kNoRoute ∨ (received dispatchers r).result.routing = .kInvalidIngress) ∧
    (received dispatchers r).forwarded = [] ∧ (received dispatchers r).dispatched = false := by
  have arrives : ∀ i ∈ some r.interface, i ∈ r.host.interfaces := by simpa using known
  have tagged : r.tagged.header.wire = wireNumber wire.declaration := onWire
  obtain ⟨routing,forwarded,-,dispatched⟩ := received_eq compiled lawful among member known onWire dispatchers
  rw [← Bool.not_eq_true,routing,forwarded,dispatched]
  by_cases routed : Routed wire r.host
  · rw [forward_refused compiled among member lawful _ tagged arrives rfl routed ⟨r.interface,rfl,refused⟩]
    simp
  · rw [forward_unrouted compiled among member lawful _ tagged arrives rfl routed]
    simp

end compiled

/-! ### The tree of a Wire -/

section tree
variable {selected : List Attachment} {root : String}

/-- The steps from the root of a Wire's tree. -/
noncomputable def depth (selected : List Attachment) (root : String) (node : Node) : Nat :=
  (formed selected).simple.dist (.host root) node

/-- The Link of an attachment is further from the root than its host. -/
def Away (selected : List Attachment) (root : String) (a : Attachment) : Prop :=
  depth selected root (.link a.link) = depth selected root (.host a.host) + 1

/-- The host of an attachment is further from the root than its Link. -/
def Toward (selected : List Attachment) (root : String) (a : Attachment) : Prop :=
  depth selected root (.host a.host) = depth selected root (.link a.link) + 1

theorem attachment_adj {a : Attachment} (member : a ∈ selected) : (formed selected).simple.Adj (.host a.host) (.link a.link) :=
  formed_adj.mpr ⟨a,member,rfl⟩

theorem not_toward_root {a : Attachment} (mine : a.host = root) : ¬Toward selected root a := by
  intro toward
  rw [Toward,mine,depth,dist_self] at toward
  omega

theorem not_away_toward {a b : Attachment} (hosts : a.host = b.host) (links : a.link = b.link) (away : Away selected root a) :
    ¬Toward selected root b := by
  rw [Away,hosts,links] at away
  rw [Toward]
  omega

variable (branched : Branched selected) (reaches : ∀ x ∈ (formed selected).nodes, (formed selected).simple.Reachable (.host root) x)
include branched reaches

theorem away_or_toward {a : Attachment} (member : a ∈ selected) : Away selected root a ∨ Toward selected root a :=
  (branched.acyclic.dist_eq_dist_add_one_of_adj_of_reachable _ (attachment_adj member)
    (reaches _ (host_mem_formed.mpr ⟨a,member,rfl⟩))).symm

/-- A Link has one host on the side of the root. -/
theorem away_unique {a b : Attachment} (left : a ∈ selected) (right : b ∈ selected) (links : a.link = b.link)
    (away : Away selected root a) (away' : Away selected root b) : a.host = b.host := by
  have adj := attachment_adj right
  rw [← links] at adj
  rw [Away,← links] at away'
  exact Node.host.inj (Trees.closer_unique branched.acyclic (reaches _ (link_mem_formed.mpr ⟨a,left,rfl⟩)) (attachment_adj left) adj
    away away')

/-- A host has one Link on the side of the root. -/
theorem toward_unique {a b : Attachment} (left : a ∈ selected) (right : b ∈ selected) (hosts : a.host = b.host)
    (toward : Toward selected root a) (toward' : Toward selected root b) : a.link = b.link := by
  have adj := attachment_adj right
  rw [← hosts] at adj
  rw [Toward,← hosts] at toward'
  exact Node.link.inj (Trees.closer_unique branched.acyclic (reaches _ (host_mem_formed.mpr ⟨a,left,rfl⟩)) (attachment_adj left).symm
    adj.symm toward toward')

omit branched in
theorem exists_away {a : Attachment} (member : a ∈ selected) : ∃ b ∈ selected, b.link = a.link ∧ Away selected root b := by
  obtain ⟨u,adj,-,further⟩ := Trees.exists_closer (reaches _ (link_mem_formed.mpr ⟨a,member,rfl⟩)) (by simp)
  obtain ⟨b,among,ends⟩ := formed_adj.mp adj
  rcases Sym2.eq_iff.mp ends with ⟨rfl,link⟩ | ⟨-,never⟩
  · refine ⟨b,among,(Node.link.inj link).symm,?_⟩
    rwa [Away,depth,depth,← Node.link.inj link]
  · cases never

omit branched in
theorem exists_toward {a : Attachment} (member : a ∈ selected) (other : a.host ≠ root) :
    ∃ b ∈ selected, b.host = a.host ∧ Toward selected root b := by
  obtain ⟨u,adj,-,further⟩ := Trees.exists_closer (reaches _ (host_mem_formed.mpr ⟨a,member,rfl⟩))
    (fun same => other (Node.host.inj same))
  obtain ⟨b,among,ends⟩ := formed_adj.mp adj
  rcases Sym2.eq_iff.mp ends with ⟨-,never⟩ | ⟨rfl,host⟩
  · cases never
  · refine ⟨b,among,(Node.host.inj host).symm,?_⟩
    rwa [Toward,depth,depth,← Node.host.inj host]

end tree

/-! ### Flooding -/

/-- A transmission of the Wire's packet, on a selected Link and away from the source. -/
structure Sound (hosts : List HostProjection) (wire : ResolvedWire) (source : HostProjection) (t : Transmission) : Prop where
  host : t.host ∈ hosts
  attached : ∃ i ∈ t.host.interfaces, attachmentOf t.host i ∈ wire.attachments ∧ i.declaration.link = t.link ∧
    Away wire.attachments source.declaration.name (attachmentOf t.host i)
  onWire : t.packet.header.wire = wireNumber wire.declaration

section flooding
variable {nx : NetworkX} {projection : TargetProjection} (compiled : Compiled nx projection) (lawful : nx.Lawful)
  {wire : ResolvedWire} (among : wire ∈ projection.resolved.wires) {source : HostProjection} (begins : source ∈ projection.hosts)
  (routed : Routed wire source)
include compiled lawful among

omit among in
theorem origin_of : ∀ wire ∈ projection.resolved.wires, Origin nx projection.resolved.authored wire :=
  resolveDeployment_origin lawful compiled.valid compiled.resolves

include routed

/-- A host with a route reaches the whole tree of the Wire. -/
theorem reaches_tree : ∀ x ∈ (formed wire.attachments).nodes,
    (formed wire.attachments).simple.Reachable (.host source.declaration.name) x := by
  have origin := origin_of compiled lawful wire among
  have start : (∃ a ∈ wire.attachments, a.host = source.declaration.name) ∨ wire.attachments = [] := by
    rcases routed with ⟨i,-,attached⟩ | member
    · exact .inl ⟨_,attached,rfl⟩
    · rcases origin.covers with ⟨-,none⟩ | attached
      · exact .inr none
      · exact .inl (attached _ member)
  intro x inside
  rcases start with attached | none
  · exact origin.branched.connected _ (host_mem_formed.mpr attached) x inside
  · rw [none] at inside
    simp [Graph.build] at inside

/-- A copy at a selected interface came from the side of the source. -/
theorem copy_toward {t : Transmission} (sound : Sound projection.hosts wire source t) {r : Reception}
    (copied : r ∈ copies projection.hosts t) (selected : attachmentOf r.host r.interface ∈ wire.attachments) :
    Toward wire.attachments source.declaration.name (attachmentOf r.host r.interface) := by
  have branched := (origin_of compiled lawful wire among).branched
  have reaches := reaches_tree compiled lawful among routed
  obtain ⟨-,other,-,onLink,-⟩ := mem_copies.mp copied
  obtain ⟨i,-,attached,sentOn,away⟩ := sound.attached
  rcases away_or_toward branched reaches selected with away' | toward
  · exact absurd (away_unique branched reaches selected attached (onLink.trans sentOn.symm) away' away) other
  · exact toward

/-- A copy that is answered came from the side of the source, and its answers go to the other side. -/
theorem relays_cases {dispatchers : Reception → List DispatchTableEntry} {t : Transmission} (sound : Sound projection.hosts wire source t)
    {r : Reception} (copied : r ∈ copies projection.hosts t) {u : Transmission}
    (relayed : u ∈ (network projection.hosts dispatchers).relays r) :
    (attachmentOf r.host r.interface ∈ wire.attachments ∧
      Toward wire.attachments source.declaration.name (attachmentOf r.host r.interface)) ∧
    ∃ j ∈ r.host.interfaces, attachmentOf r.host j ∈ wire.attachments ∧
      Away wire.attachments source.declaration.name (attachmentOf r.host j) ∧
      u = ⟨r.host,j.declaration.link,(received dispatchers r).packet⟩ := by
  have branched := (origin_of compiled lawful wire among).branched
  have reaches := reaches_tree compiled lawful among routed
  obtain ⟨member,-,known,-,same⟩ := mem_copies.mp copied
  have onWire : r.packet.header.wire = wireNumber wire.declaration := same ▸ sound.onWire
  obtain ⟨j,tried,rfl⟩ := mem_transmissions.mp relayed
  by_cases selected : attachmentOf r.host r.interface ∈ wire.attachments
  swap
  · rw [(received_refused compiled lawful among member known onWire dispatchers selected).2.1] at tried
    cases tried
  have toward := copy_toward compiled lawful among routed sound copied selected
  rw [(received_selected compiled lawful among member known onWire dispatchers selected).2.1] at tried
  obtain ⟨known',condition⟩ := List.mem_filter.mp tried
  obtain ⟨attached,other⟩ := of_decide_eq_true condition
  refine ⟨⟨selected,toward⟩,j,known',attached,?_,rfl⟩
  rcases away_or_toward branched reaches attached with away | toward'
  · exact away
  -- Another Link on the side of the source would be the same.
  · have links : j.declaration.link = r.interface.declaration.link := toward_unique branched reaches attached selected rfl toward' toward
    exact absurd (congrArg some (List.inj_on_of_nodup_map (compiled.links_once member) known' known links)) other

include begins

theorem network_rooted {packet : PacketBuffer} (onWire : packet.header.wire = wireNumber wire.declaration) (index : packet.ingressIndex = 0)
    (dispatchers : Reception → List DispatchTableEntry) : Rooted (network projection.hosts dispatchers) (originated source packet)
      (Sound projection.hosts wire source) Transmission.link Reception.place := by
  have branched := (origin_of compiled lawful wire among).branched
  have reaches := reaches_tree compiled lawful among routed
  have first := originated_eq compiled lawful among begins onWire index routed
  have leaves {i : InterfaceProjection} (out : i ∈ outgoing wire source none) : i ∈ source.interfaces ∧
      attachmentOf source i ∈ wire.attachments ∧ Away wire.attachments source.declaration.name (attachmentOf source i) := by
    obtain ⟨known,condition⟩ := List.mem_filter.mp out
    have attached := (of_decide_eq_true condition).1
    exact ⟨known,attached,(away_or_toward branched reaches attached).resolve_right (not_toward_root rfl)⟩
  have once {host : HostProjection} (member : host ∈ projection.hosts) (packet : PacketBuffer) (arrival : Option InterfaceProjection) :
      ((transmissions host packet (outgoing wire host arrival)).map Transmission.link).Nodup := by
    rw [transmissions,List.map_map]
    exact (compiled.links_once member).sublist (List.filter_sublist.map _)
  refine ⟨?_,?_,?_,?_,?_,?_,?_,?_⟩
  · intro t member
    rw [first] at member
    obtain ⟨i,out,rfl⟩ := mem_transmissions.mp member
    obtain ⟨known,attached,away⟩ := leaves out
    exact ⟨begins,⟨i,known,attached,rfl,away⟩,onWire⟩
  · rw [first]
    exact once begins packet none
  · intro t sound r copied u relayed
    obtain ⟨-,j,known,attached,away,rfl⟩ := relays_cases compiled lawful among routed sound copied relayed
    obtain ⟨member,-,known',-,same⟩ := mem_copies.mp copied
    have onWire' : r.packet.header.wire = wireNumber wire.declaration := same ▸ sound.onWire
    refine ⟨member,⟨j,known,attached,rfl,away⟩,?_⟩
    rw [(received_eq compiled lawful among member known' onWire' dispatchers).2.2.1]
    exact onWire'
  · exact fun t _ => copies_once compiled.host_names (fun host member => compiled.links_once member) t
  · intro t sound r copied
    obtain ⟨member,-,known,-,same⟩ := mem_copies.mp copied
    have onWire' : r.packet.header.wire = wireNumber wire.declaration := same ▸ sound.onWire
    show ((transmissions r.host (received dispatchers r).packet (received dispatchers r).forwarded).map Transmission.link).Nodup
    by_cases selected : attachmentOf r.host r.interface ∈ wire.attachments
    · rw [(received_selected compiled lawful among member known onWire' dispatchers selected).2.1]
      exact once member _ _
    · rw [(received_refused compiled lawful among member known onWire' dispatchers selected).2.1]
      exact List.nodup_nil
  · intro t sound r copied u relayed again
    obtain ⟨⟨-,toward⟩,j,-,attached,away,rfl⟩ := relays_cases compiled lawful among routed sound copied relayed
    rw [first] at again
    obtain ⟨t',member',link⟩ := List.mem_map.mp again
    obtain ⟨i,out,rfl⟩ := mem_transmissions.mp member'
    obtain ⟨-,attached',away'⟩ := leaves out
    have mine : r.host.declaration.name = source.declaration.name := away_unique branched reaches attached attached' link.symm away away'
    exact not_toward_root (a := attachmentOf r.host r.interface) mine toward
  · intro t t' _ _ r copied r' copied' places
    obtain ⟨-,-,-,onLink,-⟩ := mem_copies.mp copied
    obtain ⟨-,-,-,onLink',-⟩ := mem_copies.mp copied'
    exact onLink.symm.trans ((Prod.mk.inj places).2.trans onLink')
  · intro t t' sound sound' r copied r' copied' u relayed u' relayed' links
    obtain ⟨⟨selected,toward⟩,j,-,attached,away,rfl⟩ := relays_cases compiled lawful among routed sound copied relayed
    obtain ⟨⟨selected',toward'⟩,j',-,attached',away',rfl⟩ := relays_cases compiled lawful among routed sound' copied' relayed'
    have hosts : r.host.declaration.name = r'.host.declaration.name := away_unique branched reaches attached attached' links away away'
    exact Prod.ext hosts (toward_unique branched reaches selected selected' hosts toward toward')

/-! ### At rest -/

variable {packet : PacketBuffer} (onWire : packet.header.wire = wireNumber wire.declaration) (index : packet.ingressIndex = 0)
  {dispatchers : Reception → List DispatchTableEntry} {s : State Transmission Reception}
  (account : Account (network projection.hosts dispatchers) (originated source packet) (Sound projection.hosts wire source)
    Transmission.link s)
include account

omit compiled lawful among routed begins in
theorem of_handled {r : Reception} (done : r ∈ s.handled) : ∃ t ∈ s.sent, Sound projection.hosts wire source t ∧
    r ∈ copies projection.hosts t ∧ r.host ∈ projection.hosts ∧ r.interface ∈ r.host.interfaces ∧
    r.packet.header.wire = wireNumber wire.declaration := by
  obtain ⟨t,member,sound,copied⟩ := account.of_heard (List.mem_append_left _ done)
  obtain ⟨host,-,known,-,same⟩ := mem_copies.mp copied
  exact ⟨t,member,sound,copied,host,known,same ▸ sound.onWire⟩

variable (rest : s.pending = [])
include rest

omit begins routed in
/-- A Link's packet has reached the hosts on its far side. -/
theorem received_toward {a : Attachment} (attached : a ∈ wire.attachments) (toward : Toward wire.attachments source.declaration.name a)
    (carried : ∃ t ∈ s.sent, t.link = a.link) : ∃ r ∈ s.handled, attachmentOf r.host r.interface = a := by
  obtain ⟨t,member,onLink⟩ := carried
  obtain ⟨i,-,attached',sentOn,away⟩ := (account.sound t member).attached
  obtain ⟨host,member',j,known,rfl⟩ := compiled.attached lawful among attached
  refine ⟨⟨host,j,t.packet⟩,account.at_rest rest member (mem_copies.mpr ⟨member',?_,known,onLink.symm,rfl⟩),rfl⟩
  intro same
  exact not_away_toward (a := attachmentOf t.host i) (b := attachmentOf host j) same.symm (sentOn.trans onLink) away toward

include onWire index

/-- Every selected Link has carried the packet; the induction is on its distance from the source. -/
theorem links_carried {a : Attachment} (attached : a ∈ wire.attachments) : ∃ t ∈ s.sent, t.link = a.link := by
  have reaches := reaches_tree compiled lawful among routed
  induction far : depth wire.attachments source.declaration.name (.link a.link) using Nat.strong_induction_on generalizing a with
  | _ n ih =>
    obtain ⟨b,attached',onLink,away⟩ := exists_away reaches attached
    rw [← onLink]
    rw [← onLink] at far
    by_cases mine : b.host = source.declaration.name
    · obtain ⟨i,known,rfl⟩ := (compiled.selects lawful among begins).declared b attached' mine
      refine ⟨⟨source,i.declaration.link,packet⟩,(account.origin _).mpr (.inl ?_),rfl⟩
      rw [originated_eq compiled lawful among begins onWire index routed]
      exact mem_transmissions.mpr ⟨i,List.mem_filter.mpr ⟨known,by simpa using attached'⟩,rfl⟩
    · obtain ⟨c,attached'',hosts,toward⟩ := exists_toward reaches attached' mine
      have closer : depth wire.attachments source.declaration.name (.link c.link) < n := by
        rw [Away] at away
        rw [Toward,hosts] at toward
        omega
      obtain ⟨r,done,rfl⟩ := received_toward compiled lawful among account rest attached'' toward (ih _ closer attached'' rfl)
      obtain ⟨-,-,-,-,host,known,onWire'⟩ := of_handled account done
      obtain ⟨j,known',rfl⟩ := (compiled.selects lawful among host).declared b attached' hosts.symm
      have other : j ≠ r.interface := by
        rintro rfl
        exact not_away_toward rfl rfl away toward
      refine ⟨⟨r.host,j.declaration.link,(received dispatchers r).packet⟩,(account.origin _).mpr (.inr ⟨r,done,?_⟩),rfl⟩
      refine mem_transmissions.mpr ⟨j,?_,rfl⟩
      rw [(received_selected compiled lawful among host known onWire' dispatchers attached'').2.1]
      exact List.mem_filter.mpr ⟨known',decide_eq_true ⟨attached',by simpa using other⟩⟩

/-- Every other host of the tree has received the packet at a selected interface. -/
theorem hosts_reached {host : HostProjection} (member : host ∈ projection.hosts) (other : host ≠ source)
    (attached : host.declaration.name ∈ wire.attachments.map (·.host)) :
    ∃ r ∈ s.handled, r.host = host ∧ attachmentOf r.host r.interface ∈ wire.attachments := by
  have reaches := reaches_tree compiled lawful among routed
  obtain ⟨a,attached',mine⟩ := List.mem_map.mp attached
  have elsewhere : a.host ≠ source.declaration.name := fun same => other (compiled.host_inj member begins (mine.symm.trans same))
  obtain ⟨c,selected,hosts,toward⟩ := exists_toward reaches attached' elsewhere
  obtain ⟨r,done,rfl⟩ := received_toward compiled lawful among account rest selected toward
    (links_carried compiled lawful among begins routed onWire index account rest selected)
  obtain ⟨-,-,-,-,known,-⟩ := of_handled account done
  exact ⟨r,done,compiled.host_inj known member (hosts.trans mine),selected⟩

end flooding

/-! ### What a run leaves -/

/-- The router admits a reception that it forwards or keeps. -/
def admitted (dispatchers : Reception → List DispatchTableEntry) (r : Reception) : Bool :=
  (received dispatchers r).result.routing = .kAccepted ∨ (received dispatchers r).result.routing = .kNoEgress

/-- How often a Link was used. -/
def carriedOn (s : State Transmission Reception) (link : String) : Nat := (s.sent.filter fun t => t.link = link).length

/-- How many receptions a host admitted. -/
def admissionsAt (dispatchers : Reception → List DispatchTableEntry) (s : State Transmission Reception) (host : HostProjection) : Nat :=
  (s.handled.filter fun r => r.host = host ∧ admitted dispatchers r = true).length

/-- How many receptions a host dispatched to its endpoints. -/
def dispatchesAt (dispatchers : Reception → List DispatchTableEntry) (s : State Transmission Reception) (host : HostProjection) : Nat :=
  (s.handled.filter fun r => r.host = host ∧ (received dispatchers r).dispatched = true).length

section counts
variable {nx : NetworkX} {projection : TargetProjection} (compiled : Compiled nx projection) (lawful : nx.Lawful)
  {wire : ResolvedWire} (among : wire ∈ projection.resolved.wires) {source : HostProjection} (begins : source ∈ projection.hosts)
  (routed : Routed wire source) {packet : PacketBuffer} (onWire : packet.header.wire = wireNumber wire.declaration)
  (index : packet.ingressIndex = 0) {dispatchers : Reception → List DispatchTableEntry} {s : State Transmission Reception}
  (account : Account (network projection.hosts dispatchers) (originated source packet) (Sound projection.hosts wire source)
    Transmission.link s)
include compiled lawful among account

theorem admitted_iff {r : Reception} (done : r ∈ s.handled) :
    admitted dispatchers r = true ↔ attachmentOf r.host r.interface ∈ wire.attachments := by
  obtain ⟨-,-,-,-,member,known,onWire'⟩ := of_handled account done
  rw [admitted,decide_eq_true_eq]
  constructor
  · intro admits
    by_contra refused
    rcases (received_refused compiled lawful among member known onWire' dispatchers refused).1 with unrouted | invalid
    · rw [unrouted] at admits
      simp at admits
    · rw [invalid] at admits
      simp at admits
  · exact fun selected => (received_selected compiled lawful among member known onWire' dispatchers selected).1

theorem dispatched_iff {r : Reception} (done : r ∈ s.handled) : (received dispatchers r).dispatched = true ↔
    attachmentOf r.host r.interface ∈ wire.attachments ∧ r.host.declaration.name ∈ wire.members := by
  obtain ⟨-,-,-,-,member,known,onWire'⟩ := of_handled account done
  by_cases selected : attachmentOf r.host r.interface ∈ wire.attachments
  · rw [(received_selected compiled lawful among member known onWire' dispatchers selected).2.2]
    simp [selected]
  · rw [(received_refused compiled lawful among member known onWire' dispatchers selected).2.2]
    simp [selected]

include routed

/-- A host that received at a selected interface is not the source, and it has one such place. -/
theorem handled_selected {r : Reception} (done : r ∈ s.handled) (selected : attachmentOf r.host r.interface ∈ wire.attachments) :
    r.host ≠ source ∧ ∀ r' ∈ s.handled, r'.host = r.host → attachmentOf r'.host r'.interface ∈ wire.attachments →
      r'.place = r.place := by
  have toward {r : Reception} (done : r ∈ s.handled) (selected : attachmentOf r.host r.interface ∈ wire.attachments) :
      Toward wire.attachments source.declaration.name (attachmentOf r.host r.interface) := by
    obtain ⟨t,-,sound,copied,-⟩ := of_handled account done
    exact copy_toward compiled lawful among routed sound copied selected
  refine ⟨?_,?_⟩
  · intro same
    exact not_toward_root (a := attachmentOf r.host r.interface) (by rw [same]; rfl) (toward done selected)
  · intro r' done' hosts selected'
    have names : r'.host.declaration.name = r.host.declaration.name := by rw [hosts]
    exact Prod.ext names (toward_unique (origin_of compiled lawful wire among).branched (reaches_tree compiled lawful among routed)
      selected' selected names (toward done' selected') (toward done selected))

include begins onWire index
variable (rest : s.pending = [])
include rest

theorem carriedOn_eq (link : String) : carriedOn s link = if link ∈ wire.attachments.map (·.link) then 1 else 0 := by
  refine length_filter_once account.once ?_ ?_
  · intro t _ t' _ here there
    rw [of_decide_eq_true here,of_decide_eq_true there]
  · simp only [decide_eq_true_eq,List.mem_map]
    constructor
    · rintro ⟨t,member,rfl⟩
      obtain ⟨i,-,attached,sentOn,-⟩ := (account.sound t member).attached
      exact ⟨_,attached,sentOn⟩
    · rintro ⟨a,attached,rfl⟩
      exact links_carried compiled lawful among begins routed onWire index account rest attached

/-- What a host does with receptions at selected interfaces only, it does at most once. -/
theorem count_selected {host : HostProjection} {test : Reception → Bool}
    (selects : ∀ r ∈ s.handled, test r = true → r.host = host ∧ attachmentOf r.host r.interface ∈ wire.attachments)
    {Met : Prop} [Decidable Met] (met : (∃ r ∈ s.handled, test r = true) ↔ Met) :
    (s.handled.filter test).length = if Met then 1 else 0 := by
  have places := account.heard_once (network_rooted compiled lawful among begins routed onWire index dispatchers)
  rw [rest,List.append_nil] at places
  refine length_filter_once places ?_ met
  intro r done r' done' here there
  obtain ⟨rfl,selected⟩ := selects r done here
  obtain ⟨hosts,selected'⟩ := selects r' done' there
  exact ((handled_selected compiled lawful among routed account done selected).2 r' done' hosts selected').symm

theorem admissionsAt_eq {host : HostProjection} (member : host ∈ projection.hosts) : admissionsAt dispatchers s host =
    if host ≠ source ∧ host.declaration.name ∈ wire.attachments.map (·.host) then 1 else 0 := by
  have selects (r : Reception) (done : r ∈ s.handled) (here : decide (r.host = host ∧ admitted dispatchers r = true) = true) :
      r.host = host ∧ attachmentOf r.host r.interface ∈ wire.attachments := by
    obtain ⟨mine,admits⟩ := of_decide_eq_true here
    exact ⟨mine,(admitted_iff compiled lawful among account done).mp admits⟩
  refine count_selected compiled lawful among begins routed onWire index account rest selects ?_
  constructor
  · rintro ⟨r,done,here⟩
    obtain ⟨rfl,selected⟩ := selects r done here
    exact ⟨(handled_selected compiled lawful among routed account done selected).1,List.mem_map.mpr ⟨_,selected,rfl⟩⟩
  · rintro ⟨other,attached⟩
    obtain ⟨r,done,here,selected⟩ :=
      hosts_reached compiled lawful among begins routed onWire index account rest member other attached
    exact ⟨r,done,decide_eq_true ⟨here,(admitted_iff compiled lawful among account done).mpr selected⟩⟩

theorem dispatchesAt_eq {host : HostProjection} (member : host ∈ projection.hosts) : dispatchesAt dispatchers s host =
    if host ≠ source ∧ host.declaration.name ∈ wire.members then 1 else 0 := by
  have selects (r : Reception) (done : r ∈ s.handled) (here : decide (r.host = host ∧ (received dispatchers r).dispatched = true) = true) :
      r.host = host ∧ attachmentOf r.host r.interface ∈ wire.attachments := by
    obtain ⟨mine,dispatches⟩ := of_decide_eq_true here
    exact ⟨mine,((dispatched_iff compiled lawful among account done).mp dispatches).1⟩
  refine count_selected compiled lawful among begins routed onWire index account rest selects ?_
  constructor
  · rintro ⟨r,done,here⟩
    obtain ⟨rfl,dispatches⟩ := of_decide_eq_true here
    obtain ⟨selected,member'⟩ := (dispatched_iff compiled lawful among account done).mp dispatches
    exact ⟨(handled_selected compiled lawful among routed account done selected).1,member'⟩
  · rintro ⟨other,member'⟩
    -- A Wire without attachments has no member beside the source.
    have attached : host.declaration.name ∈ wire.attachments.map (·.host) := by
      rcases (origin_of compiled lawful wire among).covers with ⟨⟨m,single⟩,none⟩ | attached
      · rw [single,List.mem_singleton] at member'
        rcases routed with ⟨i,-,selected⟩ | mine
        · rw [none] at selected
          cases selected
        · rw [single,List.mem_singleton] at mine
          exact absurd (compiled.host_inj member begins (member'.trans mine.symm)) other
      · obtain ⟨a,selected,mine⟩ := attached _ member'
        exact List.mem_map.mpr ⟨a,selected,mine⟩
    obtain ⟨r,done,rfl,selected⟩ :=
      hosts_reached compiled lawful among begins routed onWire index account rest member other attached
    exact ⟨r,done,decide_eq_true ⟨rfl,(dispatched_iff compiled lawful among account done).mpr ⟨selected,member'⟩⟩⟩

end counts

/-- A packet that a host of a compiled deployment originates on a Wire it has a route for floods the Wire once, whatever the
    order in which the copies are handled. The run ends; by then each Link of the Wire's attachments was used once and no other
    Link was; each other host with a selected attachment admitted the packet once, and the source never; what was not admitted
    was refused, and neither forwarded nor dispatched; and each other member dispatched it once, and no other host did. -/
theorem wire_floods_once (nx : NetworkX) (lawful : nx.Lawful) (document : Document) (projection : TargetProjection)
    (accepted : compileDeployment nx document = .ok projection) (wire : ResolvedWire) (among : wire ∈ projection.resolved.wires)
    (source : HostProjection) (begins : source ∈ projection.hosts)
    (route : ∃ entry ∈ routes source, entry.wire = wireNumber wire.declaration) (packet : PacketBuffer)
    (onWire : packet.header.wire = wireNumber wire.declaration) (index : packet.ingressIndex = 0)
    (dispatchers : Reception → List DispatchTableEntry) :
    let medium := network projection.hosts dispatchers
    let begun := start medium (originated source packet)
    Acc (fun s' s => Step medium s s') begun ∧
    ∀ s, Run medium begun s →
      (s.pending ≠ [] → ∃ s', Step medium s s') ∧
      (∀ r ∈ s.handled, admitted dispatchers r = false →
        ((received dispatchers r).result.routing = .kNoRoute ∨ (received dispatchers r).result.routing = .kInvalidIngress) ∧
        (received dispatchers r).forwarded = [] ∧ (received dispatchers r).dispatched = false) ∧
      (s.pending = [] →
        (∀ link, carriedOn s link = if link ∈ wire.attachments.map (·.link) then 1 else 0) ∧
        (∀ host ∈ projection.hosts, admissionsAt dispatchers s host =
          if host ≠ source ∧ host.declaration.name ∈ wire.attachments.map (·.host) then 1 else 0) ∧
        ∀ host ∈ projection.hosts, dispatchesAt dispatchers s host =
          if host ≠ source ∧ host.declaration.name ∈ wire.members then 1 else 0) := by
  have compiled := compileDeployment_compiled accepted
  have routed : Routed wire source := by
    by_contra unrouted
    obtain ⟨entry,listed,matching⟩ := route
    have absent := (find_route compiled among begins (compiled.selects lawful among begins)).2 unrouted
    exact List.find?_eq_none.mp absent entry listed (decide_eq_true matching)
  have rooted := network_rooted compiled lawful among begins routed onWire index dispatchers
  refine ⟨?_,?_⟩
  · have within (t : Transmission) (_ : Sound projection.hosts wire source t) (r : Reception) (copied : r ∈ copies projection.hosts t) :
        r.place ∈ projection.hosts.flatMap fun host => host.interfaces.map fun i => (host.declaration.name,i.declaration.link) := by
      obtain ⟨member,-,known,-⟩ := mem_copies.mp copied
      exact List.mem_flatMap.mpr ⟨r.host,member,List.mem_map.mpr ⟨r.interface,known,rfl⟩⟩
    exact terminates rooted within (account_start rooted)
  · intro s run
    have account := account_run rooted run
    refine ⟨step_of_pending _,?_,?_⟩
    · intro r done unadmitted
      obtain ⟨-,-,-,-,member,known,onWire'⟩ := of_handled account done
      refine received_refused compiled lawful among member known onWire' dispatchers ?_
      rw [← admitted_iff compiled lawful among account done,unadmitted]
      exact Bool.false_ne_true
    · intro rest
      exact ⟨carriedOn_eq compiled lawful among begins routed onWire index account rest,
        fun host member => admissionsAt_eq compiled lawful among begins routed onWire index account rest member,
        fun host member => dispatchesAt_eq compiled lawful among begins routed onWire index account rest member⟩

/-- The Wires of a document with their members and the Links they use. -/
def spans (nx : NetworkX) (document : Document) : Checked (List (String × List String × List String)) := do
  let projection ← compileDeployment nx document
  return projection.resolved.wires.map fun wire =>
    (wire.declaration.name,wire.members,(wire.attachments.map (·.link)).dedup)

theorem gateway_spans : spans WiringSearch.layered gateway =
    .ok [("Alone",["B"],[]),("Chain",["A","C"],["Bus","Serial"]),("Direct",["A","B"],["Bus"]),
      ("Tree",["B","C"],["Bus","Serial"]),("Whole",["A","C"],["Bus","Serial"])] := by
  decide +kernel

/-- A packet from `B` crosses the bus and the serial line of the tree once each, past the listener `A`. -/
theorem gateway_flood : ∃ projection, compileDeployment WiringSearch.layered gateway = .ok projection ∧
    ∃ wire ∈ projection.resolved.wires, wire.declaration.name = "Tree" ∧
    ∃ source ∈ projection.hosts, source.declaration.name = "B" ∧ ∀ dispatchers,
      let packet := { PacketBuffer.define 8 PacketBuffer.eight_fits with header := { wire := wireNumber wire.declaration } }
      ∃ s, Run (network projection.hosts dispatchers) (start (network projection.hosts dispatchers) (originated source packet)) s ∧
        s.pending = [] ∧ carriedOn s "Bus" = 1 ∧ carriedOn s "Serial" = 1 ∧ carriedOn s "Bypass" = 0 := by
  obtain ⟨projection,accepted,listed⟩ := gateway_projected
  have spanned := gateway_spans
  rw [spans,accepted] at spanned
  have compiled := compileDeployment_compiled accepted
  have tree : ("Tree",["B","C"],["Bus","Serial"]) ∈ projection.resolved.wires.map fun wire =>
      (wire.declaration.name,wire.members,(wire.attachments.map (·.link)).dedup) := by
    rw [show projection.resolved.wires.map _ = _ from Except.ok.inj spanned]
    simp
  have second : ("B",[("Bus",0)]) ∈ projection.hosts.map fun host =>
      (host.declaration.name,host.interfaces.map fun i => (i.declaration.name,i.egressBit)) := by
    rw [listed]
    simp
  obtain ⟨wire,among,shown⟩ := List.mem_map.mp tree
  obtain ⟨wireName,members,links⟩ : wire.declaration.name = "Tree" ∧ wire.members = ["B","C"] ∧
      (wire.attachments.map (·.link)).dedup = ["Bus","Serial"] := by simpa using shown
  obtain ⟨source,begins,shown'⟩ := List.mem_map.mp second
  have name : source.declaration.name = "B" := (Prod.mk.inj shown').1
  have routed : Routed wire source := .inr (by simp [name,members])
  have entry := (find_route compiled among begins (compiled.selects WiringSearch.layered_lawful among begins)).1 routed
  have matching := List.find?_some entry
  refine ⟨projection,accepted,wire,among,wireName,source,begins,name,fun dispatchers => ?_⟩
  intro packet
  obtain ⟨ends,leaves⟩ := wire_floods_once WiringSearch.layered WiringSearch.layered_lawful gateway projection accepted wire among
    source begins ⟨_,List.mem_of_find?_eq_some entry,of_decide_eq_true matching⟩ packet rfl rfl dispatchers
  obtain ⟨s,run,rest⟩ := exists_rest _ ends
  have carried := ((leaves s run).2.2 rest).1
  have used (link : String) : link ∈ wire.attachments.map (·.link) ↔ link = "Bus" ∨ link = "Serial" := by
    rw [← List.mem_dedup,links]
    simp
  refine ⟨s,run,rest,?_,?_,?_⟩
  · rw [carried,if_pos ((used _).mpr (by simp))]
  · rw [carried,if_pos ((used _).mpr (by simp))]
  · rw [carried,if_neg]
    rw [used]
    decide

end WireSpaces.Network
