import WireSpaces.Router
import WireSpaces.WiringMasks

/-!
What the emitted header of a host defines, as values: its constants, route table, identity and Forwarder.
The router of a compiled host decides by the attachments that the Wire selects there.
-/
namespace WireSpaces.GeneratedHost
open WireSpaces.Codec WireSpaces.Packet WireSpaces.Router WireSpaces.WiringModels WireSpaces.WiringTopology
open WireSpaces.WiringProjection WireSpaces.WiringSchema WireSpaces.WiringMasks

/-! ### The header's definitions -/

/-- The constant of a Wire. -/
def wireNumber (wire : WireDeclaration) : WireNumber := ⟨.ofNat 8 wire.wireId⟩

/-- The `Egress` constant of an interface. -/
def egressConstant (interface : InterfaceProjection) : InterfaceSet := .ofNat 8 interface.mask

/-- The `IngressIndex` constant of an interface. -/
def ingressConstant (interface : InterfaceProjection) : U8 := .ofNat 8 interface.ingressIndex

/-- One line of `kRoutes`: the constants of the interfaces in the route's mask, joined. -/
def routeEntry (interfaces : List InterfaceProjection) (route : RouteProjection) : RouteTableEntry :=
  ⟨wireNumber route.wire,
    (interfaces.filter fun i => route.egressMask &&& i.mask ≠ 0).foldr (fun i set => egressConstant i ||| set) kNoEgress⟩

def routes (host : HostProjection) : List RouteTableEntry := host.routes.map (routeEntry host.interfaces)

/-- The `HostInfo` constant; the initializer leaves the other Wires of the array zero. -/
def hostInfo (host : HostProjection) : HostInfo :=
  ⟨⟨.ofNat 8 host.declaration.hostId⟩,.ofNat 8 host.memberships.length,
    host.memberships.map wireNumber ++ List.replicate (kMaximumHostWires - host.memberships.length) ⟨0⟩⟩

/-- `Forwarder::forward`: the Links of the selected bits are tried in the order of the bits. -/
def forwarder (interfaces : List InterfaceProjection) (trySend : InterfaceProjection → PacketBuffer → LinkAdmission) :
    PacketForwarder InterfaceProjection := fun packet selected =>
  let (result,tried) := interfaces.foldl (fun (result,tried) i =>
    if selected &&& egressConstant i ≠ 0 then (combineAdmission result (trySend i packet),tried ++ [i]) else (result,tried))
    (.kNoEgress,[])
  (if result = .kNoEgress then .kAccepted else result,tried)

/-! ### The Forwarder -/

section
variable {interfaces : List InterfaceProjection} {trySend : InterfaceProjection → PacketBuffer → LinkAdmission}

/-- The loop of the Forwarder folds the answers of the interfaces it tries. -/
theorem forwarder_loop (packet : PacketBuffer) (selected : InterfaceSet) (start : RouteResult × List InterfaceProjection) :
    interfaces.foldl (fun (result,tried) i =>
      if selected &&& egressConstant i ≠ 0 then (combineAdmission result (trySend i packet),tried ++ [i]) else (result,tried)) start =
    let chosen := interfaces.filter fun i => selected &&& egressConstant i ≠ 0
    ((chosen.map (trySend · packet)).foldl combineAdmission start.1,start.2 ++ chosen) := by
  induction interfaces generalizing start with
  | nil => simp
  | cons interface rest ih =>
    rw [List.foldl_cons,ih]
    by_cases chosen : selected &&& egressConstant interface ≠ 0
    · have kept : (interface :: rest).filter (fun i => selected &&& egressConstant i ≠ 0) =
          interface :: rest.filter (fun i => selected &&& egressConstant i ≠ 0) := List.filter_cons_of_pos (decide_eq_true chosen)
      simp only [if_pos chosen,kept,List.map_cons,List.foldl_cons,List.append_assoc]
      rfl
    · have skipped : (interface :: rest).filter (fun i => selected &&& egressConstant i ≠ 0) =
          rest.filter (fun i => selected &&& egressConstant i ≠ 0) := List.filter_cons_of_neg (by simpa using chosen)
      simp only [if_neg chosen,skipped]

end

theorem egressConstant_eq (interface : InterfaceProjection) : egressConstant interface = 1#8 <<< interface.egressBit := by
  apply BitVec.eq_of_toNat_eq
  rw [egressConstant,InterfaceProjection.mask,BitVec.toNat_ofNat,BitVec.toNat_shiftLeft]
  rfl

/-- An interface is tried when its bit is in the set. -/
theorem selected_iff {interface : InterfaceProjection} (inside : interface.egressBit < 8) (selected : InterfaceSet) :
    selected &&& egressConstant interface ≠ 0 ↔ selected.getLsbD interface.egressBit = true := by
  rw [egressConstant_eq]
  have clear : selected &&& (1#8 <<< interface.egressBit) = 0 ↔ selected.getLsbD interface.egressBit = false :=
    Words.and_bit_eq_zero _ inside
  rw [ne_eq,clear,Bool.not_eq_false]

/-- The interfaces whose bits are in a set. -/
def chosen (interfaces : List InterfaceProjection) (selected : InterfaceSet) : List InterfaceProjection :=
  interfaces.filter fun i => selected.getLsbD i.egressBit

/-- The Forwarder tries the interfaces of its set once each and returns their admission. -/
theorem forwarder_eq {interfaces : List InterfaceProjection} (inside : ∀ i ∈ interfaces, i.egressBit < 8)
    (trySend : InterfaceProjection → PacketBuffer → LinkAdmission) (packet : PacketBuffer) (selected : InterfaceSet) :
    forwarder interfaces trySend packet selected =
      (if chosen interfaces selected = [] then .kAccepted else admission ((chosen interfaces selected).map (trySend · packet)),
        chosen interfaces selected) := by
  have same : (interfaces.filter fun i => selected &&& egressConstant i ≠ 0) = chosen interfaces selected := by
    apply List.filter_congr
    intro i among
    rw [Bool.eq_iff_iff,decide_eq_true_eq]
    exact selected_iff (inside i among) selected
  simp only [forwarder,forwarder_loop,List.nil_append,same]
  by_cases none : chosen interfaces selected = []
  · rw [none,if_pos rfl]
    rfl
  · have tried : (chosen interfaces selected).map (trySend · packet) ≠ [] := by simpa using none
    rw [if_neg none,foldl_combineAdmission tried,if_neg (admission_ne_routing _).2.1]

/-! ### The route of a Wire -/

theorem mask_and_ne_zero (mask : Nat) (interface : InterfaceProjection) :
    mask &&& interface.mask ≠ 0 ↔ mask.testBit interface.egressBit = true := by
  rw [InterfaceProjection.mask,Nat.one_shiftLeft,Nat.and_two_pow]
  cases mask.testBit interface.egressBit <;> simp

/-- An entry has the bits of the interfaces in the route's mask. -/
theorem routeEntry_getLsbD {interfaces : List InterfaceProjection} (inside : ∀ i ∈ interfaces, i.egressBit < 8)
    (route : RouteProjection) (bit : Nat) : (routeEntry interfaces route).wireInterfaces.getLsbD bit = true ↔
      ∃ i ∈ interfaces, route.egressMask.testBit i.egressBit = true ∧ i.egressBit = bit := by
  have joined (chosen : List InterfaceProjection) (inside : ∀ i ∈ chosen, i.egressBit < 8) :
      (chosen.foldr (fun i set => egressConstant i ||| set) kNoEgress).getLsbD bit = true ↔ ∃ i ∈ chosen, i.egressBit = bit := by
    induction chosen with
    | nil => simp [kNoEgress]
    | cons i rest ih =>
      have here := inside i List.mem_cons_self
      rw [List.foldr_cons,BitVec.getLsbD_or,Bool.or_eq_true,ih fun other later => inside other (List.mem_cons_of_mem _ later),
        egressConstant_eq,Words.testBit_shiftLeft_one,decide_eq_true_eq]
      simp only [List.mem_cons,exists_eq_or_imp]
      have first : bit = i.egressBit ∧ bit < 8 ↔ i.egressBit = bit := by omega
      rw [first]
  rw [routeEntry,joined _ fun i chosen => inside i (List.mem_filter.mp chosen).1]
  simp only [List.mem_filter,decide_eq_true_eq,mask_and_ne_zero,and_assoc]

/-- A host has a route on a Wire: it is selected, or a member. -/
def Routed (wire : ResolvedWire) (host : HostProjection) : Prop :=
  (∃ i ∈ host.interfaces, attachmentOf host i ∈ wire.attachments) ∨ host.declaration.name ∈ wire.members

/-- The entry of a host on a Wire. -/
def entryOn (wire : ResolvedWire) (host : HostProjection) : RouteTableEntry :=
  routeEntry host.interfaces ⟨wire.declaration,maskOn wire host⟩

/-- The selected interfaces beside the one of an arrival. -/
def outgoing (wire : ResolvedWire) (host : HostProjection) (arrival : Option InterfaceProjection) : List InterfaceProjection :=
  host.interfaces.filter fun i => attachmentOf host i ∈ wire.attachments ∧ some i ≠ arrival

section selects
variable {wire : ResolvedWire} {host : HostProjection} (selects : Selects wire host)
include selects

theorem routed_iff : Routed wire host ↔ maskOn wire host ≠ 0 ∨ host.declaration.name ∈ wire.members := by
  rw [Routed,selects.mask_ne_zero]

theorem entryOn_getLsbD {i : InterfaceProjection} (member : i ∈ host.interfaces) :
    (entryOn wire host).wireInterfaces.getLsbD i.egressBit = true ↔ attachmentOf host i ∈ wire.attachments := by
  rw [entryOn,routeEntry_getLsbD selects.numbered.inside,← selects.testBit_mask member]
  constructor
  · rintro ⟨j,-,set,same⟩
    rwa [same] at set
  · intro set
    exact ⟨i,member,set,rfl⟩

variable {arrival : Option InterfaceProjection} (arrives : ∀ i ∈ arrival, i ∈ host.interfaces)
include arrives

theorem selectEgress_getLsbD {i : InterfaceProjection} (member : i ∈ host.interfaces) :
    (selectEgress (entryOn wire host) (arrival.map (·.egressBit))).getLsbD i.egressBit = true ↔
      attachmentOf host i ∈ wire.attachments ∧ some i ≠ arrival := by
  rw [← entryOn_getLsbD selects member]
  cases arrival with
  | none => simp [selectEgress]
  | some j =>
    have apart : i.egressBit = j.egressBit ↔ i = j := by
      constructor
      · exact List.inj_on_of_nodup_map selects.numbered.ascending.nodup member (arrives j rfl)
      · rintro rfl
        rfl
    rw [Option.map_some,selectEgress,BitVec.getLsbD_and,BitVec.getLsbD_not,Words.testBit_shiftLeft_one]
    simp [selects.numbered.inside i member,apart]

/-- The Forwarder is given the bits of the outgoing interfaces. -/
theorem chosen_selectEgress :
    chosen host.interfaces (selectEgress (entryOn wire host) (arrival.map (·.egressBit))) = outgoing wire host arrival := by
  apply List.filter_congr
  intro i member
  rw [Bool.eq_iff_iff,decide_eq_true_eq]
  exact selectEgress_getLsbD selects arrives member

theorem selectEgress_eq_zero :
    selectEgress (entryOn wire host) (arrival.map (·.egressBit)) = kNoEgress ↔ outgoing wire host arrival = [] := by
  rw [← chosen_selectEgress selects arrives]
  constructor
  · intro zero
    rw [zero]
    simp [chosen,kNoEgress]
  · intro none
    apply BitVec.eq_of_getLsbD_eq
    intro bit _
    rw [show kNoEgress.getLsbD bit = false by simp [kNoEgress],Bool.eq_false_iff]
    intro set
    -- A bit of the set is a bit of the entry, and so of an interface.
    have within : (entryOn wire host).wireInterfaces.getLsbD bit = true := by
      cases arrival with
      | none => exact set
      | some j =>
        rw [Option.map_some,selectEgress,BitVec.getLsbD_and,Bool.and_eq_true] at set
        exact set.1
    obtain ⟨i,member,-,rfl⟩ := (routeEntry_getLsbD selects.numbered.inside _ bit).mp within
    have chosenHere : i ∈ chosen host.interfaces (selectEgress (entryOn wire host) (arrival.map (·.egressBit))) :=
      List.mem_filter.mpr ⟨member,set⟩
    rw [none] at chosenHere
    cases chosenHere

end selects

/-! ### The router of a compiled host -/

section compiled
variable {nx : NetworkX} {projection : TargetProjection} (compiled : Compiled nx projection)
include compiled

theorem wireNumber_inj {wire wire' : ResolvedWire} (left : wire ∈ projection.resolved.wires)
    (right : wire' ∈ projection.resolved.wires) (same : wireNumber wire.declaration = wireNumber wire'.declaration) : wire = wire' := by
  have range (wire : ResolvedWire) (member : wire ∈ projection.resolved.wires) : wire.declaration.wireId ≤ 254 :=
    (compiled.valid.wireRange _ (compiled.wires.mem_iff.mp (List.mem_map_of_mem member))).2
  have bounds := range wire left
  have bounds' := range wire' right
  have numbers := congrArg (·.value.toNat) same
  simp only [wireNumber,BitVec.toNat_ofNat] at numbers
  exact List.inj_on_of_nodup_map compiled.wire_ids left right (by omega)

variable {wire : ResolvedWire} (among : wire ∈ projection.resolved.wires) {host : HostProjection} (member : host ∈ projection.hosts)
include among member

/-- The table of a host has one entry for each Wire it has a route on. -/
theorem find_route (selects : Selects wire host) : (Routed wire host →
      (routes host).find? (·.wire = wireNumber wire.declaration) = some (entryOn wire host)) ∧
    (¬Routed wire host → (routes host).find? (·.wire = wireNumber wire.declaration) = none) := by
  have only (entry : RouteTableEntry) (found : (routes host).find? (·.wire = wireNumber wire.declaration) = some entry) :
      entry = entryOn wire host ∧ Routed wire host := by
    obtain ⟨route,listed,rfl⟩ := List.mem_map.mp (List.mem_of_find?_eq_some found)
    obtain ⟨wire',other,rfl,condition⟩ := (mem_routes (compiled.lowered host member)).mp listed
    have matching := List.find?_some found
    have number : wireNumber wire'.declaration = wireNumber wire.declaration := of_decide_eq_true matching
    obtain rfl := wireNumber_inj compiled (mem_sortedByNumber.mp other) among number
    exact ⟨rfl,(routed_iff selects).mpr condition⟩
  constructor
  · intro routed
    cases found : (routes host).find? (·.wire = wireNumber wire.declaration) with
    | some entry => rw [(only entry found).1]
    | none =>
      have listed : (⟨wire.declaration,maskOn wire host⟩ : RouteProjection) ∈ host.routes :=
        (compiled.route_iff among member rfl).mpr ⟨rfl,(routed_iff selects).mp routed⟩
      have absent := List.find?_eq_none.mp found _ (List.mem_map_of_mem listed)
      simp [routeEntry] at absent
  · intro unrouted
    rw [← Option.not_isSome_iff_eq_none,Option.isSome_iff_exists]
    rintro ⟨entry,found⟩
    exact unrouted (only entry found).2

/-- The memberships of the emitted identity. -/
theorem isMemberOf_iff : (hostInfo host).isMemberOf (wireNumber wire.declaration) = true ↔ host.declaration.name ∈ wire.members := by
  have lowered := compiled.lowered host member
  have few := lowered.few
  have count : min (hostInfo host).wireCount.toNat kMaximumHostWires = host.memberships.length := by
    rw [hostInfo,BitVec.toNat_ofNat,kMaximumHostWires]
    omega
  have used : (hostInfo host).wires.take host.memberships.length = host.memberships.map wireNumber :=
    List.take_left' (List.length_map _)
  rw [HostInfo.isMemberOf,count,used,List.any_eq_true]
  simp only [lowered.memberships,List.mem_map,List.mem_filter,decide_eq_true_eq,beq_iff_eq,mem_sortedByNumber]
  constructor
  · rintro ⟨-,⟨-,⟨wire',⟨other,among'⟩,rfl⟩,rfl⟩,same⟩
    obtain rfl := wireNumber_inj compiled other among same
    exact among'
  · intro among'
    exact ⟨_,⟨_,⟨wire,⟨among,among'⟩,rfl⟩,rfl⟩,rfl⟩

variable {α : Type} (lawful : nx.Lawful) (forwards : PacketForwarder α) {packet : PacketBuffer}
  (onWire : packet.header.wire = wireNumber wire.declaration) {arrival : Option InterfaceProjection}
  (arrives : ∀ i ∈ arrival, i ∈ host.interfaces) (index : packet.ingressIndex = indexOf (arrival.map (·.egressBit)))
include lawful onWire arrives index

theorem forward_unrouted (unrouted : ¬Routed wire host) : forward (routes host) forwards packet = (.kNoRoute,[]) := by
  have selects := compiled.selects lawful among member
  have absent := (find_route compiled among member selects).2 unrouted
  rw [← onWire] at absent
  cases arrival with
  | none => rw [forward_origin forwards index,absent]
  | some i => rw [forward_arrival forwards (selects.numbered.inside i (arrives i rfl)) index,absent]

/-- On a routed host the packet is refused at an unselected interface, kept at a leaf, and handed to the Forwarder with
    the bits of the outgoing interfaces otherwise. -/
theorem forward_routed (routed : Routed wire host) : forward (routes host) forwards packet =
    match arrival with
    | none => forwards packet (selectEgress (entryOn wire host) (arrival.map (·.egressBit)))
    | some i =>
      if attachmentOf host i ∉ wire.attachments then (.kInvalidIngress,[])
      else if outgoing wire host arrival = [] then (.kNoEgress,[])
      else forwards packet (selectEgress (entryOn wire host) (arrival.map (·.egressBit))) := by
  have selects := compiled.selects lawful among member
  have entry := (find_route compiled among member selects).1 routed
  rw [← onWire] at entry
  cases arrival with
  | none =>
    rw [forward_origin forwards index,entry]
    rfl
  | some i =>
    have known := arrives i rfl
    rw [forward_arrival forwards (selects.numbered.inside i known) index,entry]
    have refused : (entryOn wire host).wireInterfaces.getLsbD i.egressBit = false ↔ attachmentOf host i ∉ wire.attachments := by
      rw [← entryOn_getLsbD selects known,Bool.not_eq_true]
    have leaf := selectEgress_eq_zero selects arrives
    simp only [Option.map_some] at leaf ⊢
    by_cases unselected : attachmentOf host i ∉ wire.attachments
    · rw [if_pos (refused.mpr unselected),if_pos unselected]
    rw [if_neg (fun clear => unselected (refused.mp clear)),if_neg unselected]
    by_cases none : outgoing wire host (some i) = []
    · rw [if_pos (leaf.mpr none),if_pos none]
    · rw [if_neg (fun zero => none (leaf.mp zero)),if_neg none]

theorem forward_refused (routed : Routed wire host) (refused : ∃ i ∈ arrival, attachmentOf host i ∉ wire.attachments) :
    forward (routes host) forwards packet = (.kInvalidIngress,[]) := by
  rw [forward_routed compiled among member lawful forwards onWire arrives index routed]
  obtain ⟨i,rfl,unselected⟩ := refused
  exact if_pos unselected

/-- An arrival that is not refused stops at a leaf and is forwarded otherwise. -/
theorem forward_selected (routed : Routed wire host) (selected : ∀ i ∈ arrival, attachmentOf host i ∈ wire.attachments) :
    forward (routes host) forwards packet =
      if arrival ≠ none ∧ outgoing wire host arrival = [] then (.kNoEgress,[])
      else forwards packet (selectEgress (entryOn wire host) (arrival.map (·.egressBit))) := by
  rw [forward_routed compiled among member lawful forwards onWire arrives index routed]
  cases arrival with
  | none => rfl
  | some i =>
    simp only [ne_eq,reduceCtorEq,not_false_eq_true,true_and]
    exact if_neg (not_not.mpr (selected i rfl))

end compiled

/-- A fan-out's admission is fixed by which outcomes occur in it, in whatever order its Links are tried; and the Forwarder
    of a compiled host returns that of the interfaces whose bits it is given, each tried once. -/
theorem fan_out_admission :
    (∀ outcomes : List LinkAdmission, outcomes ≠ [] →
      let result := outcomes.foldl combineAdmission .kNoEgress
      (result = .kAccepted ↔ ∀ outcome ∈ outcomes, outcome = .kAccepted) ∧
      (result = .kPartial ↔ .kAccepted ∈ outcomes ∧ ∃ outcome ∈ outcomes, outcome ≠ .kAccepted) ∧
      (.kAccepted ∉ outcomes → result =
        if .kRejected ∈ outcomes then .kRejected else if .kTooLarge ∈ outcomes then .kTooLarge else .kFull) ∧
      ∀ outcomes', outcomes.Perm outcomes' → outcomes'.foldl combineAdmission .kNoEgress = result) ∧
    ∀ (nx : NetworkX) (document : Document) (projection : TargetProjection), compileDeployment nx document = .ok projection →
      ∀ host ∈ projection.hosts, ∀ (trySend : InterfaceProjection → PacketBuffer → LinkAdmission) (packet : PacketBuffer)
        (selected : InterfaceSet),
        let tried := host.interfaces.filter fun i => selected.getLsbD i.egressBit
        tried.Nodup ∧ forwarder host.interfaces trySend packet selected =
          (if tried = [] then .kAccepted else (tried.map (trySend · packet)).foldl combineAdmission .kNoEgress,tried) := by
  refine ⟨?_,?_⟩
  · intro outcomes some
    have folded := foldl_combineAdmission some
    obtain ⟨all,partly,failed⟩ := admission_spec some
    simp only [folded]
    refine ⟨all,partly,failed,?_⟩
    intro outcomes' perm
    have some' : outcomes' ≠ [] := by
      rintro rfl
      exact some perm.eq_nil
    rw [foldl_combineAdmission some',admission_perm perm]
  · intro nx document projection compiled host member trySend packet selected
    have numbered := ((compileDeployment_compiled compiled).lowered host member).numbered
    refine ⟨(List.Nodup.of_map _ numbered.ascending.nodup).filter _,?_⟩
    rw [forwarder_eq numbered.inside]
    show _ = (if chosen host.interfaces selected = [] then _ else ((chosen host.interfaces selected).map _).foldl _ _,_)
    by_cases none : chosen host.interfaces selected = []
    · rw [if_pos none,if_pos none]
      rfl
    · rw [if_neg none,if_neg none,foldl_combineAdmission (by simpa using none)]
      rfl

/-- A gateway whose bus is full and whose port accepts reports a partial admission. -/
theorem gateway_partial : ∃ projection, compileDeployment WiringSearch.layered WiringTrees.gateway = .ok projection ∧
    ∃ host ∈ projection.hosts, host.declaration.name = "G" ∧ ∀ packet : PacketBuffer,
      forwarder host.interfaces (fun i _ => if i.declaration.name = "Bus" then .kFull else .kAccepted) packet 0x09 =
        (.kPartial,host.interfaces) := by
  obtain ⟨projection,compiled,listed⟩ := gateway_projected
  have last : ("G",[("Bus",0),("Port",3)]) ∈ projection.hosts.map fun host =>
      (host.declaration.name,host.interfaces.map fun i => (i.declaration.name,i.egressBit)) := by
    rw [listed]
    simp
  obtain ⟨host,member,shown⟩ := List.mem_map.mp last
  obtain ⟨name,interfaces⟩ := Prod.mk.inj shown
  refine ⟨projection,compiled,host,member,name,fun packet => ?_⟩
  obtain ⟨bus,rest,both,bused,behind⟩ := List.map_eq_cons_iff.mp interfaces
  obtain ⟨port,none,rfl,ported,nothing⟩ := List.map_eq_cons_iff.mp behind
  obtain rfl := List.map_eq_nil_iff.mp nothing
  obtain ⟨busName,busBit⟩ := Prod.mk.inj bused
  obtain ⟨portName,portBit⟩ := Prod.mk.inj ported
  have returned := (fan_out_admission.2 _ _ projection compiled host member
    (fun i _ => if i.declaration.name = "Bus" then .kFull else .kAccepted) packet 0x09).2
  have tried : (host.interfaces.filter fun i => (0x09 : InterfaceSet).getLsbD i.egressBit) = host.interfaces := by
    simp [both,busBit,portBit]
  rw [returned]
  simp only [tried]
  have partly : [LinkAdmission.kFull,.kAccepted].foldl combineAdmission .kNoEgress = .kPartial := by decide
  rw [if_neg (by simp [both]),both]
  simp [busName,portName,partly]

end WireSpaces.GeneratedHost
