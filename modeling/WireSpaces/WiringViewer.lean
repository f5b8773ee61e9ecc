import WireSpaces.GeneratedHost
import WireSpaces.WiringInspection

/-!
The topology viewer: the Wires of the exported model, and the preview of forwarding at a host,
which works on references where the router works on masks.
-/
namespace WireSpaces.WiringViewer
open WireSpaces.Codec WireSpaces.Packet WireSpaces.Router WireSpaces.WiringModels WireSpaces.WiringTopology
open WireSpaces.WiringProjection WireSpaces.WiringSchema WireSpaces.WiringMasks WireSpaces.GeneratedHost
open WireSpaces.WiringInspection

/-! ### The exported model -/

/-- A Wire as the viewer shows it. -/
structure WireView where
  name : String
  wireId : Nat
  resolved : Bool
  members : List String
  attachments : List String
  deriving Repr, DecidableEq

structure ViewerModel where
  targetAvailable : Bool
  diagnostics : List (String × String)
  wires : List WireView
  deriving Repr, DecidableEq

/-- The `try` around a stage: a `ValueError` becomes a diagnostic. -/
def attempt {α : Type} (stage : String) : Checked α → Checked (Option α × List (String × String))
  | .ok value => .ok (some value,[])
  | .error (.valueError message) => .ok (none,[(stage,message)])
  | .error failure => .error failure

def wireView (resolved : Option ResolvedDeployment) (declaration : WireDeclaration) : Checked WireView :=
  match resolved with
  | some resolved => do
    let wire ← found (resolved.wires.find? (·.declaration.name = declaration.name))
    return ⟨declaration.name,declaration.wireId,true,wire.members,wire.attachments.map Attachment.reference⟩
  | none => .ok ⟨declaration.name,declaration.wireId,false,[],[]⟩

/-- The inspection of a deployment that was projected, from its first host. -/
def inspectionOf (authored : AuthoredDeployment) : Option TargetProjection → Checked (Option Json)
  | none => .ok none
  | some projection =>
    match authored.hosts with
    | [] => .error .stopIteration
    | host :: _ => do
      let inspection ← explainDeployment projection host.name
      return some inspection

/-- The physical topology stays inspectable when a later stage rejects the deployment. -/
def viewerModel (nx : NetworkX) (data : Document) : Checked ViewerModel := do
  let authored ← parseDeployment data
  let (resolved,diagnostics) ← attempt "resolution" (resolveDeployment nx authored)
  let (projection,more) ← match resolved with
    | some resolved => attempt "target" (projectDeployment resolved)
    | none => .ok (none,[])
  let _ ← inspectionOf authored projection
  let wires ← authored.wires.mapM (wireView resolved)
  return ⟨projection.isSome,diagnostics ++ more,wires⟩

/-! ### The preview -/

structure Preview where
  status : String
  outgoing : List String
  deriving Repr, DecidableEq

def startsWith (text start : String) : Bool := start.toList.isPrefixOf text.toList

def noRouteStatus : String := "No route at this host. No forwarding or local delivery."

def rejectedStatus : String := "Rejected: this ingress attachment is not selected for the Wire."

/-- `ingress` is the name of an interface, or empty for local origin. -/
def forwardingPreview (wire : Option WireView) (host ingress : String) : Preview :=
  match wire with
  | none => ⟨"Choose a Wire to preview forwarding.",[]⟩
  | some wire =>
    if !wire.resolved then ⟨"Resolution failed; no forwarding result is available.",[]⟩
    else
      let localRefs := wire.attachments.filter fun ref => startsWith ref (host ++ ".")
      if localRefs = [] ∧ host ∉ wire.members then ⟨noRouteStatus,[]⟩
      else
        let incoming := if ingress = "" then none else some (host ++ "." ++ ingress)
        if incoming ≠ none ∧ ∀ ref ∈ incoming, ref ∉ localRefs then ⟨rejectedStatus,[]⟩
        else
          let outgoing := localRefs.filter fun ref => some ref ≠ incoming
          ⟨if outgoing ≠ [] then "Egress: " ++ ", ".intercalate outgoing
            else if incoming ≠ none then
              if host ∈ wire.members then "Leaf: no egress. Local membership permits destination/endpoint checks."
              else "Leaf: no egress. Transit-only host: no local delivery."
            else "Local-only: no physical egress. Local delivery is application-owned.",outgoing⟩

/-! ### References -/

theorem startsWith_iff {a : Attachment} {name : String} (left : identifier a.host = true) (right : identifier name = true) :
    startsWith a.reference (name ++ ".") = true ↔ a.host = name := by
  have split (xs ys rest : List Char) (clear : '.' ∉ xs) (clear' : '.' ∉ ys) : xs ++ ['.'] <+: ys ++ '.' :: rest ↔ ys = xs := by
    induction xs generalizing ys with
    | nil =>
      cases ys with
      | nil => simp
      | cons first others =>
        have other : '.' ≠ first := fun dot => clear' (dot ▸ List.mem_cons_self)
        simp [other]
    | cons first others ih =>
      have tail : '.' ∉ others := fun later => clear (List.mem_cons_of_mem _ later)
      cases ys with
      | nil =>
        have other : first ≠ '.' := fun dot => clear (dot ▸ List.mem_cons_self)
        simp [other]
      | cons first' others' =>
        have tail' : '.' ∉ others' := fun later => clear' (List.mem_cons_of_mem _ later)
        rw [List.cons_append,List.cons_append,List.cons_prefix_cons,ih others' tail tail',List.cons.injEq,eq_comm]
  rw [startsWith, List.isPrefixOf_iff_prefix]
  have parts : a.reference.toList = a.host.toList ++ '.' :: a.interface.toList := by simp [Attachment.reference]
  rw [parts,String.toList_append]
  exact (split _ _ _ (dot_not_mem right) (dot_not_mem left)).trans String.toList_inj

/-- The attachments of a Wire at a host, beside the one of an arrival. -/
def leaving (wire : ResolvedWire) (host : HostProjection) (arrival : Option InterfaceProjection) : List Attachment :=
  wire.attachments.filter fun a => a.host = host.declaration.name ∧ some a ≠ arrival.map (attachmentOf host)

/-- The name of an arrival's interface, or nothing. -/
def ingressName : Option InterfaceProjection → String
  | none => ""
  | some i => i.declaration.name

/-- The status of a preview that is neither without a route nor refused. -/
def passingStatus (wire : ResolvedWire) (host : HostProjection) (arrival : Option InterfaceProjection) : String :=
  let outgoing := (leaving wire host arrival).map Attachment.reference
  if outgoing ≠ [] then "Egress: " ++ ", ".intercalate outgoing
  else if arrival ≠ none then
    if host.declaration.name ∈ wire.members then "Leaf: no egress. Local membership permits destination/endpoint checks."
    else "Leaf: no egress. Transit-only host: no local delivery."
  else "Local-only: no physical egress. Local delivery is application-owned."

theorem passingStatus_ne (wire : ResolvedWire) (host : HostProjection) (arrival : Option InterfaceProjection) :
    passingStatus wire host arrival ≠ noRouteStatus ∧ passingStatus wire host arrival ≠ rejectedStatus := by
  have egress (text status : String) (other : status.toList.head? ≠ some 'E') : "Egress: " ++ text ≠ status := by
    rintro rfl
    apply other
    rw [String.toList_append]
    rfl
  simp only [passingStatus]
  split_ifs
  · exact ⟨egress _ noRouteStatus (by decide),egress _ rejectedStatus (by decide)⟩
  · decide
  · decide
  · decide

/-- The view of a resolved Wire. -/
def viewOf (wire : ResolvedWire) : WireView :=
  ⟨wire.declaration.name,wire.declaration.wireId,true,wire.members,wire.attachments.map Attachment.reference⟩

section compiled
variable {nx : NetworkX} {projection : TargetProjection} (compiled : Compiled nx projection) (lawful : nx.Lawful)
  {wire : ResolvedWire} (among : wire ∈ projection.resolved.wires) {host : HostProjection} (member : host ∈ projection.hosts)
include compiled member

theorem host_identifier : identifier host.declaration.name = true :=
  (compiled.valid.hosts _ (compiled.declaration_mem member)).identifier

theorem interface_named {i : InterfaceProjection} (known : i ∈ host.interfaces) : i.declaration.name ≠ "" := by
  have listed : i.declaration ∈ host.declaration.interfaces :=
    (compiled.lowered host member).numbered.declared.mem_iff.mp (List.mem_map_of_mem known)
  have named := (compiled.valid.hosts _ (compiled.declaration_mem member)).identifiers _ listed
  intro empty
  rw [empty] at named
  cases named

include lawful among

omit member in
theorem attachment_identifier {a : Attachment} (attached : a ∈ wire.attachments) : identifier a.host = true := by
  obtain ⟨declaration,listed,hostIs,-⟩ := WiringTrees.mem_declaredBy.mp
    (WiringTrees.resolved_declared lawful compiled.resolves wire among a attached)
  rw [← hostIs]
  exact (compiled.valid.hosts declaration listed).identifier

/-- A reference tells the attachments of a Wire apart. -/
theorem reference_inj {a : Attachment} (attached : a ∈ wire.attachments) {i : InterfaceProjection} (known : i ∈ host.interfaces)
    (same : a.reference = (attachmentOf host i).reference) : a = attachmentOf host i := by
  have selects := compiled.selects lawful among member
  obtain ⟨hosts,interfaces⟩ := reference_injective (attachment_identifier compiled lawful among attached)
    (host_identifier compiled member) same
  obtain ⟨j,listed,rfl⟩ := selects.declared a attached hosts
  obtain rfl := List.inj_on_of_nodup_map selects.names listed known interfaces
  rfl

/-- The references at a host are those of its attachments. -/
theorem local_references : ((viewOf wire).attachments.filter fun ref => startsWith ref (host.declaration.name ++ ".")) =
    (wire.attachments.filter fun a => a.host = host.declaration.name).map Attachment.reference := by
  rw [viewOf,List.filter_map]
  congr 1
  apply List.filter_congr
  intro a attached
  rw [Bool.eq_iff_iff,decide_eq_true_eq]
  exact startsWith_iff (attachment_identifier compiled lawful among attached) (host_identifier compiled member)

theorem unrouted_iff : (wire.attachments.filter fun a => a.host = host.declaration.name).map Attachment.reference = [] ∧
    host.declaration.name ∉ wire.members ↔ ¬Routed wire host := by
  have selects := compiled.selects lawful among member
  rw [Routed,not_or,List.map_eq_nil_iff,List.filter_eq_nil_iff]
  apply and_congr_left'
  constructor
  · rintro none ⟨i,-,attached⟩
    exact none _ attached (decide_eq_true rfl)
  · rintro none a attached mine
    obtain ⟨i,known,rfl⟩ := selects.declared a attached (of_decide_eq_true mine)
    exact none ⟨i,known,attached⟩

variable {arrival : Option InterfaceProjection} (arrives : ∀ i ∈ arrival, i ∈ host.interfaces)
include arrives

omit lawful among in
theorem incoming_eq : (if ingressName arrival = "" then none else some (host.declaration.name ++ "." ++ ingressName arrival)) =
    arrival.map fun i => (attachmentOf host i).reference := by
  cases arrival with
  | none => rfl
  | some i => exact if_neg (interface_named compiled member (arrives i rfl))

theorem leaving_references :
    ((wire.attachments.filter fun a => a.host = host.declaration.name).map Attachment.reference).filter
        (fun ref => some ref ≠ arrival.map fun i => (attachmentOf host i).reference) =
      (leaving wire host arrival).map Attachment.reference := by
  rw [List.filter_map,leaving,List.filter_filter]
  congr 1
  apply List.filter_congr
  intro a attached
  rw [Bool.eq_iff_iff]
  simp only [Function.comp_apply,Bool.and_eq_true,decide_eq_true_eq,and_comm]
  apply and_congr_right'
  cases arrival with
  | none => simp
  | some i =>
    simp only [Option.map_some,ne_eq,Option.some.injEq]
    apply not_congr
    constructor
    · exact reference_inj compiled lawful among member attached (arrives i rfl)
    · rintro rfl
      rfl

/-- The preview over the references of the Wire's attachments at the host. -/
theorem forwardingPreview_eq : forwardingPreview (some (viewOf wire)) host.declaration.name (ingressName arrival) =
    let localRefs := (wire.attachments.filter fun a => a.host = host.declaration.name).map Attachment.reference
    let incoming := arrival.map fun i => (attachmentOf host i).reference
    if localRefs = [] ∧ host.declaration.name ∉ wire.members then ⟨noRouteStatus,[]⟩
    else if incoming ≠ none ∧ ∀ ref ∈ incoming, ref ∉ localRefs then ⟨rejectedStatus,[]⟩
    else ⟨passingStatus wire host arrival,(leaving wire host arrival).map Attachment.reference⟩ := by
  have references := local_references compiled lawful among member
  have incoming := incoming_eq compiled member arrives
  have outgoing := leaving_references compiled lawful among member arrives
  have resolved : (viewOf wire).resolved = true := rfl
  have members : (viewOf wire).members = wire.members := rfl
  have arrived : (arrival.map fun i => (attachmentOf host i).reference) ≠ none ↔ arrival ≠ none := by
    rw [ne_eq,Option.map_eq_none_iff]
  simp only [forwardingPreview,resolved,members,references,incoming,outgoing,Bool.not_true,Bool.false_eq_true,if_false,
    passingStatus,arrived]

/-- An arrival is refused when its attachment is not selected. -/
theorem refused_iff : ((arrival.map fun i => (attachmentOf host i).reference) ≠ none ∧
      ∀ ref ∈ arrival.map fun i => (attachmentOf host i).reference,
        ref ∉ (wire.attachments.filter fun a => a.host = host.declaration.name).map Attachment.reference) ↔
    ∃ i ∈ arrival, attachmentOf host i ∉ wire.attachments := by
  cases arrival with
  | none => simp
  | some i =>
    have known := arrives i rfl
    have listed : (attachmentOf host i).reference ∈
        (wire.attachments.filter fun a => a.host = host.declaration.name).map Attachment.reference ↔
        attachmentOf host i ∈ wire.attachments := by
      constructor
      · intro shown
        obtain ⟨a,mine,same⟩ := List.mem_map.mp shown
        have attached := (List.mem_filter.mp mine).1
        rwa [reference_inj compiled lawful among member attached known same] at attached
      · intro attached
        exact List.mem_map_of_mem (List.mem_filter.mpr ⟨attached,decide_eq_true rfl⟩)
    simp only [Option.map_some,ne_eq,reduceCtorEq,not_false_eq_true,true_and,Option.mem_some_iff,forall_eq',exists_eq_left',listed]

theorem preview_unrouted (unrouted : ¬Routed wire host) :
    forwardingPreview (some (viewOf wire)) host.declaration.name (ingressName arrival) = ⟨noRouteStatus,[]⟩ := by
  rw [forwardingPreview_eq compiled lawful among member arrives]
  exact if_pos ((unrouted_iff compiled lawful among member).mpr unrouted)

theorem preview_refused (routed : Routed wire host) (refused : ∃ i ∈ arrival, attachmentOf host i ∉ wire.attachments) :
    forwardingPreview (some (viewOf wire)) host.declaration.name (ingressName arrival) = ⟨rejectedStatus,[]⟩ := by
  rw [forwardingPreview_eq compiled lawful among member arrives]
  refine (if_neg ?_).trans (if_pos ((refused_iff compiled lawful among member arrives).mpr refused))
  rw [unrouted_iff compiled lawful among member]
  exact not_not.mpr routed

theorem preview_passing (routed : Routed wire host) (selected : ∀ i ∈ arrival, attachmentOf host i ∈ wire.attachments) :
    forwardingPreview (some (viewOf wire)) host.declaration.name (ingressName arrival) =
      ⟨passingStatus wire host arrival,(leaving wire host arrival).map Attachment.reference⟩ := by
  rw [forwardingPreview_eq compiled lawful among member arrives]
  refine (if_neg ?_).trans (if_neg ?_)
  · rw [unrouted_iff compiled lawful among member]
    exact not_not.mpr routed
  · rw [refused_iff compiled lawful among member arrives]
    rintro ⟨i,here,unselected⟩
    exact unselected (selected i here)

end compiled

/-! ### The model of an accepted deployment -/

section exported
variable {nx : NetworkX} {projection : TargetProjection} (compiled : Compiled nx projection)
include compiled

theorem hostInspection_total {host : HostProjection} (member : host ∈ projection.hosts) :
    ∃ inspection, hostInspection projection.resolved.authored.links host = .ok inspection := by
  have valid := compiled.valid.hosts _ (compiled.declaration_mem member)
  have interfaces : ∃ results, host.interfaces.mapM
      (interfaceInspection projection.resolved.authored.links host.declaration.name) = .ok results := by
    apply mapM_total
    intro i known
    have listed : i.declaration ∈ host.declaration.interfaces :=
      (compiled.lowered host member).numbered.declared.mem_iff.mp (List.mem_map_of_mem known)
    obtain ⟨link,-,-,here⟩ := found_named (valid.wired.known _ listed)
    rw [interfaceInspection,here]
    exact ⟨_,rfl⟩
  obtain ⟨results,inspected⟩ := interfaces
  rw [hostInspection,inspected]
  exact ⟨_,rfl⟩

omit compiled in
theorem wireInspection_total {wire : ResolvedWire} (referenced : Referenced projection.resolved.authored wire.declaration) :
    ∃ inspection, wireInspection projection wire = .ok inspection := by
  have groups : ∃ results, groupSources projection.resolved.authored wire.declaration = .ok results := by
    apply mapM_total
    intro name listed
    obtain ⟨group,-,-,here⟩ := found_named (referenced.groups name (List.mem_dedup.mp listed))
    rw [here]
    exact ⟨_,rfl⟩
  have path : ∃ results, pathSource projection.resolved.authored wire.declaration.path = .ok results := by
    cases given : wire.declaration.path with
    | none => exact ⟨_,rfl⟩
    | some name =>
      obtain ⟨path,-,-,here⟩ := found_named (referenced.path name given)
      rw [pathSource,here]
      exact ⟨_,rfl⟩
  have realization : ∃ results, realizationSource projection.resolved.authored wire.declaration.realization = .ok results := by
    cases given : wire.declaration.realization with
    | none => exact ⟨_,rfl⟩
    | some name =>
      obtain ⟨value,-,-,here⟩ := found_named (referenced.realization name given)
      rw [realizationSource,here]
      exact ⟨_,rfl⟩
  obtain ⟨groupResults,grouped⟩ := groups
  obtain ⟨pathResults,pathed⟩ := path
  obtain ⟨realizationResults,realized⟩ := realization
  rw [wireInspection,grouped,pathed,realized]
  exact ⟨_,rfl⟩

/-- A deployment that compiles can be inspected from each of its hosts. -/
theorem explainDeployment_total (referenced : ∀ wire ∈ projection.resolved.authored.wires, Referenced projection.resolved.authored wire)
    {host : HostDeclaration} (listed : host ∈ projection.resolved.authored.hosts) :
    ∃ inspection, explainDeployment projection host.name = .ok inspection := by
  have present : host.name ∈ projection.hosts.map (·.declaration.name) := by
    obtain ⟨projected,member,rfl⟩ := List.mem_map.mp (compiled.hosts.mem_iff.mpr listed)
    exact List.mem_map_of_mem member
  have hosts : ∃ results, projection.hosts.mapM (hostInspection projection.resolved.authored.links) = .ok results :=
    mapM_total fun _ member => hostInspection_total compiled member
  have wires : ∃ results, projection.resolved.wires.mapM (wireInspection projection) = .ok results := by
    apply mapM_total
    intro wire among
    exact wireInspection_total (referenced _ (compiled.wires.mem_iff.mp (List.mem_map_of_mem among)))
  obtain ⟨hostResults,hosted⟩ := hosts
  obtain ⟨wireResults,wired⟩ := wires
  simp only [explainDeployment,bind_eq_ok]
  exact ⟨_,(),require_eq_ok.mpr present,hostResults,hosted,wireResults,wired,rfl⟩

theorem wire_named {wire wire' : ResolvedWire} (left : wire ∈ projection.resolved.wires) (right : wire' ∈ projection.resolved.wires)
    (same : wire.declaration.name = wire'.declaration.name) : wire = wire' := by
  have names : (projection.resolved.wires.map (·.declaration.name)).Nodup := by
    have once := ((compiled.wires.map (·.name)).nodup_iff).mpr compiled.valid.wireNames
    rwa [List.map_map] at once
  exact List.inj_on_of_nodup_map names left right same

theorem wireView_eq {wire : ResolvedWire} (among : wire ∈ projection.resolved.wires) :
    wireView (some projection.resolved) wire.declaration = .ok (viewOf wire) := by
  obtain ⟨first,listed,named,here⟩ := found_named (List.mem_map_of_mem (f := (·.declaration.name)) among)
  obtain rfl := wire_named compiled listed among named
  rw [wireView,here]
  rfl

end exported

/-- A deployment that compiles is exported with the view of each of its Wires. -/
theorem viewerModel_views {nx : NetworkX} {document : Document} {projection : TargetProjection}
    (accepted : compileDeployment nx document = .ok projection) : ∃ model, viewerModel nx document = .ok model ∧
      ∀ wire ∈ projection.resolved.wires, model.wires.find? (·.name = wire.declaration.name) = some (viewOf wire) := by
  simp only [compileDeployment,bind_eq_ok] at accepted
  obtain ⟨authored,parsed,resolved,resolves,projects⟩ := accepted
  obtain ⟨compiled,rfl,rfl⟩ := projected_compiled parsed resolves projects
  have inspected : ∃ inspection, inspectionOf projection.resolved.authored (some projection) = .ok inspection := by
    cases hosts : projection.resolved.authored.hosts with
    | nil => exact absurd hosts (parse_hosts parsed)
    | cons host rest =>
      obtain ⟨inspection,explained⟩ := explainDeployment_total compiled (fun _ => parse_referenced parsed)
        (hosts ▸ List.mem_cons_self : host ∈ projection.resolved.authored.hosts)
      simp only [inspectionOf,hosts,explained]
      exact ⟨_,rfl⟩
  have shown (declaration : WireDeclaration) (listed : declaration ∈ projection.resolved.authored.wires) :
      ∃ wire ∈ projection.resolved.wires, wire.declaration = declaration ∧
        wireView (some projection.resolved) declaration = .ok (viewOf wire) := by
    obtain ⟨wire,among,rfl⟩ := List.mem_map.mp (compiled.wires.mem_iff.mpr listed)
    exact ⟨wire,among,rfl,wireView_eq compiled among⟩
  obtain ⟨inspection,explained⟩ := inspected
  have viewed : ∃ views, projection.resolved.authored.wires.mapM (wireView (some projection.resolved)) = .ok views := by
    apply mapM_total
    intro declaration listed
    obtain ⟨wire,-,-,view⟩ := shown declaration listed
    exact ⟨_,view⟩
  obtain ⟨views,viewed⟩ := viewed
  refine ⟨⟨true,[],views⟩,?_,?_⟩
  · have resolution : attempt "resolution" (resolveDeployment nx projection.resolved.authored) = .ok (some projection.resolved,[]) := by
      rw [resolves]
      rfl
    have target : attempt "target" (projectDeployment projection.resolved) = .ok (some projection,[]) := by
      rw [projects]
      rfl
    refine bind_eq_ok.mpr ⟨_,parsed,bind_eq_ok.mpr ⟨_,resolution,bind_eq_ok.mpr ⟨_,target,?_⟩⟩⟩
    exact bind_eq_ok.mpr ⟨_,explained,bind_eq_ok.mpr ⟨_,viewed,rfl⟩⟩
  · intro wire among
    have names : views.map (·.name) = projection.resolved.authored.wires.map (·.name) := by
      apply map_of_mapM viewed
      intro declaration listed view made
      obtain ⟨wire,-,rfl,same⟩ := shown declaration listed
      rw [Except.ok.inj (made.symm.trans same)]
      rfl
    have listed : wire.declaration.name ∈ views.map (·.name) := by
      rw [names]
      exact List.mem_map_of_mem (compiled.wires.mem_iff.mp (List.mem_map_of_mem among))
    obtain ⟨view,present,named,here⟩ := found_named listed
    obtain ⟨declaration,authored,made⟩ := of_mem_mapM viewed present
    obtain ⟨wire',among',rfl,same⟩ := shown declaration authored
    obtain rfl := Except.ok.inj (made.symm.trans same)
    rw [found_eq_ok.mp here,wire_named compiled among' among named]

/-! ### Agreement -/

/-- The ingress index of an arrival; local origin has the index zero. -/
def ingressOf : Option InterfaceProjection → U8
  | none => 0
  | some i => ingressConstant i

/-- The set that the router gives to its forwarder, empty where it does not call it. -/
def selectedSet (entries : List RouteTableEntry) (packet : PacketBuffer) : InterfaceSet :=
  (forward entries (fun _ egress => (.kAccepted,[egress])) packet).2.headD kNoEgress

section compiled
variable {nx : NetworkX} {projection : TargetProjection} (compiled : Compiled nx projection) (lawful : nx.Lawful)
  {wire : ResolvedWire} (among : wire ∈ projection.resolved.wires) {host : HostProjection} (member : host ∈ projection.hosts)
  {arrival : Option InterfaceProjection} (arrives : ∀ i ∈ arrival, i ∈ host.interfaces)
include compiled lawful among member arrives

/-- The attachments that the preview shows are those of the outgoing interfaces. -/
theorem mem_leaving {a : Attachment} : a ∈ leaving wire host arrival ↔ ∃ i ∈ outgoing wire host arrival, attachmentOf host i = a := by
  have selects := compiled.selects lawful among member
  have apart {i : InterfaceProjection} (known : i ∈ host.interfaces) :
      some (attachmentOf host i) ≠ arrival.map (attachmentOf host) ↔ some i ≠ arrival := by
    cases arrival with
    | none => simp
    | some j =>
      rw [Option.map_some,ne_eq,ne_eq,Option.some.injEq,Option.some.injEq]
      apply not_congr
      constructor
      · intro same
        exact List.inj_on_of_nodup_map selects.names known (arrives j rfl) (congrArg Attachment.interface same)
      · rintro rfl
        rfl
  simp only [leaving,outgoing,List.mem_filter,decide_eq_true_eq]
  constructor
  · rintro ⟨attached,mine,other⟩
    obtain ⟨i,known,rfl⟩ := selects.declared a attached mine
    exact ⟨i,⟨known,attached,(apart known).mp other⟩,rfl⟩
  · rintro ⟨i,⟨known,attached,other⟩,rfl⟩
    exact ⟨attached,rfl,(apart known).mpr other⟩

theorem leaving_eq_nil : leaving wire host arrival = [] ↔ outgoing wire host arrival = [] := by
  rw [List.eq_nil_iff_forall_not_mem,List.eq_nil_iff_forall_not_mem]
  constructor
  · intro none i here
    exact none _ ((mem_leaving compiled lawful among member arrives).mpr ⟨i,here,rfl⟩)
  · intro none a here
    obtain ⟨i,out,-⟩ := (mem_leaving compiled lawful among member arrives).mp here
    exact none i out

variable {packet : PacketBuffer} (onWire : packet.header.wire = wireNumber wire.declaration)
  (index : packet.ingressIndex = indexOf (arrival.map (·.egressBit))) (routed : Routed wire host)
  (selected : ∀ i ∈ arrival, attachmentOf host i ∈ wire.attachments)
include onWire index routed selected

theorem selectedSet_eq : selectedSet (routes host) packet = selectEgress (entryOn wire host) (arrival.map (·.egressBit)) := by
  have selects := compiled.selects lawful among member
  rw [selectedSet,forward_selected compiled among member lawful _ onWire arrives index routed selected]
  by_cases leaf : arrival ≠ none ∧ outgoing wire host arrival = []
  · rw [if_pos leaf,(selectEgress_eq_zero selects arrives).mpr leaf.2]
    rfl
  · rw [if_neg leaf]
    rfl

end compiled

theorem forwarder_ne_routing {interfaces : List InterfaceProjection} (inside : ∀ i ∈ interfaces, i.egressBit < 8)
    (trySend : InterfaceProjection → PacketBuffer → LinkAdmission) (packet : PacketBuffer) (egress : InterfaceSet) :
    let result := (forwarder interfaces trySend packet egress).1
    result ≠ .kNoRoute ∧ result ≠ .kNoEgress ∧ result ≠ .kInvalidIngress := by
  simp only [forwarder_eq inside]
  by_cases none : chosen interfaces egress = []
  · rw [if_pos none]
    decide
  · rw [if_neg none]
    exact admission_ne_routing _

/-- The preview on the exported model agrees with the router of the host's emitted header, for local origin and for an arrival
    on each interface: it has no route, or refuses the arrival, when the router does, and otherwise shows the attachments
    whose bits the router selects. -/
theorem preview_agrees_with_router (nx : NetworkX) (lawful : nx.Lawful) (document : Document) (projection : TargetProjection)
    (accepted : compileDeployment nx document = .ok projection) : ∃ model, viewerModel nx document = .ok model ∧
      ∀ wire ∈ projection.resolved.wires, ∃ view, model.wires.find? (·.name = wire.declaration.name) = some view ∧
        ∀ host ∈ projection.hosts, ∀ arrival : Option InterfaceProjection, (∀ i ∈ arrival, i ∈ host.interfaces) →
          ∀ (trySend : InterfaceProjection → PacketBuffer → LinkAdmission) (packet : PacketBuffer),
            packet.header.wire = wireNumber wire.declaration → packet.ingressIndex = ingressOf arrival →
            let preview := forwardingPreview (some view) host.declaration.name (ingressName arrival)
            let result := (forward (routes host) (forwarder host.interfaces trySend) packet).1
            (preview.status = noRouteStatus ↔ result = .kNoRoute) ∧ (preview.status = rejectedStatus ↔ result = .kInvalidIngress) ∧
            (result ≠ .kNoRoute → result ≠ .kInvalidIngress →
              (∀ ref, ref ∈ preview.outgoing ↔ ∃ i ∈ host.interfaces,
                (selectedSet (routes host) packet).getLsbD i.egressBit = true ∧ (attachmentOf host i).reference = ref) ∧
              (arrival ≠ none → (preview.outgoing = [] ↔ result = .kNoEgress))) := by
  obtain ⟨model,exported,views⟩ := viewerModel_views accepted
  have compiled := compileDeployment_compiled accepted
  refine ⟨model,exported,fun wire among => ⟨_,views wire among,?_⟩⟩
  intro host member arrival arrives trySend packet onWire index
  have selects := compiled.selects lawful among member
  have tagged : packet.ingressIndex = indexOf (arrival.map (·.egressBit)) := by
    rw [index]
    cases arrival <;> rfl
  simp only []
  by_cases routed : Routed wire host
  swap
  · rw [preview_unrouted compiled lawful among member arrives routed,
      forward_unrouted compiled among member lawful _ onWire arrives tagged routed]
    simp [noRouteStatus,rejectedStatus]
  by_cases selected : ∀ i ∈ arrival, attachmentOf host i ∈ wire.attachments
  swap
  · have refused : ∃ i ∈ arrival, attachmentOf host i ∉ wire.attachments := by simpa using selected
    rw [preview_refused compiled lawful among member arrives routed refused,
      forward_refused compiled among member lawful _ onWire arrives tagged routed refused]
    simp [noRouteStatus,rejectedStatus]
  have leaf := leaving_eq_nil compiled lawful among member arrives
  obtain ⟨noRoute,rejected⟩ := passingStatus_ne wire host arrival
  obtain ⟨noRoute',noEgress',invalid'⟩ := forwarder_ne_routing selects.numbered.inside trySend packet
    (selectEgress (entryOn wire host) (arrival.map (·.egressBit)))
  rw [preview_passing compiled lawful among member arrives routed selected,
    selectedSet_eq compiled lawful among member arrives onWire tagged routed selected,
    forward_selected compiled among member lawful _ onWire arrives tagged routed selected]
  have shown (ref : String) : ref ∈ (leaving wire host arrival).map Attachment.reference ↔ ∃ i ∈ host.interfaces,
      (selectEgress (entryOn wire host) (arrival.map (·.egressBit))).getLsbD i.egressBit = true ∧
        (attachmentOf host i).reference = ref := by
    simp only [List.mem_map,mem_leaving compiled lawful among member arrives]
    constructor
    · rintro ⟨a,⟨i,out,rfl⟩,rfl⟩
      obtain ⟨known,condition⟩ := List.mem_filter.mp out
      exact ⟨i,known,(selectEgress_getLsbD selects arrives known).mpr (of_decide_eq_true condition),rfl⟩
    · rintro ⟨i,known,set,rfl⟩
      have condition := (selectEgress_getLsbD selects arrives known).mp set
      exact ⟨_,⟨i,List.mem_filter.mpr ⟨known,decide_eq_true condition⟩,rfl⟩,rfl⟩
  by_cases stops : arrival ≠ none ∧ outgoing wire host arrival = []
  · rw [if_pos stops]
    simp only [noRoute,rejected,reduceCtorEq,true_and,ne_eq,not_false_eq_true,true_implies]
    exact ⟨shown,fun _ => by simp [leaf.mpr stops.2]⟩
  · rw [if_neg stops]
    simp only [noRoute,rejected,noRoute',invalid',noEgress',true_and,ne_eq,not_false_eq_true,true_implies]
    refine ⟨shown,fun arrived => ?_⟩
    simp only [List.map_eq_nil_iff,leaf,iff_false]
    exact fun none => stops ⟨arrived,none⟩

/-- The preview of a Wire in the exported model. -/
def previewIn (nx : NetworkX) (document : Document) (wire host ingress : String) : Checked Preview := do
  let model ← viewerModel nx document
  return forwardingPreview (model.wires.find? (·.name = wire)) host ingress

/-- A packet of the tree that reaches the gateway on its bus leaves on the port. -/
theorem gateway_preview : previewIn WiringSearch.layered WiringTrees.gateway "Tree" "G" "Bus" = .ok ⟨"Egress: G.Port",["G.Port"]⟩ ∧
    ∃ projection, compileDeployment WiringSearch.layered WiringTrees.gateway = .ok projection ∧
      ∃ wire ∈ projection.resolved.wires, wire.declaration.name = "Tree" ∧
      ∃ host ∈ projection.hosts, host.declaration.name = "G" ∧ ∃ i ∈ host.interfaces, i.declaration.name = "Bus" ∧
      let packet := { PacketBuffer.define 8 (by decide) with
        header := { wire := wireNumber wire.declaration }, ingressIndex := ingressConstant i }
      ∃ out ∈ host.interfaces, (selectedSet (routes host) packet).getLsbD out.egressBit = true ∧
        (attachmentOf host out).reference = "G.Port" := by
  have evaluated : previewIn WiringSearch.layered WiringTrees.gateway "Tree" "G" "Bus" = .ok ⟨"Egress: G.Port",["G.Port"]⟩ := by
    decide +kernel
  refine ⟨evaluated,?_⟩
  obtain ⟨projection,accepted,listed⟩ := gateway_projected
  have last : ("G",[("Bus",0),("Port",3)]) ∈ projection.hosts.map fun host =>
      (host.declaration.name,host.interfaces.map fun i => (i.declaration.name,i.egressBit)) := by
    rw [listed]
    simp
  obtain ⟨host,member,shown⟩ := List.mem_map.mp last
  obtain ⟨name,interfaces⟩ := Prod.mk.inj shown
  obtain ⟨bus,rest,both,bused,-⟩ := List.map_eq_cons_iff.mp interfaces
  have known : bus ∈ host.interfaces := both ▸ List.mem_cons_self
  have busName : bus.declaration.name = "Bus" := (Prod.mk.inj bused).1
  have wires : ((compileDeployment WiringSearch.layered WiringTrees.gateway).map fun projection =>
      projection.resolved.wires.map (·.declaration.name)) = .ok ["Alone","Chain","Direct","Tree","Whole"] := by
    decide +kernel
  rw [accepted] at wires
  have tree : "Tree" ∈ projection.resolved.wires.map (·.declaration.name) := by
    rw [show projection.resolved.wires.map (·.declaration.name) = _ from Except.ok.inj wires]
    simp
  obtain ⟨wire,among,wireName⟩ := List.mem_map.mp tree
  obtain ⟨model,exported,agrees⟩ := preview_agrees_with_router WiringSearch.layered WiringSearch.layered_lawful _ projection accepted
  obtain ⟨view,viewed,previews⟩ := agrees wire among
  refine ⟨projection,accepted,wire,among,wireName,host,member,name,bus,known,busName,?_⟩
  intro packet
  have preview : forwardingPreview (some view) host.declaration.name (ingressName (some bus)) = ⟨"Egress: G.Port",["G.Port"]⟩ := by
    have result := evaluated
    rw [previewIn,exported] at result
    rw [wireName] at viewed
    rw [name,ingressName,busName,← viewed]
    exact Except.ok.inj result
  obtain ⟨noRoute,rejected,passing⟩ := previews host member (some bus) (by simpa using known) (fun _ _ => .kAccepted) packet rfl rfl
  rw [preview] at noRoute rejected passing
  have selects := (passing (fun none => absurd (noRoute.mpr none) (by decide)) (fun invalid => absurd (rejected.mpr invalid) (by decide))).1
  exact (selects "G.Port").mp (by simp)

end WireSpaces.WiringViewer
