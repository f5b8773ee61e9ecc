import WireSpaces.WiringProjection

/-!
The inspection format: a compiled deployment as a JSON value, and its form under
sorted keys.
-/
namespace WireSpaces.WiringInspection
open WireSpaces.WiringModels WireSpaces.WiringProjection

/-- A JSON value as the inspection builds it; an object in the order of insertion. -/
inductive Json where
  | null
  | bool (value : Bool)
  | number (value : Nat)
  | string (value : String)
  | array (values : List Json)
  | object (fields : List (String × Json))
  deriving Repr

mutual
/-- The value as `json.dumps(…, sort_keys=True)` writes it. -/
def Json.sortKeys : Json → Json
  | .array values => .array (sortKeysAll values)
  | .object fields => .object (sortedBy (·.1) (sortKeysIn fields))
  | scalar => scalar

def sortKeysAll : List Json → List Json
  | [] => []
  | value :: rest => value.sortKeys :: sortKeysAll rest

def sortKeysIn : List (String × Json) → List (String × Json)
  | [] => []
  | (key,value) :: rest => (key,value.sortKeys) :: sortKeysIn rest
end

def strings (values : List String) : Json := .array (values.map .string)

/-- A field that is there only with a value. -/
def optional (key : String) (make : Nat → Json) : Option Nat → List (String × Json)
  | some value => [(key,make value)]
  | none => []

/-! ### Hosts -/

def linkDeclaration (link : LinkDeclaration) : Json :=
  .object ([("Name",.string link.name),("LinkType",.string link.linkType)] ++ optional "BaudRate" .number link.baudRate ++
    optional "ArbitrationBitrate" .number link.arbitrationBitrate ++ optional "DataBitrate" .number link.dataBitrate)

def rate : Option Nat → Json
  | some value => .number value
  | none => .null

def canInspection (can : CanProjection) : Json :=
  .object [("fd_frames",.bool can.fdFrames),("arbitration_bitrate",rate can.arbitrationBitrate),
    ("data_bitrate",rate can.dataBitrate),("bitrate_switch",.bool can.bitrateSwitch)]

def interfaceInspection (links : List LinkDeclaration) (host : String) (interface : InterfaceProjection) : Checked (String × Json) := do
  let declaration := interface.declaration
  let link ← found (links.find? (·.name = declaration.link))
  return (declaration.name,.object ([("link",.string declaration.link),("egress_bit",.number interface.egressBit),
    ("ingress_index",.number interface.ingressIndex),("assignment",.string interface.assignment),
    ("source",.string ("Hosts." ++ host ++ ".Interfaces." ++ declaration.name)),
    ("link_declaration",linkDeclaration link)] ++
    (match interface.can with
      | some can => [("can",canInspection can)]
      | none => [])))

def hostInspection (links : List LinkDeclaration) (host : HostProjection) : Checked (String × Json) := do
  let name := host.declaration.name
  let interfaces ← host.interfaces.mapM (interfaceInspection links name)
  return (name,.object [("host_id",.number host.declaration.hostId),("source",.string ("Hosts." ++ name)),
    ("interfaces",.object interfaces),("memberships",strings (sorted (host.memberships.map (·.name))))])

/-! ### Wires -/

/-- A list of the Wire's source, if it was given. -/
def sourceList (key : String) : Option (List String) → List (String × Json)
  | some values => [(key,strings (sorted values))]
  | none => []

def sourceName (key : String) : Option String → List (String × Json)
  | some value => [(key,.string value)]
  | none => []

def wireSource (wire : WireDeclaration) : Json :=
  .object ([("Name",.string wire.name),("WireId",.number wire.wireId)] ++ sourceList "Hosts" wire.hosts ++
    sourceList "Groups" wire.groups ++ sourceList "Links" wire.links ++ sourceName "Path" wire.path ++
    sourceName "Realization" wire.realization)

/-- The groups of a Wire with their hosts; a group stands once. -/
def groupSources (authored : AuthoredDeployment) (wire : WireDeclaration) : Checked (List (String × Json)) :=
  (wire.groups.getD []).dedup.mapM fun name => do
    let group ← found (authored.groups.find? (·.name = name))
    return (name,strings (sorted group.hosts))

def pathSource (authored : AuthoredDeployment) : Option String → Checked (List (String × Json))
  | some name => do
    let path ← found (authored.paths.find? (·.name = name))
    return [("path",.object [(name,strings path.interfaces)])]
  | none => .ok []

def realizationSource (authored : AuthoredDeployment) : Option String → Checked (List (String × Json))
  | some name => do
    let value ← found (authored.realizations.find? (·.name = name))
    return [("realization",.object [(name,.object [("Attachments",strings (sorted value.attachments))])])]
  | none => .ok []

def selectionName : Selection → String
  | .inferred => "inferred"
  | .links => "links"
  | .path => "path"
  | .realization => "realization"

/-- The mask of every host with a route for a Wire. -/
def routeMasks (hosts : List HostProjection) (name : String) : List (String × Json) :=
  hosts.flatMap fun host => (host.routes.filter fun route => route.wire.name = name).map fun route =>
    (host.declaration.name,.number route.egressMask)

def wireInspection (projection : TargetProjection) (wire : ResolvedWire) : Checked (String × Json) := do
  let authored := projection.resolved.authored
  let declaration := wire.declaration
  let groups ← groupSources authored declaration
  let path ← pathSource authored declaration.path
  let realization ← realizationSource authored declaration.realization
  let source := Json.object ([("wire",wireSource declaration),("groups",.object groups)] ++ path ++ realization)
  return (declaration.name,.object [("wire_id",.number declaration.wireId),("members",strings wire.members),
    ("transit_hosts",strings wire.transitHosts),("selection",.string (selectionName wire.selection)),
    ("attachments",strings (wire.attachments.map Attachment.reference)),
    ("route_masks",.object (routeMasks projection.hosts declaration.name)),("source",source)])

/-- Authored provenance and target details of a compiled deployment. -/
def explainDeployment (projection : TargetProjection) (localHost : String) : Checked Json := do
  require (localHost ∈ projection.hosts.map (·.declaration.name)) ("Unknown local host: " ++ localHost)
  let hosts ← projection.hosts.mapM (hostInspection projection.resolved.authored.links)
  let wires ← projection.resolved.wires.mapM (wireInspection projection)
  return .object [("local_host",.string localHost),
    ("route_semantics",.string "local-origin mask; receive validates and excludes ingress"),
    ("hosts",.object hosts),("wires",.object wires)]

end WireSpaces.WiringInspection
