import WireSpaces.WiringTopology
import WireSpaces.WiringSchema

/-!
Lowering of resolved attachments to the runtime's masks and tables, and the
compiler from a document to that projection.
-/
namespace WireSpaces.WiringProjection
open WireSpaces.WiringModels WireSpaces.WiringTopology WireSpaces.WiringSchema

/-- Configured frame format and timing. -/
structure CanProjection where
  arbitrationBitrate : Option Nat
  dataBitrate : Option Nat
  fdFrames : Bool
  deriving Repr, DecidableEq

def CanProjection.bitrateSwitch (can : CanProjection) : Bool := can.fdFrames && can.dataBitrate.isSome

structure InterfaceProjection where
  declaration : InterfaceDeclaration
  egressBit : Nat
  baudRate : Option Nat
  can : Option CanProjection := none
  deriving Repr, DecidableEq

def InterfaceProjection.mask (interface : InterfaceProjection) : Nat := 1 <<< interface.egressBit

def InterfaceProjection.ingressIndex (interface : InterfaceProjection) : Nat := interface.egressBit + 1

def InterfaceProjection.assignment (interface : InterfaceProjection) : String :=
  if interface.declaration.egressBit = none then "automatic" else "explicit"

structure RouteProjection where
  wire : WireDeclaration
  egressMask : Nat
  deriving Repr, DecidableEq

/-- The interfaces stand by ascending bit. -/
structure HostProjection where
  declaration : HostDeclaration
  interfaces : List InterfaceProjection
  memberships : List WireDeclaration
  routes : List RouteProjection
  deriving Repr, DecidableEq

structure TargetProjection where
  resolved : ResolvedDeployment
  hosts : List HostProjection
  deriving Repr, DecidableEq

/-- `sorted(values, key=key)` by a number. -/
def sortedByNumber {α : Type} (key : α → Nat) (values : List α) : List α :=
  values.insertionSort (fun a b => key a ≤ key b)

def canProjection (link : LinkDeclaration) : Option CanProjection :=
  if link.linkType = "CAN" ∨ link.linkType = "CAN_FD" then
    some ⟨link.arbitrationBitrate,link.dataBitrate,link.linkType = "CAN_FD"⟩
  else none

/-- The loop over the interfaces of a host; `bits` are the reserved and assigned ones. -/
def projectInterfaces (links : List LinkDeclaration) : List Nat → List InterfaceDeclaration → Checked (List InterfaceProjection)
  | _, [] => .ok []
  | bits, interface :: rest => do
    let (bit,bits) ← match interface.egressBit with
      | some bit => .ok (bit,bits)
      | none =>
        match (List.range 8).find? (· ∉ bits) with
        | some bit => .ok (bit,bit :: bits)
        | none => .error .stopIteration
    let link ← found (links.find? (·.name = interface.link))
    let others ← projectInterfaces links bits rest
    return ⟨interface,bit,link.baudRate,canProjection link⟩ :: others

/-- The mask of a host on a Wire: its selected interfaces. -/
def egressMask (interfaces : List InterfaceProjection) (selected : List String) : Nat :=
  ((interfaces.filter fun i => i.declaration.name ∈ selected).map InterfaceProjection.mask).sum

def routeOf (name : String) (interfaces : List InterfaceProjection) (wire : ResolvedWire) : Option RouteProjection :=
  let selected := (wire.attachments.filter fun a => a.host = name).map (·.interface)
  let mask := egressMask interfaces selected
  if mask ≠ 0 ∨ name ∈ wire.members then some ⟨wire.declaration,mask⟩ else none

def projectHost (links : List LinkDeclaration) (wires : List ResolvedWire) (host : HostDeclaration) : Checked HostProjection := do
  let reserved := host.interfaces.filterMap (·.egressBit)
  let interfaces ← projectInterfaces links reserved (sortedBy (·.name) host.interfaces)
  let interfaces := sortedByNumber (·.egressBit) interfaces
  let memberships := (wires.filter fun wire => host.name ∈ wire.members).map (·.declaration)
  require (memberships.length ≤ 6) ("Host " ++ host.name ++ " exceeds six membership Wires")
  return ⟨host,interfaces,memberships,wires.filterMap (routeOf host.name interfaces)⟩

/-- Reserve explicit bits, then assign automatic bits by name. -/
def projectDeployment (resolved : ResolvedDeployment) : Checked TargetProjection := do
  let wires := sortedByNumber (·.declaration.wireId) resolved.wires
  let hosts ← resolved.authored.hosts.mapM (projectHost resolved.authored.links wires)
  return ⟨resolved,sortedBy (·.declaration.name) hosts⟩

/-- Each stage of the compiler once. -/
def compileDeployment (nx : NetworkX) (data : Document) : Checked TargetProjection := do
  let authored ← parseDeployment data
  let resolved ← resolveDeployment nx authored
  projectDeployment resolved

end WireSpaces.WiringProjection
