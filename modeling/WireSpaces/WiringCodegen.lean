import WireSpaces.WiringProjection

/-!
The emitted C++ header of a host, line by line.
-/
namespace WireSpaces.WiringCodegen
open WireSpaces.WiringModels WireSpaces.WiringProjection

def cppKeywords : List String :=
  ["alignas","alignof","and","and_eq","asm","auto","bitand","bitor","bool","break","case","catch","char","char16_t",
    "char32_t","class","compl","const","constexpr","const_cast","continue","decltype","default","delete","do",
    "double","dynamic_cast","else","enum","explicit","export","extern","false","float","for","friend","goto","if",
    "inline","int","long","mutable","namespace","new","noexcept","not","not_eq","nullptr","operator","or","or_eq",
    "private","protected","public","register","reinterpret_cast","return","short","signed","sizeof","static",
    "static_assert","static_cast","struct","switch","template","this","thread_local","throw","true","try",
    "typedef","typeid","typename","union","unsigned","using","virtual","void","volatile","wchar_t","while","xor","xor_eq"]

/-- `[a-zA-Z][a-zA-Z0-9_]*` without a double underscore, and no keyword. -/
def validNamespace (name : String) : Bool :=
  (match name.toList with
    | [] => false
    | first :: rest => first.isAlpha && rest.all WiringSchema.letter) &&
  !WiringSchema.doubled name.toList && name ∉ cppKeywords

def hexDigit (digit : Nat) : Char := if digit < 10 then Char.ofNat (48 + digit) else Char.ofNat (55 + digit)

/-- The format `02X`, of a byte. -/
def hex (byte : Nat) : String := String.ofList [hexDigit (byte / 16),hexDigit (byte % 16)]

/-- A number as Python prints it, or `None`. -/
def printed : Option Nat → String
  | some number => toString number
  | none => "None"

def lower (value : Bool) : String := if value then "true" else "false"

def braced (text : String) : String := "\x7b" ++ text ++ "\x7d"

/-! ### Constants -/

/-- A symbol and the line that declares it. -/
structure Emission where
  symbol : String
  declaration : String
  deriving Repr, DecidableEq

/-- `constexpr type name{value};` -/
def constant (type name value : String) : Emission := ⟨name,"constexpr " ++ type ++ " " ++ name ++ braced value ++ ";"⟩

def hostConstant (host : HostDeclaration) : Emission :=
  constant "wirespaces::HostId" ("k" ++ host.name ++ "Host") (toString host.hostId ++ "U")

def wireConstant (wire : WireDeclaration) : Emission :=
  constant "wirespaces::WireNumber" ("k" ++ wire.name) (toString wire.wireId ++ "U")

def canConstants (name : String) (can : CanProjection) : List Emission :=
  [constant "std::uint32_t" (name ++ "ArbitrationBitrate") (printed can.arbitrationBitrate ++ "UL"),
    constant "bool" (name ++ "UseFdFrames") (lower can.fdFrames)] ++
  (if can.fdFrames then [constant "bool" (name ++ "BitRateSwitch") (lower can.bitrateSwitch)] else []) ++
  (match can.dataBitrate with
    | some rate => [constant "std::uint32_t" (name ++ "DataBitrate") (toString rate ++ "UL")]
    | none => [])

def interfaceConstants (interface : InterfaceProjection) : List Emission :=
  let name := "k" ++ interface.declaration.name
  [constant "wirespaces::InterfaceSet" (name ++ "Egress") ("0x" ++ hex interface.mask ++ "U"),
    constant "std::uint8_t" (name ++ "IngressIndex") (toString interface.ingressIndex ++ "U")] ++
  (match interface.baudRate with
    | some rate => [constant "std::uint32_t" (name ++ "BaudRate") (toString rate ++ "UL")]
    | none => []) ++
  (match interface.can with
    | some can => canConstants name can
    | none => [])

def hostInfo (name : String) (memberships : List WireDeclaration) : Emission :=
  constant "wirespaces::HostInfo" ("k" ++ name ++ "HostInfo")
    ("k" ++ name ++ "Host, " ++ toString memberships.length ++ "U, " ++
      braced (", ".intercalate (memberships.map fun wire => "k" ++ wire.name)))

/-- One line of the route table. -/
def routeLine (interfaces : List InterfaceProjection) (route : RouteProjection) : String :=
  let egresses := (interfaces.filter fun i => route.egressMask &&& i.mask ≠ 0).map fun i => "k" ++ i.declaration.name ++ "Egress"
  let mask := if egresses = [] then "wirespaces::kNoEgress" else " | ".intercalate egresses
  "    " ++ braced ("k" ++ route.wire.name ++ ", " ++ mask) ++ ","

/-- What `emit` changes. -/
structure Output where
  symbols : List String := []
  lines : List String := []

def emit (out : Output) (emission : Emission) : Checked Output := do
  require (emission.symbol ∉ out.symbols) ("Generated identifier collision: " ++ emission.symbol)
  return ⟨emission.symbol :: out.symbols,out.lines ++ [emission.declaration]⟩

/-! ### The header -/

def preamble (nspace : String) : List String :=
  ["// Generated by codegen/wiring_codegen.py. Do not edit.",
    "// Routes are local-origin masks; Router::receive validates and excludes the selected ingress.",
    "#pragma once","","#include <wirespaces/core/host.h>",
    "#include <wirespaces/core/router.h>","","namespace " ++ nspace ++ " \x7b",""]

def routesFunction (some : Bool) : List String :=
  ["","/** @brief Return the generated local-origin route table. */",
    "inline wirespaces::foundation::Span<const wirespaces::RouteTableEntry> routes() noexcept \x7b",
    if some then "    return \x7bkRoutes\x7d;" else "    return \x7b\x7d;",
    "\x7d","","/** @brief Fan out selected egress bits to application-owned Link forwarders. */",
    "class Forwarder final : public wirespaces::PacketForwarder \x7b","public:"]

def link (interface : InterfaceProjection) : String := "link" ++ toString interface.egressBit

def forwarder (nspace : String) (interfaces : List InterfaceProjection) : List String :=
  let args := ", ".intercalate (interfaces.map fun i => "wirespaces::PacketLink& " ++ link i)
  let fields := ", ".intercalate (interfaces.map fun i => link i ++ "_" ++ braced (link i))
  ["    explicit Forwarder(" ++ args ++ ") noexcept" ++ (if fields = "" then " = default;" else " : " ++ fields ++ " \x7b\x7d"),
    "","    wirespaces::RouteResult forward(const wirespaces::PacketBuffer& packet, wirespaces::InterfaceSet selected) noexcept override \x7b",
    "        (void)packet;","        (void)selected;","        wirespaces::RouteResult result\x7bwirespaces::RouteResult::kNoEgress\x7d;"] ++
  interfaces.flatMap (fun i =>
    ["        if ((selected & k" ++ i.declaration.name ++ "Egress) != 0U) \x7b",
      "            result = wirespaces::combineAdmission(result, " ++ link i ++ "_.trySend(packet));","        \x7d"]) ++
  ["        return result == wirespaces::RouteResult::kNoEgress ? wirespaces::RouteResult::kAccepted : result;","    \x7d","",
    "private:"] ++
  interfaces.map (fun i =>
    "    wirespaces::PacketLink& " ++ link i ++ "_;  // " ++ i.declaration.name ++ " -> " ++ i.declaration.link) ++
  ["\x7d;","","\x7d  // namespace " ++ nspace,""]

/-- Emit C++ without resolving topology or assigning egress. -/
def emitHeader (projection : TargetProjection) (nspace localHost : String) : Checked String := do
  let authored := projection.resolved.authored
  require (validNamespace nspace = true) "Invalid output namespace"
  require (localHost ∈ authored.hosts.map (·.name)) ("Unknown local host: " ++ localHost)
  let host ← found (projection.hosts.find? (·.declaration.name = localHost))
  let out ← ((sortedBy (·.name) authored.hosts).map hostConstant).foldlM emit ⟨[],preamble nspace⟩
  let out ← ((sortedByNumber (·.wireId) authored.wires).map wireConstant).foldlM emit out
  let out ← (host.interfaces.flatMap interfaceConstants).foldlM emit out
  let out ← emit out (hostInfo localHost host.memberships)
  let routes := host.routes.map (routeLine host.interfaces)
  let out ← if routes = [] then pure out else do
    let out ← emit out ⟨"kRoutes","constexpr wirespaces::RouteTableEntry kRoutes[]\x7b"⟩
    pure { out with lines := out.lines ++ routes ++ ["\x7d;"] }
  return "\n".intercalate (out.lines ++ routesFunction (routes ≠ []) ++ forwarder nspace host.interfaces)

end WireSpaces.WiringCodegen
