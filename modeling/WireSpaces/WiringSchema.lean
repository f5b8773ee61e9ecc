import WireSpaces.WiringModels
import Mathlib.Data.List.Nodup

/-!
Authoring documents, their structural validation and their parsing. A document has
the fields of the schema with raw integers; an omitted field is `none`. Types and
unknown keys are excluded by its shape, everything else is checked here.
-/
namespace WireSpaces.WiringSchema
open WireSpaces.WiringModels

/-! ### Documents -/

/-- An interface as a plain string, or as a mapping with a Link. -/
inductive InterfaceInput where
  | shorthand (link : String)
  | entry (link : String) (name : Option String) (egressBit : Option Int)
  deriving Repr, DecidableEq

structure HostInput where
  name : String
  hostId : Int
  interfaces : List InterfaceInput
  deriving Repr, DecidableEq

structure LinkInput where
  name : String
  linkType : String
  baudRate : Option Int := none
  arbitrationBitrate : Option Int := none
  dataBitrate : Option Int := none
  deriving Repr, DecidableEq

structure WireInput where
  name : String
  wireId : Int
  hosts : Option (List String) := none
  groups : Option (List String) := none
  links : Option (List String) := none
  path : Option String := none
  realization : Option String := none
  deriving Repr, DecidableEq

/-- The three mappings are listed by key; the loader refuses a key that stands twice. -/
structure Document where
  hosts : List HostInput
  links : List LinkInput
  wires : List WireInput
  groups : List (String × List String) := []
  paths : List (String × List String) := []
  realizations : List (String × List String) := []
  groups_keys : (groups.map (·.1)).Nodup := by decide
  paths_keys : (paths.map (·.1)).Nodup := by decide
  realizations_keys : (realizations.map (·.1)).Nodup := by decide

/-! ### Structure -/

def letter (c : Char) : Bool := c.isAlphanum || c == '_'

def doubled : List Char → Bool
  | '_' :: '_' :: _ => true
  | _ :: rest => doubled rest
  | [] => false

/-- `[A-Z][A-Za-z0-9_]*` -/
def word : List Char → Bool
  | [] => false
  | first :: rest => first.isUpper && rest.all letter

def identifier (name : String) : Bool := word name.toList && !doubled name.toList

/-- Two words around a dot. -/
def interfaceReference (ref : String) : Bool :=
  let chars := ref.toList
  word (chars.takeWhile (· ≠ '.')) && chars.contains '.' && word ((chars.dropWhile (· ≠ '.')).tail) && !doubled chars

def between (low high value : Int) : Bool := low ≤ value && value ≤ high

def bitrate (value : Int) : Bool := between 1 0xFFFFFFFF value

def names (values : List String) : Bool := values.all identifier && decide values.Nodup

def InterfaceInput.structured : InterfaceInput → Bool
  | .shorthand link => identifier link
  | .entry link name egressBit => identifier link && name.all identifier && egressBit.all (between 0 7)

def HostInput.structured (host : HostInput) : Bool :=
  identifier host.name && between 0 254 host.hostId && host.interfaces.length ≤ 8 &&
    host.interfaces.all InterfaceInput.structured

/-- The four variants of a Link with the rates each requires, allows and forbids. -/
def LinkInput.structured (link : LinkInput) : Bool :=
  identifier link.name &&
    if link.linkType = "CAN" then
      link.arbitrationBitrate.any bitrate && link.dataBitrate.isNone && link.baudRate.isNone
    else if link.linkType = "CAN_FD" then
      link.arbitrationBitrate.any bitrate && link.dataBitrate.all bitrate && link.baudRate.isNone
    else if link.linkType = "UART_HDLC" then
      link.baudRate.any bitrate && link.arbitrationBitrate.isNone && link.dataBitrate.isNone
    else
      identifier link.linkType && link.baudRate.all bitrate && link.arbitrationBitrate.isNone && link.dataBitrate.isNone

def WireInput.structured (wire : WireInput) : Bool :=
  identifier wire.name && between 1 254 wire.wireId && wire.hosts.all names && wire.groups.all names &&
    wire.links.all names && wire.path.all identifier && wire.realization.all identifier &&
    ((if wire.links.isSome then 1 else 0) + (if wire.path.isSome then 1 else 0) +
      (if wire.realization.isSome then 1 else 0) ≤ 1 : Bool) &&
    (!(wire.hosts.getD []).isEmpty || !(wire.groups.getD []).isEmpty)

def structured (data : Document) : Bool :=
  !data.hosts.isEmpty && data.hosts.all HostInput.structured && data.links.all LinkInput.structured &&
    data.wires.all WireInput.structured &&
    data.groups.all (fun group => identifier group.1 && names group.2) &&
    data.paths.all (fun path => identifier path.1 && path.2.all interfaceReference && 2 ≤ path.2.length) &&
    data.realizations.all (fun value => identifier value.1 && value.2.all interfaceReference && decide value.2.Nodup &&
      2 ≤ value.2.length)

/-! ### Parsing -/

/-- The identities of `named`, one behind the other: the first that stands twice is reported. -/
def unique (label : String) : List String → List String → Checked Unit
  | [], _ => .ok ()
  | name :: rest, seen => do
    require (name ∉ seen) ("Duplicate " ++ label ++ " name: " ++ name)
    unique label rest (name :: seen)

def references (items known : List String) (label : String) : Checked Unit :=
  require (∀ item ∈ items, item ∈ known)
    ("Unknown reference in " ++ label ++ ": \x7b" ++
      ", ".intercalate ((items.filter (· ∉ known)).map fun item => "\x27" ++ item ++ "\x27") ++ "\x7d")

/-- String and Link-only shorthand written out. -/
def InterfaceInput.declaration : InterfaceInput → InterfaceDeclaration
  | .shorthand link => ⟨link,link,none⟩
  | .entry link name egressBit => ⟨name.getD link,link,egressBit.map Int.toNat⟩

def interfaceDeclarations (items : List InterfaceInput) : Checked (List InterfaceDeclaration) := do
  let declarations := items.map InterfaceInput.declaration
  unique "Interfaces" (declarations.map (·.name)) []
  return declarations

def checkInterfaces (links : List String) : List InterfaceDeclaration → List Nat → List String → Checked Unit
  | [], _, _ => .ok ()
  | interface :: rest, bits, attached => do
    require (∀ bit ∈ interface.egressBit, bit ∉ bits) "Duplicate host-local EgressBit"
    require (interface.link ∈ links) "Unknown interface Link"
    require (interface.link ∉ attached) "A host may attach to a Link only once"
    checkInterfaces links rest (interface.egressBit.toList ++ bits) (interface.link :: attached)

def checkHosts (links : List String) : List HostInput → List Int → Checked Unit
  | [], _ => .ok ()
  | host :: rest, usedIds => do
    require (host.hostId ∉ usedIds) "Duplicate HostId"
    let interfaces ← interfaceDeclarations host.interfaces
    checkInterfaces links interfaces [] []
    checkHosts links rest (host.hostId :: usedIds)

def checkGroups (hosts : List String) : List (String × List String) → Checked Unit
  | [] => .ok ()
  | (name,members) :: rest => do
    references members hosts ("Group " ++ name ++ " Hosts (nested groups are not supported)")
    checkGroups hosts rest

def checkWires (data : Document) : List WireInput → List Int → Checked Unit
  | [], _ => .ok ()
  | wire :: rest, usedIds => do
    let label := "Wire " ++ wire.name
    require (wire.wireId ∉ usedIds) "Duplicate WireId"
    references (wire.hosts.getD []) (data.hosts.map (·.name)) (label ++ " Hosts")
    references (wire.groups.getD []) (data.groups.map (·.1)) (label ++ " Groups")
    references (wire.links.getD []) (data.links.map (·.name)) (label ++ " Links")
    require (∀ path ∈ wire.path, path ∈ data.paths.map (·.1)) (label ++ ": unknown Path")
    require (∀ value ∈ wire.realization, value ∈ data.realizations.map (·.1)) (label ++ ": unknown Realization")
    checkWires data rest (wire.wireId :: usedIds)

def HostInput.declaration (host : HostInput) : HostDeclaration :=
  ⟨host.name,host.hostId.toNat,host.interfaces.map InterfaceInput.declaration⟩

def LinkInput.declaration (link : LinkInput) : LinkDeclaration :=
  ⟨link.name,link.linkType,link.baudRate.map Int.toNat,link.arbitrationBitrate.map Int.toNat,link.dataBitrate.map Int.toNat⟩

def WireInput.declaration (wire : WireInput) : WireDeclaration :=
  ⟨wire.name,wire.wireId.toNat,wire.hosts,wire.groups,wire.links,wire.path,wire.realization⟩

/-- The typed snapshot, each mapping in the order of its names. -/
def snapshot (data : Document) : AuthoredDeployment where
  hosts := sortedBy (·.name) (data.hosts.map HostInput.declaration)
  links := sortedBy (·.name) (data.links.map LinkInput.declaration)
  wires := sortedBy (·.name) (data.wires.map WireInput.declaration)
  groups := sortedBy (·.name) (data.groups.map fun group => ⟨group.1,group.2⟩)
  paths := sortedBy (·.name) (data.paths.map fun path => ⟨path.1,path.2⟩)
  realizations := sortedBy (·.name) (data.realizations.map fun value => ⟨value.1,value.2⟩)

def parseDeployment (data : Document) : Checked AuthoredDeployment := do
  require (structured data = true) "Invalid deployment structure"
  unique "Hosts" (data.hosts.map (·.name)) []
  unique "Links" (data.links.map (·.name)) []
  unique "Wires" (data.wires.map (·.name)) []
  checkGroups (data.hosts.map (·.name)) data.groups
  checkHosts (data.links.map (·.name)) data.hosts []
  checkWires data data.wires []
  return snapshot data

/-! ### What is accepted -/

section accepted
variable {done : Unit}

theorem unique_eq_ok {label : String} {names seen : List String} :
    unique label names seen = .ok done ↔ names.Nodup ∧ ∀ name ∈ names, name ∉ seen := by
  induction names generalizing seen with
  | nil => simp [unique]
  | cons name rest ih =>
    simp only [unique,bind_eq_ok,require_eq_ok,exists_const,ih,List.nodup_cons,List.mem_cons,forall_eq_or_imp,not_or]
    constructor
    · rintro ⟨fresh,nodup,others⟩
      exact ⟨⟨fun again => (others name again).1 rfl,nodup⟩,fresh,fun other later => (others other later).2⟩
    · rintro ⟨⟨once,nodup⟩,fresh,others⟩
      exact ⟨fresh,nodup,fun other later => ⟨fun same => once (same ▸ later),others other later⟩⟩

theorem references_eq_ok {items known : List String} {label : String} :
    references items known label = .ok done ↔ ∀ item ∈ items, item ∈ known := require_eq_ok

/-- The interfaces of a host that are well wired: each pinned bit, name and Link once. -/
structure Wired (links : List String) (interfaces : List InterfaceDeclaration) : Prop where
  bits : (interfaces.filterMap (·.egressBit)).Nodup
  known : ∀ interface ∈ interfaces, interface.link ∈ links
  once : (interfaces.map (·.link)).Nodup

theorem wired_cons {links : List String} {interface : InterfaceDeclaration} {rest : List InterfaceDeclaration} :
    Wired links (interface :: rest) ↔ Wired links rest ∧ interface.link ∈ links ∧ (∀ other ∈ rest, other.link ≠ interface.link) ∧
      ∀ bit ∈ interface.egressBit, bit ∉ rest.filterMap (·.egressBit) := by
  have pinned : ((interface :: rest).filterMap (·.egressBit)).Nodup ↔
      (rest.filterMap (·.egressBit)).Nodup ∧ ∀ bit ∈ interface.egressBit, bit ∉ rest.filterMap (·.egressBit) := by
    cases bit : interface.egressBit with
    | none => simp [bit]
    | some value => simp [bit,and_comm]
  have links_once : ((interface :: rest).map (·.link)).Nodup ↔
      (∀ other ∈ rest, other.link ≠ interface.link) ∧ (rest.map (·.link)).Nodup := by
    simp [List.nodup_cons]
  constructor
  · rintro ⟨bits,known,once⟩
    obtain ⟨bits',fresh⟩ := pinned.mp bits
    obtain ⟨other,once'⟩ := links_once.mp once
    exact ⟨⟨bits',fun i later => known i (List.mem_cons_of_mem _ later),once'⟩,known _ List.mem_cons_self,other,fresh⟩
  · rintro ⟨⟨bits,known,once⟩,here,other,fresh⟩
    refine ⟨pinned.mpr ⟨bits,fresh⟩,?_,links_once.mpr ⟨other,once⟩⟩
    intro i member
    rcases List.mem_cons.mp member with rfl | later
    · exact here
    · exact known i later

theorem checkInterfaces_eq_ok {links attached : List String} {interfaces : List InterfaceDeclaration} {bits : List Nat} :
    checkInterfaces links interfaces bits attached = .ok done ↔ Wired links interfaces ∧
      (∀ bit ∈ interfaces.filterMap (·.egressBit), bit ∉ bits) ∧ ∀ interface ∈ interfaces, interface.link ∉ attached := by
  induction interfaces generalizing bits attached with
  | nil =>
    simp only [checkInterfaces,List.filterMap_nil,List.not_mem_nil,false_implies,implies_true,and_true,true_iff]
    exact ⟨List.nodup_nil,by simp,List.nodup_nil⟩
  | cons interface rest ih =>
    have pinned (P : Nat → Prop) : (∀ bit ∈ (interface :: rest).filterMap (·.egressBit), P bit) ↔
        (∀ bit ∈ interface.egressBit, P bit) ∧ ∀ bit ∈ rest.filterMap (·.egressBit), P bit := by
      cases bit : interface.egressBit <;> simp [bit]
    simp only [checkInterfaces,bind_eq_ok,require_eq_ok,exists_const,ih,wired_cons,pinned,List.mem_append,List.mem_cons,
      Option.mem_toList,not_or,forall_eq_or_imp]
    constructor
    · rintro ⟨fresh,known,unattached,wired,bits',attached'⟩
      exact ⟨⟨wired,known,fun other later => (attached' other later).1,fun bit mine later => (bits' bit later).1 mine⟩,
        ⟨fresh,fun bit later => (bits' bit later).2⟩,unattached,fun other later => (attached' other later).2⟩
    · rintro ⟨⟨wired,known,others,mine⟩,⟨fresh,bits'⟩,unattached,attached'⟩
      exact ⟨fresh,known,unattached,wired,fun bit later => ⟨fun here => mine bit here later,bits' bit later⟩,
        fun other later => ⟨others other later,attached' other later⟩⟩

/-- What a host is checked for beside its identity. -/
structure HostAccepted (links : List String) (host : HostInput) : Prop where
  names : (host.declaration.interfaces.map (·.name)).Nodup
  wired : Wired links host.declaration.interfaces

theorem checkHosts_eq_ok {links : List String} {hosts : List HostInput} {usedIds : List Int} :
    checkHosts links hosts usedIds = .ok done ↔ (hosts.map (·.hostId)).Nodup ∧
      (∀ host ∈ hosts, HostAccepted links host) ∧ ∀ host ∈ hosts, host.hostId ∉ usedIds := by
  induction hosts generalizing usedIds with
  | nil => simp [checkHosts]
  | cons host rest ih =>
    have accepted : HostAccepted links host ↔
        (host.declaration.interfaces.map (·.name)).Nodup ∧ Wired links host.declaration.interfaces :=
      ⟨fun both => ⟨both.names,both.wired⟩,fun both => ⟨both.1,both.2⟩⟩
    have declared : (do
        let interfaces ← interfaceDeclarations host.interfaces
        checkInterfaces links interfaces [] []
        checkHosts links rest (host.hostId :: usedIds)) = .ok done ↔
        HostAccepted links host ∧ checkHosts links rest (host.hostId :: usedIds) = .ok done := by
      rw [accepted]
      simp [interfaceDeclarations,bind_eq_ok,unique_eq_ok,checkInterfaces_eq_ok,HostInput.declaration,pure,Except.pure,and_assoc]
    rw [checkHosts,bind_eq_ok]
    simp only [require_eq_ok,exists_const,declared,ih,List.map_cons,List.nodup_cons,List.mem_map,not_exists,not_and,
      List.mem_cons,forall_eq_or_imp,not_or]
    constructor
    · rintro ⟨fresh,here,nodup,others,ids⟩
      exact ⟨⟨fun other later => (ids other later).1,nodup⟩,⟨here,others⟩,fresh,fun other later => (ids other later).2⟩
    · rintro ⟨⟨once,nodup⟩,⟨here,others⟩,fresh,ids⟩
      exact ⟨fresh,here,nodup,others,fun other later => ⟨once other later,ids other later⟩⟩

theorem checkGroups_eq_ok {hosts : List String} {groups : List (String × List String)} :
    checkGroups hosts groups = .ok done ↔ ∀ group ∈ groups, ∀ member ∈ group.2, member ∈ hosts := by
  induction groups with
  | nil => simp [checkGroups]
  | cons group rest ih =>
    simp only [checkGroups,bind_eq_ok,references_eq_ok,exists_const,ih,List.mem_cons,forall_eq_or_imp]

/-- The references of a Wire are known. -/
structure WireAccepted (data : Document) (wire : WireInput) : Prop where
  hosts : ∀ host ∈ wire.hosts.getD [], host ∈ data.hosts.map (·.name)
  groups : ∀ group ∈ wire.groups.getD [], group ∈ data.groups.map (·.1)
  links : ∀ link ∈ wire.links.getD [], link ∈ data.links.map (·.name)
  path : ∀ path ∈ wire.path, path ∈ data.paths.map (·.1)
  realization : ∀ value ∈ wire.realization, value ∈ data.realizations.map (·.1)

theorem checkWires_eq_ok {data : Document} {wires : List WireInput} {usedIds : List Int} :
    checkWires data wires usedIds = .ok done ↔ (wires.map (·.wireId)).Nodup ∧
      (∀ wire ∈ wires, WireAccepted data wire) ∧ ∀ wire ∈ wires, wire.wireId ∉ usedIds := by
  induction wires generalizing usedIds with
  | nil => simp [checkWires]
  | cons wire rest ih =>
    simp only [checkWires,bind_eq_ok,require_eq_ok,references_eq_ok,exists_const,ih,List.map_cons,List.nodup_cons,
      List.mem_map,not_exists,not_and,List.mem_cons,forall_eq_or_imp,not_or]
    constructor
    · rintro ⟨fresh,hosts,groups,links,path,realization,nodup,others,ids⟩
      exact ⟨⟨fun other later => (ids other later).1,nodup⟩,
        ⟨⟨by simpa using hosts,by simpa using groups,by simpa using links,by simpa using path,by simpa using realization⟩,others⟩,
        fresh,fun other later => (ids other later).2⟩
    · rintro ⟨⟨once,nodup⟩,⟨here,others⟩,fresh,ids⟩
      exact ⟨fresh,by simpa using here.hosts,by simpa using here.groups,by simpa using here.links,by simpa using here.path,
        by simpa using here.realization,nodup,others,fun other later => ⟨once other later,ids other later⟩⟩

/-- The documents that parse. -/
structure Accepted (data : Document) : Prop where
  structured : structured data = true
  hostNames : (data.hosts.map (·.name)).Nodup
  linkNames : (data.links.map (·.name)).Nodup
  wireNames : (data.wires.map (·.name)).Nodup
  groups : ∀ group ∈ data.groups, ∀ member ∈ group.2, member ∈ data.hosts.map (·.name)
  hostIds : (data.hosts.map (·.hostId)).Nodup
  hosts : ∀ host ∈ data.hosts, HostAccepted (data.links.map (·.name)) host
  wireIds : (data.wires.map (·.wireId)).Nodup
  wires : ∀ wire ∈ data.wires, WireAccepted data wire

theorem parseDeployment_eq_ok {data : Document} {authored : AuthoredDeployment} :
    parseDeployment data = .ok authored ↔ Accepted data ∧ snapshot data = authored := by
  simp only [parseDeployment,bind_eq_ok,require_eq_ok,exists_const,unique_eq_ok,checkGroups_eq_ok,checkHosts_eq_ok,
    checkWires_eq_ok,List.not_mem_nil,not_false_eq_true,implies_true,and_true,pure,Except.pure,Except.ok.injEq]
  constructor
  · rintro ⟨shape,hosts,links,wires,groups,⟨hostIds,hosts'⟩,⟨wireIds,wires'⟩,same⟩
    exact ⟨⟨shape,hosts,links,wires,groups,hostIds,hosts',wireIds,wires'⟩,same⟩
  · rintro ⟨all,same⟩
    exact ⟨all.structured,all.hostNames,all.linkNames,all.wireNames,all.groups,⟨all.hostIds,all.hosts⟩,
      ⟨all.wireIds,all.wires⟩,same⟩

end accepted

/-! ### The snapshot -/

/-- What parsing establishes for a host. -/
structure ValidHost (links : List LinkDeclaration) (host : HostDeclaration) : Prop where
  identifier : identifier host.name = true
  few : host.interfaces.length ≤ 8
  identifiers : ∀ interface ∈ host.interfaces, WiringSchema.identifier interface.name = true
  names : (host.interfaces.map (·.name)).Nodup
  wired : Wired (links.map (·.name)) host.interfaces
  bits : ∀ interface ∈ host.interfaces, ∀ bit ∈ interface.egressBit, bit < 8

/-- What parsing establishes for a deployment. -/
structure Valid (authored : AuthoredDeployment) : Prop where
  hostNames : (authored.hosts.map (·.name)).Nodup
  hosts : ∀ host ∈ authored.hosts, ValidHost authored.links host
  linkNames : (authored.links.map (·.name)).Nodup
  wireNames : (authored.wires.map (·.name)).Nodup
  wireIds : (authored.wires.map (·.wireId)).Nodup
  wireRange : ∀ wire ∈ authored.wires, 1 ≤ wire.wireId ∧ wire.wireId ≤ 254

theorem sortedBy_perm {α : Type} (key : α → String) (values : List α) : (sortedBy key values).Perm values :=
  List.perm_insertionSort _ values

theorem mem_sortedBy {α : Type} {key : α → String} {values : List α} {a : α} : a ∈ sortedBy key values ↔ a ∈ values :=
  (sortedBy_perm key values).mem_iff

theorem host_valid {data : Document} (accepted : Accepted data) {host : HostInput} (member : host ∈ data.hosts) :
    ValidHost (snapshot data).links host.declaration := by
  have shape := accepted.structured
  simp only [structured,Bool.and_eq_true,List.all_eq_true] at shape
  have hostShape := shape.1.1.1.1.1.2 host member
  simp only [HostInput.structured,Bool.and_eq_true,decide_eq_true_eq,List.all_eq_true] at hostShape
  obtain ⟨⟨⟨named,-⟩,few⟩,interfaces⟩ := hostShape
  obtain ⟨names,wired⟩ := accepted.hosts host member
  have links : ∀ link, link ∈ data.links.map (·.name) → link ∈ (snapshot data).links.map (·.name) := by
    intro link known
    obtain ⟨input,among,rfl⟩ := List.mem_map.mp known
    exact List.mem_map.mpr ⟨input.declaration,mem_sortedBy.mpr (List.mem_map_of_mem among),rfl⟩
  refine ⟨named,by simpa [HostInput.declaration] using few,?_,names,⟨wired.bits,fun i among => links _ (wired.known i among),wired.once⟩,?_⟩
  · intro interface among
    obtain ⟨input,listed,rfl⟩ := List.mem_map.mp among
    have inputShape := interfaces input listed
    cases input with
    | shorthand link => exact inputShape
    | entry link name bit =>
      simp only [InterfaceInput.structured,Bool.and_eq_true] at inputShape
      cases name with
      | none => exact inputShape.1.1
      | some name => simpa [InterfaceInput.declaration] using inputShape.1.2
  · intro interface among bit pinned
    obtain ⟨input,listed,rfl⟩ := List.mem_map.mp among
    have inputShape := interfaces input listed
    cases input with
    | shorthand link => cases pinned
    | entry link name raw =>
      simp only [InterfaceInput.structured,Bool.and_eq_true] at inputShape
      cases raw with
      | none => cases pinned
      | some value =>
        cases pinned
        have range := inputShape.2
        simp only [Option.all_some,between,Bool.and_eq_true,decide_eq_true_eq] at range
        omega

theorem parse_valid {data : Document} {authored : AuthoredDeployment} (parsed : parseDeployment data = .ok authored) :
    Valid authored := by
  obtain ⟨accepted,rfl⟩ := parseDeployment_eq_ok.mp parsed
  have shape := accepted.structured
  simp only [structured,Bool.and_eq_true,List.all_eq_true] at shape
  have wireShape := shape.1.1.1.2
  have range (wire : WireInput) (member : wire ∈ data.wires) : 1 ≤ wire.wireId ∧ wire.wireId ≤ 254 := by
    have all := wireShape wire member
    simp only [WireInput.structured,Bool.and_eq_true,between,decide_eq_true_eq] at all
    exact all.1.1.1.1.1.1.1.2
  have named {α β : Type} {key : β → String} {make : α → β} {values : List α} (nodup : (values.map (key ∘ make)).Nodup) :
      ((sortedBy key (values.map make)).map key).Nodup := by
    rw [((sortedBy_perm key (values.map make)).map key).nodup_iff,List.map_map]
    exact nodup
  refine ⟨named accepted.hostNames,?_,named accepted.linkNames,named accepted.wireNames,?_,?_⟩
  · intro host member
    obtain ⟨input,among,rfl⟩ := List.mem_map.mp (mem_sortedBy.mp member)
    exact host_valid accepted among
  · show ((sortedBy (·.name) (data.wires.map WireInput.declaration)).map (·.wireId)).Nodup
    rw [((sortedBy_perm _ (data.wires.map WireInput.declaration)).map (·.wireId)).nodup_iff,List.map_map]
    have ids := accepted.wireIds
    have once : data.wires.Nodup := List.Nodup.of_map _ ids
    rw [List.nodup_map_iff_inj_on once] at ids ⊢
    intro left member right other same
    have leftRange := range left member
    have rightRange := range right other
    exact ids left member right other (by simp only [Function.comp_apply,WireInput.declaration] at same; omega)
  · intro wire member
    obtain ⟨input,among,rfl⟩ := List.mem_map.mp (mem_sortedBy.mp member)
    have bounds := range input among
    simp only [WireInput.declaration]
    omega

/-- What a Wire refers to is declared. -/
structure Referenced (authored : AuthoredDeployment) (wire : WireDeclaration) : Prop where
  groups : ∀ name ∈ wire.groups.getD [], name ∈ authored.groups.map (·.name)
  path : ∀ name ∈ wire.path, name ∈ authored.paths.map (·.name)
  realization : ∀ name ∈ wire.realization, name ∈ authored.realizations.map (·.name)

theorem parse_referenced {data : Document} {authored : AuthoredDeployment} (parsed : parseDeployment data = .ok authored)
    {wire : WireDeclaration} (member : wire ∈ authored.wires) : Referenced authored wire := by
  obtain ⟨accepted,rfl⟩ := parseDeployment_eq_ok.mp parsed
  obtain ⟨input,among,rfl⟩ := List.mem_map.mp (mem_sortedBy.mp member)
  have known {α β : Type} {key : β → String} {key' : α → String} {make : α → β} {values : List α} (same : ∀ a, key (make a) = key' a)
      {name : String} (listed : name ∈ values.map key') : name ∈ (sortedBy key (values.map make)).map key := by
    obtain ⟨a,here,rfl⟩ := List.mem_map.mp listed
    exact List.mem_map.mpr ⟨make a,mem_sortedBy.mpr (List.mem_map_of_mem here),same a⟩
  have references := accepted.wires input among
  refine ⟨?_,?_,?_⟩
  · intro name named
    exact known (fun _ => rfl) (references.groups name named)
  · intro name named
    exact known (fun _ => rfl) (references.path name named)
  · intro name named
    exact known (fun _ => rfl) (references.realization name named)

theorem parse_hosts {data : Document} {authored : AuthoredDeployment} (parsed : parseDeployment data = .ok authored) :
    authored.hosts ≠ [] := by
  obtain ⟨accepted,rfl⟩ := parseDeployment_eq_ok.mp parsed
  have shape := accepted.structured
  simp only [structured,Bool.and_eq_true] at shape
  have some := shape.1.1.1.1.1.1
  intro none
  have length := (sortedBy_perm (·.name) (data.hosts.map HostInput.declaration)).length_eq
  rw [show sortedBy (·.name) (data.hosts.map HostInput.declaration) = [] from none,List.length_map,List.length_nil,eq_comm,
    List.length_eq_zero_iff] at length
  rw [length] at some
  cases some

/-! ### References -/

theorem dot_not_mem {name : String} (valid : identifier name = true) : '.' ∉ name.toList := by
  simp only [identifier,Bool.and_eq_true] at valid
  have characters := valid.1
  cases chars : name.toList with
  | nil => simp
  | cons first rest =>
    rw [chars] at characters
    simp only [word,Bool.and_eq_true,List.all_eq_true] at characters
    intro dotted
    rcases List.mem_cons.mp dotted with rfl | later
    · exact absurd characters.1 (by decide)
    · exact absurd (characters.2 '.' later) (by decide)

/-- Two references of identifiers are equal only part by part. -/
theorem reference_injective {a b : Attachment} (left : identifier a.host = true) (right : identifier b.host = true)
    (same : a.reference = b.reference) : a.host = b.host ∧ a.interface = b.interface := by
  have chars : a.host.toList ++ '.' :: a.interface.toList = b.host.toList ++ '.' :: b.interface.toList := by
    have lists := congrArg String.toList same
    simpa [Attachment.reference] using lists
  have split (xs ys xs' ys' : List Char) (clear : '.' ∉ xs) (clear' : '.' ∉ xs')
      (equal : xs ++ '.' :: ys = xs' ++ '.' :: ys') : xs = xs' ∧ ys = ys' := by
    induction xs generalizing xs' with
    | nil =>
      cases xs' with
      | nil => exact ⟨rfl,(List.cons.inj equal).2⟩
      | cons first rest => exact absurd (List.cons.inj equal).1 (fun dot => clear' (dot ▸ List.mem_cons_self))
    | cons first rest ih =>
      cases xs' with
      | nil => exact absurd (List.cons.inj equal).1 (fun dot => clear (dot ▸ List.mem_cons_self))
      | cons first' rest' =>
        obtain ⟨head,tail⟩ := List.cons.inj equal
        obtain ⟨front,back⟩ := ih rest' (fun later => clear (List.mem_cons_of_mem _ later))
          (fun later => clear' (List.mem_cons_of_mem _ later)) tail
        exact ⟨by rw [head,front],back⟩
  obtain ⟨hosts,interfaces⟩ := split _ _ _ _ (dot_not_mem left) (dot_not_mem right) chars
  exact ⟨String.toList_inj.mp hosts,String.toList_inj.mp interfaces⟩

end WireSpaces.WiringSchema
