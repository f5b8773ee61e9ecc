import WireSpaces.Packet

/-!
Static routing of one host: the admission of a fan-out, the route table, local dispatch and the two
entries of the router. What a forwarder does beside its result is returned as a list of effects.
-/
namespace WireSpaces.Router
open WireSpaces.Codec WireSpaces.Packet

/-! ### Admission -/

/-- Which of a host's interfaces a Wire connects to. -/
abbrev InterfaceSet := U8

def kNoEgress : InterfaceSet := 0

inductive LinkAdmission where
  | kAccepted | kFull | kTooLarge | kRejected
  deriving Repr, DecidableEq

/-- Fold one Link outcome into fan-out admission. -/
def combineAdmission (current : RouteResult) (admission : LinkAdmission) : RouteResult :=
  let next : RouteResult := match admission with
    | .kAccepted => .kAccepted
    | .kFull => .kFull
    | .kTooLarge => .kTooLarge
    | .kRejected => .kRejected
  if current = .kNoEgress ∨ current = next then next
  else if current = .kPartial ∨ current = .kAccepted ∨ next = .kAccepted then .kPartial
  else if current = .kRejected ∨ next = .kRejected then .kRejected
  else .kTooLarge

/-- The admission of a whole fan-out, by what occurs in it. -/
def admission (outcomes : List LinkAdmission) : RouteResult :=
  if .kAccepted ∈ outcomes then
    if .kFull ∈ outcomes ∨ .kTooLarge ∈ outcomes ∨ .kRejected ∈ outcomes then .kPartial else .kAccepted
  else if .kRejected ∈ outcomes then .kRejected
  else if .kTooLarge ∈ outcomes then .kTooLarge
  else .kFull

/-- One more Link moves the coarse result as it moves the outcome of the list. -/
theorem combineAdmission_admission {outcomes : List LinkAdmission} (some : outcomes ≠ []) (next : LinkAdmission) :
    combineAdmission (admission outcomes) next = admission (outcomes ++ [next]) := by
  have occurs : LinkAdmission.kAccepted ∈ outcomes ∨ .kFull ∈ outcomes ∨ .kTooLarge ∈ outcomes ∨ .kRejected ∈ outcomes := by
    obtain ⟨outcome,member⟩ := List.exists_mem_of_ne_nil outcomes some
    cases outcome <;> simp [member]
  simp only [admission,List.mem_append,List.mem_singleton]
  by_cases accepted : LinkAdmission.kAccepted ∈ outcomes <;> by_cases full : LinkAdmission.kFull ∈ outcomes <;>
    by_cases large : LinkAdmission.kTooLarge ∈ outcomes <;> by_cases rejected : LinkAdmission.kRejected ∈ outcomes <;>
    simp only [accepted,full,large,rejected,or_self] at occurs <;>
    cases next <;> simp [accepted,full,large,rejected,combineAdmission]

/-- The fold of a fan-out that tries a Link depends on what occurs, not on the order. -/
theorem foldl_combineAdmission {outcomes : List LinkAdmission} (some : outcomes ≠ []) :
    outcomes.foldl combineAdmission .kNoEgress = admission outcomes := by
  induction outcomes using List.reverseRecOn with
  | nil => exact absurd rfl some
  | append_singleton outcomes next ih =>
    rw [List.foldl_append,List.foldl_cons,List.foldl_nil]
    by_cases first : outcomes = []
    · subst first
      cases next <;> decide
    · rw [ih first,combineAdmission_admission first]

/-- Permuting a fan-out keeps its admission. -/
theorem admission_perm {outcomes outcomes' : List LinkAdmission} (perm : outcomes.Perm outcomes') :
    admission outcomes = admission outcomes' := by
  simp only [admission,perm.mem_iff]

theorem all_accepted_iff {outcomes : List LinkAdmission} : (∀ outcome ∈ outcomes, outcome = .kAccepted) ↔
    ¬(LinkAdmission.kFull ∈ outcomes ∨ .kTooLarge ∈ outcomes ∨ .kRejected ∈ outcomes) := by
  constructor
  · rintro all (full | large | rejected)
    · cases all _ full
    · cases all _ large
    · cases all _ rejected
  · intro clear outcome member
    cases outcome with
    | kAccepted => rfl
    | kFull => exact absurd (.inl member) clear
    | kTooLarge => exact absurd (.inr (.inl member)) clear
    | kRejected => exact absurd (.inr (.inr member)) clear

/-- All accepted, some accepted, or the worst failure. -/
theorem admission_spec {outcomes : List LinkAdmission} (some : outcomes ≠ []) :
    (admission outcomes = .kAccepted ↔ ∀ outcome ∈ outcomes, outcome = .kAccepted) ∧
    (admission outcomes = .kPartial ↔ .kAccepted ∈ outcomes ∧ ∃ outcome ∈ outcomes, outcome ≠ .kAccepted) ∧
    (.kAccepted ∉ outcomes → admission outcomes =
      if .kRejected ∈ outcomes then .kRejected else if .kTooLarge ∈ outcomes then .kTooLarge else .kFull) := by
  have mixed : (∃ outcome ∈ outcomes, outcome ≠ .kAccepted) ↔
      LinkAdmission.kFull ∈ outcomes ∨ .kTooLarge ∈ outcomes ∨ .kRejected ∈ outcomes := by
    rw [← not_not (a := _ ∨ _),← all_accepted_iff]
    push Not
    rfl
  rw [mixed,all_accepted_iff]
  by_cases accepted : LinkAdmission.kAccepted ∈ outcomes
  · rw [admission,if_pos accepted]
    by_cases failed : LinkAdmission.kFull ∈ outcomes ∨ .kTooLarge ∈ outcomes ∨ .kRejected ∈ outcomes
    · simp [failed,accepted]
    · simp [failed,accepted]
  · have failure : LinkAdmission.kFull ∈ outcomes ∨ .kTooLarge ∈ outcomes ∨ .kRejected ∈ outcomes := by
      rw [← mixed]
      obtain ⟨outcome,member⟩ := List.exists_mem_of_ne_nil outcomes some
      exact ⟨outcome,member,fun same => accepted (same ▸ member)⟩
    have value : admission outcomes =
        if .kRejected ∈ outcomes then .kRejected else if .kTooLarge ∈ outcomes then .kTooLarge else .kFull := by
      rw [admission,if_neg accepted]
    refine ⟨iff_of_false ?_ (not_not.mpr failure),iff_of_false ?_ (fun both => accepted both.1),fun _ => value⟩
    · rw [value]
      split_ifs <;> simp
    · rw [value]
      split_ifs <;> simp

theorem admission_ne_routing (outcomes : List LinkAdmission) :
    admission outcomes ≠ .kNoRoute ∧ admission outcomes ≠ .kNoEgress ∧ admission outcomes ≠ .kInvalidIngress := by
  unfold admission
  split
  · split <;> simp
  · split
    · simp
    · split <;> simp

/-! ### Local delivery -/

def kMaximumHostWires : Nat := 6

/-- `wires` is the array of six; the count says how many of them are in use. -/
structure HostInfo where
  id : HostId
  wireCount : U8
  wires : List WireNumber
  deriving Repr, DecidableEq

def HostInfo.isMemberOf (host : HostInfo) (wire : WireNumber) : Bool :=
  (host.wires.take (min host.wireCount.toNat kMaximumHostWires)).any (· == wire)

inductive DispatchResult where
  | kAccepted | kFull | kRejected | kNoEndpoint
  deriving Repr, DecidableEq

def toDispatchResult : ReceiveResult → DispatchResult
  | .kAccepted => .kAccepted
  | .kFull => .kFull
  | .kRejected => .kRejected

def resultPriority : DispatchResult → Nat
  | .kAccepted => 3
  | .kFull => 2
  | .kRejected => 1
  | .kNoEndpoint => 0

/-- The receiver is what it answers to a packet; `none` is the null pointer. -/
structure DispatchTableEntry where
  endpoint : EndpointAddress
  receiver : Option (PacketBuffer → ReceiveResult)

/-- The loop of `dispatch`: a unicast packet goes to the first receiver, a broadcast to each. -/
def dispatchEach (packet : PacketBuffer) (host : HostInfo) (broadcast : Bool) :
    List DispatchTableEntry → DispatchResult → DispatchResult
  | [], aggregate => aggregate
  | entry :: rest, aggregate =>
    match entry.receiver with
    | none => dispatchEach packet host broadcast rest aggregate
    | some receive =>
      if entry.endpoint ≠ packet.header.endpoint then dispatchEach packet host broadcast rest aggregate
      else if !broadcast && host.id ≠ packet.header.destination then dispatchEach packet host broadcast rest aggregate
      else
        let result := toDispatchResult (receive packet)
        if !broadcast then result
        else dispatchEach packet host broadcast rest (if resultPriority result > resultPriority aggregate then result else aggregate)

def dispatch (entries : List DispatchTableEntry) (packet : PacketBuffer) (host : HostInfo) : DispatchResult :=
  if !packet.header.hasSupportedControl then .kRejected
  else
    let broadcast := packet.header.destination.isBroadcast
    if broadcast && !host.isMemberOf packet.header.wire then .kNoEndpoint
    else dispatchEach packet host broadcast entries .kNoEndpoint

/-! ### The router -/

structure RouteTableEntry where
  wire : WireNumber
  wireInterfaces : InterfaceSet
  deriving Repr, DecidableEq

/-- A forwarder returns an admission and what it did. -/
abbrev PacketForwarder (α : Type) := PacketBuffer → InterfaceSet → RouteResult × List α

section
variable {α : Type}

/-- The bit of an ingress index; local origin has none. -/
def ingressMask (ingress : U8) : InterfaceSet := if ingress = 0 then 0 else 1#8 <<< (ingress.toNat - 1)

def forward (entries : List RouteTableEntry) (forwarder : PacketForwarder α) (packet : PacketBuffer) : RouteResult × List α :=
  let ingress := packet.ingressIndex
  if ingress > 8 then (.kInvalidIngress,[])
  else
    let mask := ingressMask ingress
    match entries.find? (·.wire = packet.header.wire) with
    | none => (.kNoRoute,[])
    | some entry =>
      if mask ≠ 0 ∧ entry.wireInterfaces &&& mask = 0 then (.kInvalidIngress,[])
      else
        let egress := entry.wireInterfaces &&& ~~~mask
        if egress = kNoEgress ∧ ingress ≠ 0 then (.kNoEgress,[]) else forwarder packet egress

structure IngressResult where
  routing : RouteResult
  delivery : DispatchResult
  deriving Repr, DecidableEq

/-- The result of `receive`, the packet with its new tag, what the forwarder did, and whether `dispatch` was called. -/
structure Received (α : Type) where
  result : IngressResult
  packet : PacketBuffer
  forwarded : List α := []
  dispatched : Bool := false

def receive (entries : List RouteTableEntry) (forwarder : PacketForwarder α) (packet : PacketBuffer) (ingressIndex : U8)
    (dispatcher : List DispatchTableEntry) (host : HostInfo) : Received α :=
  let packet := { packet with ingressIndex := ingressIndex }
  if ingressIndex = 0 then { result := ⟨.kInvalidIngress,.kNoEndpoint⟩, packet := packet }
  else
    let (routing,forwarded) := forward entries forwarder packet
    if (routing = .kNoRoute ∨ routing = .kInvalidIngress) ∨ ¬host.isMemberOf packet.header.wire then
      { result := ⟨routing,.kNoEndpoint⟩, packet := packet, forwarded := forwarded }
    else
      { result := ⟨routing,dispatch dispatcher packet host⟩, packet := packet, forwarded := forwarded, dispatched := true }

/-- An arrival keeps its header, is forwarded under its new tag, and is dispatched at a member when it was not refused. -/
theorem receive_arrival (entries : List RouteTableEntry) (forwarder : PacketForwarder α) (packet : PacketBuffer)
    {ingressIndex : U8} (arrival : ingressIndex ≠ 0) (dispatcher : List DispatchTableEntry) (host : HostInfo) :
    let outcome := forward entries forwarder { packet with ingressIndex := ingressIndex }
    let received := receive entries forwarder packet ingressIndex dispatcher host
    received.result.routing = outcome.1 ∧ received.forwarded = outcome.2 ∧ received.packet.header = packet.header ∧
      (received.dispatched = true ↔
        outcome.1 ≠ .kNoRoute ∧ outcome.1 ≠ .kInvalidIngress ∧ host.isMemberOf packet.header.wire = true) := by
  simp only [receive,if_neg arrival]
  split_ifs with kept
  · refine ⟨rfl,rfl,rfl,False.elim,?_⟩
    rintro ⟨route,ingress,member⟩
    rcases kept with (unrouted | refused) | foreign
    · exact absurd unrouted route
    · exact absurd refused ingress
    · exact absurd member foreign
  · rw [not_or,not_or,not_not] at kept
    exact ⟨rfl,rfl,rfl,fun _ => ⟨kept.1.1,kept.1.2,kept.2⟩,fun _ => rfl⟩

/-! ### What the router selects -/

/-- The interfaces of an entry beside the one of an arrival. -/
def selectEgress (entry : RouteTableEntry) : Option Nat → InterfaceSet
  | none => entry.wireInterfaces
  | some bit => entry.wireInterfaces &&& ~~~(1#8 <<< bit)

/-- The ingress index of an arrival on an interface's bit, or of local origin. -/
def indexOf : Option Nat → U8
  | none => 0
  | some bit => .ofNat 8 (bit + 1)

theorem indexOf_some {bit : Nat} (inside : bit < 8) : (indexOf (some bit)).toNat = bit + 1 := by
  rw [indexOf,BitVec.toNat_ofNat]
  exact Nat.mod_eq_of_lt (by omega)

theorem indexOf_ne_zero {bit : Nat} (inside : bit < 8) : indexOf (some bit) ≠ 0 := by
  intro zero
  have index := indexOf_some inside
  rw [zero] at index
  cases index

theorem ingressMask_indexOf {bit : Nat} (inside : bit < 8) : ingressMask (indexOf (some bit)) = 1#8 <<< bit := by
  rw [ingressMask,if_neg (indexOf_ne_zero inside),indexOf_some inside,Nat.add_sub_cancel]

theorem forward_origin {entries : List RouteTableEntry} (forwarder : PacketForwarder α) {packet : PacketBuffer}
    (origin : packet.ingressIndex = 0) :
    forward entries forwarder packet = match entries.find? (·.wire = packet.header.wire) with
      | none => (.kNoRoute,[])
      | some entry => forwarder packet entry.wireInterfaces := by
  simp only [forward,origin,ingressMask]
  rw [if_neg (by decide)]
  split
  · rfl
  case h_2 entry _ =>
    have whole : entry.wireInterfaces &&& ~~~(0 : U8) = entry.wireInterfaces := BitVec.and_allOnes
    simp only [if_true,ne_eq,not_true,false_and,and_false,if_false,whole]

/-- An arrival on an interface: refused unless its bit is set, and forwarded on the other bits. -/
theorem forward_arrival {entries : List RouteTableEntry} (forwarder : PacketForwarder α) {packet : PacketBuffer} {bit : Nat}
    (inside : bit < 8) (arrival : packet.ingressIndex = indexOf (some bit)) :
    forward entries forwarder packet = match entries.find? (·.wire = packet.header.wire) with
      | none => (.kNoRoute,[])
      | some entry =>
        if entry.wireInterfaces.getLsbD bit = false then (.kInvalidIngress,[])
        else if selectEgress entry (some bit) = kNoEgress then (.kNoEgress,[])
        else forwarder packet (selectEgress entry (some bit)) := by
  have index := indexOf_some inside
  have arrived := indexOf_ne_zero inside
  have small : ¬indexOf (some bit) > 8 := by
    rw [gt_iff_lt,BitVec.lt_def,index]
    exact Nat.not_lt.mpr (show bit + 1 ≤ 8 by omega)
  have set : (1#8 <<< bit) ≠ 0 := by
    intro zero
    have unset := congrArg (·.getLsbD bit) zero
    simp [inside] at unset
  simp only [forward,arrival,ingressMask_indexOf inside]
  rw [if_neg small]
  split
  · rfl
  case h_2 entry _ =>
    have selected : entry.wireInterfaces &&& (1#8 <<< bit) = 0 ↔ entry.wireInterfaces.getLsbD bit = false :=
      Words.and_bit_eq_zero _ inside
    by_cases unselected : entry.wireInterfaces.getLsbD bit = false
    · rw [if_pos ⟨set,selected.mpr unselected⟩,if_pos unselected]
    rw [if_neg (fun both => unselected (selected.mp both.2)),if_neg unselected]
    by_cases leaf : selectEgress entry (some bit) = kNoEgress
    · rw [if_pos ⟨leaf,arrived⟩,if_pos leaf]
    · rw [if_neg (fun both => leaf both.1),if_neg leaf,selectEgress]

end

end WireSpaces.Router
