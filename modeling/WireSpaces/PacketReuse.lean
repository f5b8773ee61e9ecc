import WireSpaces.Packet

/-!
Initializing a buffer that was used before. The three setters of the control byte leave its
reserved bits, so these are all that a new packet can show of the buffer's history.
-/
namespace WireSpaces.PacketReuse
open WireSpaces.Codec WireSpaces.Packet

/-- The control bits that no setter writes. -/
def reservedMask : U8 := ~~~(kQoSMask ||| kHasExtensionsMask ||| kTransportTypeMask)

def reserved (packet : PacketBuffer) : U8 := packet.header.control &&& reservedMask

/-- The control byte of the fields alone. -/
def controlOf (fields : ControlFields) : U8 := (Header.setControlFields {} fields).control

/-- No extensions, and a transport the prototype accepts. -/
def supported (fields : ControlFields) : Bool := !fields.hasExtensions && fields.transportType.value.ult kNumTransportTypes

theorem setControlFields_eq (header : Header) (fields : ControlFields) :
    header.setControlFields fields = { header with control := (header.control &&& reservedMask) ||| controlOf fields } := by
  have bytes : ∀ byte : Fin (2 ^ 8), (Header.setControlFields { control := .ofFin byte } fields).control =
      ((.ofFin byte : U8) &&& reservedMask) ||| controlOf fields := by
    obtain ⟨qos,extensions,transport⟩ := fields
    cases qos <;> cases extensions <;> cases transport <;> decide +kernel
  have control : (header.setControlFields fields).control = (header.control &&& reservedMask) ||| controlOf fields :=
    bytes header.control.toFin
  rw [← control]
  rfl

theorem controlOf_reserved (fields : ControlFields) : controlOf fields &&& reservedMask = 0#8 := by
  obtain ⟨qos,extensions,transport⟩ := fields
  cases qos <;> cases extensions <;> cases transport <;> decide

/-- Old reserved bits stand beside the bits of the fields. -/
theorem masked_or_controlOf (byte : U8) (fields : ControlFields) :
    ((byte &&& reservedMask) ||| controlOf fields) &&& reservedMask = byte &&& reservedMask := by
  rw [BitVec.and_or_distrib_right,controlOf_reserved,BitVec.and_assoc,BitVec.and_self]
  exact BitVec.or_zero

/-- Supported fields give supported control exactly without old reserved bits. -/
theorem supported_iff {fields : ControlFields} (asked : supported fields = true) (header : Header) :
    (header.setControlFields fields).hasSupportedControl = true ↔ header.control &&& reservedMask = 0 := by
  have bytes : ∀ byte : Fin (2 ^ 8),
      (Header.setControlFields { control := .ofFin byte } fields).hasSupportedControl = true ↔
        (.ofFin byte : U8) &&& reservedMask = 0 := by
    obtain ⟨qos,extensions,transport⟩ := fields
    cases extensions <;> cases transport <;> simp [supported,TransportType.value,kNumTransportTypes] at asked <;>
      cases qos <;> decide +kernel
  exact bytes header.control.toFin

/-! ### The calls -/

/-- Where the address fields come from. -/
inductive Addressing where
  | connection (connection : ConnectionAddress)
  | responseTo (request : Header)

/-- The header of a control byte under the addresses. -/
def addressed (control : U8) : Addressing → Header
  | .connection connection => ⟨control,connection.wire,connection.localHost,connection.remoteHost,connection.endpoint⟩
  | .responseTo request => ⟨control,request.wire,request.destination,request.source,request.endpoint⟩

/-- The buffer after the call, where it succeeds. -/
def initialized (packet : PacketBuffer) (size : Nat) (fields : ControlFields) : Addressing → Option PacketBuffer
  | .connection connection => packet.initializePacket size connection fields
  | .responseTo request => packet.initializeResponseTo request size fields

/-- Header, size and ingress index. -/
def shown (packet : PacketBuffer) : Header × Nat × U8 := (packet.header,packet.size,packet.ingressIndex)

/-- A call that succeeds shows its arguments and the buffer's old reserved bits. -/
theorem initialized_shown {packet ready : PacketBuffer} {size : Nat} {fields : ControlFields} {addressing : Addressing}
    (done : initialized packet size fields addressing = some ready) :
    shown ready = (addressed (packet.header.setControlFields fields).control addressing,size,0) := by
  have resized {result : PacketBuffer} (sized : packet.resize size = some result) :
      result.header = packet.header ∧ result.size = size := by
    unfold PacketBuffer.resize at sized
    split at sized
    · obtain rfl := Option.some.inj sized
      exact ⟨rfl,rfl⟩
    · cases sized
  cases addressing with
  | connection connection =>
    obtain ⟨result,sized,rfl⟩ := Option.map_eq_some_iff.mp done
    obtain ⟨header,sizeIs⟩ := resized sized
    simp only [shown,addressed,header,sizeIs]
  | responseTo request =>
    obtain ⟨between,first,rfl⟩ := Option.map_eq_some_iff.mp done
    obtain ⟨result,sized,rfl⟩ := Option.map_eq_some_iff.mp first
    obtain ⟨header,sizeIs⟩ := resized sized
    simp only [shown,addressed,header,sizeIs]

theorem addressed_inj {control control' : U8} {addressing : Addressing} :
    addressed control addressing = addressed control' addressing ↔ control = control' := by
  cases addressing <;> simp [addressed]

theorem addressed_supported (header : Header) (addressing : Addressing) :
    (addressed header.control addressing).hasSupportedControl = header.hasSupportedControl := by
  cases addressing <;> rfl

/-- Two control bytes made from the same fields differ in what was reserved. -/
theorem setControlFields_control_inj {header header' : Header} {fields : ControlFields} :
    (header.setControlFields fields).control = (header'.setControlFields fields).control ↔
      header.control &&& reservedMask = header'.control &&& reservedMask := by
  rw [setControlFields_eq,setControlFields_eq]
  constructor
  · intro same
    have masked := congrArg (· &&& reservedMask) same
    simpa only [masked_or_controlOf] using masked
  · intro same
    simp only [same]

/-- Nothing of the history is left: the results are equal, they are what a newly defined buffer would show,
    and supported fields gave supported control. -/
def Erased (size : Nat) (fields : ControlFields) (addressing : Addressing) (a b : PacketBuffer) : Prop :=
  shown a = shown b ∧ shown a = (addressed (controlOf fields) addressing,size,0) ∧
    (supported fields = true → a.header.hasSupportedControl = true ∧ b.header.hasSupportedControl = true)

section
variable {first second a b : PacketBuffer} {size : Nat} {fields : ControlFields} {addressing : Addressing}

theorem shown_eq_iff (left : initialized first size fields addressing = some a)
    (right : initialized second size fields addressing = some b) : shown a = shown b ↔ reserved first = reserved second := by
  rw [initialized_shown left,initialized_shown right,Prod.mk.injEq,addressed_inj,setControlFields_control_inj]
  exact and_iff_left rfl

theorem shown_determined_iff (done : initialized first size fields addressing = some a) :
    shown a = (addressed (controlOf fields) addressing,size,0) ↔ reserved first = 0 := by
  rw [initialized_shown done,Prod.mk.injEq,addressed_inj,controlOf,setControlFields_control_inj]
  exact and_iff_left rfl

theorem header_supported_iff (done : initialized first size fields addressing = some a) (asked : supported fields = true) :
    a.header.hasSupportedControl = true ↔ reserved first = 0 := by
  have header : a.header = addressed (first.header.setControlFields fields).control addressing :=
    congrArg Prod.fst (initialized_shown done)
  rw [header,addressed_supported]
  exact supported_iff asked first.header

end

/-- Two buffers of one capacity, whatever they held, come out of the same successful call without a trace of their
    history exactly when neither had a reserved control bit set; they come out equal exactly when these bits were. -/
theorem history_erased_iff (first second : PacketBuffer) (_capacity : first.capacity = second.capacity) (size : Nat)
    (fields : ControlFields) (addressing : Addressing) (a b : PacketBuffer)
    (left : initialized first size fields addressing = some a) (right : initialized second size fields addressing = some b) :
    (Erased size fields addressing a b ↔ reserved first = 0 ∧ reserved second = 0) ∧
      (shown a = shown b ↔ reserved first = reserved second) := by
  have equal := shown_eq_iff left right
  refine ⟨⟨?_,?_⟩,equal⟩
  · rintro ⟨same,determined,-⟩
    have clear := (shown_determined_iff left).mp determined
    exact ⟨clear,(equal.mp same).symm.trans clear⟩
  · rintro ⟨clear,clear'⟩
    refine ⟨equal.mpr (clear.trans clear'.symm),(shown_determined_iff left).mpr clear,?_⟩
    intro asked
    exact ⟨(header_supported_iff left asked).mpr clear,(header_supported_iff right asked).mpr clear'⟩

/-- A buffer that still holds a packet with the given control byte, received from the eighth interface. -/
def usedBuffer (control : U8) : PacketBuffer :=
  { PacketBuffer.define 8 PacketBuffer.eight_fits with header := ⟨control,⟨9⟩,⟨98⟩,⟨97⟩,⟨96⟩⟩, ingressIndex := 8 }

def someConnection : Addressing := .connection ⟨⟨7⟩,⟨2⟩,⟨3⟩,⟨123⟩⟩

/-- Extensions and another transport leave nothing behind. -/
theorem extended_buffer_erased : ∃ a b, initialized (PacketBuffer.define 8 (by decide)) 3 (.bits .kHigh) someConnection = some a ∧
    initialized (usedBuffer 0x0A) 3 (.bits .kHigh) someConnection = some b ∧
    Erased 3 (.bits .kHigh) someConnection a b := by
  obtain ⟨a,left⟩ : ∃ a, initialized (PacketBuffer.define 8 (by decide)) 3 (.bits .kHigh) someConnection = some a := ⟨_,rfl⟩
  obtain ⟨b,right⟩ : ∃ b, initialized (usedBuffer 0x0A) 3 (.bits .kHigh) someConnection = some b := ⟨_,rfl⟩
  exact ⟨a,b,left,right,(history_erased_iff _ _ rfl 3 (.bits .kHigh) someConnection a b left right).1.mpr (by decide)⟩

/-- A buffer with the reserved bit `0x10` set keeps it: not every call erases the history. -/
theorem reserved_bit_kept : ¬ ∀ (first second : PacketBuffer) (size : Nat) (fields : ControlFields) (addressing : Addressing)
    (a b : PacketBuffer), first.capacity = second.capacity → initialized first size fields addressing = some a →
      initialized second size fields addressing = some b → Erased size fields addressing a b := by
  intro erased
  obtain ⟨a,left⟩ : ∃ a, initialized (PacketBuffer.define 8 (by decide)) 3 .simple someConnection = some a := ⟨_,rfl⟩
  obtain ⟨b,right⟩ : ∃ b, initialized (usedBuffer 0x10) 3 .simple someConnection = some b := ⟨_,rfl⟩
  obtain ⟨same,-⟩ := erased (PacketBuffer.define 8 (by decide)) (usedBuffer 0x10) 3 .simple someConnection a b rfl left right
  exact absurd ((shown_eq_iff left right).mp same) (by decide)

end WireSpaces.PacketReuse
