import WireSpaces.Codec

/-!
Packets: the six-byte header with its control bits, and the fixed-storage buffer.
A buffer's payload storage never changes length, and its size never exceeds it.
-/
namespace WireSpaces.Packet
open WireSpaces.Codec

structure HostId where
  value : U8
  deriving Repr, DecidableEq

structure WireNumber where
  value : U8
  deriving Repr, DecidableEq

structure EndpointAddress where
  value : U16
  deriving Repr, DecidableEq

def kBroadcastHostValue : U8 := 0xFF

def HostId.isBroadcast (host : HostId) : Bool := host.value == kBroadcastHostValue

inductive QoS where
  | kCritical | kHigh | kNormal | kBackground
  deriving Repr, DecidableEq

def QoS.value : QoS → U8
  | .kCritical => 0
  | .kHigh => 1
  | .kNormal => 2
  | .kBackground => 3

inductive TransportType where
  | kSimple | kBits | kNumTransportTypes
  deriving Repr, DecidableEq

def TransportType.value : TransportType → U8
  | .kSimple => 0
  | .kBits => 1
  | .kNumTransportTypes => 2

def kNumTransportTypes : U8 := 2

structure ControlFields where
  qos : QoS
  hasExtensions : Bool
  transportType : TransportType

def ControlFields.simple (qos : QoS := .kNormal) : ControlFields := ⟨qos,false,.kSimple⟩
def ControlFields.bits (qos : QoS := .kNormal) : ControlFields := ⟨qos,false,.kBits⟩

/-- Transport-independent address used to initialize locally originated traffic. -/
structure ConnectionAddress where
  wire : WireNumber
  localHost : HostId
  remoteHost : HostId
  endpoint : EndpointAddress
  deriving Repr, DecidableEq

structure Header where
  control : U8 := 0
  wire : WireNumber := ⟨0⟩
  source : HostId := ⟨0⟩
  destination : HostId := ⟨0⟩
  endpoint : EndpointAddress := ⟨0⟩
  deriving Repr, DecidableEq

def kQoSMask : U8 := 0xC0
def kQoSShift : Nat := 6
def kHasExtensionsMask : U8 := 0x08
def kTransportTypeMask : U8 := 0x07

def Header.hasSupportedControl (header : Header) : Bool := (header.control &&& 0x3F).ult kNumTransportTypes

/-- The transport bits, as the byte the source casts to its enumeration. -/
def Header.transportType (header : Header) : U8 := header.control &&& kTransportTypeMask

def Header.setQoS (header : Header) (qos : QoS) : Header :=
  { header with control := (header.control &&& ~~~kQoSMask) ||| (qos.value <<< kQoSShift) }

def Header.setHasExtensions (header : Header) (hasExtensions : Bool) : Header :=
  { header with control :=
      if hasExtensions then header.control ||| kHasExtensionsMask else header.control &&& ~~~kHasExtensionsMask }

def Header.setTransportType (header : Header) (transportType : TransportType) : Header :=
  { header with control := (header.control &&& ~~~kTransportTypeMask) ||| transportType.value }

def Header.setControlFields (header : Header) (fields : ControlFields) : Header :=
  ((header.setQoS fields.qos).setHasExtensions fields.hasExtensions).setTransportType fields.transportType

/-! ### Buffers -/

/-- `storage` is the payload array behind the prefix; its length is the capacity. -/
structure PacketBuffer where
  size : Nat
  ingressIndex : U8
  header : Header
  storage : Bytes
  size_le : size ≤ storage.length
  capacity_le : storage.length ≤ 65535
  deriving Repr, DecidableEq

namespace PacketBuffer

/-- A newly defined buffer of a payload capacity. -/
def define (capacity : Nat) (fits : capacity ≤ 65535) : PacketBuffer where
  size := 0
  ingressIndex := 0
  header := {}
  storage := List.replicate capacity 0
  size_le := Nat.zero_le _
  capacity_le := by rwa [List.length_replicate]

theorem six_fits : 6 ≤ 65535 := by decide

theorem eight_fits : 8 ≤ 65535 := by decide

theorem sixteen_fits : 16 ≤ 65535 := by decide

/-- A buffer that its payload fills. -/
theorem whole_fits (payload : Bytes) : payload.length ≤ payload.length := le_rfl

def capacity (packet : PacketBuffer) : Nat := packet.storage.length

def payload (packet : PacketBuffer) : Bytes := packet.storage.take packet.size

theorem payload_length (packet : PacketBuffer) : packet.payload.length = packet.size := by
  rw [payload,List.length_take,Nat.min_eq_left packet.size_le]

/-- Store bytes at the start of the payload span; the span bounds what is stored. -/
def store (packet : PacketBuffer) (bytes : Bytes) : PacketBuffer where
  size := packet.size
  ingressIndex := packet.ingressIndex
  header := packet.header
  storage := bytes.take packet.size ++ packet.storage.drop (bytes.take packet.size).length
  size_le := by
    have := packet.size_le
    simp only [List.length_append,List.length_drop,List.length_take]
    omega
  capacity_le := by
    have := packet.size_le
    have := packet.capacity_le
    simp only [List.length_append,List.length_drop,List.length_take]
    omega

theorem store_capacity (packet : PacketBuffer) (bytes : Bytes) : (packet.store bytes).capacity = packet.capacity := by
  have := packet.size_le
  simp only [store,capacity,List.length_append,List.length_drop,List.length_take]
  omega

/-- A full store is what the payload reads back. -/
theorem store_payload {packet : PacketBuffer} {bytes : Bytes} (full : bytes.length = packet.size) :
    (packet.store bytes).payload = bytes := by
  have whole : bytes.take packet.size = bytes := List.take_of_length_le full.le
  simp only [payload,store,whole]
  rw [List.take_append_of_le_length full.ge,whole]

def resize (packet : PacketBuffer) (size : Nat) : Option PacketBuffer :=
  if fits : size ≤ packet.capacity then some { packet with size := size, size_le := fits } else none

/-- Copy header, ingress tag, size and payload bytes; the capacity and the bytes behind the payload stay. -/
def copyFrom (packet source : PacketBuffer) : Option PacketBuffer :=
  if fits : source.size ≤ packet.capacity then
    some {
      size := source.size
      ingressIndex := source.ingressIndex
      header := source.header
      storage := source.payload ++ packet.storage.drop source.size
      size_le := by
        rw [List.length_append,payload_length]
        omega
      capacity_le := by
        have := packet.capacity_le
        rw [capacity] at fits
        rw [List.length_append,payload_length,List.length_drop]
        omega }
  else none

/-- `initialize` without a connection: size, controls, and ingress cleared. -/
def initializeControls (packet : PacketBuffer) (size : Nat) (fields : ControlFields) : Option PacketBuffer :=
  (packet.resize size).map fun resized =>
    { resized with ingressIndex := 0, header := resized.header.setControlFields fields }

/-- `initialize` from a connection: size, controls, every address field, and ingress cleared. -/
def initializePacket (packet : PacketBuffer) (size : Nat) (connection : ConnectionAddress) (fields : ControlFields) :
    Option PacketBuffer :=
  (packet.resize size).map fun resized =>
    let control := (resized.header.setControlFields fields).control
    let header : Header := ⟨control,connection.wire,connection.localHost,connection.remoteHost,connection.endpoint⟩
    { resized with ingressIndex := 0, header := header }

/-- The response goes back to the source of the request, from its destination. -/
def initializeResponseTo (packet : PacketBuffer) (request : Header) (size : Nat) (fields : ControlFields) :
    Option PacketBuffer :=
  (packet.initializeControls size fields).map fun ready =>
    let header : Header := ⟨ready.header.control,request.wire,request.destination,request.source,request.endpoint⟩
    { ready with header := header }

/-- The payload of `source` under its header; the ingress tag stays the buffer's own. -/
def copyPacket (source destination : PacketBuffer) : Option PacketBuffer :=
  (destination.resize source.size).map fun resized => { resized with header := source.header }.store source.payload

theorem resize_capacity {packet resized : PacketBuffer} {size : Nat} (done : packet.resize size = some resized) :
    resized.capacity = packet.capacity ∧ resized.size = size := by
  unfold resize at done
  split at done
  · obtain rfl := Option.some.inj done
    exact ⟨rfl,rfl⟩
  · cases done

theorem initializePacket_spec {packet ready : PacketBuffer} {size : Nat} {connection : ConnectionAddress}
    {fields : ControlFields} (done : packet.initializePacket size connection fields = some ready) :
    ready.capacity = packet.capacity ∧ ready.size = size := by
  unfold initializePacket at done
  obtain ⟨resized,sized,rfl⟩ := Option.map_eq_some_iff.mp done
  obtain ⟨capacity,sizeIs⟩ := resize_capacity sized
  exact ⟨capacity,sizeIs⟩

theorem initializePacket_isSome {packet : PacketBuffer} {size : Nat} (fits : size ≤ packet.capacity)
    (connection : ConnectionAddress) (fields : ControlFields) :
    ∃ ready, packet.initializePacket size connection fields = some ready := by
  simp [initializePacket,resize,fits]

theorem copyFrom_isSome {packet source : PacketBuffer} (fits : source.size ≤ packet.capacity) :
    ∃ copy, packet.copyFrom source = some copy := by
  rw [copyFrom,dif_pos fits]
  exact ⟨_,rfl⟩

theorem copyFrom_eq_none {packet source : PacketBuffer} (large : packet.capacity < source.size) :
    packet.copyFrom source = none := by
  rw [copyFrom,dif_neg (by omega)]

theorem copyFrom_spec {packet source copy : PacketBuffer} (done : packet.copyFrom source = some copy) :
    copy.header = source.header ∧ copy.ingressIndex = source.ingressIndex ∧ copy.size = source.size ∧
      copy.payload = source.payload ∧ copy.capacity = packet.capacity := by
  unfold copyFrom at done
  split at done
  case isFalse => cases done
  case isTrue fits =>
    obtain rfl := Option.some.inj done
    have length := payload_length source
    rw [capacity] at fits
    refine ⟨rfl,rfl,rfl,?_,?_⟩
    · exact List.take_left' length
    · simp only [capacity,List.length_append,List.length_drop,length]
      omega

theorem copyPacket_isSome {source destination : PacketBuffer} (fits : source.size ≤ destination.capacity) :
    ∃ copy, copyPacket source destination = some copy := by
  simp [copyPacket,resize,fits]

theorem copyPacket_payload {source destination copy : PacketBuffer} (done : copyPacket source destination = some copy) :
    copy.payload = source.payload ∧ copy.header = source.header ∧ copy.capacity = destination.capacity := by
  unfold copyPacket at done
  obtain ⟨resized,sized,rfl⟩ := Option.map_eq_some_iff.mp done
  obtain ⟨capacity,size⟩ := resize_capacity sized
  refine ⟨store_payload ?_,rfl,(store_capacity _ _).trans capacity⟩
  rw [payload_length]
  exact size.symm

end PacketBuffer

/-! ### Results of forwarding and of local delivery -/

inductive RouteResult where
  | kAccepted | kPartial | kFull | kTooLarge | kRejected | kNoRoute | kNoEgress | kInvalidIngress
  deriving Repr, DecidableEq

inductive ReceiveResult where
  | kAccepted | kFull | kRejected
  deriving Repr, DecidableEq

end WireSpaces.Packet
