import WireSpaces.Circular
import WireSpaces.Packet

/-!
The bounded queue over circular storage, and the endpoint receiver that keeps packets in one.
After any calls the receiver is a list of at most its capacity of packets, oldest first.
-/
namespace WireSpaces.EndpointQueue
open WireSpaces.Codec WireSpaces.Packet

/-! ### The queue -/

theorem succ_toNat {index : U16} {bound : Nat} (fits : bound ≤ 65535) (inside : index.toNat < bound) :
    (index + 1).toNat = index.toNat + 1 := by
  rw [BitVec.toNat_add]
  exact Nat.mod_eq_of_lt (by change index.toNat + 1 < 65536; omega)

def increment (capacity : Nat) (index : U16) : U16 :=
  let result := index + 1
  if capacity ≤ result.toNat then 0 else result

theorem increment_toNat {capacity : Nat} {index : U16} (fits : capacity ≤ 65535) (inside : index.toNat < capacity) :
    (increment capacity index).toNat = (index.toNat + 1) % capacity := by
  have plain := succ_toNat fits inside
  simp only [increment,plain]
  split
  · have last : index.toNat + 1 = capacity := by omega
    rw [last,Nat.mod_self]
    rfl
  · rw [plain,Nat.mod_eq_of_lt (by omega)]

/-- `size` cells are in use from `readIndex` on, going round the end up to `writeIndex`. -/
structure Queue (α : Type) (capacity : Nat) where
  items : List α
  readIndex : U16
  writeIndex : U16
  size : U16
  items_length : items.length = capacity
  capacity_le : capacity ≤ 65535
  read_lt : readIndex.toNat < capacity
  write_eq : writeIndex.toNat = (readIndex.toNat + size.toNat) % capacity
  size_le : size.toNat ≤ capacity

namespace Queue
variable {α : Type} {capacity : Nat}

def create (initial : α) (positive : 0 < capacity) (fits : capacity ≤ 65535) : Queue α capacity where
  items := List.replicate capacity initial
  readIndex := 0
  writeIndex := 0
  size := 0
  items_length := List.length_replicate
  capacity_le := fits
  read_lt := positive
  write_eq := (Nat.zero_mod _).symm
  size_le := Nat.zero_le _

def isFull (queue : Queue α capacity) : Bool := queue.size.toNat == capacity

def isEmpty (queue : Queue α capacity) : Bool := queue.size == 0

theorem write_lt (queue : Queue α capacity) : queue.writeIndex.toNat < capacity := by
  rw [queue.write_eq]
  exact Nat.mod_lt _ (Nat.zero_lt_of_lt queue.read_lt)

theorem size_succ (queue : Queue α capacity) (room : ¬queue.isFull) :
    (queue.size + 1).toNat = queue.size.toNat + 1 ∧ queue.size.toNat < capacity := by
  rw [isFull,beq_iff_eq] at room
  have inside := Nat.lt_of_le_of_ne queue.size_le room
  exact ⟨succ_toNat queue.capacity_le inside,inside⟩

theorem size_pred (queue : Queue α capacity) (some : ¬queue.isEmpty) :
    (queue.size - 1).toNat + 1 = queue.size.toNat := by
  rw [isEmpty,beq_iff_eq] at some
  have positive : queue.size.toNat ≠ 0 := fun zero => some (BitVec.eq_of_toNat_eq zero)
  bv_omega

def enqueue (queue : Queue α capacity) (item : α) : Bool × Queue α capacity :=
  if full : queue.isFull then (false,queue)
  else (true,{
    items := queue.items.set queue.writeIndex.toNat item
    readIndex := queue.readIndex
    writeIndex := increment capacity queue.writeIndex
    size := queue.size + 1
    items_length := by rw [List.length_set,queue.items_length]
    capacity_le := queue.capacity_le
    read_lt := queue.read_lt
    write_eq := by
      rw [increment_toNat queue.capacity_le queue.write_lt,queue.write_eq,(queue.size_succ full).1,Nat.mod_add_mod,
        Nat.add_assoc]
    size_le := by
      have := queue.size_succ full
      omega })

/-- The item is written to the caller's variable, which a failure leaves as it was. -/
def dequeue (queue : Queue α capacity) (item : α) : Bool × α × Queue α capacity :=
  if empty : queue.isEmpty then (false,item,queue)
  else (true,queue.items.get ⟨queue.readIndex.toNat,queue.read_lt.trans_eq queue.items_length.symm⟩,{
    items := queue.items
    readIndex := increment capacity queue.readIndex
    writeIndex := queue.writeIndex
    size := queue.size - 1
    items_length := queue.items_length
    capacity_le := queue.capacity_le
    read_lt := by
      rw [increment_toNat queue.capacity_le queue.read_lt]
      exact Nat.mod_lt _ (Nat.zero_lt_of_lt queue.read_lt)
    write_eq := by
      rw [increment_toNat queue.capacity_le queue.read_lt,queue.write_eq,Nat.mod_add_mod,← queue.size_pred empty]
      congr 1
      omega
    size_le := by
      have := queue.size_pred empty
      have := queue.size_le
      omega })

/-- The items in use, oldest first. -/
def held (queue : Queue α capacity) : List α := Circular.run queue.items queue.readIndex.toNat queue.size.toNat

theorem held_length (queue : Queue α capacity) : queue.held.length = queue.size.toNat :=
  Circular.run_length (queue.size_le.trans_eq queue.items_length.symm)

theorem held_length_le (queue : Queue α capacity) : queue.held.length ≤ capacity :=
  queue.held_length.trans_le queue.size_le

theorem create_held (initial : α) (positive : 0 < capacity) (fits : capacity ≤ 65535) :
    (create initial positive fits).held = [] :=
  List.eq_nil_of_length_eq_zero (held_length _)

theorem enqueue_full {queue : Queue α capacity} (full : queue.held.length = capacity) (item : α) :
    queue.enqueue item = (false,queue) := by
  rw [held_length] at full
  rw [enqueue,dif_pos (by rw [isFull,full,beq_self_eq_true])]

theorem enqueue_room {queue : Queue α capacity} (room : queue.held.length < capacity) (item : α) :
    (queue.enqueue item).1 = true ∧ (queue.enqueue item).2.held = queue.held ++ [item] := by
  rw [held_length] at room
  have unfilled : ¬queue.isFull := by
    rw [isFull,beq_iff_eq]
    omega
  rw [enqueue,dif_neg unfilled]
  refine ⟨rfl,?_⟩
  simp only [held,(queue.size_succ unfilled).1,queue.write_eq]
  exact Circular.run_set queue.items_length room item

theorem dequeue_empty {queue : Queue α capacity} (empty : queue.held = []) (item : α) :
    queue.dequeue item = (false,item,queue) := by
  have none : queue.size = 0 := BitVec.eq_of_toNat_eq (by rw [← held_length,empty]; rfl)
  rw [dequeue,dif_pos (by rw [isEmpty,none,beq_self_eq_true])]

theorem dequeue_held {queue : Queue α capacity} {first : α} {rest : List α} (some : queue.held = first :: rest)
    (item : α) : ∃ left, queue.dequeue item = (true,first,left) ∧ left.held = rest := by
  have count : queue.size.toNat = rest.length + 1 := by rw [← held_length,some,List.length_cons]
  have busy : ¬queue.isEmpty := by
    rw [isEmpty,beq_iff_eq]
    rintro zero
    rw [zero] at count
    cases count
  have length := queue.items_length
  have pred := queue.size_pred busy
  have parts : queue.held = queue.items.get ⟨queue.readIndex.toNat,queue.read_lt.trans_eq length.symm⟩ ::
      Circular.run queue.items (queue.readIndex.toNat + 1) (queue.size - 1).toNat := by
    rw [held,← pred]
    exact Circular.run_succ (by have := queue.size_le; omega) _
  rw [some] at parts
  obtain ⟨head,tail⟩ := List.cons.inj parts
  rw [dequeue,dif_neg busy]
  refine ⟨_,by rw [← head],?_⟩
  rw [tail]
  simp only [held,increment_toNat queue.capacity_le queue.read_lt]
  exact Circular.run_mod length

end Queue

/-! ### The endpoint receiver -/

/-- Queue-owned packet storage of the endpoint's payload capacity. -/
def StoredPacket (payloadCapacity : Nat) : Type := { packet : PacketBuffer // packet.capacity = payloadCapacity }

namespace StoredPacket
variable {payloadCapacity : Nat}

def define (fits : payloadCapacity ≤ 65535) : StoredPacket payloadCapacity :=
  ⟨PacketBuffer.define payloadCapacity fits,List.length_replicate⟩

def copyFrom (stored : StoredPacket payloadCapacity) (source : PacketBuffer) : Option (StoredPacket payloadCapacity) :=
  match done : stored.val.copyFrom source with
  | none => none
  | some copy => some ⟨copy,(PacketBuffer.copyFrom_spec done).2.2.2.2.trans stored.property⟩

end StoredPacket

structure EndpointReceiverQueue (payloadCapacity queueCapacity : Nat) where
  queue : Queue (StoredPacket payloadCapacity) queueCapacity
  payload_le : payloadCapacity ≤ 65535

namespace EndpointReceiverQueue
variable {payloadCapacity queueCapacity : Nat}

def create (payloadFits : payloadCapacity ≤ 65535) (positive : 1 ≤ queueCapacity) (fits : queueCapacity ≤ 65535) :
    EndpointReceiverQueue payloadCapacity queueCapacity :=
  ⟨Queue.create (StoredPacket.define payloadFits) positive fits,payloadFits⟩

def receive (endpoint : EndpointReceiverQueue payloadCapacity queueCapacity) (packet : PacketBuffer) :
    ReceiveResult × EndpointReceiverQueue payloadCapacity queueCapacity :=
  match (StoredPacket.define endpoint.payload_le).copyFrom packet with
  | none => (.kRejected,endpoint)
  | some stored =>
    match endpoint.queue.enqueue stored with
    | (true,queue) => (.kAccepted,{ endpoint with queue })
    | (false,queue) => (.kFull,{ endpoint with queue })

/-- The output is the caller's buffer after the call. -/
def dequeue (endpoint : EndpointReceiverQueue payloadCapacity queueCapacity) (output : PacketBuffer) :
    Bool × PacketBuffer × EndpointReceiverQueue payloadCapacity queueCapacity :=
  if output.capacity < payloadCapacity then (false,output,endpoint)
  else
    match endpoint.queue.dequeue (StoredPacket.define endpoint.payload_le) with
    | (false,_,queue) => (false,output,{ endpoint with queue })
    | (true,stored,queue) =>
      match output.copyFrom stored.val with
      | some copy => (true,copy,{ endpoint with queue })
      | none => (false,output,{ endpoint with queue })

end EndpointReceiverQueue

/-! ### A list of packets -/

/-- What a copy of a packet keeps. -/
structure Message where
  header : Header
  ingressIndex : U8
  size : Nat
  payload : Bytes
  deriving Repr, DecidableEq

def message (packet : PacketBuffer) : Message := ⟨packet.header,packet.ingressIndex,packet.size,packet.payload⟩

inductive Call where
  | receive (packet : PacketBuffer)
  | dequeue (output : PacketBuffer)

/-- The endpoint after a call. -/
def called {payloadCapacity queueCapacity : Nat} (endpoint : EndpointReceiverQueue payloadCapacity queueCapacity) :
    Call → EndpointReceiverQueue payloadCapacity queueCapacity
  | .receive packet => (endpoint.receive packet).2
  | .dequeue output => (endpoint.dequeue output).2.2

/-- The list after a call: a packet that fits goes behind the others while there is room, and the oldest leaves
    for an output that can hold any packet of the endpoint. -/
def kept (payloadCapacity queueCapacity : Nat) (held : List Message) : Call → List Message
  | .receive packet =>
    if packet.size ≤ payloadCapacity ∧ held.length < queueCapacity then held ++ [message packet] else held
  | .dequeue output => if payloadCapacity ≤ output.capacity then held.tail else held

theorem message_copyFrom {packet source copy : PacketBuffer} (done : packet.copyFrom source = some copy) :
    message copy = message source := by
  obtain ⟨header,ingress,size,payload,-⟩ := PacketBuffer.copyFrom_spec done
  rw [message,header,ingress,size,payload]
  rfl

namespace StoredPacket
variable {payloadCapacity : Nat} (stored : StoredPacket payloadCapacity) {source : PacketBuffer}

theorem copyFrom_eq_none (large : payloadCapacity < source.size) : stored.copyFrom source = none := by
  have refused := PacketBuffer.copyFrom_eq_none (stored.property.trans_lt large)
  unfold copyFrom
  split
  · rfl
  case h_2 done => rw [refused] at done; cases done

theorem copyFrom_fits (small : source.size ≤ payloadCapacity) :
    ∃ copy, stored.copyFrom source = some copy ∧ message copy.val = message source := by
  obtain ⟨copy,copied⟩ := PacketBuffer.copyFrom_isSome (small.trans_eq stored.property.symm)
  unfold copyFrom
  split
  case h_1 done => rw [copied] at done; cases done
  case h_2 other done => exact ⟨_,rfl,message_copyFrom done⟩

end StoredPacket

namespace EndpointReceiverQueue
variable {payloadCapacity queueCapacity : Nat} (endpoint : EndpointReceiverQueue payloadCapacity queueCapacity)

/-- The packets held, oldest first. -/
def messages : List Message := endpoint.queue.held.map fun stored => message stored.val

theorem messages_length : endpoint.messages.length = endpoint.queue.held.length := List.length_map _

theorem receive_large {packet : PacketBuffer} (large : payloadCapacity < packet.size) :
    endpoint.receive packet = (.kRejected,endpoint) := by
  rw [receive,(StoredPacket.define endpoint.payload_le).copyFrom_eq_none large]

theorem receive_full {packet : PacketBuffer} (small : packet.size ≤ payloadCapacity)
    (full : endpoint.messages.length = queueCapacity) : endpoint.receive packet = (.kFull,endpoint) := by
  obtain ⟨copy,copied,-⟩ := (StoredPacket.define endpoint.payload_le).copyFrom_fits small
  rw [receive,copied]
  rw [messages_length] at full
  simp only [Queue.enqueue_full full]

theorem receive_room {packet : PacketBuffer} (small : packet.size ≤ payloadCapacity)
    (room : endpoint.messages.length < queueCapacity) :
    (endpoint.receive packet).1 = .kAccepted ∧
      (endpoint.receive packet).2.messages = endpoint.messages ++ [message packet] := by
  obtain ⟨copy,copied,same⟩ := (StoredPacket.define endpoint.payload_le).copyFrom_fits small
  rw [messages_length] at room
  obtain ⟨done,behind⟩ := Queue.enqueue_room room copy
  have added : endpoint.queue.enqueue copy = (true,(endpoint.queue.enqueue copy).2) := Prod.ext done rfl
  simp only [receive,copied]
  rw [added]
  refine ⟨rfl,?_⟩
  rw [messages,behind,List.map_append,List.map_singleton,same]
  rfl

theorem dequeue_small {output : PacketBuffer} (small : output.capacity < payloadCapacity) :
    endpoint.dequeue output = (false,output,endpoint) := by
  rw [dequeue,if_pos small]

theorem dequeue_empty {output : PacketBuffer} (empty : endpoint.messages = []) :
    endpoint.dequeue output = (false,output,endpoint) := by
  rw [dequeue,Queue.dequeue_empty (List.map_eq_nil_iff.mp empty)]
  split
  · rfl
  · rfl

theorem dequeue_oldest {output : PacketBuffer} {oldest : Message} {rest : List Message}
    (large : payloadCapacity ≤ output.capacity) (held : endpoint.messages = oldest :: rest) :
    ∃ copy left, endpoint.dequeue output = (true,copy,left) ∧ message copy = oldest ∧
      copy.capacity = output.capacity ∧ left.messages = rest := by
  obtain ⟨first,others,stored,rfl,rfl⟩ := List.map_eq_cons_iff.mp held
  obtain ⟨queue,removed,remaining⟩ := Queue.dequeue_held stored (StoredPacket.define endpoint.payload_le)
  have fits : first.val.size ≤ output.capacity := by
    have := first.val.size_le
    have := first.property
    rw [PacketBuffer.capacity] at this
    omega
  obtain ⟨copy,copied⟩ := PacketBuffer.copyFrom_isSome fits
  refine ⟨copy,{ endpoint with queue },?_,message_copyFrom copied,?_,?_⟩
  · rw [dequeue,if_neg (by omega),removed]
    simp only [copied]
  · exact (PacketBuffer.copyFrom_spec copied).2.2.2.2
  · rw [messages,remaining]

end EndpointReceiverQueue

section
variable {payloadCapacity queueCapacity : Nat} (endpoint : EndpointReceiverQueue payloadCapacity queueCapacity)

theorem messages_length_le : endpoint.messages.length ≤ queueCapacity :=
  endpoint.messages_length.trans_le endpoint.queue.held_length_le

/-- One call moves the list of packets as `kept` does. -/
theorem messages_called (call : Call) :
    (called endpoint call).messages = kept payloadCapacity queueCapacity endpoint.messages call := by
  cases call with
  | receive packet =>
    rw [called,kept]
    rcases Nat.lt_or_ge payloadCapacity packet.size with large | small
    · rw [endpoint.receive_large large,if_neg (by omega)]
    rcases (messages_length_le endpoint).lt_or_eq with room | full
    · rw [(endpoint.receive_room small room).2,if_pos ⟨small,room⟩]
    · rw [endpoint.receive_full small full,if_neg (by omega)]
  | dequeue output =>
    rw [called,kept]
    rcases Nat.lt_or_ge output.capacity payloadCapacity with small | large
    · rw [endpoint.dequeue_small small,if_neg (by omega)]
    rw [if_pos large]
    rcases held : endpoint.messages with _ | ⟨oldest,rest⟩
    · rw [endpoint.dequeue_empty held]
      exact held
    · obtain ⟨copy,left,removed,-,-,remaining⟩ := endpoint.dequeue_oldest large held
      rw [removed]
      exact remaining

theorem messages_calls (calls : List Call) :
    (calls.foldl called endpoint).messages = calls.foldl (kept payloadCapacity queueCapacity) endpoint.messages := by
  induction calls generalizing endpoint with
  | nil => rfl
  | cons call calls hypothesis => rw [List.foldl_cons,hypothesis,messages_called,List.foldl_cons]

/-- Why a packet is refused, and that refusing it changes nothing. -/
theorem receive_answer (packet : PacketBuffer) :
    (endpoint.receive packet).1 =
        (if payloadCapacity < packet.size then .kRejected
         else if endpoint.messages.length < queueCapacity then .kAccepted else .kFull) ∧
      ((endpoint.receive packet).1 ≠ .kAccepted → (endpoint.receive packet).2 = endpoint) := by
  rcases Nat.lt_or_ge payloadCapacity packet.size with large | small
  · rw [endpoint.receive_large large,if_pos large]
    exact ⟨rfl,fun _ => rfl⟩
  rw [if_neg (by omega)]
  rcases (messages_length_le endpoint).lt_or_eq with room | full
  · rw [(endpoint.receive_room small room).1,if_pos room]
    exact ⟨rfl,fun refused => absurd rfl refused⟩
  · rw [endpoint.receive_full small full,if_neg (by omega)]
    exact ⟨rfl,fun _ => rfl⟩

/-- A packet leaves iff one is held and the output can hold it; the output then has the oldest. -/
theorem dequeue_answer (output : PacketBuffer) :
    ((endpoint.dequeue output).1 = true ↔ endpoint.messages ≠ [] ∧ payloadCapacity ≤ output.capacity) ∧
      ((endpoint.dequeue output).1 = true →
        some (message (endpoint.dequeue output).2.1) = endpoint.messages.head? ∧
          (endpoint.dequeue output).2.1.capacity = output.capacity) ∧
      ((endpoint.dequeue output).1 = false → (endpoint.dequeue output).2 = (output,endpoint)) := by
  rcases Nat.lt_or_ge output.capacity payloadCapacity with small | large
  · rw [endpoint.dequeue_small small]
    refine ⟨⟨nofun,fun possible => ?_⟩,nofun,fun _ => rfl⟩
    omega
  rcases held : endpoint.messages with _ | ⟨oldest,rest⟩
  · rw [endpoint.dequeue_empty held]
    exact ⟨⟨nofun,fun possible => absurd rfl possible.1⟩,nofun,fun _ => rfl⟩
  · obtain ⟨copy,left,removed,content,capacity,-⟩ := endpoint.dequeue_oldest large held
    rw [removed]
    refine ⟨⟨fun _ => ⟨nofun,large⟩,fun _ => rfl⟩,fun _ => ⟨?_,capacity⟩,nofun⟩
    rw [content,List.head?_cons]

end

/-- After any calls the endpoint is the list the calls leave, and it answers the next call from that list. -/
theorem endpoint_queue_fifo {payloadCapacity queueCapacity : Nat} (payloadFits : payloadCapacity ≤ 65535)
    (positive : 1 ≤ queueCapacity) (fits : queueCapacity ≤ 65535) (calls : List Call) :
    let endpoint := calls.foldl called (EndpointReceiverQueue.create payloadFits positive fits)
    let held := calls.foldl (kept payloadCapacity queueCapacity) []
    held.length ≤ queueCapacity ∧ endpoint.messages = held ∧
      (∀ packet : PacketBuffer,
        (endpoint.receive packet).1 =
            (if payloadCapacity < packet.size then .kRejected
             else if held.length < queueCapacity then .kAccepted else .kFull) ∧
          ((endpoint.receive packet).1 ≠ .kAccepted → (endpoint.receive packet).2 = endpoint)) ∧
      ∀ output : PacketBuffer,
        ((endpoint.dequeue output).1 = true ↔ held ≠ [] ∧ payloadCapacity ≤ output.capacity) ∧
          ((endpoint.dequeue output).1 = true →
            some (message (endpoint.dequeue output).2.1) = held.head? ∧
              (endpoint.dequeue output).2.1.capacity = output.capacity) ∧
          ((endpoint.dequeue output).1 = false → (endpoint.dequeue output).2 = (output,endpoint)) := by
  intro endpoint held
  have new : (EndpointReceiverQueue.create payloadFits positive fits).messages = [] := by
    rw [EndpointReceiverQueue.messages,EndpointReceiverQueue.create,Queue.create_held,List.map_nil]
  have same : endpoint.messages = held := by
    rw [messages_calls,new]
  rw [← same]
  exact ⟨messages_length_le endpoint,rfl,receive_answer endpoint,dequeue_answer endpoint⟩

def stamped (byte : U8) : PacketBuffer := ⟨1,byte,{},[byte],le_rfl,by simp⟩

/-- Two cells, three packets and one taken between them: the third goes round the end. -/
theorem endpoint_queue_wraps :
    (([.receive (stamped 1),.receive (stamped 2),.dequeue (stamped 0),.receive (stamped 3)] : List Call).foldl called
        (EndpointReceiverQueue.create (show 1 ≤ 65535 by decide) (show 1 ≤ 2 by decide) (by decide))).messages =
      [message (stamped 2),message (stamped 3)] :=
  (endpoint_queue_fifo _ _ _ _).2.1.trans (by decide)

end WireSpaces.EndpointQueue
