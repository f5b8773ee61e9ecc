import WireSpaces.EndpointQueue

/-!
The poll-driven services: ping and LED control answer the packets that wait in their
queues, the heartbeat and the stack report publish once a period. One run of an
answering service empties its queue; a publisher keeps its period in true time, however
often the 32-bit clock wraps.
-/
namespace WireSpaces.Services
open WireSpaces.Codec WireSpaces.Packet WireSpaces.EndpointQueue

/-! ### Addresses and messages -/

inductive Namespace where
  | kUser0 | kUser1 | kUser2 | kCommon
  deriving Repr, DecidableEq

def Namespace.value : Namespace → U16
  | .kUser0 => 0
  | .kUser1 => 1
  | .kUser2 => 2
  | .kCommon => 3

/-- `EndpointAddress::from`. -/
def endpointAddress (namespaceId : Namespace) (endpointId : U16) : EndpointAddress :=
  ⟨(namespaceId.value <<< 14) ||| (endpointId &&& 0x3FFF)⟩

def heartbeatEndpointId : U16 := 0x3FFE
def pingEndpointId : U16 := 0x3FFD
def stackReportEndpointId : U16 := 0x3FFC
def ledControlEndpointId : U16 := 0x3FFB

def kPingMagic : U8 := 0xAB
def kLedMagic : U8 := 0x4C
def kRequest : U8 := 0x01
def kResponse : U8 := 0x02

/-- Every message of the services has four bytes. -/
def messageSize : Nat := 4

theorem messageSize_fits : messageSize ≤ 65535 := by decide

/-- A packet buffer of a service's own. -/
def servicePacket : PacketBuffer := .define messageSize messageSize_fits

/-- A 32-bit value as it lies in little-endian memory. -/
def writeU32 (value : U32) : Bytes :=
  [value.setWidth 8,(value >>> 8).setWidth 8,(value >>> 16).setWidth 8,(value >>> 24).setWidth 8]

/-! ### Services that answer -/

abbrev ReceiverQueue := EndpointReceiverQueue 4 2

/-- `TransportFilterReceiver`: whether the wrapped receiver gets the packet. -/
def admits (transport : TransportType) (header : Header) : Bool :=
  header.hasSupportedControl && header.transportType == transport.value

/-- The receiver of a service: Simple transport only, in front of its queue. -/
def receive (packet : PacketBuffer) (queue : ReceiverQueue) : ReceiveResult × ReceiverQueue :=
  if !admits .kSimple packet.header then (.kRejected,queue) else queue.receive packet

/-- What a service does outside its own state. -/
inductive Event where
  | setBrightness (brightness : U8)
  | forward (packet : PacketBuffer)
  deriving DecidableEq

/-- The loop of `run`: the packet's buffer is used for every dequeued one. -/
def drain (processRequest : PacketBuffer → List Event) : Nat → PacketBuffer → ReceiverQueue → ReceiverQueue × List Event
  | 0, _, queue => (queue,[])
  | fuel + 1, packet, queue =>
    match queue.dequeue packet with
    | (false,_,queue) => (queue,[])
    | (true,packet,queue) =>
      let rest := drain processRequest fuel packet queue
      (rest.1,processRequest packet ++ rest.2)

/-- `run`: the queue holds two packets, so a third `dequeue` fails. -/
def run (processRequest : PacketBuffer → List Event) (queue : ReceiverQueue) : ReceiverQueue × List Event :=
  drain processRequest 3 servicePacket queue

/-- The packet is a request of the service with that magic: whole, directed and typed. -/
def isRequest (magic : U8) (packet : PacketBuffer) : Bool :=
  packet.size == messageSize && !packet.header.destination.isBroadcast &&
    packet.payload.getD 0 0 == magic && packet.payload.getD 1 0 == kRequest

/-- `PingService::sendResponse`. -/
def pingResponse (request : Header) (sequenceNumber : U16) : PacketBuffer :=
  let response := (servicePacket.initializeResponseTo request messageSize .simple).getD servicePacket
  response.store ([kPingMagic,kResponse] ++ writeU16 sequenceNumber)

def processPing (packet : PacketBuffer) : List Event :=
  if !isRequest kPingMagic packet then [] else [.forward (pingResponse packet.header (readU16 packet.payload 2))]

/-- `LedControlService::sendResponse`, on its own endpoint whatever the request's was. -/
def ledResponse (request : Header) (brightness sequenceNumber : U8) : PacketBuffer :=
  let response := (servicePacket.initializeControls messageSize ⟨.kNormal,false,.kSimple⟩).getD servicePacket
  let header : Header :=
    ⟨response.header.control,request.wire,request.destination,request.source,endpointAddress .kCommon ledControlEndpointId⟩
  { response with header := header }.store [kLedMagic,kResponse,brightness,sequenceNumber]

def processLed (packet : PacketBuffer) : List Event :=
  if !isRequest kLedMagic packet then []
  else
    let brightness := packet.payload.getD 2 0
    let sequenceNumber := packet.payload.getD 3 0
    [.setBrightness brightness,.forward (ledResponse packet.header brightness sequenceNumber)]

section answering
variable {processRequest : PacketBuffer → List Event}

/-- The handler reads what a copy of a packet keeps. -/
def Reads (processRequest : PacketBuffer → List Event) : Prop :=
  ∀ packet copy, message copy = message packet → processRequest copy = processRequest packet

theorem isRequest_congr (magic : U8) {packet copy : PacketBuffer} (same : message copy = message packet) :
    isRequest magic copy = isRequest magic packet ∧ copy.header = packet.header ∧ copy.payload = packet.payload := by
  obtain ⟨header,-,size,payload⟩ := Message.mk.injEq .. ▸ same
  refine ⟨?_,header,payload⟩
  simp only [isRequest,header,size,payload]

theorem reads_processPing : Reads processPing := by
  intro packet copy same
  obtain ⟨request,header,payload⟩ := isRequest_congr kPingMagic same
  simp only [processPing,request,header,payload]

theorem reads_processLed : Reads processLed := by
  intro packet copy same
  obtain ⟨request,header,payload⟩ := isRequest_congr kLedMagic same
  simp only [processLed,request,header,payload]

/-- With fuel for every packet the loop empties the queue and answers the packets it held, oldest first. -/
theorem drain_eq (reads : Reads processRequest) {held : List PacketBuffer} {fuel : Nat} {queue : ReceiverQueue}
    (holds : queue.messages = held.map message) (enough : held.length < fuel) {packet : PacketBuffer}
    (large : messageSize ≤ packet.capacity) :
    (drain processRequest fuel packet queue).1.messages = [] ∧
      (drain processRequest fuel packet queue).2 = held.flatMap processRequest := by
  induction held generalizing fuel queue packet with
  | nil =>
    obtain ⟨fuel,rfl⟩ := Nat.exists_eq_succ_of_ne_zero (Nat.ne_of_gt enough)
    have empty : queue.dequeue packet = (false,packet,queue) := queue.dequeue_empty holds
    simp only [drain,empty]
    exact ⟨holds,rfl⟩
  | cons oldest rest ih =>
    obtain ⟨fuel,rfl⟩ := Nat.exists_eq_succ_of_ne_zero (Nat.ne_of_gt (Nat.zero_lt_of_lt enough))
    obtain ⟨copy,left,removed,content,capacity,remaining⟩ := queue.dequeue_oldest large holds
    have later := ih remaining (Nat.lt_of_succ_lt_succ enough) (large.trans_eq capacity.symm)
    simp only [drain,removed]
    exact ⟨later.1,by rw [later.2,reads oldest copy content,List.flatMap_cons]⟩

theorem run_eq (reads : Reads processRequest) {held : List PacketBuffer} {queue : ReceiverQueue}
    (holds : queue.messages = held.map message) :
    (run processRequest queue).1.messages = [] ∧ (run processRequest queue).2 = held.flatMap processRequest := by
  have few := messages_length_le queue
  rw [holds,List.length_map] at few
  exact drain_eq reads holds (Nat.lt_succ_of_le few) (Nat.le_of_eq List.length_replicate.symm)

/-- A receiver keeps a packet that it accepts behind the others, and nothing of another. -/
theorem receive_messages (packet : PacketBuffer) (queue : ReceiverQueue) :
    (receive packet queue).2.messages = queue.messages ++ (if (receive packet queue).1 = .kAccepted then [message packet] else []) ∧
      ((receive packet queue).1 = .kAccepted ↔ admits .kSimple packet.header = true ∧ packet.size ≤ 4 ∧ queue.messages.length < 2) := by
  unfold receive
  cases admitted : admits .kSimple packet.header with
  | false => simp
  | true =>
    simp only [Bool.not_true,Bool.false_eq_true,if_false,true_and]
    rcases Nat.lt_or_ge 4 packet.size with large | small
    · rw [queue.receive_large large]
      exact ⟨(List.append_nil _).symm,nofun,by omega⟩
    rcases (messages_length_le queue).lt_or_eq with room | full
    · obtain ⟨accepted,behind⟩ := queue.receive_room small room
      rw [accepted,behind,if_pos rfl]
      exact ⟨rfl,fun _ => ⟨small,room⟩,fun _ => rfl⟩
    · rw [queue.receive_full small full]
      exact ⟨(List.append_nil _).symm,nofun,by omega⟩

end answering

/-! ### Services that publish -/

structure Publisher where
  wire : WireNumber
  sourceHost : HostId
  destinationHost : HostId
  lastSendTimeMs : U32 := 0
  deriving Repr, DecidableEq

/-- A packet of a publisher: its addresses, and a message of four bytes. -/
def publication (publisher : Publisher) (fields : ControlFields) (endpoint : EndpointAddress) (content : Bytes) : PacketBuffer :=
  let packet := (servicePacket.initializeControls messageSize fields).getD servicePacket
  let header : Header := ⟨packet.header.control,publisher.wire,publisher.sourceHost,publisher.destinationHost,endpoint⟩
  { packet with header := header }.store content

/-- `HeartbeatService::run`, with the two readings of the clock. -/
def runHeartbeat (periodMs nowMs sendMs : U32) (publisher : Publisher) : Publisher × List Event :=
  if periodMs ≤ nowMs - publisher.lastSendTimeMs then
    ({ publisher with lastSendTimeMs := nowMs },
      [.forward (publication publisher .simple (endpointAddress .kCommon heartbeatEndpointId) (writeU32 sendMs))])
  else (publisher,[])

/-- `StackReportService::run`. -/
def runStackReport (periodMs nowMs : U32) (peakUsedBytes capacityBytes : U16) (publisher : Publisher) : Publisher × List Event :=
  if nowMs - publisher.lastSendTimeMs < periodMs then (publisher,[])
  else
    ({ publisher with lastSendTimeMs := nowMs },
      [.forward (publication publisher ⟨.kBackground,false,.kSimple⟩ (endpointAddress .kCommon stackReportEndpointId)
        (writeU16 peakUsedBytes ++ writeU16 capacityBytes))])

/-! ### Publishing in true time -/

/-- When a publisher with an unbounded clock would publish. -/
def trueTimes (period : Nat) : Nat → List Nat → List Nat
  | _, [] => []
  | last, time :: later => if period ≤ time - last then time :: trueTimes period time later else trueTimes period last later

/-- When the heartbeat's packets leave, for calls at true times; each call sends its second reading of the clock. -/
def heartbeatTimes (periodMs : U32) (publisher : Publisher) : List (Nat × U32) → List Nat
  | [] => []
  | (time,sendMs) :: later =>
    let ran := runHeartbeat periodMs (.ofNat 32 time) sendMs publisher
    (if ran.2 = [] then [] else [time]) ++ heartbeatTimes periodMs ran.1 later

/-- When the stack report's packets leave, for calls at true times with the two figures of the stack. -/
def stackReportTimes (periodMs : U32) (publisher : Publisher) : List (Nat × U16 × U16) → List Nat
  | [] => []
  | (time,peakUsedBytes,capacityBytes) :: later =>
    let ran := runStackReport periodMs (.ofNat 32 time) peakUsedBytes capacityBytes publisher
    (if ran.2 = [] then [] else [time]) ++ stackReportTimes periodMs ran.1 later

section publishing
variable {periodMs : U32} {gap last time : Nat} {times : List Nat}

/-- The calls go forward in time, and none is more than a gap behind the one before. -/
def Paced (gap : Nat) (previous : Nat) (times : List Nat) : Prop :=
  (previous :: times).IsChain fun time later => time ≤ later ∧ later ≤ time + gap

/-- Nothing is due between the last publication and the call before. -/
def Recent (period last previous : Nat) : Prop := last ≤ previous ∧ (previous = last ∨ previous < last + period)

/-- The difference of two readings is the true one while that fits 32 bits. -/
theorem due_iff (periodMs : U32) (forward : last ≤ time) (close : time - last < 2 ^ 32) :
    periodMs ≤ BitVec.ofNat 32 time - BitVec.ofNat 32 last ↔ periodMs.toNat ≤ time - last := by
  have difference : (BitVec.ofNat 32 time - BitVec.ofNat 32 last).toNat = time - last := by
    rw [BitVec.toNat_sub,BitVec.toNat_ofNat,BitVec.toNat_ofNat]
    omega
  rw [BitVec.le_def,difference]

theorem Recent.close {previous : Nat} (recent : Recent periodMs.toNat last previous) (fits : periodMs.toNat + gap < 2 ^ 32)
    (step : previous ≤ time ∧ time ≤ previous + gap) : last ≤ time ∧ time - last < 2 ^ 32 := by
  obtain ⟨forward,same | near⟩ := recent <;> omega

theorem Recent.next {period previous : Nat} (recent : Recent period last previous) (step : previous ≤ time) :
    Recent period (if period ≤ time - last then time else last) time := by
  obtain ⟨forward,-⟩ := recent
  split_ifs with due
  · exact ⟨le_rfl,.inl rfl⟩
  · exact ⟨forward.trans step,.inr (by omega)⟩

theorem heartbeatTimes_eq (fits : periodMs.toNat + gap < 2 ^ 32) {calls : List (Nat × U32)} {previous : Nat}
    {publisher : Publisher} (clock : publisher.lastSendTimeMs = BitVec.ofNat 32 last)
    (recent : Recent periodMs.toNat last previous) (paced : Paced gap previous (calls.map Prod.fst)) :
    heartbeatTimes periodMs publisher calls = trueTimes periodMs.toNat last (calls.map Prod.fst) := by
  induction calls generalizing publisher last previous with
  | nil => rfl
  | cons call later ih =>
    obtain ⟨time,sendMs⟩ := call
    obtain ⟨step,paced⟩ := List.isChain_cons_cons.mp paced
    obtain ⟨forward,close⟩ := recent.close fits step
    have due := due_iff periodMs forward close
    have next := recent.next step.1
    rw [← clock] at due
    by_cases now : periodMs ≤ BitVec.ofNat 32 time - publisher.lastSendTimeMs
    · have truly := due.mp now
      rw [if_pos truly] at next
      simp only [heartbeatTimes,runHeartbeat,if_pos now,trueTimes,List.map_cons,if_pos truly,reduceCtorEq,if_false]
      exact congrArg (time :: ·) (ih rfl next paced)
    · have early := mt due.mpr now
      rw [if_neg early] at next
      simp only [heartbeatTimes,runHeartbeat,if_neg now,trueTimes,List.map_cons,if_neg early,if_true,List.nil_append]
      exact ih clock next paced

theorem stackReportTimes_eq (fits : periodMs.toNat + gap < 2 ^ 32) {calls : List (Nat × U16 × U16)} {previous : Nat}
    {publisher : Publisher} (clock : publisher.lastSendTimeMs = BitVec.ofNat 32 last)
    (recent : Recent periodMs.toNat last previous) (paced : Paced gap previous (calls.map Prod.fst)) :
    stackReportTimes periodMs publisher calls = trueTimes periodMs.toNat last (calls.map Prod.fst) := by
  induction calls generalizing publisher last previous with
  | nil => rfl
  | cons call later ih =>
    obtain ⟨time,peakUsedBytes,capacityBytes⟩ := call
    obtain ⟨step,paced⟩ := List.isChain_cons_cons.mp paced
    obtain ⟨forward,close⟩ := recent.close fits step
    have due := due_iff periodMs forward close
    have next := recent.next step.1
    rw [← clock,← BitVec.not_lt] at due
    by_cases early : BitVec.ofNat 32 time - publisher.lastSendTimeMs < periodMs
    · have notYet := fun truly => due.mpr truly early
      rw [if_neg notYet] at next
      simp only [stackReportTimes,runStackReport,if_pos early,trueTimes,List.map_cons,if_neg notYet,if_true,List.nil_append]
      exact ih clock next paced
    · have truly := due.mp early
      rw [if_pos truly] at next
      simp only [stackReportTimes,runStackReport,if_neg early,trueTimes,List.map_cons,if_pos truly,reduceCtorEq,if_false]
      exact congrArg (time :: ·) (ih rfl next paced)

/-- Publications are a period apart, and a gap late at most. -/
theorem trueTimes_spaced {period previous : Nat} (recent : Recent period last previous) (paced : Paced gap previous times) :
    (last :: trueTimes period last times).IsChain fun time later => time + period ≤ later ∧ later ≤ time + period + gap := by
  induction times generalizing last previous with
  | nil => exact List.isChain_singleton _
  | cons time times ih =>
    obtain ⟨step,paced⟩ := List.isChain_cons_cons.mp paced
    have next := recent.next step.1
    obtain ⟨forward,near⟩ := recent
    rw [trueTimes]
    split_ifs at next ⊢ with due
    · refine List.isChain_cons_cons.mpr ⟨⟨by omega,?_⟩,ih next paced⟩
      rcases near with same | near <;> omega
    · exact ih next paced

/-- At every call the last publication is less than a period ago, or just made. -/
theorem trueTimes_recent {period previous : Nat} (recent : Recent period last previous) (paced : Paced gap previous times) :
    ∀ time ∈ times, ∃ published ∈ last :: trueTimes period last times, Recent period published time := by
  induction times generalizing last previous with
  | nil => simp
  | cons time times ih =>
    obtain ⟨step,paced⟩ := List.isChain_cons_cons.mp paced
    have next := recent.next step.1
    rw [trueTimes]
    split_ifs at next ⊢ with due
    · intro t member
      rcases List.mem_cons.mp member with rfl | later
      · exact ⟨t,by simp,next⟩
      · obtain ⟨published,found,recent⟩ := ih next paced t later
        exact ⟨published,List.mem_cons_of_mem _ found,recent⟩
    · intro t member
      rcases List.mem_cons.mp member with rfl | later
      · exact ⟨last,by simp,next⟩
      · exact ih next paced t later

end publishing

/-- Called with gaps that with the period stay below 2^32 ms, both publishers publish exactly when one with an unbounded clock
    would: publications are a period apart and at most a gap late, and none is missing at any call. -/
theorem publishers_keep_period (periodMs : U32) (gap : Nat) (fits : periodMs.toNat + gap < 2 ^ 32) (publisher : Publisher)
    (fresh : publisher.lastSendTimeMs = 0) (times : List Nat) (paced : Paced gap 0 times) :
    (∀ calls : List (Nat × U32), calls.map Prod.fst = times →
      heartbeatTimes periodMs publisher calls = trueTimes periodMs.toNat 0 times) ∧
    (∀ calls : List (Nat × U16 × U16), calls.map Prod.fst = times →
      stackReportTimes periodMs publisher calls = trueTimes periodMs.toNat 0 times) ∧
    ((0 :: trueTimes periodMs.toNat 0 times).IsChain fun time later =>
      time + periodMs.toNat ≤ later ∧ later ≤ time + periodMs.toNat + gap) ∧
    ∀ time ∈ times, ∃ published ∈ 0 :: trueTimes periodMs.toNat 0 times, Recent periodMs.toNat published time := by
  have recent : Recent periodMs.toNat 0 0 := ⟨le_rfl,.inl rfl⟩
  refine ⟨?_,?_,trueTimes_spaced recent paced,trueTimes_recent recent paced⟩
  · rintro calls rfl
    exact heartbeatTimes_eq fits fresh recent paced
  · rintro calls rfl
    exact stackReportTimes_eq fits fresh recent paced

/-- Four calls around the first wrap of the clock. -/
def wrappingCalls : List (Nat × U32) := [(2147483648,0),(4294967295,1),(4294967796,2),(4294968796,3)]

theorem wrapping_heartbeats : heartbeatTimes 1000 ⟨⟨1⟩,⟨1⟩,⟨255⟩,0⟩ wrappingCalls = trueTimes 1000 0 (wrappingCalls.map Prod.fst) :=
  (publishers_keep_period 1000 2147483648 (by decide) ⟨⟨1⟩,⟨1⟩,⟨255⟩,0⟩ rfl (wrappingCalls.map Prod.fst) (by
    simp [Paced,wrappingCalls])).1 wrappingCalls rfl

end WireSpaces.Services
