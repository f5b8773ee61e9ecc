import WireSpaces.Dispatch
import WireSpaces.Services
import WireSpaces.UartLink

/-!
The demonstration board: its UART link, router and services in one superloop. Its queues
never outlive a turn, so a turn answers the first two packets that each service admits,
whatever came before.
-/
namespace WireSpaces.DemoBoard
open WireSpaces.Codec WireSpaces.Packet WireSpaces.EndpointQueue WireSpaces.Services
open WireSpaces.Router (HostInfo InterfaceSet RouteTableEntry PacketForwarder combineAdmission)
open WireSpaces.Dispatch (offers)
open WireSpaces.UartLink (trySend headerSize)
open WireSpaces.Hdlc (HdlcDecoder)

/-! ### The wiring -/

def kArduinoHost : HostId := ⟨1⟩
def kPcHost : HostId := ⟨2⟩
def kTestWire : WireNumber := ⟨1⟩
def kUartEgress : InterfaceSet := 0x01
def kUartIngressIndex : U8 := 1
def kArduinoHostInfo : HostInfo := ⟨kArduinoHost,1,[kTestWire,⟨0⟩,⟨0⟩,⟨0⟩,⟨0⟩,⟨0⟩]⟩
def kRoutes : List RouteTableEntry := [⟨kTestWire,kUartEgress⟩]
def kMaximumPayloadSize : Nat := 4

theorem payload_fits : kMaximumPayloadSize ≤ 65535 := by decide

def kPingEndpoint : EndpointAddress := endpointAddress .kCommon pingEndpointId
def kLedControlEndpoint : EndpointAddress := endpointAddress .kCommon ledControlEndpointId

/-- The generated Forwarder over the UART link, with the packets that the link wrote. -/
def forwarder : PacketForwarder PacketBuffer := fun packet selected =>
  if selected &&& kUartEgress ≠ 0 then
    let admission := (trySend kMaximumPayloadSize packet).1
    let result := combineAdmission .kNoEgress admission
    (if result = .kNoEgress then .kAccepted else result,if admission = .kAccepted then [packet] else [])
  else (.kAccepted,[])

/-! ### The application -/

structure DemoApplication where
  decoder : HdlcDecoder (headerSize + kMaximumPayloadSize) := {}
  ping : ReceiverQueue
  led : ReceiverQueue
  heartbeat : Publisher

/-- The LED as it is set, and the packets written to the UART. -/
inductive Output where
  | brightness (value : U8)
  | packet (packet : PacketBuffer)
  deriving DecidableEq

def dispatchEntries : List (Dispatch.Entry DemoApplication) :=
  [⟨kPingEndpoint,some fun packet app =>
      let received := receive packet app.ping
      (received.1,{ app with ping := received.2 })⟩,
    ⟨kLedControlEndpoint,some fun packet app =>
      let received := receive packet app.led
      (received.1,{ app with led := received.2 })⟩]

/-- `domain_.receive`: the packet is forwarded, and dispatched when the router dispatches it. -/
def domainReceive (app : DemoApplication) (packet : PacketBuffer) : DemoApplication × List Output :=
  let received := Router.receive kRoutes forwarder packet kUartIngressIndex (dispatchEntries.map (Dispatch.freeze app)) kArduinoHostInfo
  let dispatched := Dispatch.dispatch received.packet kArduinoHostInfo dispatchEntries app
  (if received.dispatched then dispatched.2 else app,received.forwarded.map .packet)

def domainReceiveEach (app : DemoApplication) : List PacketBuffer → DemoApplication × List Output
  | [] => (app,[])
  | packet :: later =>
    let received := domainReceive app packet
    let rest := domainReceiveEach received.1 later
    (rest.1,received.2 ++ rest.2)

/-- What a service's event does to the board: a packet goes through the router, from local origin. -/
def carryOut : Event → List Output
  | .setBrightness brightness => [.brightness brightness]
  | .forward packet => (Router.forward kRoutes forwarder packet).2.map .packet

/-- The services of one turn, behind the UART receiver. -/
def runServices (nowMs sendMs : U32) (app : DemoApplication) : DemoApplication × List Output :=
  let pinged := run processPing app.ping
  let lit := run processLed app.led
  let beat := runHeartbeat 1000 nowMs sendMs app.heartbeat
  ({ app with ping := pinged.1, led := lit.1, heartbeat := beat.1 },(pinged.2 ++ lit.2 ++ beat.2).flatMap carryOut)

/-- A turn on the packets that the UART receiver passes on. -/
def runOnPackets (heard : List PacketBuffer) (nowMs sendMs : U32) (app : DemoApplication) : DemoApplication × List Output :=
  let received := domainReceiveEach app heard
  let ran := runServices nowMs sendMs received.1
  (ran.1,received.2 ++ ran.2)

/-- The bytes that wait at the UART, and the two readings of the clock. -/
structure Turn where
  available : Bytes
  nowMs : U32
  sendMs : U32

def runOnce (app : DemoApplication) (turn : Turn) : DemoApplication × List Output :=
  let processed := UartLink.process kMaximumPayloadSize payload_fits app.decoder turn.available
  runOnPackets processed.2 turn.nowMs turn.sendMs { app with decoder := processed.1 }

def runTurns (app : DemoApplication) : List Turn → DemoApplication × List Output
  | [] => (app,[])
  | turn :: later =>
    let ran := runOnce app turn
    let rest := runTurns ran.1 later
    (rest.1,ran.2 ++ rest.2)

/-- The bytes of an output on the UART. -/
def bytes : Output → Bytes
  | .brightness _ => []
  | .packet packet => (trySend kMaximumPayloadSize packet).2

/-! ### A board without queues -/

/-- A packet that the receiver on an endpoint gets and admits. -/
def addressed (endpoint : EndpointAddress) (packet : PacketBuffer) : Bool :=
  packet.header.endpoint == endpoint && packet.header.wire == kTestWire && offers packet kArduinoHostInfo &&
    admits .kSimple packet.header && decide (packet.size ≤ 4)

/-- The first two packets to an endpoint. -/
def served (endpoint : EndpointAddress) (heard : List PacketBuffer) : List PacketBuffer :=
  (heard.filter (addressed endpoint)).take 2

/-- What the board does for a packet that its ping service gets. -/
def pingOutputs (packet : PacketBuffer) : List Output :=
  if isRequest kPingMagic packet then [.packet (pingResponse packet.header (readU16 packet.payload 2))] else []

/-- What it does for a packet that its LED service gets. -/
def ledOutputs (packet : PacketBuffer) : List Output :=
  if isRequest kLedMagic packet then
    [.brightness (packet.payload.getD 2 0),
      .packet (ledResponse packet.header (packet.payload.getD 2 0) (packet.payload.getD 3 0))]
  else []

/-- What the services do for the packets of one turn. -/
def answers (heard : List PacketBuffer) : List Output :=
  (served kPingEndpoint heard).flatMap pingOutputs ++ (served kLedControlEndpoint heard).flatMap ledOutputs

/-- One turn without queues: a decoder and a heartbeat are all that lasts. -/
def plainOnce (decoder : HdlcDecoder (headerSize + kMaximumPayloadSize)) (heartbeat : Publisher) (turn : Turn) :
    HdlcDecoder (headerSize + kMaximumPayloadSize) × Publisher × List Output :=
  let processed := UartLink.process kMaximumPayloadSize payload_fits decoder turn.available
  let beat := runHeartbeat 1000 turn.nowMs turn.sendMs heartbeat
  (processed.1,beat.1,answers processed.2 ++ beat.2.flatMap carryOut)

def plainTurns (decoder : HdlcDecoder (headerSize + kMaximumPayloadSize)) (heartbeat : Publisher) : List Turn → List Output
  | [] => []
  | turn :: later =>
    let ran := plainOnce decoder heartbeat turn
    ran.2.2 ++ plainTurns ran.1 ran.2.1 later

/-! ### A packet on its way in -/

section arrival
variable {app : DemoApplication} {packet : PacketBuffer}

/-- A packet as the router tags it. -/
def tag (packet : PacketBuffer) : PacketBuffer := { packet with ingressIndex := kUartIngressIndex }

/-- Nothing that came in goes out again. -/
theorem forward_tag (packet : PacketBuffer) : Router.forward kRoutes forwarder (tag packet) =
    (if packet.header.wire = kTestWire then .kNoEgress else .kNoRoute,[]) := by
  unfold Router.forward
  have find : kRoutes.find? (fun entry => decide (entry.wire = (tag packet).header.wire)) =
      if packet.header.wire = kTestWire then some ⟨kTestWire,kUartEgress⟩ else none := by
    by_cases same : packet.header.wire = kTestWire
    · simp [kRoutes,tag,same]
    · have other : ¬kTestWire = packet.header.wire := fun equal => same equal.symm
      simp [kRoutes,tag,same,other]
  by_cases same : packet.header.wire = kTestWire
  · rw [if_pos same] at find ⊢
    simp only [find]
    simp [tag,kUartIngressIndex,Router.ingressMask,kUartEgress,Router.kNoEgress]
  · rw [if_neg same] at find ⊢
    simp only [find]
    simp [tag,kUartIngressIndex]

theorem isMemberOf_iff (wire : WireNumber) : kArduinoHostInfo.isMemberOf wire = true ↔ wire = kTestWire := by
  have one : kArduinoHostInfo.isMemberOf wire = (kTestWire == wire) := Bool.or_false _
  rw [one,beq_iff_eq,eq_comm]

theorem domainReceive_eq (app : DemoApplication) (packet : PacketBuffer) : domainReceive app packet =
    (if packet.header.wire = kTestWire then (Dispatch.dispatch (tag packet) kArduinoHostInfo dispatchEntries app).2 else app,[]) := by
  have forwarded := forward_tag packet
  unfold domainReceive Router.receive
  simp only [if_neg (show ¬kUartIngressIndex = 0 by decide),show { packet with ingressIndex := kUartIngressIndex } = tag packet from rfl,
    forwarded]
  by_cases same : packet.header.wire = kTestWire
  · have member := (isMemberOf_iff kTestWire).mpr rfl
    simp [same,member]
  · simp [same]

theorem entries_distinct : (dispatchEntries.map Dispatch.Entry.endpoint).Nodup := by decide

/-- One packet: each service's receiver gets what is addressed to its endpoint. -/
theorem domainReceive_queues (app : DemoApplication) (packet : PacketBuffer) :
    domainReceive app packet = ({ app with
      ping := if packet.header.endpoint = kPingEndpoint ∧ packet.header.wire = kTestWire ∧ offers packet kArduinoHostInfo = true then
        (receive (tag packet) app.ping).2 else app.ping
      led := if packet.header.endpoint = kLedControlEndpoint ∧ packet.header.wire = kTestWire ∧
          offers packet kArduinoHostInfo = true then (receive (tag packet) app.led).2 else app.led },[]) := by
  rw [domainReceive_eq]
  refine congrArg (·,[]) ?_
  have offered : offers (tag packet) kArduinoHostInfo = offers packet kArduinoHostInfo := rfl
  have apart : kPingEndpoint ≠ kLedControlEndpoint := by decide
  by_cases wire : packet.header.wire = kTestWire
  · rw [if_pos wire]
    by_cases ping : packet.header.endpoint = kPingEndpoint
    · have led : packet.header.endpoint ≠ kLedControlEndpoint := ping ▸ apart
      have heard := Dispatch.dispatch_state (tag packet) kArduinoHostInfo [] _ entries_distinct ping app
      refine heard.trans ?_
      rw [offered]
      by_cases offer : offers packet kArduinoHostInfo = true <;> simp [ping,wire,offer,apart]
    · by_cases led : packet.header.endpoint = kLedControlEndpoint
      · have heard := Dispatch.dispatch_state (tag packet) kArduinoHostInfo [dispatchEntries.head (List.cons_ne_nil _ _)] []
          entries_distinct led app
        refine heard.trans ?_
        rw [offered]
        by_cases offer : offers packet kArduinoHostInfo = true <;> simp [led,wire,offer,apart.symm]
      · have foreign : (tag packet).header.endpoint ∉ dispatchEntries.map Dispatch.Entry.endpoint := by
          simp only [dispatchEntries,List.map_cons,List.map_nil,List.mem_cons,List.not_mem_nil,or_false,not_or]
          exact ⟨ping,led⟩
        rw [Dispatch.dispatch_foreign foreign,if_neg (fun all => ping all.1),if_neg (fun all => led all.1)]
  · rw [if_neg wire,if_neg (fun all => wire all.2.1),if_neg (fun all => wire all.2.1)]

end arrival

/-! ### A turn -/

section turn
variable {app : DemoApplication}

theorem addressed_iff {endpoint : EndpointAddress} {packet : PacketBuffer} : addressed endpoint packet = true ↔
    (packet.header.endpoint = endpoint ∧ packet.header.wire = kTestWire ∧ offers packet kArduinoHostInfo = true) ∧
      admits .kSimple packet.header = true ∧ packet.size ≤ 4 := by
  simp only [addressed,Bool.and_eq_true,beq_iff_eq,decide_eq_true_eq,and_assoc]

/-- What a queue holds behind some packets of which it heard those to its endpoint. -/
theorem queue_step (endpoint : EndpointAddress) (packet : PacketBuffer) {queue : ReceiverQueue} {held : List PacketBuffer}
    (holds : queue.messages = (held.take 2).map fun packet => message (tag packet)) :
    (if packet.header.endpoint = endpoint ∧ packet.header.wire = kTestWire ∧ offers packet kArduinoHostInfo = true then
      (receive (tag packet) queue).2 else queue).messages =
        ((held ++ [packet].filter (addressed endpoint)).take 2).map fun packet => message (tag packet) := by
  have length : queue.messages.length = min 2 held.length := by rw [holds,List.length_map,List.length_take]
  obtain ⟨behind,accepted⟩ := receive_messages (tag packet) queue
  by_cases reached : packet.header.endpoint = endpoint ∧ packet.header.wire = kTestWire ∧ offers packet kArduinoHostInfo = true
  · rw [if_pos reached,behind,holds]
    obtain ⟨here,wire,offer⟩ := reached
    by_cases fine : admits .kSimple packet.header = true ∧ packet.size ≤ 4
    · have kept : [packet].filter (addressed endpoint) = [packet] :=
        List.filter_cons_of_pos (addressed_iff.mpr ⟨⟨here,wire,offer⟩,fine⟩)
      rw [kept,List.take_append]
      by_cases room : queue.messages.length < 2
      · rw [if_pos (accepted.mpr ⟨fine.1,fine.2,room⟩),List.map_append,List.take_of_length_le (l := [packet]) (by simp; omega)]
        rfl
      · rw [if_neg (fun all => room (accepted.mp all).2.2),show 2 - held.length = 0 by omega]
        simp
    · have dropped : [packet].filter (addressed endpoint) = [] :=
        List.filter_cons_of_neg fun all => fine (addressed_iff.mp all).2
      rw [dropped,if_neg (fun all => fine ⟨(accepted.mp all).1,(accepted.mp all).2.1⟩),List.append_nil,List.append_nil]
  · have dropped : [packet].filter (addressed endpoint) = [] :=
      List.filter_cons_of_neg fun all => reached (addressed_iff.mp all).1
    rw [if_neg reached,holds,dropped,List.append_nil]

/-- After some packets each queue holds the first two that were addressed to it. -/
structure Queued (app : DemoApplication) (heard : List PacketBuffer) : Prop where
  ping : app.ping.messages = (served kPingEndpoint heard).map fun packet => message (tag packet)
  led : app.led.messages = (served kLedControlEndpoint heard).map fun packet => message (tag packet)

theorem queued_each {heard : List PacketBuffer} (queued : Queued app heard) (more : List PacketBuffer) :
    (domainReceiveEach app more).2 = [] ∧ Queued (domainReceiveEach app more).1 (heard ++ more) ∧
      (domainReceiveEach app more).1.decoder = app.decoder ∧ (domainReceiveEach app more).1.heartbeat = app.heartbeat := by
  induction more generalizing app heard with
  | nil =>
    rw [List.append_nil]
    exact ⟨rfl,queued,rfl,rfl⟩
  | cons packet more ih =>
    have received := domainReceive_queues app packet
    have next : Queued (domainReceive app packet).1 (heard ++ [packet]) := by
      rw [received]
      refine ⟨?_,?_⟩
      · rw [served,List.filter_append]
        exact queue_step kPingEndpoint packet queued.ping
      · rw [served,List.filter_append]
        exact queue_step kLedControlEndpoint packet queued.led
    obtain ⟨silent,later,decoder,heartbeat⟩ := ih next
    rw [List.append_assoc] at later
    simp only [domainReceiveEach]
    refine ⟨by rw [silent,received,List.append_nil],later,decoder.trans (by rw [received]),heartbeat.trans (by rw [received])⟩

end turn

/-! ### What goes out -/

theorem ledResponse_message (request : Header) (brightness sequenceNumber : U8) : message (ledResponse request brightness sequenceNumber) =
    ⟨⟨0x80,request.wire,request.destination,request.source,kLedControlEndpoint⟩,0,4,[kLedMagic,kResponse,brightness,sequenceNumber]⟩ :=
  rfl

/-- A packet of the board's own on its wire gets to the UART. -/
theorem carryOut_forward (packet : PacketBuffer) (origin : packet.ingressIndex = 0) (wire : packet.header.wire = kTestWire)
    (small : packet.size ≤ 4) : carryOut (.forward packet) = [.packet packet] := by
  have fits : packet.size + headerSize < 65536 := by
    rw [headerSize]
    omega
  have sent := UartLink.trySend_eq kMaximumPayloadSize fits
  rw [if_pos (show packet.size ≤ kMaximumPayloadSize from small)] at sent
  have found : kRoutes.find? (fun entry => decide (entry.wire = packet.header.wire)) = some ⟨kTestWire,kUartEgress⟩ := by
    simp [kRoutes,wire]
  simp [carryOut,Router.forward,origin,found,Router.ingressMask,forwarder,sent,kUartEgress]

section replies
variable {packet : PacketBuffer}

theorem carryOut_ping (wire : packet.header.wire = kTestWire) : (processPing (tag packet)).flatMap carryOut = pingOutputs packet := by
  have request : isRequest kPingMagic (tag packet) = isRequest kPingMagic packet := rfl
  unfold processPing pingOutputs
  rw [request]
  cases isRequest kPingMagic packet with
  | false => rfl
  | true =>
    have out := carryOut_forward (pingResponse packet.header (readU16 packet.payload 2)) rfl wire le_rfl
    simp only [Bool.not_true,Bool.false_eq_true,if_false,if_true,List.flatMap_cons,List.flatMap_nil,List.append_nil]
    exact out

theorem carryOut_led (wire : packet.header.wire = kTestWire) : (processLed (tag packet)).flatMap carryOut = ledOutputs packet := by
  have request : isRequest kLedMagic (tag packet) = isRequest kLedMagic packet := rfl
  unfold processLed ledOutputs
  rw [request]
  cases isRequest kLedMagic packet with
  | false => rfl
  | true =>
    have out := carryOut_forward (ledResponse packet.header (packet.payload.getD 2 0) (packet.payload.getD 3 0)) rfl wire le_rfl
    simp only [Bool.not_true,Bool.false_eq_true,if_false,if_true,List.flatMap_cons,List.flatMap_nil,List.append_nil]
    exact congrArg ([Output.brightness (packet.payload.getD 2 0)] ++ ·) out

end replies

theorem served_wire {endpoint : EndpointAddress} {heard : List PacketBuffer} {packet : PacketBuffer}
    (member : packet ∈ served endpoint heard) : packet.header.wire = kTestWire :=
  (addressed_iff.mp (List.mem_filter.mp (List.mem_of_mem_take member)).2).1.2.1

section runs
variable {app : DemoApplication}

/-- A service's run behind some packets answers the ones it was served. -/
theorem run_served {processRequest : PacketBuffer → List Event} {outputs : PacketBuffer → List Output} (reads : Reads processRequest)
    (replies : ∀ {packet : PacketBuffer}, packet.header.wire = kTestWire → (processRequest (tag packet)).flatMap carryOut = outputs packet)
    {endpoint : EndpointAddress} {heard : List PacketBuffer} {queue : ReceiverQueue}
    (holds : queue.messages = (served endpoint heard).map fun packet => message (tag packet)) :
    (run processRequest queue).1.messages = [] ∧
      (run processRequest queue).2.flatMap carryOut = (served endpoint heard).flatMap outputs := by
  have held : queue.messages = ((served endpoint heard).map tag).map message := by
    rw [holds,List.map_map]
    rfl
  obtain ⟨empty,events⟩ := run_eq reads held
  refine ⟨empty,?_⟩
  rw [events,List.flatMap_map,List.flatMap_assoc]
  exact List.flatMap_congr fun packet member => replies (served_wire member)

/-- With empty queues a turn does what the board without queues does, and leaves them empty. -/
theorem runOnPackets_eq (idle : Queued app []) (heard : List PacketBuffer) (nowMs sendMs : U32) :
    let beat := runHeartbeat 1000 nowMs sendMs app.heartbeat
    let ran := runOnPackets heard nowMs sendMs app
    ran.2 = answers heard ++ beat.2.flatMap carryOut ∧ Queued ran.1 [] ∧ ran.1.decoder = app.decoder ∧ ran.1.heartbeat = beat.1 := by
  obtain ⟨silent,queued,decoder,heartbeat⟩ := queued_each idle heard
  rw [List.nil_append] at queued
  obtain ⟨pings,pinged⟩ := run_served reads_processPing carryOut_ping queued.ping
  obtain ⟨leds,lit⟩ := run_served reads_processLed carryOut_led queued.led
  simp only [runOnPackets,runServices,answers,silent,List.nil_append,List.flatMap_append,pinged,lit,heartbeat]
  exact ⟨trivial,⟨pings,leds⟩,decoder,trivial⟩

theorem runOnce_eq (idle : Queued app []) (turn : Turn) :
    (runOnce app turn).2 = (plainOnce app.decoder app.heartbeat turn).2.2 ∧ Queued (runOnce app turn).1 [] ∧
      (runOnce app turn).1.decoder = (plainOnce app.decoder app.heartbeat turn).1 ∧
      (runOnce app turn).1.heartbeat = (plainOnce app.decoder app.heartbeat turn).2.1 := by
  have waiting : Queued { app with decoder := (UartLink.process kMaximumPayloadSize payload_fits app.decoder turn.available).1 } [] :=
    ⟨idle.ping,idle.led⟩
  exact runOnPackets_eq waiting _ turn.nowMs turn.sendMs

theorem runTurns_eq (idle : Queued app []) (turns : List Turn) :
    (runTurns app turns).2 = plainTurns app.decoder app.heartbeat turns := by
  induction turns generalizing app with
  | nil => rfl
  | cons turn turns ih =>
    obtain ⟨outputs,next,decoder,heartbeat⟩ := runOnce_eq idle turn
    rw [runTurns,plainTurns,ih next,outputs,decoder,heartbeat]

end runs

theorem two_pos : 1 ≤ 2 := by decide

theorem two_fits : 2 ≤ 65535 := by decide

/-- The application as it is constructed. -/
def construct (destination : HostId) : DemoApplication where
  ping := .create messageSize_fits two_pos two_fits
  led := .create messageSize_fits two_pos two_fits
  heartbeat := ⟨kTestWire,kArduinoHost,destination,0⟩

theorem queued_construct (destination : HostId) : Queued (construct destination) [] := by
  have empty := Queue.create_held (StoredPacket.define messageSize_fits) two_pos two_fits
  refine ⟨?_,?_⟩ <;> exact congrArg (List.map _) empty

/-- Whatever bytes come in and whatever the clock shows, in every turn of every run the board serves exactly the first two
    packets that its ping service admits and answers the requests among them, then serves the first two that its LED service
    admits and obeys and answers the requests among them, then beats if it is due: nothing waits from one turn to the next,
    nothing is answered twice, and nothing that came in is passed on. -/
theorem board_answers_each_turn (destination : HostId) (turns : List Turn) :
    (runTurns (construct destination) turns).2 = plainTurns {} ⟨kTestWire,kArduinoHost,destination,0⟩ turns :=
  runTurns_eq (queued_construct destination) turns

end WireSpaces.DemoBoard
