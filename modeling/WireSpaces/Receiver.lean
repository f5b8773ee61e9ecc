import WireSpaces.ReceiverSteps
import WireSpaces.Transmitter

/-!
The receiver endpoint around the engine: segments wait in caller-owned slots, every
other PDU in one datagram slot, and `process` drains one of each, the segment
first. Its replies leave through one transmit buffer and the router.
-/
namespace WireSpaces.Receiver
open WireSpaces.Words WireSpaces.Codec WireSpaces.Packet
open WireSpaces.ReceiverEngine (Engine Environment Build ReceiverEngineConfig TransferInfo TransferAdmission SendResult Sender
  ProcessResult Callback construct)
open WireSpaces.Transmitter (matchesConnection sendResult)

/-- The slots, of which a null pointer is `none`; only the first sixteen are used. -/
abbrev Slots := List (Option PacketBuffer)

/-- One slot's contribution: one more window position, and the segments it has room for. -/
def countSlot (sized : Nat × Nat) : Option PacketBuffer → Nat × Nat
  | none => sized
  | some slot =>
    let slotSegmentSize := if slot.capacity ≥ kSegmentHeaderSize then slot.capacity - kSegmentHeaderSize else 0
    (sized.1 + 1,if slotSegmentSize < sized.2 then slotSegmentSize else sized.2)

def receiverEngineConfig (segmentIngress : Slots) (inactivityTimeoutMs : U32) : ReceiverEngineConfig :=
  let sized := (segmentIngress.take kCompactWindowWidth).foldl countSlot (0,65535)
  let maximumSegmentSize := if sized.1 = 0 then 0 else sized.2
  ⟨BitVec.ofNat 16 maximumSegmentSize,sized.1,2 ^ 32 - 1,inactivityTimeoutMs⟩

structure Config where
  connection : ConnectionAddress
  build : Build

structure BitsReceiver where
  segmentIngress : Slots
  datagramIngress : PacketBuffer
  transmitPacket : PacketBuffer
  segmentOccupiedMask : U16 := 0
  datagramOccupied : Bool := false
  engine : Engine := {}
  /-- The messages handed to the engine's `process`. -/
  handed : List Bytes := []
  /-- The packets handed to the router, with its answers. -/
  forwarded : List (PacketBuffer × RouteResult) := []

/-- What the constructor makes of the storage, in a build of a window limit. -/
def configure (windowLimit : Nat) (limit_pos : 1 ≤ windowLimit) (limit_le : windowLimit ≤ kCompactWindowWidth)
    (connection : ConnectionAddress) (segmentIngress : Slots) (inactivityTimeoutMs : U32) : Config where
  connection := connection
  build := construct windowLimit limit_pos limit_le (receiverEngineConfig segmentIngress inactivityTimeoutMs)

/-! ### Ingress -/

/-- The slot loop: the first free slot the packet fits takes it. -/
def storeSegment (packet : PacketBuffer) (mask : U16) : Nat → Slots → Bool → Slots × U16 × ReceiveResult
  | _, [], freeSlotSeen => ([],mask,if freeSlotSeen then .kRejected else .kFull)
  | index, none :: rest, freeSlotSeen =>
    let stored := storeSegment packet mask (index + 1) rest freeSlotSeen
    (none :: stored.1,stored.2)
  | index, some slot :: rest, freeSlotSeen =>
    if mask &&& (1#16 <<< index) ≠ 0 then
      let stored := storeSegment packet mask (index + 1) rest freeSlotSeen
      (some slot :: stored.1,stored.2)
    else
      match PacketBuffer.copyPacket packet slot with
      | some copy => (some copy :: rest,mask ||| (1#16 <<< index),.kAccepted)
      | none =>
        let stored := storeSegment packet mask (index + 1) rest true
        (some slot :: stored.1,stored.2)

section calls
variable (cfg : Config)

def receive (packet : PacketBuffer) (r : BitsReceiver) : BitsReceiver × ReceiveResult :=
  match matchesConnection packet cfg.connection, packet.payload with
  | false, _ => (r,.kRejected)
  | true, [] => (r,.kRejected)
  | true, first :: _ =>
    match decodeControl first with
    | none => (r,.kRejected)
    | some control =>
      if control.type ≠ .kSegment then
        if r.datagramOccupied then (r,.kFull)
        else
          match PacketBuffer.copyPacket packet r.datagramIngress with
          | none => (r,.kRejected)
          | some copy => ({ r with datagramIngress := copy, datagramOccupied := true },.kAccepted)
      else
        let stored := storeSegment packet r.segmentOccupiedMask 0 (r.segmentIngress.take kCompactWindowWidth) false
        ({ r with
          segmentIngress := stored.1 ++ r.segmentIngress.drop kCompactWindowWidth,
          segmentOccupiedMask := stored.2.1 },stored.2.2)

/-! ### Replies -/

/-- The answers of one engine call: the sink's and the router's, and the datagrams a
    callback sends through the receiver. -/
structure Answers where
  beginTransfer : TransferInfo → TransferAdmission
  onSegment : Nat → Bytes → Bool
  router : PacketBuffer → RouteResult
  reentry : Callback → List Bytes := fun _ => []

/-- The packet that carries a reply. -/
def framed (pdu : Bytes) (r : BitsReceiver) : Option PacketBuffer :=
  (r.transmitPacket.initializePacket pdu.length cfg.connection .bits).map (fun packet => packet.store pdu)

/-- `prepare` and `sendPrepared` as the engine's sender. -/
def sender (answers : Answers) (r : BitsReceiver) : Sender where
  prepare payloadSize :=
    match r.transmitPacket.initializePacket payloadSize cfg.connection .bits with
    | none => []
    | some packet => packet.payload
  sendPrepared pdu :=
    match framed cfg pdu r with
    | none => .kTooLarge
    | some packet => sendResult (answers.router packet)

def environment (answers : Answers) (r : BitsReceiver) : Environment where
  beginTransfer := answers.beginTransfer
  onSegment := answers.onSegment
  sender := sender cfg answers r
  reentry call := (answers.reentry call).map (fun payload => (payload,sender cfg answers r))

/-- The packet of one reply, in the buffer and at the router. -/
def forward (answers : Answers) (pdu : Bytes) (r : BitsReceiver) : BitsReceiver :=
  match framed cfg pdu r with
  | none => r
  | some packet => { r with transmitPacket := packet, forwarded := r.forwarded ++ [(packet,answers.router packet)] }

/-- The receiver after an engine call: the new engine, and the replies it sent. -/
def settle (answers : Answers) (engine : Engine) (r : BitsReceiver) : BitsReceiver :=
  let sent := (engine.trace.drop r.engine.trace.length).filterMap fun event =>
    match event with
    | .send pdu _ => some pdu
    | .callback _ => none
  sent.foldl (fun r pdu => forward cfg answers pdu r) { r with engine := engine }

/-- One message handed to the engine. -/
def deliver (answers : Answers) (message : Bytes) (nowMs : U32) (r : BitsReceiver) : BitsReceiver × ProcessResult :=
  let processed := ReceiverEngine.process cfg.build (environment cfg answers r) message nowMs r.engine
  (settle cfg answers processed.1 { r with handed := r.handed ++ [message] },processed.2)

/-! ### Draining -/

/-- The lowest occupied slot. -/
def lowestOccupied (mask : U16) : Option Nat :=
  (List.range kCompactWindowWidth).find? (fun index => mask &&& (1#16 <<< index) != 0)

def processSegment (answers : Answers) (nowMs : U32) (r : BitsReceiver) : BitsReceiver × ProcessResult :=
  match lowestOccupied r.segmentOccupiedMask with
  | none => (r,.kIdle)
  | some index =>
    let packet := r.segmentIngress.getD index none
    let message := (packet.map PacketBuffer.payload).getD []
    deliver cfg answers message nowMs
      { r with segmentOccupiedMask := r.segmentOccupiedMask &&& ~~~(1#16 <<< index) }

/-- The datagram slot, and the result of both. -/
def processDatagram (answers : Answers) (nowMs : U32) (result : ProcessResult) (r : BitsReceiver) :
    BitsReceiver × ProcessResult :=
  if r.datagramOccupied then
    let delivered := deliver cfg answers r.datagramIngress.payload nowMs r
    let r := { delivered.1 with datagramOccupied := false }
    if delivered.2 = .kError ∨ result = .kError then (r,.kError)
    else (r,if result = .kBlocked ∨ delivered.2 = .kBlocked then .kBlocked else .kProgress)
  else (r,result)

/-- `process`, with the answers for the segment and for the datagram slot. -/
def process (segmentAnswers datagramAnswers : Answers) (nowMs : U32) (r : BitsReceiver) : BitsReceiver × ProcessResult :=
  let polled := ReceiverEngine.poll cfg.build (environment cfg segmentAnswers r) nowMs r.engine
  if polled.2 = .kError then
    ({ settle cfg segmentAnswers polled.1 r with segmentOccupiedMask := 0, datagramOccupied := false },.kError)
  else
    let segment := processSegment cfg segmentAnswers nowMs { r with engine := polled.1 }
    processDatagram cfg datagramAnswers nowMs segment.2 segment.1

def sendDatagram (answers : Answers) (payload : Bytes) (r : BitsReceiver) : BitsReceiver × SendResult :=
  let sent := ReceiverEngine.sendDatagram (sender cfg answers r) payload r.engine
  (settle cfg answers sent.1 r,sent.2)

def abort (answers : Answers) (r : BitsReceiver) : BitsReceiver × SendResult :=
  let aborted := ReceiverEngine.abort (environment cfg answers r) r.engine
  (settle cfg answers aborted.1 r,aborted.2)

end calls

end WireSpaces.Receiver
