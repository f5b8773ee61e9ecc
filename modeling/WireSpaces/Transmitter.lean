import WireSpaces.Packet
import WireSpaces.ReceiverEngine

/-!
The BITS transmitter: a stop-and-wait ingress slot, the transfer session with its
window, and the bounded work of one `process` call. The router is the function
that gives each forwarded packet its result; the record carries the trace of
started transfers, callbacks and forwarded packets.
-/
namespace WireSpaces.Transmitter
open WireSpaces.Words WireSpaces.Codec WireSpaces.Packet
open WireSpaces.ReceiverEngine (ProcessResult TransferState SendResult sequenceFor baseSequence lowBitMask)

structure TimingConfig where
  retransmissionTimeoutMs : U32
  probeTimeoutMs : U32
  maxRetries : U8

inductive StartResult where
  | kStarted | kBusy | kInvalidArgument | kPacketTooSmall
  deriving Repr, DecidableEq

/-- One `TransmitterCallbacks` invocation. -/
inductive Callback where
  | onDatagram (payload : Bytes)
  | onTransferComplete
  | onTransferRejected (reason : RejectReason)
  | onTransferAborted
  deriving Repr, DecidableEq

/-- What the outside sees of the calls, in order: a transfer that `startTransfer`
    began, a callback, a packet handed to the router. -/
inductive Event where
  | started (object : Bytes) (setup : Setup)
  | callback (call : Callback)
  | forward (packet : PacketBuffer) (result : RouteResult)
  deriving Repr, DecidableEq

structure TransferSession where
  state : TransferState := .kIdle
  object : Bytes := []
  setup : Setup := ⟨0,0,0,0,0⟩
  segmentCount : Nat := 0
  acknowledgedCount : Nat := 0
  grantedEnd : Nat := 0
  sentBitmap : U16 := 0
  acknowledgedBitmap : U16 := 0
  segmentLastSendMs : List U32 := List.replicate kCompactWindowWidth 0
  segmentRetryCount : List U8 := List.replicate kCompactWindowWidth 0
  setupLastSendMs : U32 := 0
  probeLastSendMs : U32 := 0
  setupRetryCount : U8 := 0
  probeRetryCount : U8 := 0
  setupSent : Bool := false
  probeTimerActive : Bool := false
  deriving Repr, DecidableEq

structure BitsTransmitter where
  datagramIngress : PacketBuffer
  transmitPacket : PacketBuffer
  datagramOccupied : Bool := false
  session : TransferSession := {}
  lastSend : SendResult := .kSent
  trace : List Event := []
  deriving Repr, DecidableEq

@[simps] def BitsTransmitter.withSession (t : BitsTransmitter) (session : TransferSession) : BitsTransmitter :=
  { t with session := session }
@[simps] def BitsTransmitter.withTrace (t : BitsTransmitter) (trace : List Event) : BitsTransmitter := { t with trace := trace }
@[simps] def TransferSession.withState (s : TransferSession) (state : TransferState) : TransferSession :=
  { s with state := state }

def BitsTransmitter.withState (t : BitsTransmitter) (state : TransferState) : BitsTransmitter :=
  t.withSession (t.session.withState state)

def emit (event : Event) (t : BitsTransmitter) : BitsTransmitter := t.withTrace (t.trace ++ [event])

def sendResult : RouteResult → SendResult
  | .kAccepted => .kSent
  | .kPartial => .kPartial
  | .kFull => .kFull
  | .kTooLarge => .kTooLarge
  | .kRejected => .kRejected
  | _ => .kNoRoute

def matchesConnection (packet : PacketBuffer) (connection : ConnectionAddress) : Bool :=
  let header := packet.header
  header.hasSupportedControl && header.transportType == TransportType.kBits.value &&
    header.wire == connection.wire && header.source == connection.remoteHost &&
    header.destination == connection.localHost && header.endpoint == connection.endpoint

def segmentCount (totalSize segmentSize : Nat) : Nat :=
  totalSize / segmentSize + if totalSize % segmentSize = 0 then 0 else 1

def elapsed (nowMs startMs durationMs : U32) : Bool := durationMs.ule (nowMs - startMs)

structure Config where
  connection : ConnectionAddress
  timing : TimingConfig

def retryLimitReached (cfg : Config) (retryCount : U8) : Bool := cfg.timing.maxRetries.ule retryCount

/-! ### Sending -/

section sending
variable (cfg : Config) (router : PacketBuffer → RouteResult)

def preparePacket (payloadSize : Nat) (qos : QoS) (t : BitsTransmitter) : BitsTransmitter × Bool :=
  match t.transmitPacket.initializePacket payloadSize cfg.connection (.bits qos) with
  | none => ({ t with lastSend := .kTooLarge },false)
  | some packet => ({ t with lastSend := .kTooLarge, transmitPacket := packet },true)

def forwardPacket (t : BitsTransmitter) : BitsTransmitter × Bool :=
  let result := router t.transmitPacket
  ({ emit (.forward t.transmitPacket result) t with lastSend := sendResult result },sendResult result == .kSent)

/-- Prepare, encode into the payload, forward: the shape of every send. -/
def sendEncoded (payloadSize : Nat) (qos : QoS) (encode : Bytes → Option Bytes) (t : BitsTransmitter) : BitsTransmitter × Bool :=
  let prepared := preparePacket cfg payloadSize qos t
  if prepared.2 then
    match encode prepared.1.transmitPacket.payload with
    | none => (prepared.1,false)
    | some pdu => forwardPacket router { prepared.1 with transmitPacket := prepared.1.transmitPacket.store pdu }
  else (prepared.1,false)

def sendSetup (nowMs : U32) (retransmission : Bool) (t : BitsTransmitter) : BitsTransmitter × Bool :=
  let sent := sendEncoded cfg router kSetupSize .kNormal (encodeSetup t.session.setup) t
  if sent.2 then
    let s := sent.1.session
    let retries := if retransmission then s.setupRetryCount + 1 else s.setupRetryCount
    (sent.1.withSession { s with setupSent := true, setupLastSendMs := nowMs, setupRetryCount := retries },true)
  else (sent.1,false)

/-- The SEGMENT header in the span, and the object's bytes behind it. -/
def encodeSegment (header : SegmentHeader) (data : Bytes) (output : Bytes) : Option Bytes :=
  (encodeSegmentHeader header output).map (fun encoded => encoded.take kSegmentHeaderSize ++ data)

def sendSegment (windowOffset : Nat) (nowMs : U32) (retransmission : Bool) (t : BitsTransmitter) : BitsTransmitter × Bool :=
  let s := t.session
  let segmentIndex := s.acknowledgedCount + windowOffset
  if segmentIndex ≥ s.segmentCount then (t,false)
  else
    let objectOffset := segmentIndex * s.setup.segmentSize.toNat % 2 ^ 32
    let payloadSize :=
      if segmentIndex = s.setup.finalSegmentIndex.toNat then s.setup.finalSegmentSize.toNat else s.setup.segmentSize.toNat
    let messageSize := (kSegmentHeaderSize + payloadSize) % 2 ^ 16
    let data := (s.object.drop objectOffset).take payloadSize
    let sent := sendEncoded cfg router messageSize .kBackground
      (encodeSegment ⟨s.setup.sessionId,BitVec.ofNat 16 segmentIndex⟩ data) t
    if sent.2 then
      let s := sent.1.session
      let retries := if retransmission then s.segmentRetryCount.getD windowOffset 0 + 1 else 0
      (sent.1.withSession { s with
        sentBitmap := s.sentBitmap ||| (1#16 <<< windowOffset),
        segmentLastSendMs := s.segmentLastSendMs.set windowOffset nowMs,
        segmentRetryCount := s.segmentRetryCount.set windowOffset retries,
        probeTimerActive := false },true)
    else (sent.1,false)

def sendProbe (nowMs : U32) (t : BitsTransmitter) : BitsTransmitter × Bool :=
  let sent := sendEncoded cfg router kProbeSize .kNormal (encodeProbe ⟨t.session.setup.sessionId⟩) t
  if sent.2 then
    let s := sent.1.session
    (sent.1.withSession { s with probeLastSendMs := nowMs, probeRetryCount := s.probeRetryCount + 1 },true)
  else (sent.1,false)

def sendAbort (t : BitsTransmitter) : BitsTransmitter × Bool :=
  sendEncoded cfg router kAbortSize .kNormal (encodeAbort ⟨t.session.setup.sessionId⟩) t

def transitionToAborted (t : BitsTransmitter) : BitsTransmitter :=
  if t.session.state = .kAborted then t else emit (.callback .onTransferAborted) (t.withState .kAborted)

end sending

/-! ### Inbound PDUs -/

/-- One slot array moved down by `count`, with zeros behind. -/
def shiftSlots {w : Nat} (count : Nat) (slots : List (BitVec w)) : List (BitVec w) :=
  slots.drop count ++ List.replicate count 0

def shiftWindow (count : Nat) (s : TransferSession) : TransferSession :=
  if count = 0 then s
  else if count ≥ kCompactWindowWidth then
    { s with
      sentBitmap := 0, acknowledgedBitmap := 0,
      segmentLastSendMs := List.replicate kCompactWindowWidth 0,
      segmentRetryCount := List.replicate kCompactWindowWidth 0 }
  else
    { s with
      sentBitmap := s.sentBitmap >>> count, acknowledgedBitmap := s.acknowledgedBitmap >>> count,
      segmentLastSendMs := shiftSlots count s.segmentLastSendMs,
      segmentRetryCount := shiftSlots count s.segmentRetryCount }

def running (s : TransferSession) : Bool := s.state == .kStarting || s.state == .kActive

/-- `advance`: how far an ACK's base lies past the acknowledged count, as a byte. -/
def ackAdvance (s : TransferSession) (ack : Ack) : Nat :=
  (ack.windowBase - baseSequence s.setup s.acknowledgedCount).toNat

/-- `grant_span`: how far an ACK grants past its base, as a byte. -/
def grantSpan (ack : Ack) : Nat := (ack.maxReceiveSequence - ack.windowBase).toNat

/-- The ACK names this session, its SETUP went out, and the window it shows fits
    the object and covers only segments that were sent. -/
def ackApplies (s : TransferSession) (ack : Ack) : Bool :=
  let advance := ackAdvance s ack
  let span := grantSpan ack
  let advancedMask := lowBitMask advance
  running s && ack.sessionId == s.setup.sessionId && s.setupSent &&
    ! (decide (advance > kCompactWindowWidth) || decide (s.acknowledgedCount + advance > s.segmentCount) ||
      decide (span > kCompactWindowWidth) || decide (s.acknowledgedCount + advance + span > s.segmentCount) ||
      ack.windowBitmap &&& ~~~lowBitMask span != 0) &&
    (s.sentBitmap &&& advancedMask == advancedMask)

/-- The window after an ACK that applies. -/
def acknowledge (s : TransferSession) (ack : Ack) : TransferSession :=
  let advance := ackAdvance s ack
  let span := grantSpan ack
  let shifted := shiftWindow advance s
  let acknowledgedCount := s.acknowledgedCount + advance
  { shifted with
    acknowledgedCount := acknowledgedCount,
    acknowledgedBitmap :=
      shifted.acknowledgedBitmap ||| (ack.windowBitmap &&& lowBitMask span &&& shifted.sentBitmap),
    grantedEnd := if acknowledgedCount + span > s.grantedEnd then acknowledgedCount + span else s.grantedEnd,
    setupSent := true, probeTimerActive := false, probeRetryCount := 0 }

def handleAck (message : Bytes) (t : BitsTransmitter) : BitsTransmitter × Bool :=
  match decodeAckKnownType message with
  | none => (t,false)
  | some ack =>
    if ackApplies t.session ack then
      let s := acknowledge t.session ack
      if s.acknowledgedCount = s.segmentCount then
        (emit (.callback .onTransferComplete) (t.withSession (s.withState .kCompleted)),true)
      else (t.withSession (s.withState .kActive),true)
    else (t,true)

def handleReject (message : Bytes) (t : BitsTransmitter) : BitsTransmitter × Bool :=
  match decodeRejectKnownType message with
  | none => (t,false)
  | some reject =>
    if running t.session && reject.sessionId == t.session.setup.sessionId then
      (emit (.callback (.onTransferRejected reject.reason)) (t.withState .kRejected),true)
    else (t,true)

def handleAbort (message : Bytes) (t : BitsTransmitter) : BitsTransmitter × Bool :=
  match decodeAbortKnownType message with
  | none => (t,false)
  | some abort =>
    if running t.session && abort.sessionId == t.session.setup.sessionId then (transitionToAborted t,true) else (t,true)

def handleDatagram (t : BitsTransmitter) : BitsTransmitter × Bool :=
  let message := t.datagramIngress.payload
  match message with
  | [] => (t,false)
  | first :: _ =>
    match decodeControl first with
    | none => (t,false)
    | some control =>
      match control.type with
      | .kAck => handleAck message t
      | .kReject => handleReject message t
      | .kAbort => handleAbort message t
      | .kUserDatagram =>
        match decodeUserDatagramKnownType message with
        | none => (t,false)
        | some payload => (emit (.callback (.onDatagram payload)) t,true)
      | .kSetup | .kSegment | .kProbe => (t,false)

/-! ### Public calls -/

section calls
variable (cfg : Config) (router : PacketBuffer → RouteResult)

def admitted (type : MessageType) : Bool :=
  type == .kAck || type == .kReject || type == .kAbort || type == .kUserDatagram

def receive (packet : PacketBuffer) (t : BitsTransmitter) : BitsTransmitter × ReceiveResult :=
  match matchesConnection packet cfg.connection, packet.payload with
  | false, _ => (t,.kRejected)
  | true, [] => (t,.kRejected)
  | true, first :: _ =>
    if (decodeControl first).any (fun control => admitted control.type) then
      if t.datagramOccupied then (t,.kFull)
      else
        match PacketBuffer.copyPacket packet t.datagramIngress with
        | none => (t,.kRejected)
        | some copy => ({ t with datagramIngress := copy, datagramOccupied := true },.kAccepted)
    else (t,.kRejected)

/-- What `process` makes of one send: refused by a full link it is tried again,
    refused for good it ends the transfer. -/
def conclude (sent : BitsTransmitter × Bool) : BitsTransmitter × ProcessResult :=
  if sent.2 then (sent.1,.kProgress)
  else if sent.1.lastSend = .kFull then (sent.1,.kBlocked)
  else (sent.1.withState .kError,.kError)

/-- The retry limit ends the transfer with an ABORT. -/
def giveUp (t : BitsTransmitter) : BitsTransmitter × ProcessResult := (transitionToAborted (sendAbort cfg router t).1,.kError)

def quiet (progressed : Bool) : ProcessResult := if progressed then .kProgress else .kIdle

def processStarting (progressed : Bool) (nowMs : U32) (t : BitsTransmitter) : BitsTransmitter × ProcessResult :=
  let s := t.session
  if ¬ s.setupSent then conclude (sendSetup cfg router nowMs false t)
  else if elapsed nowMs s.setupLastSendMs cfg.timing.retransmissionTimeoutMs then
    if retryLimitReached cfg s.setupRetryCount then giveUp cfg router t
    else conclude (sendSetup cfg router nowMs true t)
  else (t,quiet progressed)

def windowSpan (s : TransferSession) : Nat := sub32 s.grantedEnd s.acknowledgedCount % 2 ^ 8

/-- The first loop: the lowest granted offset that was never sent. -/
def unsentOffset (s : TransferSession) : Option Nat :=
  (List.range (windowSpan s)).find? (fun offset => s.sentBitmap &&& (1#16 <<< offset) == 0)

def outstanding (s : TransferSession) : U16 :=
  s.sentBitmap &&& ~~~s.acknowledgedBitmap &&& lowBitMask (windowSpan s)

/-- The second loop: the lowest outstanding offset whose timer ran out. -/
def expiredOffset (nowMs : U32) (s : TransferSession) : Option Nat :=
  (List.range (windowSpan s)).find? (fun offset =>
    outstanding s &&& (1#16 <<< offset) != 0 &&
      elapsed nowMs (s.segmentLastSendMs.getD offset 0) cfg.timing.retransmissionTimeoutMs)

/-- Behind the loops: the probe timer runs while everything sent is acknowledged
    and the grant is used up. -/
def processProbe (progressed : Bool) (nowMs : U32) (t : BitsTransmitter) : BitsTransmitter × ProcessResult :=
  let s := t.session
  if s.acknowledgedCount < s.segmentCount ∧ outstanding s = 0 then
    if ¬ s.probeTimerActive then
      (t.withSession { s with probeTimerActive := true, probeLastSendMs := nowMs },quiet progressed)
    else if elapsed nowMs s.probeLastSendMs cfg.timing.probeTimeoutMs then
      if retryLimitReached cfg s.probeRetryCount then giveUp cfg router t
      else conclude (sendProbe cfg router nowMs t)
    else (t,quiet progressed)
  else (t.withSession { s with probeTimerActive := false, probeRetryCount := 0 },quiet progressed)

def processActive (progressed : Bool) (nowMs : U32) (t : BitsTransmitter) : BitsTransmitter × ProcessResult :=
  match unsentOffset t.session with
  | some offset => conclude (sendSegment cfg router offset nowMs false t)
  | none =>
    match expiredOffset cfg nowMs t.session with
    | some offset =>
      if retryLimitReached cfg (t.session.segmentRetryCount.getD offset 0) then giveUp cfg router t
      else conclude (sendSegment cfg router offset nowMs true t)
    | none => processProbe cfg router progressed nowMs t

/-- The part of `process` behind the ingress slot. -/
def processSession (progressed : Bool) (nowMs : U32) (t : BitsTransmitter) : BitsTransmitter × ProcessResult :=
  match t.session.state with
  | .kStarting => processStarting cfg router progressed nowMs t
  | .kActive => processActive cfg router progressed nowMs t
  | _ => (t,quiet progressed)

def process (nowMs : U32) (t : BitsTransmitter) : BitsTransmitter × ProcessResult :=
  if t.datagramOccupied then
    let handled := handleDatagram t
    let t := { handled.1 with datagramOccupied := false }
    if handled.2 then processSession cfg router true nowMs t else (t.withState .kError,.kError)
  else processSession cfg router false nowMs t

def sendDatagram (payload : Bytes) (t : BitsTransmitter) : BitsTransmitter × SendResult :=
  if t.transmitPacket.capacity < kUserDatagramHeaderSize ∨
      payload.length > t.transmitPacket.capacity - kUserDatagramHeaderSize then (t,.kTooLarge)
  else
    let sent := sendEncoded cfg router (payload.length + kUserDatagramHeaderSize) .kNormal (encodeUserDatagram payload) t
    (sent.1,sent.1.lastSend)

def abort (t : BitsTransmitter) : BitsTransmitter × SendResult :=
  if running t.session then
    let t := transitionToAborted (sendAbort cfg router t).1
    (t,t.lastSend)
  else (t,.kInvalidState)

/-- The SETUP of an object: the last segment holds what the others leave, by 32-bit arithmetic cast to 16 bits. -/
def setupOf (object : Bytes) (segmentSize : U16) (sessionId initialSequenceNumber : U8) : Setup :=
  let finalSegmentIndex := BitVec.ofNat 16 (segmentCount object.length segmentSize.toNat - 1)
  let finalSegmentSize := BitVec.ofNat 16 (sub32 object.length (finalSegmentIndex.toNat * segmentSize.toNat))
  ⟨sessionId,initialSequenceNumber,finalSegmentIndex,segmentSize,finalSegmentSize⟩

def startTransfer (object : Bytes) (segmentSize : U16) (sessionId initialSequenceNumber : U8) (t : BitsTransmitter) :
    BitsTransmitter × StartResult :=
  let count := segmentCount object.length segmentSize.toNat
  if running t.session then (t,.kBusy)
  else if object = [] ∨ segmentSize = 0 ∨ object.length > 2 ^ 32 - 1 then (t,.kInvalidArgument)
  else if count = 0 ∨ count > kMaximumCompactSegmentCount then (t,.kInvalidArgument)
  else if t.transmitPacket.capacity < kSetupSize ∨
      t.transmitPacket.capacity < segmentSize.toNat + kSegmentHeaderSize then (t,.kPacketTooSmall)
  else
    let setup := setupOf object segmentSize sessionId initialSequenceNumber
    (emit (.started object setup)
      (t.withSession { state := .kStarting, object := object, setup := setup, segmentCount := count }),.kStarted)

end calls

/-- A public call with its arguments. -/
inductive Call where
  | startTransfer (object : Bytes) (segmentSize : U16) (sessionId initialSequenceNumber : U8)
  | receive (packet : PacketBuffer)
  | process (nowMs : U32)
  | sendDatagram (payload : Bytes)
  | abort

/-- What a public call returns. -/
inductive Returned where
  | started (result : StartResult)
  | received (result : ReceiveResult)
  | processed (result : ProcessResult)
  | sent (result : SendResult)
  deriving Repr, DecidableEq

def call (cfg : Config) (t : BitsTransmitter) (c : Call × (PacketBuffer → RouteResult)) : BitsTransmitter × Returned :=
  match c.1 with
  | .startTransfer object segmentSize sessionId initialSequenceNumber =>
    let r := startTransfer object segmentSize sessionId initialSequenceNumber t
    (r.1,.started r.2)
  | .receive packet =>
    let r := receive cfg packet t
    (r.1,.received r.2)
  | .process nowMs =>
    let r := process cfg c.2 nowMs t
    (r.1,.processed r.2)
  | .sendDatagram payload =>
    let r := sendDatagram cfg c.2 payload t
    (r.1,.sent r.2)
  | .abort =>
    let r := abort cfg c.2 t
    (r.1,.sent r.2)

/-- The transmitter after a sequence of calls on one with fresh storage. -/
def run (cfg : Config) (datagramIngress transmitPacket : PacketBuffer)
    (calls : List (Call × (PacketBuffer → RouteResult))) : BitsTransmitter :=
  calls.foldl (fun t c => (call cfg t c).1) ⟨datagramIngress,transmitPacket,false,{},.kSent,[]⟩

theorem run_append (cfg : Config) (datagramIngress transmitPacket : PacketBuffer)
    (calls more : List (Call × (PacketBuffer → RouteResult))) :
    run cfg datagramIngress transmitPacket (calls ++ more) =
      more.foldl (fun t c => (call cfg t c).1) (run cfg datagramIngress transmitPacket calls) := by
  rw [run,List.foldl_append,run]

end WireSpaces.Transmitter
