import WireSpaces.Codec

/-!
The synchronous BITS receiver state machine. Every public call takes the answers
its environment gives during that call and returns the engine after it; the
engine record carries the trace of callbacks invoked and PDUs handed to the
sender. Both builds are here: `windowLimit` is
`WIRESPACES_BITS_RECEIVER_MAX_WINDOW_WIDTH`, and a test `windowLimit = 1` stands
where the source has `#if`.
-/
namespace WireSpaces.ReceiverEngine
open WireSpaces.Words WireSpaces.Codec

inductive ProcessResult where
  | kIdle | kProgress | kError | kBlocked
  deriving Repr, DecidableEq

inductive TransferState where
  | kIdle | kStarting | kActive | kCompleted | kRejected | kAborted | kError
  deriving Repr, DecidableEq

inductive SendResult where
  | kSent | kTooLarge | kNoRoute | kInvalidState | kFull | kRejected | kPartial
  deriving Repr, DecidableEq

structure TransferInfo where
  sessionId : U8
  totalSize : Nat
  segmentSize : U16
  deriving Repr, DecidableEq

inductive TransferAdmission where
  | kAccepted | kBusy | kTooLarge | kRejected
  deriving Repr, DecidableEq

inductive FailureReason where
  | kSinkRejected | kSendFailed | kInactivityTimeout
  deriving Repr, DecidableEq

inductive AbortReason where
  | kLocal | kPeer
  deriving Repr, DecidableEq

/-- One `ReceiverCallbacks` invocation, with the answer the sink gave. -/
inductive Callback where
  | beginTransfer (info : TransferInfo) (answer : TransferAdmission)
  | onTransferFailed (reason : FailureReason)
  | onSegment (objectOffset : Nat) (payload : Bytes) (accepted : Bool)
  | onDatagram (payload : Bytes)
  | onTransferComplete
  | onTransferAborted (reason : AbortReason)
  deriving Repr, DecidableEq

/-- What the outside sees of a call, in order. -/
inductive Event where
  | callback (call : Callback)
  | send (pdu : Bytes) (result : SendResult)
  deriving Repr, DecidableEq

/-- `ReceiverPduSender`: the storage `prepare` hands out and the result of sending it. -/
structure Sender where
  prepare : Nat → Bytes
  sendPrepared : Bytes → SendResult

/-- The answers of one call: the sink's, the sender's, and the datagrams a
    callback sends from inside (`sendDatagram` is the only re-entrant call). -/
structure Environment where
  beginTransfer : TransferInfo → TransferAdmission
  onSegment : Nat → Bytes → Bool
  sender : Sender
  reentry : Callback → List (Bytes × Sender)

structure ReceiverEngineConfig where
  maximumSegmentSize : U16
  receiveWindowWidth : Nat
  maximumObjectSize : Nat
  inactivityTimeoutMs : U32

/-- A compiled and constructed engine: the build's window limit is 1..16 and the
    configured width never exceeds it. -/
structure Build where
  windowLimit : Nat
  config : ReceiverEngineConfig
  limit_pos : 1 ≤ windowLimit
  limit_le : windowLimit ≤ kCompactWindowWidth
  width_le : config.receiveWindowWidth ≤ windowLimit

/-- The constructor clamps the configured width to the build's limit. -/
def construct (windowLimit : Nat) (limit_pos : 1 ≤ windowLimit) (limit_le : windowLimit ≤ kCompactWindowWidth)
    (config : ReceiverEngineConfig) : Build where
  windowLimit := windowLimit
  config :=
    if config.receiveWindowWidth > windowLimit then { config with receiveWindowWidth := windowLimit } else config
  limit_pos := limit_pos
  limit_le := limit_le
  width_le := by split <;> simp_all

theorem sixteen_pos : 1 ≤ 16 := by decide

/-- The window of the general build is as wide as the acknowledgement's mask. -/
theorem sixteen_le : 16 ≤ kCompactWindowWidth := by decide

structure Engine where
  state : TransferState := .kIdle
  setup : Setup := ⟨0,0,0,0,0⟩
  lastSend : SendResult := .kSent
  lastActivityMs : U32 := 0
  segmentCount : Nat := 0
  contiguousCount : Nat := 0
  /-- Only in the build of width one. -/
  nextObjectOffset : Nat := 0
  grantedEnd : Nat := 0
  /-- Only in builds wider than one. -/
  receiveBitmap : U16 := 0
  trace : List Event := []
  deriving Repr, DecidableEq

@[simps] def Engine.withState (s : Engine) (state : TransferState) : Engine := { s with state := state }
@[simps] def Engine.withTrace (s : Engine) (trace : List Event) : Engine := { s with trace := trace }

def sequenceFor (setup : Setup) (segmentIndex : Nat) : U8 :=
  setup.initialSequenceNumber + BitVec.ofNat 8 segmentIndex

def baseSequence (setup : Setup) (contiguousCount : Nat) : U8 :=
  if contiguousCount = 0 then setup.initialSequenceNumber - 1 else sequenceFor setup (contiguousCount - 1)

def setupMatches (lhs rhs : Setup) : Bool :=
  lhs.sessionId == rhs.sessionId && lhs.initialSequenceNumber == rhs.initialSequenceNumber &&
    lhs.finalSegmentIndex == rhs.finalSegmentIndex && lhs.segmentSize == rhs.segmentSize &&
    lhs.finalSegmentSize == rhs.finalSegmentSize

/-- The loop clears one set bit a turn, so a 16-bit value leaves it within 16. -/
def popcount16 (value : U16) : Nat := clearLowest 16 value 0

def lowBitMask (count : Nat) : U16 :=
  if count ≥ kCompactWindowWidth then 0xFFFF
  else if count = 0 then 0 else BitVec.ofNat 16 (2 ^ count - 1)

/-! ### Leaves: events, sending, failing -/

def emit (event : Event) (s : Engine) : Engine := s.withTrace (s.trace ++ [event])

/-- `sendDatagram` reads and writes no engine field but the trace. -/
def sendDatagram (sender : Sender) (payload : Bytes) (s : Engine) : Engine × SendResult :=
  if payload.length > 65535 - kUserDatagramHeaderSize then (s,.kTooLarge)
  else
    let messageSize := payload.length + kUserDatagramHeaderSize
    let storage := sender.prepare messageSize
    if storage.length ≠ messageSize then (s,.kTooLarge)
    else
      match encodeUserDatagram payload storage with
      | none => (s,.kTooLarge)
      | some pdu => (emit (.send pdu (sender.sendPrepared pdu)) s,sender.sendPrepared pdu)

/-- Invoke a callback; the datagrams it sends from inside follow it. -/
def invoke (env : Environment) (call : Callback) (s : Engine) : Engine :=
  (env.reentry call).foldl (fun s datagram => (sendDatagram datagram.2 datagram.1 s).1) (emit (.callback call) s)

def sendPrepared (env : Environment) (pdu : Bytes) (s : Engine) : Engine × Bool :=
  let result := env.sender.sendPrepared pdu
  ({ emit (.send pdu result) s with lastSend := result },result == .kSent || result == .kFull)

def fail (env : Environment) (reason : FailureReason) (s : Engine) : Engine :=
  if s.state = .kActive then invoke env (.onTransferFailed reason) (s.withState .kError) else s

section build
variable (b : Build) (env : Environment)

/-- The two sequence numbers an ACK carries, in either build: `(base, maximum)`. -/
def ackSequences (s : Engine) : U8 × U8 :=
  if b.windowLimit = 1 then
    let windowBase := s.setup.initialSequenceNumber + BitVec.ofNat 8 s.contiguousCount - 1
    (windowBase,if s.contiguousCount < s.segmentCount then windowBase + 1 else windowBase)
  else
    let windowBase := baseSequence s.setup s.contiguousCount
    (windowBase,if s.grantedEnd > s.contiguousCount then sequenceFor s.setup (s.grantedEnd - 1) else windowBase)

/-- The encoded ACK: written by hand at width one, through the codec otherwise. -/
def encodedAck (s : Engine) (storage : Bytes) : Option Bytes :=
  let windowBase := (ackSequences b s).1
  let maxReceiveSequence := (ackSequences b s).2
  if b.windowLimit = 1 then
    some ([encodeControl .kAck,s.setup.sessionId,0,0,maxReceiveSequence,windowBase] ++ storage.drop kAckSize)
  else
    let windowSpan := sub32 s.grantedEnd s.contiguousCount % 2 ^ 8
    encodeAck ⟨s.setup.sessionId,s.receiveBitmap &&& lowBitMask windowSpan,maxReceiveSequence,windowBase⟩ storage

def sendAck (s : Engine) : Engine × Bool :=
  let storage := env.sender.prepare kAckSize
  if storage.length ≠ kAckSize then (fail env .kSendFailed { s with lastSend := .kTooLarge },false)
  else
    match encodedAck b s storage with
    | none => (fail env .kSendFailed { s with lastSend := .kTooLarge },false)
    | some pdu =>
      let sent := sendPrepared env pdu s
      (if sent.2 then sent.1 else fail env .kSendFailed sent.1,sent.2)

def sendReject (sessionId : U8) (reason : RejectReason) (s : Engine) : Engine × Bool :=
  let storage := env.sender.prepare kRejectSize
  let s := { s with lastSend := .kTooLarge }
  if storage.length ≠ kRejectSize then (s,false)
  else
    match encodeReject ⟨sessionId,reason⟩ storage with
    | none => (s,false)
    | some pdu => sendPrepared env pdu s

def sendAbort (s : Engine) : Engine × Bool :=
  let storage := env.sender.prepare kAbortSize
  let s := { s with lastSend := .kTooLarge }
  if storage.length ≠ kAbortSize then (s,false)
  else
    match encodeAbort ⟨s.setup.sessionId⟩ storage with
    | none => (s,false)
    | some pdu => sendPrepared env pdu s

/-! ### The grant -/

/-- One turn of the extension loop raises the grant, the span and the unreceived
    count together; the span bounds the number of turns. -/
def extendGrant (width segmentCount : Nat) : Nat → Nat → Nat → Nat → Nat
  | 0, grantedEnd, _, _ => grantedEnd
  | fuel + 1, grantedEnd, windowSpan, unreceived =>
    if grantedEnd < segmentCount ∧ windowSpan < width ∧ unreceived < width then
      extendGrant width segmentCount fuel (grantedEnd + 1) (windowSpan + 1) ((unreceived + 1) % 2 ^ 8)
    else grantedEnd

def updateGrant (s : Engine) : Engine :=
  if b.windowLimit = 1 then
    { s with grantedEnd := if s.contiguousCount < s.segmentCount then s.contiguousCount + 1 else s.contiguousCount }
  else
    let windowSpan := sub32 s.grantedEnd s.contiguousCount
    let unreceived :=
      sub32 windowSpan (popcount16 (s.receiveBitmap &&& lowBitMask (windowSpan % 2 ^ 8))) % 2 ^ 8
    let width := b.config.receiveWindowWidth
    { s with grantedEnd := extendGrant width s.segmentCount width s.grantedEnd windowSpan unreceived }

/-! ### Handlers -/

/-- The window side of an accepted segment: the next offset in the build of width
    one, the bitmap and the shifting loop (at most 16 turns) otherwise. -/
def advanceWindow (windowOffset : Nat) (payload : Bytes) (s : Engine) : Engine :=
  if b.windowLimit = 1 then
    { s with contiguousCount := s.contiguousCount + 1,
             nextObjectOffset := (s.nextObjectOffset + payload.length) % 2 ^ 32 }
  else
    let shifted := shiftOnes 16 (s.receiveBitmap ||| (1#16 <<< windowOffset)) s.contiguousCount
    { s with receiveBitmap := shifted.1, contiguousCount := shifted.2 }

/-- From the `onSegment` call to the ACK. -/
def deliverSegment (objectOffset windowOffset : Nat) (payload : Bytes) (s : Engine) : Engine × Bool :=
  if env.onSegment objectOffset payload then
    let s := updateGrant b (advanceWindow b windowOffset payload (invoke env (.onSegment objectOffset payload true) s))
    let s := if s.contiguousCount = s.segmentCount then
        invoke env .onTransferComplete (s.withState .kCompleted) else s
    sendAck b env s
  else (fail env .kSinkRejected (invoke env (.onSegment objectOffset payload false) s),false)

/-- A segment of the current transfer with the right size: duplicates, segments
    beyond the grant and segments after completion only repeat the ACK. -/
def placeSegment (segmentIndex : Nat) (payload : Bytes) (s : Engine) : Engine × Bool :=
  if segmentIndex < s.contiguousCount then sendAck b env s
  else if s.state = .kCompleted ∨ segmentIndex ≥ s.grantedEnd then sendAck b env s
  else if b.windowLimit = 1 then
    if segmentIndex ≠ s.contiguousCount then sendAck b env s
    else deliverSegment b env s.nextObjectOffset 0 payload s
  else
    let windowOffset := sub32 segmentIndex s.contiguousCount
    if windowOffset ≥ b.config.receiveWindowWidth then sendAck b env s
    else if s.receiveBitmap &&& (1#16 <<< windowOffset) ≠ 0 then sendAck b env s
    else deliverSegment b env (segmentIndex * s.setup.segmentSize.toNat % 2 ^ 32) windowOffset payload s

def expectedSize (setup : Setup) (segmentIndex : U16) : U16 :=
  if segmentIndex = setup.finalSegmentIndex then setup.finalSegmentSize else setup.segmentSize

/-- A segment below the granted end renews the inactivity time. -/
def renewActivity (segmentIndex : Nat) (nowMs : U32) (s : Engine) : Engine :=
  if segmentIndex < s.grantedEnd then { s with lastActivityMs := nowMs } else s

def handleSegment (message : Bytes) (nowMs : U32) (s : Engine) : Engine × Bool :=
  match decodeSegmentHeaderKnownType message with
  | none => (s,false)
  | some header =>
    let segmentIndex := header.segmentIndex.toNat
    if (s.state ≠ .kActive ∧ s.state ≠ .kCompleted) ∨ header.sessionId ≠ s.setup.sessionId ∨
        segmentIndex ≥ s.segmentCount then (s,true)
    else
      let payload := message.drop kSegmentHeaderSize
      if payload.length ≠ (expectedSize s.setup header.segmentIndex).toNat then (s,false)
      else placeSegment b env segmentIndex payload (renewActivity segmentIndex nowMs s)

def rejectReasonOf : TransferAdmission → RejectReason
  | .kBusy => .kBusy
  | .kTooLarge => .kObjectTooLarge
  | _ => .kInvalidArgument

def transferInfo (setup : Setup) : TransferInfo := ⟨setup.sessionId,setupTotalSize setup,setup.segmentSize⟩

/-- Enter an accepted transfer. -/
def startReceiving (requested : Setup) (nowMs : U32) (s : Engine) : Engine :=
  updateGrant b { s with
    setup := requested, segmentCount := setupSegmentCount requested, contiguousCount := 0, nextObjectOffset := 0,
    grantedEnd := 0, receiveBitmap := 0, state := .kActive, lastActivityMs := nowMs }

def handleSetup (message : Bytes) (nowMs : U32) (s : Engine) : Engine × Bool :=
  if message.length < 2 then (s,false)
  else
    match decodeSetupKnownType message with
    | none => sendReject env (message.getD 1 0) .kInvalidArgument s
    | some requested =>
      if requested.segmentSize = 0 ∨ requested.finalSegmentSize = 0 ∨
          requested.finalSegmentSize.toNat > requested.segmentSize.toNat then
        sendReject env requested.sessionId .kInvalidArgument s
      else if setupTotalSize requested > b.config.maximumObjectSize then
        sendReject env requested.sessionId .kObjectTooLarge s
      else if b.config.receiveWindowWidth = 0 ∨ requested.segmentSize.toNat > b.config.maximumSegmentSize.toNat then
        sendReject env requested.sessionId .kUnsupportedSegmentSize s
      else if s.state = .kActive then
        if setupMatches s.setup requested then sendAck b env { s with lastActivityMs := nowMs }
        else sendReject env requested.sessionId .kBusy s
      else
        let admission := env.beginTransfer (transferInfo requested)
        let s := invoke env (.beginTransfer (transferInfo requested) admission) s
        if admission ≠ .kAccepted then sendReject env requested.sessionId (rejectReasonOf admission) s
        else sendAck b env (startReceiving b requested nowMs s)

def handleAbort (message : Bytes) (s : Engine) : Engine × Bool :=
  match decodeAbortKnownType message with
  | none => (s,false)
  | some abort =>
    if s.state ≠ .kActive ∨ abort.sessionId ≠ s.setup.sessionId then (s,true)
    else (invoke env (.onTransferAborted .kPeer) (s.withState .kAborted),true)

def handleControl (message : Bytes) (type : MessageType) (nowMs : U32) (s : Engine) : Engine × Bool :=
  match type with
  | .kSetup => handleSetup b env message nowMs s
  | .kProbe =>
    match decodeProbeKnownType message with
    | none => (s,false)
    | some probe =>
      if (s.state ≠ .kActive ∧ s.state ≠ .kCompleted) ∨ probe.sessionId ≠ s.setup.sessionId then (s,true)
      else sendAck b env { s with lastActivityMs := nowMs }
  | .kUserDatagram =>
    match decodeUserDatagramKnownType message with
    | none => (s,false)
    | some payload => (invoke env (.onDatagram payload) s,true)
  | .kAbort => handleAbort env message s
  | .kSegment | .kAck | .kReject => (s,false)

/-! ### Public calls -/

def poll (nowMs : U32) (s : Engine) : Engine × ProcessResult :=
  if s.state ≠ .kActive ∨ b.config.inactivityTimeoutMs = 0 ∨ nowMs - s.lastActivityMs < b.config.inactivityTimeoutMs then
    (s,.kIdle)
  else (fail env .kInactivityTimeout s,.kError)

/-- The part of `process` behind the expiry check. -/
def dispatch (message : Bytes) (nowMs : U32) (s : Engine) : Engine × ProcessResult :=
  match message with
  | [] => (s,.kError)
  | first :: _ =>
    match decodeControl first with
    | none => (s,.kError)
    | some control =>
      let handled := if control.type = .kSegment then handleSegment b env message nowMs s
        else handleControl b env message control.type nowMs s
      (handled.1,if ¬ handled.2 then .kError else if handled.1.lastSend = .kFull then .kBlocked else .kProgress)

def process (message : Bytes) (nowMs : U32) (s : Engine) : Engine × ProcessResult :=
  let polled := poll b env nowMs s
  if polled.2 = .kError then (polled.1,.kError)
  else dispatch b env message nowMs { polled.1 with lastSend := .kSent }

def abort (s : Engine) : Engine × SendResult :=
  if s.state ≠ .kActive then (s,.kInvalidState)
  else
    let s := (sendAbort env s).1
    let s := invoke env (.onTransferAborted .kLocal) (s.withState .kAborted)
    (s,s.lastSend)

end build

/-- A public call with its arguments. -/
inductive Call where
  | process (message : Bytes) (nowMs : U32)
  | poll (nowMs : U32)
  | sendDatagram (payload : Bytes)
  | abort

/-- What a public call returns. -/
inductive Returned where
  | processed (result : ProcessResult)
  | sent (result : SendResult)
  deriving Repr, DecidableEq

def call (b : Build) (s : Engine) (c : Call × Environment) : Engine × Returned :=
  match c.1 with
  | .process message nowMs => ((process b c.2 message nowMs s).1,.processed (process b c.2 message nowMs s).2)
  | .poll nowMs => ((poll b c.2 nowMs s).1,.processed (poll b c.2 nowMs s).2)
  | .sendDatagram payload => ((sendDatagram c.2.sender payload s).1,.sent (sendDatagram c.2.sender payload s).2)
  | .abort => ((abort c.2 s).1,.sent (abort c.2 s).2)

/-- The engine after a sequence of calls on a fresh one. -/
def run (b : Build) (calls : List (Call × Environment)) : Engine := calls.foldl (fun s c => (call b s c).1) {}

end WireSpaces.ReceiverEngine
