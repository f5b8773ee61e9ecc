import WireSpaces.Geometry
import WireSpaces.ReceiverDatagrams
import WireSpaces.Services
import WireSpaces.UartLink

/-!
The receiver-only boot profile: a UART loop around the narrow receiver engine, with a
sink that keeps one image, echoes datagrams, and on completion reports what it
received. Whatever the line brings, a report is sent exactly once for each completed
transfer, right behind its completion, and tells the truth about the image.
-/
namespace WireSpaces.BootProfile
open WireSpaces.Words WireSpaces.Codec WireSpaces.Packet WireSpaces.ReceiverDatagrams WireSpaces.ReceiverCallbacks
open WireSpaces.ReceiverEngine (Build Engine Environment Sender TransferInfo TransferAdmission Callback Event transferInfo)
open WireSpaces.ReceiverSteps (Fresh objectOffset)
open WireSpaces.ReceiverLifecycle (Admission Delivers Lifecycle Outcome SegmentCall admissions record core)
open WireSpaces.Services (endpointAddress)
open WireSpaces.UartLink (WireSpacesPacket headerSize readHeader)
open WireSpaces.HostLink (encodeHdlcFrame)
open WireSpaces.Hdlc (HdlcDecoder)
open WireSpaces.Blocks (overwrite Cut)

def kMaximumObjectSize : Nat := 256
def kSegmentPayloadSize : Nat := 24
def kMaximumBitsPayloadSize : Nat := kSegmentHeaderSize + kSegmentPayloadSize
def kMaximumUserDatagramSize : Nat := kMaximumBitsPayloadSize - kUserDatagramHeaderSize
def kMaximumCanonicalSize : Nat := headerSize + kMaximumBitsPayloadSize

def kEchoRequest : U8 := 0x01
def kEchoResponse : U8 := 0x81
def kImageResult : U8 := 0x82
def kImageOk : U8 := 0
def kImageLengthMismatch : U8 := 1
def kImageDataMismatch : U8 := 2
def kNoBadOffset : U16 := 0xFFFF

def kTestWire : WireNumber := ⟨1⟩
def kArduinoHost : HostId := ⟨1⟩
def kPcHost : HostId := ⟨2⟩
def kBitsUploadEndpoint : EndpointAddress := endpointAddress .kUser0 1
def kUploadConnection : ConnectionAddress := ⟨kTestWire,kArduinoHost,kPcHost,kBitsUploadEndpoint⟩

/-! ### The sender -/

theorem maximumPayload_fits : kMaximumBitsPayloadSize ≤ 65535 := by decide

def transmitPacket : PacketBuffer := .define kMaximumBitsPayloadSize maximumPayload_fits

/-- `UartPduSender`: the payload of its packet, or nothing for a size that it has no room for; every packet gets out. -/
def sender : Sender where
  prepare payloadSize := ((transmitPacket.initializePacket payloadSize kUploadConnection .bits).map PacketBuffer.payload).getD []
  sendPrepared _ := .kSent

/-! ### The sink -/

structure RamProfileCallbacks where
  object : Bytes := List.replicate kMaximumObjectSize 0
  receivedSize : U16 := 0
  expectedSize : U16 := 0
  sessionId : U8 := 0

def beginTransfer (info : TransferInfo) (ram : RamProfileCallbacks) : RamProfileCallbacks × TransferAdmission :=
  if info.totalSize > kMaximumObjectSize then (ram,.kTooLarge)
  else
    ({ ram with sessionId := info.sessionId, expectedSize := BitVec.ofNat 16 info.totalSize, receivedSize := 0 },.kAccepted)

/-- `onTransferFailed` and `onTransferAborted`. -/
def dropTransfer (ram : RamProfileCallbacks) : RamProfileCallbacks := { ram with receivedSize := 0, expectedSize := 0 }

def onSegment (objectOffset : Nat) (payload : Bytes) (ram : RamProfileCallbacks) : RamProfileCallbacks × Bool :=
  if (objectOffset + payload.length) % 2 ^ 32 > kMaximumObjectSize then (ram,false)
  else
    let segmentEnd := BitVec.ofNat 16 (objectOffset + payload.length)
    ({ ram with
      object := overwrite ram.object objectOffset payload
      receivedSize := if segmentEnd > ram.receivedSize then segmentEnd else ram.receivedSize },true)

/-- The datagrams that `onDatagram` sends. -/
def echo (payload : Bytes) : List Bytes :=
  if payload.length < 2 ∨ payload.getD 0 0 ≠ kEchoRequest then []
  else if payload.length > kMaximumUserDatagramSize then []
  else [kEchoResponse :: payload.drop 1]

/-- The loop of `onTransferComplete`, with the turns that are left. -/
def findBad (object : Bytes) : Nat → Nat → Option Nat
  | 0, _ => none
  | remaining + 1, index => if object.getD index 0 ≠ BitVec.ofNat 8 index then some index else findBad object remaining (index + 1)

def result (sessionId status : U8) (receivedSize firstBadOffset : U16) : Bytes :=
  [kImageResult,sessionId,status] ++ writeU16 receivedSize ++ writeU16 firstBadOffset

/-- The datagram that `onTransferComplete` sends. -/
def imageResult (ram : RamProfileCallbacks) : Bytes :=
  if ram.receivedSize ≠ ram.expectedSize then result ram.sessionId kImageLengthMismatch ram.receivedSize kNoBadOffset
  else
    match findBad ram.object ram.receivedSize.toNat 0 with
    | some index => result ram.sessionId kImageDataMismatch ram.receivedSize (BitVec.ofNat 16 index)
    | none => result ram.sessionId kImageOk ram.receivedSize kNoBadOffset

/-- The sink behind one callback. -/
def after (ram : RamProfileCallbacks) : Callback → RamProfileCallbacks
  | .beginTransfer info _ => (beginTransfer info ram).1
  | .onTransferFailed _ => dropTransfer ram
  | .onSegment objectOffset payload _ => (onSegment objectOffset payload ram).1
  | .onDatagram _ => ram
  | .onTransferComplete => ram
  | .onTransferAborted _ => dropTransfer ram

/-- What a callback sends from inside. -/
def datagrams (ram : RamProfileCallbacks) : Callback → List Bytes
  | .onDatagram payload => echo payload
  | .onTransferComplete => [imageResult ram]
  | _ => []

/-! ### The loop -/

section loop
variable (b : Build)

/-- The sink with the segment of a message, as it is when that segment completes the transfer. -/
def stored (message : Bytes) (s : Engine) (ram : RamProfileCallbacks) : RamProfileCallbacks :=
  match decodeSegmentHeaderKnownType message with
  | some header => (onSegment (objectOffset b s header.segmentIndex.toNat) (message.drop kSegmentHeaderSize) ram).1
  | none => ram

/-- What the engine is answered while it hears a message. -/
def environment (message : Bytes) (s : Engine) (ram : RamProfileCallbacks) : Environment where
  beginTransfer info := (beginTransfer info ram).2
  onSegment objectOffset payload := (onSegment objectOffset payload ram).2
  sender := sender
  reentry call := (datagrams (if call = .onTransferComplete then stored b message s ram else ram) call).map fun payload => (payload,sender)

theorem narrow_pos : 1 ≤ 1 := le_rfl

theorem narrow_le : 1 ≤ kCompactWindowWidth := by decide

/-- The engine of the profile, as `main` constructs it. -/
def profile : Build := ReceiverEngine.construct 1 narrow_pos narrow_le ⟨BitVec.ofNat 16 kSegmentPayloadSize,1,kMaximumObjectSize,5000⟩

structure Boot where
  engine : Engine := {}
  callbacks : RamProfileCallbacks := {}
  decoder : HdlcDecoder kMaximumCanonicalSize := {}

def matchesConnection (header : Header) : Bool :=
  header.transportType == TransportType.kBits.value && header.hasSupportedControl && header.wire == kTestWire &&
    header.source == kPcHost && header.destination == kArduinoHost && header.endpoint == kBitsUploadEndpoint

def poll (nowMs : U32) (boot : Boot) : Boot :=
  let engine := (ReceiverEngine.poll b (environment b [] boot.engine boot.callbacks) nowMs boot.engine).1
  { boot with engine := engine, callbacks := sinkAfter after boot.callbacks boot.engine engine }

def processMessage (message : Bytes) (nowMs : U32) (boot : Boot) : Boot :=
  let engine := (ReceiverEngine.process b (environment b message boot.engine boot.callbacks) message nowMs boot.engine).1
  { boot with engine := engine, callbacks := sinkAfter after boot.callbacks boot.engine engine }

def processFrame (frame : Bytes) (nowMs : U32) (boot : Boot) : Boot :=
  if frame.length < headerSize then boot
  else if !matchesConnection (readHeader frame) then boot
  else
    let message := frame.drop headerSize
    if message = [] then boot else processMessage b message nowMs boot

/-- One byte of the inner loop, with the clock as a frame's end would read it. -/
def readByte (boot : Boot) (arrival : U8 × U32) : Boot :=
  let pushed := Hdlc.push arrival.1 boot.decoder
  if !pushed.2 then { boot with decoder := pushed.1 }
  else
    let boot := processFrame b (Hdlc.frame pushed.1) arrival.2 { boot with decoder := pushed.1 }
    { boot with decoder := Hdlc.consume boot.decoder }

/-- The clock at `poll`, and the bytes that are read behind it. -/
structure Turn where
  pollMs : U32
  available : List (U8 × U32)

def runTurn (boot : Boot) (turn : Turn) : Boot := turn.available.foldl (readByte b) (poll b turn.pollMs boot)

def runTurns (boot : Boot) (turns : List Turn) : Boot := turns.foldl (runTurn b) boot

end loop

/-! ### What a report has to say -/

/-- The object that the accepted segments of an admission make up: each is in its place, and they leave no place out. -/
structure Assembled (a : Admission) (object : Bytes) : Prop where
  length : object.length = a.info.totalSize
  placed : ∀ call ∈ a.accepted, (object.drop call.objectOffset).take call.payload.length = call.payload
  covered : ∀ place < object.length, ∃ call ∈ a.accepted, call.objectOffset ≤ place ∧ place < call.objectOffset + call.payload.length

/-- The object counts up from zero as far as the verdict says. -/
def Verdict (object : Bytes) (status : U8) (offset : U16) : Prop :=
  (status = kImageOk ∧ offset = kNoBadOffset ∧ ∀ place < object.length, object[place]? = some (BitVec.ofNat 8 place)) ∨
  (status = kImageDataMismatch ∧ ∃ bad < object.length, offset = BitVec.ofNat 16 bad ∧ object[bad]? ≠ some (BitVec.ofNat 8 bad) ∧
    ∀ place < bad, object[place]? = some (BitVec.ofNat 8 place))

/-- A true report about the latest of some admissions. -/
def Reports (as : List Admission) (report : Bytes) : Prop :=
  ∃ a object, as.head? = some a ∧ Assembled a object ∧ ∃ status offset, Verdict object status offset ∧
    report = result a.info.sessionId status (BitVec.ofNat 16 object.length) offset

def isImageResult (pdu : Bytes) : Bool := hasType pdu .kUserDatagram && pdu.getD 1 0 == kImageResult

/-- Each completion is followed at once by a true report, and nothing else is. -/
structure Truthful (trace : List Event) : Prop where
  reported : ∀ before later, trace = before ++ .callback .onTransferComplete :: later →
    ∃ report rest, Reports (admissions before) report ∧ later = .send (userDatagramBytes report) .kSent :: rest
  only : ∀ before pdu answer later, trace = before ++ .send pdu answer :: later → isImageResult pdu = true →
    ∃ earlier, before = earlier ++ [.callback .onTransferComplete]

/-! ### Traces -/

section traces
variable {trace : List Event} {event : Event}

/-- Where an event lies in a trace with one more event: last, or in front. -/
theorem split_concat {before later : List Event} {found : Event} (same : trace ++ [event] = before ++ found :: later) :
    (later = [] ∧ before = trace ∧ found = event) ∨ ∃ less, later = less ++ [event] ∧ trace = before ++ found :: less := by
  rcases List.eq_nil_or_concat later with rfl | ⟨less,last,rfl⟩
  · obtain ⟨front,back⟩ := List.append_inj' same rfl
    exact .inl ⟨rfl,front.symm,(List.cons.inj back).1.symm⟩
  · rw [List.concat_eq_append] at same ⊢
    have shape : trace ++ [event] = (before ++ found :: less) ++ [last] := by rw [same,List.append_assoc,List.cons_append]
    obtain ⟨front,back⟩ := List.append_inj' shape rfl
    obtain rfl := (List.cons.inj back).1
    exact .inr ⟨less,rfl,front⟩

/-- An event that is neither a completion nor a report. -/
theorem Truthful.aside (truthful : Truthful trace) (running : event ≠ .callback .onTransferComplete)
    (plain : ∀ pdu answer, event = .send pdu answer → isImageResult pdu = false) : Truthful (trace ++ [event]) := by
  refine ⟨fun before later same => ?_,fun before pdu answer later same isResult => ?_⟩
  · rcases split_concat same with ⟨-,-,completes⟩ | ⟨less,rfl,front⟩
    · exact absurd completes.symm running
    · obtain ⟨report,rest,reports,rfl⟩ := truthful.reported before less front
      exact ⟨report,rest ++ [event],reports,rfl⟩
  · rcases split_concat same with ⟨-,-,sent⟩ | ⟨less,rfl,front⟩
    · exact absurd isResult (by rw [plain pdu answer sent.symm]; exact Bool.false_ne_true)
    · exact truthful.only before pdu answer less front isResult

theorem Truthful.asides (truthful : Truthful trace) {events : List Event}
    (others : ∀ event ∈ events, event ≠ .callback .onTransferComplete ∧
      ∀ pdu answer, event = .send pdu answer → isImageResult pdu = false) : Truthful (trace ++ events) := by
  induction events generalizing trace with
  | nil => rwa [List.append_nil]
  | cons event events ih =>
    have first := others event List.mem_cons_self
    have next := ih (truthful.aside first.1 first.2) fun event member => others event (List.mem_cons_of_mem _ member)
    rwa [List.append_assoc] at next

/-- A completion with its report. -/
theorem Truthful.complete (truthful : Truthful trace) {report : Bytes} (reports : Reports (admissions trace) report) :
    Truthful (trace ++ [.callback .onTransferComplete,.send (userDatagramBytes report) .kSent]) := by
  have shape : trace ++ [.callback .onTransferComplete,.send (userDatagramBytes report) .kSent] =
    (trace ++ [.callback .onTransferComplete]) ++ [.send (userDatagramBytes report) .kSent] := by simp
  rw [shape]
  refine ⟨fun before later same => ?_,fun before pdu answer later same isResult => ?_⟩
  · rcases split_concat same with ⟨-,-,sent⟩ | ⟨less,rfl,front⟩
    · cases sent
    rcases split_concat front with ⟨rfl,rfl,-⟩ | ⟨less,rfl,ahead⟩
    · exact ⟨report,[],reports,rfl⟩
    · obtain ⟨earlier,rest,told,rfl⟩ := truthful.reported before less ahead
      exact ⟨earlier,_,told,by rw [List.cons_append,List.cons_append]⟩
  · rcases split_concat same with ⟨-,rfl,-⟩ | ⟨less,rfl,front⟩
    · exact ⟨trace,rfl⟩
    rcases split_concat front with ⟨-,-,sent⟩ | ⟨less,rfl,ahead⟩
    · cases sent
    · exact truthful.only before pdu answer less ahead isResult

/-- The admissions behind a stretch are those behind its callbacks. -/
theorem foldl_record_callbacks (more : List Event) (as : List Admission) :
    more.foldl record as = ((callbacksOf more).map Event.callback).foldl record as := by
  induction more generalizing as with
  | nil => rfl
  | cons event more ih =>
    cases event with
    | callback call => exact ih _
    | send pdu answer => exact ih as

theorem admissions_makes {s u : Engine} {calls : List Callback} (makes : Makes s calls u) :
    admissions u.trace = (calls.map Event.callback).foldl record (admissions s.trace) := by
  obtain ⟨more,trace,rfl⟩ := makes
  rw [trace,ReceiverLifecycle.admissions_append,foldl_record_callbacks]

end traces

/-! ### Blocks -/

section blocks
variable {env : Environment} {ram : RamProfileCallbacks}

theorem prepare_length {size : Nat} (room : size ≤ kMaximumBitsPayloadSize) : (sender.prepare size).length = size := by
  have large : size ≤ transmitPacket.capacity := room.trans_eq List.length_replicate.symm
  simp only [sender,PacketBuffer.initializePacket,PacketBuffer.resize,dif_pos large,Option.map_some,Option.getD_some]
  exact PacketBuffer.payload_length _

/-- The sender has room for every datagram of the sink. -/
theorem sends_eq {payload : Bytes} (small : payload.length ≤ kMaximumUserDatagramSize) :
    sends (payload,sender) = [.send (userDatagramBytes payload) .kSent] := by
  have limit : kMaximumUserDatagramSize + kUserDatagramHeaderSize = kMaximumBitsPayloadSize := rfl
  have fits : payload.length + kUserDatagramHeaderSize ≤ kMaximumBitsPayloadSize := by omega
  have known : kMaximumBitsPayloadSize = 28 := rfl
  have size := prepare_length fits
  have one : kUserDatagramHeaderSize = 1 := rfl
  simp only [sends,ReceiverEngine.sendDatagram]
  rw [if_neg (by omega),if_neg (not_not.mpr size),encodeUserDatagram_exact size]
  rfl

theorem result_length (sessionId status : U8) (size offset : U16) : (result sessionId status size offset).length ≤ kMaximumUserDatagramSize := by
  show 7 ≤ 27
  omega

theorem imageResult_length (ram : RamProfileCallbacks) : (imageResult ram).length ≤ kMaximumUserDatagramSize := by
  unfold imageResult
  split
  · exact result_length _ _ _ _
  split
  · exact result_length _ _ _ _
  · exact result_length _ _ _ _

/-- What a callback sends while the engine is answered by the sink. -/
def Answered (env : Environment) (ram : RamProfileCallbacks) (call : Callback) : Prop :=
  env.reentry call = (datagrams ram call).map fun payload => (payload,sender)

theorem inside_complete (answered : Answered env ram .onTransferComplete) :
    inside env .onTransferComplete = [.send (userDatagramBytes (imageResult ram)) .kSent] := by
  rw [inside,answered]
  exact (List.append_nil _).trans (sends_eq (imageResult_length ram))

/-- Any other callback sends no report. -/
theorem inside_other {call : Callback} (answered : Answered env ram call) (running : call ≠ .onTransferComplete) :
    ∀ event ∈ inside env call, event ≠ .callback .onTransferComplete ∧
      ∀ pdu answer, event = .send pdu answer → isImageResult pdu = false := by
  intro event member
  rw [inside,answered,List.flatMap_map] at member
  obtain ⟨payload,known,sent⟩ := List.mem_flatMap.mp member
  cases call with
  | onDatagram request =>
    simp only [datagrams,echo] at known
    split_ifs at known
    · cases known
    · cases known
    · rename_i small
      obtain rfl := List.mem_singleton.mp known
      have short : (kEchoResponse :: request.drop 1).length ≤ kMaximumUserDatagramSize := by
        rw [List.length_cons,List.length_drop]
        omega
      rw [sends_eq short] at sent
      obtain rfl := List.mem_singleton.mp sent
      refine ⟨by simp,fun pdu answer same => ?_⟩
      cases same
      simp [isImageResult,userDatagramBytes,kEchoResponse,kImageResult]
  | onTransferComplete => exact absurd rfl running
  | beginTransfer info answer => cases known
  | onTransferFailed reason => cases known
  | onSegment objectOffset payload accepted => cases known
  | onTransferAborted reason => cases known

theorem callbacksOf_block (call : Callback) (env : Environment) (later : List Event) :
    callbacksOf (.callback call :: inside env call ++ later) = call :: callbacksOf later := by
  have silent : callbacksOf (inside env call) = [] := by
    refine List.filterMap_eq_nil_iff.mpr fun event member => ?_
    obtain ⟨datagram,-,sent⟩ := List.mem_flatMap.mp member
    simp only [sends,ReceiverEngine.sendDatagram] at sent
    split_ifs at sent
    · cases sent
    · cases sent
    · split at sent
      · cases sent
      · obtain rfl := List.mem_singleton.mp sent
        rfl
  have split : callbacksOf (inside env call ++ later) = callbacksOf later := by
    rw [callbacksOf,List.filterMap_append]
    exact (congrArg (· ++ _) silent).trans (List.nil_append _)
  exact congrArg (call :: ·) split

/-- Block by block a trace stays truthful, if the sink's answers are those of the state that the callbacks before left. -/
theorem truthful_blocks {blocks : List (List Event)} (all : ∀ block ∈ blocks, Block env block) {trace : List Event}
    (truthful : Truthful trace) (ram : RamProfileCallbacks) (answers : ∀ before call later, callbacksOf blocks.flatten = before ++ call :: later →
      Answered env (before.foldl after ram) call ∧ (call = .onTransferComplete →
        Reports ((before.map Event.callback).foldl record (admissions trace)) (imageResult (before.foldl after ram)))) :
    Truthful (trace ++ blocks.flatten) := by
  induction blocks generalizing trace ram with
  | nil => simpa using truthful
  | cons block blocks ih =>
    have rest : ∀ block ∈ blocks, Block env block := fun block member => all block (List.mem_cons_of_mem _ member)
    rw [List.flatten_cons] at answers ⊢
    rw [← List.append_assoc]
    cases all block List.mem_cons_self with
    | reply own answer =>
      refine ih rest (truthful.aside (by simp) ?_) ram fun before call later same => ?_
      · intro pdu' answer' same
        cases same
        simp [isImageResult,own]
      · have here := answers before call later same
        rwa [ReceiverLifecycle.admissions_append]
    | called call =>
      have calls := callbacksOf_block call env blocks.flatten
      have here := answers [] call (callbacksOf blocks.flatten) calls
      have later : Truthful (trace ++ (.callback call :: inside env call)) := by
        by_cases completes : call = .onTransferComplete
        · subst completes
          rw [inside_complete here.1]
          exact truthful.complete (here.2 rfl)
        · refine truthful.asides fun event member => ?_
          rcases List.mem_cons.mp member with rfl | sent
          · exact ⟨fun same => completes (Event.callback.inj same),nofun⟩
          · exact inside_other here.1 completes event sent
      have block_admissions : admissions (trace ++ (.callback call :: inside env call)) = record (admissions trace) (.callback call) := by
        have one := callbacksOf_block call env []
        rw [List.append_nil] at one
        rw [ReceiverLifecycle.admissions_append,foldl_record_callbacks,one]
        rfl
      refine ih rest later (after ram call) fun before next behind same => ?_
      have there := answers (call :: before) next behind (by rw [calls,same,List.cons_append])
      rw [block_admissions]
      exact there

end blocks

/-! ### What the sink keeps -/

/-- The sink against the running admission. -/
structure Kept (ram : RamProfileCallbacks) (a : Admission) : Prop where
  session : ram.sessionId = a.info.sessionId
  expected : ram.expectedSize.toNat = a.info.totalSize
  fits : a.info.totalSize ≤ kMaximumObjectSize
  below : ram.receivedSize.toNat ≤ a.info.totalSize
  ends : ∀ call ∈ a.accepted, call.objectOffset + call.payload.length ≤ ram.receivedSize.toNat
  placed : ∀ call ∈ a.accepted, ∀ place, call.objectOffset ≤ place → place < call.objectOffset + call.payload.length →
    ram.object[place]? = call.payload[place - call.objectOffset]?

/-- The segments of an admission as blocks. -/
def cutOf {setup : Setup} {a : Admission} (delivers : Delivers setup a) : Cut :=
  ⟨setup.segmentSize.toNat,setup.finalSegmentIndex.toNat,setup.finalSegmentSize.toNat,delivers.final.1,delivers.final.2⟩

section sink
variable {setup : Setup} {a : Admission} {ram : RamProfileCallbacks} {offset : Nat} {payload : Bytes}

theorem total_cut (delivers : Delivers setup a) : a.info.totalSize = (cutOf delivers).total := by
  rw [delivers.info]
  exact Geometry.setupTotalSize_exact setup

theorem mem_accepted {call : SegmentCall} (member : call ∈ a.accepted) : call ∈ a.segments ∧ call.accepted = true :=
  List.mem_filter.mp member

/-- An admission behind one more accepted segment and what ended it. -/
def grown (a : Admission) (offset : Nat) (payload : Bytes) (endings : List Outcome) : Admission :=
  { a with segments := a.segments ++ [⟨offset,payload,true⟩], endings := a.endings ++ endings }

theorem accepted_grown (a : Admission) (offset : Nat) (payload : Bytes) (endings : List Outcome) :
    (grown a offset payload endings).accepted = a.accepted ++ [⟨offset,payload,true⟩] := by
  simp [Admission.accepted,grown]

theorem onSegment_taken (takes : (onSegment offset payload ram).2 = true) (fits : offset + payload.length ≤ kMaximumObjectSize) :
    ∃ received : U16, received.toNat = max ram.receivedSize.toNat (offset + payload.length) ∧
      (onSegment offset payload ram).1 = { ram with object := overwrite ram.object offset payload, receivedSize := received } := by
  have small : kMaximumObjectSize = 256 := rfl
  have stop : (BitVec.ofNat 16 (offset + payload.length)).toNat = offset + payload.length := by
    rw [BitVec.toNat_ofNat,Nat.mod_eq_of_lt (by omega)]
  unfold onSegment at takes ⊢
  split_ifs at takes ⊢
  refine ⟨_,?_,rfl⟩
  split
  · rename_i above
    have above : ram.receivedSize.toNat < offset + payload.length := stop ▸ above
    exact stop.trans (max_eq_right above.le).symm
  · rename_i below
    have below : offset + payload.length ≤ ram.receivedSize.toNat := stop ▸ not_lt.mp below
    exact (max_eq_left below).symm

/-- A segment is put in its place and moves no other. -/
theorem Kept.took {endings : List Outcome} (kept : Kept ram a) (size : ram.object.length = kMaximumObjectSize)
    (delivers : Delivers setup (grown a offset payload endings)) (takes : (onSegment offset payload ram).2 = true) :
    Kept (onSegment offset payload ram).1 (grown a offset payload endings) ∧
      (onSegment offset payload ram).1.object.length = kMaximumObjectSize := by
  have all := accepted_grown a offset payload endings
  have newest : (⟨offset,payload,true⟩ : SegmentCall) ∈ (grown a offset payload endings).segments := by simp [grown]
  obtain ⟨index,known,start,length⟩ := delivers.calls _ newest
  have inside : offset + payload.length ≤ a.info.totalSize := by
    have stop := (cutOf delivers).stop_le_total known
    rw [← total_cut delivers] at stop
    exact (congrArg₂ (· + ·) start length).trans_le stop
  have fits := inside.trans kept.fits
  have room : offset + payload.length ≤ ram.object.length := fits.trans_eq size.symm
  obtain ⟨received,receivedIs,taken⟩ := onSegment_taken takes fits
  rw [taken]
  refine ⟨⟨kept.session,kept.expected,kept.fits,?_,fun call member => ?_,fun call member place above under => ?_⟩,?_⟩
  · rw [receivedIs]
    exact max_le kept.below inside
  · rw [receivedIs]
    rw [all] at member
    rcases List.mem_append.mp member with old | new
    · exact (kept.ends call old).trans (le_max_left _ _)
    · rw [List.mem_singleton.mp new]
      exact le_max_right _ _
  · rw [Blocks.getElem?_overwrite room]
    rw [all] at member
    rcases List.mem_append.mp member with old | new
    · obtain ⟨other,known',start',length'⟩ := delivers.calls call (mem_accepted (all ▸ List.mem_append_left _ old)).1
      have apart : other ≠ index := by
        rintro rfl
        have once := delivers.once
        rw [Admission.acceptedOffsets,all,List.map_append,List.nodup_append] at once
        exact once.2.2 _ (List.mem_map_of_mem old) _ List.mem_cons_self (start'.trans start.symm)
      have disjoint := (cutOf delivers).disjoint apart known' known
      have startIs : call.objectOffset = (cutOf delivers).start other := start'
      have lengthIs : call.payload.length = (cutOf delivers).length other := length'
      have offsetIs : offset = (cutOf delivers).start index := start
      have payloadIs : payload.length = (cutOf delivers).length index := length
      rw [if_neg (by omega)]
      exact kept.placed call old place above under
    · obtain rfl := List.mem_singleton.mp new
      rw [if_pos ⟨above,under⟩]
  · exact (Blocks.length_overwrite room).trans size

end sink

/-! ### The report -/

section report
variable {setup : Setup} {a : Admission} {ram : RamProfileCallbacks} {object : Bytes}

theorem findBad_none {remaining index : Nat} (none : findBad object remaining index = none) :
    ∀ place, index ≤ place → place < index + remaining → object.getD place 0 = BitVec.ofNat 8 place := by
  induction remaining generalizing index with
  | zero => omega
  | succ remaining ih =>
    rw [findBad] at none
    split_ifs at none with bad
    intro place above under
    rcases above.eq_or_lt with rfl | later
    · exact not_not.mp bad
    · exact ih none place later (by omega)

theorem findBad_some {remaining index bad : Nat} (found : findBad object remaining index = some bad) :
    index ≤ bad ∧ bad < index + remaining ∧ object.getD bad 0 ≠ BitVec.ofNat 8 bad ∧
      ∀ place, index ≤ place → place < bad → object.getD place 0 = BitVec.ofNat 8 place := by
  induction remaining generalizing index with
  | zero => cases found
  | succ remaining ih =>
    rw [findBad] at found
    split_ifs at found with differs
    · obtain rfl := Option.some.inj found
      exact ⟨le_rfl,by omega,differs,fun place above under => absurd under (not_lt.mpr above)⟩
    · obtain ⟨above,under,differs',before⟩ := ih found
      refine ⟨by omega,by omega,differs',fun place from_index to_bad => ?_⟩
      rcases from_index.eq_or_lt with rfl | later
      · exact not_not.mp differs
      · exact before place later to_bad

/-- With every segment in its place the report is true of the image. -/
theorem Kept.reports (kept : Kept ram a) (size : ram.object.length = kMaximumObjectSize) (delivers : Delivers setup a)
    (all : ∀ index ≤ setup.finalSegmentIndex.toNat, index * setup.segmentSize.toNat ∈ a.acceptedOffsets) :
    ∃ object, Assembled a object ∧ ∃ status offset, Verdict object status offset ∧
      imageResult ram = result a.info.sessionId status (BitVec.ofNat 16 object.length) offset := by
  have found (index : Nat) (known : index ≤ setup.finalSegmentIndex.toNat) : ∃ call ∈ a.accepted,
      call.objectOffset = (cutOf delivers).start index ∧ call.payload.length = (cutOf delivers).length index := by
    obtain ⟨call,member,offset⟩ := List.mem_map.mp (all index known)
    obtain ⟨other,known',start,length⟩ := delivers.calls call (mem_accepted member).1
    have same : other = index := Nat.eq_of_mul_eq_mul_right delivers.segment (start.symm.trans offset)
    subst same
    exact ⟨call,member,start,length⟩
  have whole : ram.receivedSize.toNat = a.info.totalSize := by
    obtain ⟨call,member,start,length⟩ := found _ le_rfl
    have stop := kept.ends call member
    have total := (cutOf delivers).stop (i := setup.finalSegmentIndex.toNat) le_rfl
    rw [if_pos (show setup.finalSegmentIndex.toNat = (cutOf delivers).final from rfl),← total_cut delivers] at total
    exact le_antisymm kept.below (by omega)
  have length : (ram.object.take a.info.totalSize).length = a.info.totalSize := by
    rw [List.length_take,size]
    exact min_eq_left kept.fits
  have sizeIs : ram.receivedSize = BitVec.ofNat 16 (ram.object.take a.info.totalSize).length := by
    rw [length,← whole,BitVec.ofNat_toNat,BitVec.setWidth_eq]
  have equal : ram.receivedSize = ram.expectedSize := BitVec.eq_of_toNat_eq (whole.trans kept.expected.symm)
  have at_place (place : Nat) (inside : place < a.info.totalSize) :
      (ram.object.take a.info.totalSize)[place]? = some (ram.object.getD place 0) := by
    have held : place < ram.object.length := by
      rw [size]
      exact inside.trans_le kept.fits
    rw [List.getElem?_take_of_lt inside,List.getD_eq_getElem?_getD,List.getElem?_eq_getElem held]
    rfl
  refine ⟨ram.object.take a.info.totalSize,⟨length,fun call member => ?_,fun place inside => ?_⟩,?_⟩
  · have stop := (kept.ends call member).trans_eq whole
    refine List.ext_getElem? fun place => ?_
    by_cases inside : place < call.payload.length
    · rw [List.getElem?_take_of_lt inside,List.getElem?_drop,List.getElem?_take_of_lt (by omega),
        kept.placed call member _ (by omega) (by omega),Nat.add_sub_cancel_left]
    · rw [List.getElem?_take_eq_none (not_lt.mp inside),List.getElem?_eq_none (not_lt.mp inside)]
  · rw [length,total_cut delivers] at inside
    obtain ⟨index,known,above,under⟩ := (cutOf delivers).cover inside
    obtain ⟨call,member,start,size⟩ := found index known
    exact ⟨call,member,by omega,by omega⟩
  · rw [imageResult,if_neg (not_not.mpr equal),kept.session,← sizeIs]
    cases search : findBad ram.object ram.receivedSize.toNat 0 with
    | none =>
      refine ⟨kImageOk,kNoBadOffset,.inl ⟨rfl,rfl,fun place inside => ?_⟩,rfl⟩
      rw [length] at inside
      rw [at_place place inside,findBad_none search place (Nat.zero_le _) (by omega)]
    | some bad =>
      obtain ⟨-,under,differs,before⟩ := findBad_some search
      have inside : bad < a.info.totalSize := by omega
      refine ⟨kImageDataMismatch,_,.inr ⟨rfl,bad,?_,rfl,?_,fun place earlier => ?_⟩,rfl⟩
      · rwa [length]
      · rw [at_place bad inside]
        exact fun same => differs (Option.some.inj same)
      · rw [at_place place (earlier.trans inside),before place (Nat.zero_le _) earlier]

end report

/-! ### A call of the engine -/

/-- An engine whose reports were all true, and the sink behind it. -/
structure Verifies (b : Build) (s : Engine) (ram : RamProfileCallbacks) : Prop where
  life : Lifecycle b s
  size : ram.object.length = kMaximumObjectSize
  kept : s.state = .kActive → ∀ a, (admissions s.trace).head? = some a → Kept ram a
  truthful : Truthful s.trace

section call
variable {b : Build} {message : Bytes} {nowMs : U32} {s u : Engine} {ram : RamProfileCallbacks} {calls : List Callback}

theorem stored_eq {index : Nat} {payload : Bytes} (fresh : Fresh b s message index payload) :
    stored b message s ram = (onSegment (objectOffset b s index) payload ram).1 := by
  simp only [stored,fresh.header,fresh.content,BitVec.toNat_ofNat,Nat.mod_eq_of_lt fresh.small]

theorem datagrams_running {call : Callback} (running : call ≠ .onTransferComplete) (before later : RamProfileCallbacks) :
    datagrams before call = datagrams later call := by
  cases call with
  | onTransferComplete => exact absurd rfl running
  | beginTransfer | onTransferFailed | onSegment | onDatagram | onTransferAborted => rfl

/-- The latest admission behind an accepted segment. -/
theorem admissions_grown {offset : Nat} {payload : Bytes} {endings : List Outcome}
    (makes : Makes s (.onSegment offset payload true :: endings.map Outcome.callback) u) {a : Admission} {earlier : List Admission}
    (before : admissions s.trace = a :: earlier) : admissions u.trace = grown a offset payload endings :: earlier := by
  have ended (endings : List Outcome) (x : Admission) : ((endings.map Outcome.callback).map Event.callback).foldl record (x :: earlier) =
      { x with endings := x.endings ++ endings } :: earlier := by
    induction endings generalizing x with
    | nil => simp
    | cons outcome endings ih =>
      rw [List.map_cons,List.map_cons,List.foldl_cons]
      have one : record (x :: earlier) (.callback outcome.callback) = { x with endings := x.endings ++ [outcome] } :: earlier := by
        cases outcome <;> rfl
      rw [one,ih]
      simp
  rw [admissions_makes makes,before,List.map_cons,List.foldl_cons]
  exact ended endings _

/-- An accepted segment leaves the sink in step with its admission. -/
theorem Verifies.took (verifies : Verifies b s ram) (life : Lifecycle b u) {index : Nat} {payload : Bytes} (endings : List Outcome)
    (fresh : Fresh b s message index payload) (takes : (onSegment (objectOffset b s index) payload ram).2 = true)
    (makes : Makes s (.onSegment (objectOffset b s index) payload true :: endings.map Outcome.callback) u) :
    ∃ a earlier setup, admissions s.trace = a :: earlier ∧
      admissions u.trace = grown a (objectOffset b s index) payload endings :: earlier ∧
      Delivers setup (grown a (objectOffset b s index) payload endings) ∧
      Kept (onSegment (objectOffset b s index) payload ram).1 (grown a (objectOffset b s index) payload endings) ∧
      (onSegment (objectOffset b s index) payload ram).1.object.length = kMaximumObjectSize := by
  obtain ⟨a,head,-⟩ := verifies.life.live (.inl fresh.active)
  obtain ⟨earlier,before⟩ := List.head?_eq_some_iff.mp head
  have behind := admissions_grown makes before
  obtain ⟨setup,delivers⟩ := life.delivers _ (behind ▸ List.mem_cons_self)
  exact ⟨a,earlier,setup,before,behind,delivers,(verifies.kept fresh.active a head).took verifies.size delivers takes⟩

theorem onSegment_refused {offset : Nat} {payload : Bytes} (refuses : (onSegment offset payload ram).2 = false) :
    (onSegment offset payload ram).1 = ram := by
  unfold onSegment at refuses ⊢
  split_ifs at refuses ⊢
  rfl

theorem beginTransfer_refused {info : TransferInfo} (other : (beginTransfer info ram).2 ≠ .kAccepted) : (beginTransfer info ram).1 = ram := by
  unfold beginTransfer at other ⊢
  split_ifs at other ⊢
  · rfl
  · exact absurd rfl other

/-- The sink behind a call, in step with the engine. -/
theorem Verifies.sink (verifies : Verifies b s ram) (life : Lifecycle b u) (makes : Makes s calls u)
    (made : Made b (environment b message s ram) message nowMs s calls u) :
    (calls.foldl after ram).object.length = kMaximumObjectSize ∧
      (u.state = .kActive → ∀ a, (admissions u.trace).head? = some a → Kept (calls.foldl after ram) a) := by
  have recorded := admissions_makes makes
  cases made with
  | none same state =>
    refine ⟨verifies.size,fun active => ?_⟩
    rw [recorded]
    exact verifies.kept (state ▸ active)
  | failed same active state => exact ⟨verifies.size,fun running => absurd (state.symm.trans running) (by decide)⟩
  | @refused _ info other same state =>
    have unchanged : (beginTransfer info ram).1 = ram := beginTransfer_refused other
    have aside := ReceiverLifecycle.record_aside (.refused info other) (admissions s.trace)
    show (beginTransfer info ram).1.object.length = _ ∧ _
    rw [unchanged,recorded]
    refine ⟨verifies.size,fun active => ?_⟩
    show ∀ a, (record _ _).head? = some a → Kept (beginTransfer info ram).1 a
    rw [aside,unchanged]
    exact verifies.kept (state ▸ active)
  | @began _ setup rest typed decoded admissible idle accepted started ending =>
    have begins : (beginTransfer (transferInfo setup) ram).2 = .kAccepted := accepted
    have small : ¬ (transferInfo setup).totalSize > kMaximumObjectSize := by
      intro large
      rw [beginTransfer,if_pos large] at begins
      cases begins
    have begun : (beginTransfer (transferInfo setup) ram).1 =
        { ram with sessionId := setup.sessionId, expectedSize := BitVec.ofNat 16 (transferInfo setup).totalSize, receivedSize := 0 } := by
      rw [beginTransfer,if_neg small]
      rfl
    rcases ending with ⟨rfl,-⟩ | ⟨rfl,state⟩
    · show (beginTransfer (transferInfo setup) ram).1.object.length = _ ∧ (_ → ∀ a, _ → Kept (beginTransfer (transferInfo setup) ram).1 a)
      rw [begun,recorded]
      refine ⟨verifies.size,fun _ a head => ?_⟩
      obtain rfl := Option.some.inj head
      have fits : (transferInfo setup).totalSize ≤ 256 := not_lt.mp small
      refine ⟨rfl,?_,fits,Nat.zero_le _,nofun,nofun⟩
      exact (BitVec.toNat_ofNat ..).trans (Nat.mod_eq_of_lt (by omega))
    · refine ⟨?_,fun running => absurd (state.symm.trans running) (by decide)⟩
      show (dropTransfer (beginTransfer (transferInfo setup) ram).1).object.length = _
      rw [begun]
      exact verifies.size
  | @took _ index payload rest fresh takes moved continues =>
    cases continues with
    | complete full state =>
      obtain ⟨a,earlier,setup,-,-,-,-,size⟩ := verifies.took life [.completed] fresh takes makes
      exact ⟨size,fun running => absurd (state.symm.trans running) (by decide)⟩
    | more short state =>
      obtain ⟨a,earlier,setup,-,behind,-,kept,size⟩ := verifies.took life [] fresh takes makes
      refine ⟨size,fun _ latest head => ?_⟩
      rw [behind] at head
      obtain rfl := Option.some.inj head
      exact kept
    | failed short state =>
      obtain ⟨a,earlier,setup,-,-,-,-,size⟩ := verifies.took life [.failed .kSendFailed] fresh takes makes
      exact ⟨size,fun running => absurd (state.symm.trans running) (by decide)⟩
  | sinkRefused fresh refuses same state =>
    refine ⟨?_,fun running => absurd (state.symm.trans running) (by decide)⟩
    show (dropTransfer (onSegment _ _ ram).1).object.length = _
    rw [onSegment_refused refuses]
    exact verifies.size
  | aborted same active state => exact ⟨verifies.size,fun running => absurd (state.symm.trans running) (by decide)⟩
  | datagram payload same state =>
    refine ⟨verifies.size,fun active => ?_⟩
    rw [recorded]
    exact verifies.kept (state ▸ active)

/-- A transfer completes behind its last segment only. -/
theorem completes_made (made : Made b (environment b message s ram) message nowMs s calls u) {before later : List Callback}
    (same : calls = before ++ .onTransferComplete :: later) :
    ∃ index payload, Fresh b s message index payload ∧ (onSegment (objectOffset b s index) payload ram).2 = true ∧
      calls = [.onSegment (objectOffset b s index) payload true,.onTransferComplete] ∧
      before = [.onSegment (objectOffset b s index) payload true] := by
  have member : Callback.onTransferComplete ∈ calls := by simp [same]
  cases made with
  | none | failed | refused | sinkRefused | aborted | datagram => simp at member
  | began typed decoded admissible idle accepted started ending =>
    rcases ending with ⟨rfl,-⟩ | ⟨rfl,-⟩ <;> simp at member
  | @took _ index payload rest fresh takes moved continues =>
    cases continues with
    | complete full state =>
      refine ⟨index,payload,fresh,takes,rfl,?_⟩
      cases before with
      | nil => simp at same
      | cons first before =>
        obtain ⟨rfl,tail⟩ := List.cons.inj same
        cases before with
        | nil => rfl
        | cons second before => simp at tail
    | more | failed => simp at member

/-- The engine is answered as the sink would in the state that the callbacks before left, and a completion's report is true. -/
theorem Verifies.answers (verifies : Verifies b s ram) (life : Lifecycle b u) (makes : Makes s calls u)
    (made : Made b (environment b message s ram) message nowMs s calls u) {before later : List Callback} {call : Callback}
    (same : calls = before ++ call :: later) :
    Answered (environment b message s ram) (before.foldl after ram) call ∧ (call = .onTransferComplete →
      Reports ((before.map Event.callback).foldl record (admissions s.trace)) (imageResult (before.foldl after ram))) := by
  by_cases completes : call = .onTransferComplete
  · subst completes
    obtain ⟨index,payload,fresh,takes,rfl,rfl⟩ := completes_made made same
    have answered : Answered (environment b message s ram) (onSegment (objectOffset b s index) payload ram).1 .onTransferComplete := by
      rw [← stored_eq fresh]
      rfl
    refine ⟨answered,fun _ => ?_⟩
    obtain ⟨a,earlier,setup,prior,behind,delivers,kept,size⟩ := verifies.took life [.completed] fresh takes makes
    obtain ⟨object,assembled,status,offset,verdict,report⟩ := kept.reports size delivers (delivers.complete.mp (by simp [grown]))
    refine ⟨grown a (objectOffset b s index) payload [],object,?_,⟨assembled.length,?_,?_⟩,status,offset,verdict,report⟩
    · rw [prior]
      simp [record,ReceiverLifecycle.changeLatest,grown]
    · have placed := assembled.placed
      rwa [accepted_grown] at placed ⊢
    · have covered := assembled.covered
      rwa [accepted_grown] at covered ⊢
  · refine ⟨?_,fun complete => absurd complete completes⟩
    show (datagrams (if call = .onTransferComplete then _ else _) call).map _ = _
    rw [if_neg completes,datagrams_running completes ram (before.foldl after ram)]

/-- Whatever the engine hears, the sink stays in step and the reports true. -/
theorem Verifies.call (verifies : Verifies b s ram) (life : Lifecycle b u)
    (handles : Handles b (environment b message s ram) message nowMs s u) (goes : Goes (environment b message s ram) s u) :
    Verifies b u (sinkAfter after ram s u) := by
  obtain ⟨calls,makes,made⟩ := handles
  obtain ⟨blocks,all,trace⟩ := goes
  have blocksIs : callbacksOf blocks.flatten = calls := by
    obtain ⟨more,traceIs,rfl⟩ := makes
    rw [List.append_cancel_left (trace.symm.trans traceIs)]
  obtain ⟨size,kept⟩ := verifies.sink life makes made
  rw [sinkAfter_eq after makes]
  refine ⟨life,size,kept,?_⟩
  rw [trace]
  exact truthful_blocks all verifies.truthful ram fun before call later same => verifies.answers life makes made (blocksIs ▸ same)

end call

/-! ### The profile -/

section profile
variable {b : Build}

theorem verifies_init (b : Build) : Verifies b {} {} := by
  refine ⟨ReceiverLifecycle.lifecycle_init b,List.length_replicate,nofun,?_,?_⟩
  · intro before later same
    simp at same
  · intro before pdu answer later same
    simp at same

theorem verifies_poll {boot : Boot} (verifies : Verifies b boot.engine boot.callbacks) (nowMs : U32) :
    Verifies b (poll b nowMs boot).engine (poll b nowMs boot).callbacks := by
  have life := ReceiverLifecycle.lifecycle_steps verifies.life
    (ReceiverSteps.call_steps boot.engine (.poll nowMs,environment b [] boot.engine boot.callbacks))
  exact verifies.call life (poll_handles b _ [] nowMs boot.engine) (goes_poll b _ nowMs boot.engine)

theorem verifies_processMessage {boot : Boot} (verifies : Verifies b boot.engine boot.callbacks) (message : Bytes) (nowMs : U32) :
    Verifies b (processMessage b message nowMs boot).engine (processMessage b message nowMs boot).callbacks := by
  have life := ReceiverLifecycle.lifecycle_steps verifies.life
    (ReceiverSteps.call_steps boot.engine (.process message nowMs,environment b message boot.engine boot.callbacks))
  exact verifies.call life (process_handles b _ message nowMs boot.engine) (goes_process b _ message nowMs boot.engine)

theorem verifies_processFrame (boot : Boot) (verifies : Verifies b boot.engine boot.callbacks) (frame : Bytes) (nowMs : U32) :
    Verifies b (processFrame b frame nowMs boot).engine (processFrame b frame nowMs boot).callbacks := by
  unfold processFrame
  dsimp only
  split_ifs
  · exact verifies
  · exact verifies
  · exact verifies
  · exact verifies_processMessage verifies _ nowMs

theorem verifies_readByte {boot : Boot} (verifies : Verifies b boot.engine boot.callbacks) (arrival : U8 × U32) :
    Verifies b (readByte b boot arrival).engine (readByte b boot arrival).callbacks := by
  unfold readByte
  dsimp only
  split_ifs
  · exact verifies
  · exact verifies_processFrame { boot with decoder := (Hdlc.push arrival.1 boot.decoder).1 } verifies _ arrival.2

theorem verifies_runTurn {boot : Boot} (verifies : Verifies b boot.engine boot.callbacks) (turn : Turn) :
    Verifies b (runTurn b boot turn).engine (runTurn b boot turn).callbacks := by
  have read (available : List (U8 × U32)) {boot : Boot} (verifies : Verifies b boot.engine boot.callbacks) :
      Verifies b (available.foldl (readByte b) boot).engine (available.foldl (readByte b) boot).callbacks := by
    induction available generalizing boot with
    | nil => exact verifies
    | cons arrival available ih => exact ih (verifies_readByte verifies arrival)
  exact read turn.available (verifies_poll verifies turn.pollMs)

theorem verifies_runTurns (boot : Boot) (verifies : Verifies b boot.engine boot.callbacks) (turns : List Turn) :
    Verifies b (runTurns b boot turns).engine (runTurns b boot turns).callbacks := by
  induction turns generalizing boot with
  | nil => exact verifies
  | cons turn turns ih => exact ih (runTurn b boot turn) (verifies_runTurn verifies turn)

end profile

/-- Whatever bytes come in and whatever the clock shows: behind every completed transfer the profile sends one report and nowhere
    else, and it says the session, the size and the first place, if any, where the object that its segments make up does not count
    up; it never says that the length was wrong. -/
theorem image_results_truthful (b : Build) (turns : List Turn) : Truthful (runTurns b {} turns).engine.trace :=
  (verifies_runTurns {} (verifies_init b) turns).truthful

/-- A SETUP and its one segment, as the tools frame them. -/
def upload : List (U8 × U32) :=
  [setupBytes ⟨0x51,0,0,24,3⟩,[1,0x51,0,0,0,1,3]].flatMap fun message =>
    ((WireSpacesPacket.encode ⟨0x81,1,2,1,1,message⟩).map encodeHdlcFrame).getD [] |>.map fun byte => (byte,0)

example : .send (userDatagramBytes (result 0x51 kImageDataMismatch 3 2)) .kSent ∈ (runTurns profile {} [⟨0,upload⟩]).engine.trace := by
  decide +kernel

end WireSpaces.BootProfile
