import WireSpaces.HostUpload
import WireSpaces.RamTransfer
import WireSpaces.UartLink

/-!
The loopback test as a whole: the tool uploads an object, the board echoes it, and the
tool collects the echo. Over a line that loses, duplicates and reorders packets either
way, the tool returns nothing but the object it was given.
-/
namespace WireSpaces.RoundTrip
open WireSpaces.Codec WireSpaces.Packet WireSpaces.SessionTraffic WireSpaces.RamTransfer
open WireSpaces.HostReceiver (CompactBitsReceiver shiftReceived store messageType messageSetup messageSegment unpackB unpackH)
open WireSpaces.HostTransmitter (CompactBitsTransmitter Clock Spoken announced)
open WireSpaces.TransmitterSteps (slice segmentPdu)
open WireSpaces.Blocks (Agrees)
open WireSpaces.UartLink (WireSpacesPacket twentyEight_fits)
open WireSpaces.EndToEnd (forwarded)

/-! ### The echo at the tool -/

/-- The receiver has the segment, below its base or above it. -/
def Has (r : CompactBitsReceiver) (i : Nat) : Prop :=
  i < r.contiguousCount ∨ r.contiguousCount ≤ i ∧ r.receivedBitmap.testBit (i - r.contiguousCount) = true

def size : Nat := kSegmentPayloadSize.toNat

/-- A receiver that has only heard echoes of an object: what it has of a session is in its place. -/
structure Assembles (object : Bytes) (r : CompactBitsReceiver) : Prop where
  geometry : r.state = .active ∨ r.state = .completed →
    r.segmentSize = size ∧ r.data.length = object.length ∧ object.length ≤ r.segmentCount * size
  stored : r.state = .active ∨ r.state = .completed → ∀ i, Has r i → ∀ place, i * size ≤ place →
    place < i * size + (slice object size i).length → Agrees r.data object place
  whole : r.state = .completed → r.contiguousCount = r.segmentCount

section receiver
variable {object : Bytes} {r : CompactBitsReceiver}

theorem assembles_init (object : Bytes) (maximumObjectSize maximumSegmentSize : Nat) :
    Assembles object { maximumObjectSize := maximumObjectSize, maximumSegmentSize := maximumSegmentSize } := by
  refine ⟨?_,?_,?_⟩
  · rintro (state | state) <;> cases state
  · rintro (state | state) <;> cases state
  · intro state
    cases state

/-- A complete receiver holds the object. -/
theorem Assembles.object_eq (assembles : Assembles object r) (complete : HostReceiver.complete r = true) :
    HostReceiver.object r = object := by
  have state : r.state = .completed := eq_of_beq complete
  obtain ⟨-,length,cover⟩ := assembles.geometry (.inr state)
  have all : ∀ place < object.length, Agrees r.data object place := by
    intro place inside
    have within : place < r.segmentCount * size := inside.trans_le cover
    have index : place / size < r.segmentCount := Nat.div_lt_of_lt_mul (by rwa [Nat.mul_comm] at within)
    have start : place / size * size ≤ place := Nat.div_mul_le_self place size
    have stop : place < place / size * size + size := Nat.lt_div_mul_add (show 0 < size by decide)
    have full : place < place / size * size + (slice object size (place / size)).length := by
      rw [slice,List.length_take,List.length_drop]
      omega
    exact assembles.stored (.inr state) _ (.inl (assembles.whole state ▸ index)) place start full
  have whole := Blocks.take_of_agrees all
  rw [← length,List.take_length] at whole
  rw [HostReceiver.object,if_pos complete,whole]

/-- Moving the base keeps what was received. -/
theorem shiftReceived_has (fuel bitmap count i : Nat) :
    (i < (shiftReceived fuel bitmap count).2 ∨ (shiftReceived fuel bitmap count).2 ≤ i ∧
      (shiftReceived fuel bitmap count).1.testBit (i - (shiftReceived fuel bitmap count).2) = true) ↔
    (i < count ∨ count ≤ i ∧ bitmap.testBit (i - count) = true) := by
  induction fuel generalizing bitmap count with
  | zero => exact Iff.rfl
  | succ fuel ih =>
    rw [shiftReceived]
    split_ifs with low
    · rw [ih]
      have first : bitmap.testBit 0 = true := by
        rw [Nat.testBit_zero]
        rw [Nat.and_one_is_mod] at low
        exact decide_eq_true (by omega)
      rcases lt_trichotomy i count with below | rfl | above
      · exact iff_of_true (.inl (by omega)) (.inl below)
      · exact iff_of_true (.inl (by omega)) (.inr ⟨le_rfl,by rwa [Nat.sub_self]⟩)
      · have same : (bitmap >>> 1).testBit (i - (count + 1)) = bitmap.testBit (i - count) := by
          rw [Nat.testBit_shiftRight]
          congr 1
          omega
        rw [same]
        constructor
        · rintro (less | ⟨-,bit⟩)
          · omega
          · exact .inr ⟨above.le,bit⟩
        · rintro (less | ⟨-,bit⟩)
          · omega
          · exact .inr ⟨above,bit⟩
    · exact Iff.rfl

theorem store_has {index : Nat} (base : r.contiguousCount ≤ index) (offset : Nat) (segment : Bytes) (i : Nat) :
    Has (store r offset (1 <<< (index - r.contiguousCount)) segment) i ↔ Has r i ∨ i = index := by
  refine (shiftReceived_has _ _ _ i).trans ?_
  rw [Nat.testBit_or,Nat.one_shiftLeft,Nat.testBit_two_pow]
  simp only [Has,Bool.or_eq_true,decide_eq_true_eq]
  constructor
  · rintro (below | ⟨above,old | new⟩)
    · exact .inl (.inl below)
    · exact .inl (.inr ⟨above,old⟩)
    · exact .inr (by omega)
  · rintro ((below | ⟨above,old⟩) | rfl)
    · exact .inl below
    · exact .inr ⟨above,.inl old⟩
    · exact .inr ⟨base,.inr rfl⟩

/-- An answer leaves the receiver as it is. -/
theorem reply_state {response : Option Bytes} {r' : CompactBitsReceiver} {out : Option Bytes}
    (replied : HostReceiver.reply r response = some (r',out)) : r' = r := by
  cases response with
  | none => cases replied
  | some pdu =>
    cases replied
    rfl

theorem assembles_setup (assembles : Assembles object r) {setup : Setup} (describes : Describes setup object)
    (sized : setup.segmentSize = kSegmentPayloadSize) {r' : CompactBitsReceiver} {out : Option Bytes}
    (received : HostReceiver.receiveSetup r (setupBytes setup) = some (r',out)) : Assembles object r' := by
  rw [HostReceiver.receiveSetup_decoded (decodeSetup_setupBytes setup)] at received
  split_ifs at received
  · exact reply_state received ▸ assembles
  · exact reply_state received ▸ assembles
  · exact reply_state received ▸ assembles
  · exact reply_state received ▸ assembles
  · exact reply_state received ▸ assembles
  · obtain rfl := reply_state received
    obtain ⟨length,positive,final⟩ := describes
    rw [sized] at length final
    refine ⟨fun _ => ⟨congrArg BitVec.toNat sized,?_,?_⟩,?_,?_⟩
    · show (List.replicate _ 0).length = object.length
      rw [List.length_replicate,sized,length]
    · show object.length ≤ (setup.finalSegmentIndex.toNat + 1) * size
      rw [length,Nat.succ_mul]
      exact Nat.add_le_add_left final _
    · rintro - i (below | ⟨-,bit⟩)
      · exact absurd below (Nat.not_lt_zero i)
      · simp at bit
    · intro state
      cases state

theorem assembles_segment (assembles : Assembles object r) {setup : Setup} (sized : setup.segmentSize = kSegmentPayloadSize)
    {index : Nat} (known : index ≤ setup.finalSegmentIndex.toNat) {r' : CompactBitsReceiver} {out : Option Bytes}
    (received : HostReceiver.receiveSegment r (segmentPdu setup object index) = some (r',out)) : Assembles object r' := by
  have small : index < 65536 := by have := setup.finalSegmentIndex.isLt; omega
  have indexIs : unpackH (segmentPdu setup object index) 2 = index := by
    rw [HostReceiver.unpackH_eq]
    have read : readU16 (segmentPdu setup object index) 2 = BitVec.ofNat 16 index := by
      rw [segmentPdu,segmentHeaderBytes,List.append_assoc]
      exact readU16_writeU16 _ [encodeControl .kSegment,setup.sessionId] _
    rw [read,BitVec.toNat_ofNat,Nat.mod_eq_of_lt small]
  have sliceIs : (segmentPdu setup object index).drop HostReceiver.segmentHeaderSize = slice object size index := by
    rw [segmentPdu,List.drop_left' (by rfl),sized]
    rfl
  unfold HostReceiver.receiveSegment at received
  simp only [indexIs,sliceIs] at received
  split_ifs at received with short foreign below closed duplicate odd
  · cases received
    exact assembles
  · cases received
    exact assembles
  · exact reply_state received ▸ assembles
  · exact reply_state received ▸ assembles
  · exact reply_state received ▸ assembles
  · cases received
    exact assembles
  · obtain rfl := reply_state received
    have state : r.state = .active ∨ r.state = .completed := by
      by_contra neither
      rw [not_or] at neither
      exact foreign (.inl neither)
    obtain ⟨sizeIs,length,cover⟩ := assembles.geometry state
    rw [sizeIs] at odd ⊢
    push Not at odd
    have base : r.contiguousCount ≤ index := not_lt.mp below
    have fits : index * size + (slice object size index).length ≤ r.data.length := by omega
    have kept : (Blocks.overwrite r.data (index * size) (slice object size index)).length = r.data.length :=
      Blocks.length_overwrite fits
    refine ⟨fun _ => ⟨sizeIs,kept.trans length,cover⟩,?_,?_⟩
    · intro _ i has place start stop
      refine Blocks.agrees_overwrite fits ?_
      rcases (store_has base _ _ i).mp has with old | rfl
      · exact .inl (assembles.stored state i old place start stop)
      · exact .inr ⟨start,stop⟩
    · intro completed
      by_contra incomplete
      have running : (store r (index * size) (1 <<< (index - r.contiguousCount)) (slice object size index)).state = r.state :=
        if_neg incomplete
      rw [running] at completed
      exact closed (.inl completed)

/-- A message that is no segment and no SETUP brings in no data. -/
theorem assembles_other (assembles : Assembles object r) {payload : Bytes}
    (plain : hasType payload .kSetup = false ∧ hasType payload .kSegment = false) {r' : CompactBitsReceiver} {out : Option Bytes}
    (received : HostReceiver.receive r payload = some (r',out)) : Assembles object r' := by
  have untyped : messageType payload ≠ some messageSetup ∧ messageType payload ≠ some messageSegment := by
    constructor
    · intro named
      have typed : hasType payload .kSetup = true := HostUpload.hasType_of_messageType named
      rw [typed] at plain
      exact Bool.noConfusion plain.1
    · intro named
      have typed : hasType payload .kSegment = true := HostUpload.hasType_of_messageType named
      rw [typed] at plain
      exact Bool.noConfusion plain.2
  unfold HostReceiver.receive at received
  simp only [if_neg untyped.1,if_neg untyped.2] at received
  split_ifs at received with probe answered abort ended
  · exact reply_state received ▸ assembles
  · cases received
    exact assembles
  · cases received
    refine ⟨?_,?_,?_⟩
    · rintro (state | state) <;> cases state
    · rintro (state | state) <;> cases state
    · intro state
      cases state
  · cases received
    exact assembles
  · cases received
    exact assembles

/-- Whatever an echo of the object says. -/
theorem assembles_receive (assembles : Assembles object r) {payload : Bytes} (echoed : Echoed object payload)
    {r' : CompactBitsReceiver} {out : Option Bytes} (received : HostReceiver.receive r payload = some (r',out)) :
    Assembles object r' := by
  cases echoed with
  | @setup setup describes sized =>
    have type := HostReceiver.messageType_of_hasType (HostTransmitter.hasType_setupBytes setup .kSetup)
    unfold HostReceiver.receive at received
    rw [type] at received
    exact assembles_setup assembles describes sized received
  | @segment setup index describes sized known =>
    have type := HostReceiver.messageType_of_hasType (HostTransmitter.hasType_segmentPdu setup object index .kSegment)
    unfold HostReceiver.receive at received
    rw [type] at received
    exact assembles_segment assembles sized known received
  | other plain => exact assembles_other assembles plain received

end receiver

/-! ### The tool -/

def bitsTransportType : Nat := 1
def normalBitsControl : Nat := 0x81
def backgroundBitsControl : Nat := 0xC1
def testWire : Nat := 1
def arduinoHost : Nat := 1
def pcHost : Nat := 2
def uploadEndpoint : Nat := 0x0001
def echoEndpoint : Nat := 0x0002
def unoMaximumObjectSize : Nat := 256
def unoSegmentSize : Nat := 24

/-- The packet that `_send_bits_message` frames. -/
def bitsMessage (endpoint : Nat) (payload : Bytes) : WireSpacesPacket where
  control := if messageType payload = some messageSegment then backgroundBitsControl else normalBitsControl
  wireNumber := testWire
  sourceHost := pcHost
  destinationHost := arduinoHost
  endpoint := endpoint
  payload := payload

/-- How `round_trip` ended, if it did. -/
inductive Outcome where
  | running
  | returned (data : Bytes)
  | raised
  deriving Repr, DecidableEq

/-- The local variables of `round_trip`, and the packets it wrote to the UART. -/
structure Tool (Time : Type) where
  transmitter : CompactBitsTransmitter Time
  receiver : CompactBitsReceiver := { maximumObjectSize := unoMaximumObjectSize, maximumSegmentSize := unoSegmentSize }
  written : List WireSpacesPacket := []
  outcome : Outcome := .running

section tool
variable {Time : Type} (clock : Clock Time)

/-- `transmitter.poll(now)`, and what is sent for it. -/
def pollUpload (now : Time) (tool : Tool Time) : Tool Time :=
  let polled := HostTransmitter.poll clock now tool.transmitter
  match polled.2 with
  | .error _ => { tool with transmitter := polled.1, outcome := .raised }
  | .ok none => { tool with transmitter := polled.1 }
  | .ok (some outbound) =>
    { tool with
      transmitter := polled.1, written := tool.written ++ [bitsMessage uploadEndpoint outbound]
      outcome := if polled.1.state = .aborted then .raised else tool.outcome }

def hearUpload (payload : Bytes) (tool : Tool Time) : Tool Time :=
  let received := HostTransmitter.receive payload tool.transmitter
  match received.2 with
  | .error _ => { tool with transmitter := received.1, outcome := .raised }
  | .ok _ => { tool with transmitter := received.1 }

def hearEcho (payload : Bytes) (tool : Tool Time) : Tool Time :=
  match HostReceiver.receive tool.receiver payload with
  | none => { tool with outcome := .raised }
  | some (receiver,none) => { tool with receiver := receiver }
  | some (receiver,some response) =>
    { tool with receiver := receiver, written := tool.written ++ [bitsMessage echoEndpoint response] }

/-- The local variables as `round_trip` begins. -/
def begin (objectBytes : Bytes) (segmentSize : Int) : Except HostTransmitter.Raised (Tool Time) :=
  (HostTransmitter.create clock objectBytes segmentSize 0x51 0xFA).map fun transmitter => { transmitter := transmitter }

/-- The body of the loop over the decoded packets, which an exception has left. -/
def hear (tool : Tool Time) (packet : WireSpacesPacket) : Tool Time :=
  if tool.outcome ≠ .running then tool
  else if packet.transportType ≠ bitsTransportType ∨ packet.wireNumber ≠ testWire ∨ packet.sourceHost ≠ arduinoHost ∨
      packet.destinationHost ≠ pcHost then tool
  else if packet.endpoint = uploadEndpoint then hearUpload packet.payload tool
  else if packet.endpoint = echoEndpoint then hearEcho packet.payload tool
  else tool

/-- One turn of the loop of `round_trip`, on the packets of one read. -/
def turn (now : Time) (heard : List WireSpacesPacket) (tool : Tool Time) : Tool Time :=
  if tool.outcome ≠ .running then tool
  else
    let tool := heard.foldl hear (pollUpload clock now tool)
    if tool.outcome = .running ∧ HostTransmitter.complete tool.transmitter = true ∧ HostReceiver.complete tool.receiver = true then
      { tool with outcome := .returned (HostReceiver.object tool.receiver) }
    else tool

/-- The deadline passes: the loop ends in an exception. -/
def timeOut (tool : Tool Time) : Tool Time := if tool.outcome ≠ .running then tool else { tool with outcome := .raised }

end tool

/-- What was written to an endpoint. -/
def writtenTo (endpoint : Nat) (written : List WireSpacesPacket) : List Bytes :=
  (written.filter fun packet => packet.endpoint = endpoint).map (·.payload)

/-! ### Tool and board -/

structure System (Time : Type) where
  tool : Tool Time
  board : BitsRamTransferApplication

inductive Action (Time : Type) where
  | tool (now : Time) (heard : List WireSpacesPacket)
  | timeOut
  | board (turn : Turn) (heard : List PacketBuffer)

section system
variable {Time : Type} (cfg : RamTransfer.Config) (clock : Clock Time)

def perform (sys : System Time) : Action Time → System Time
  | .tool now heard => { sys with tool := turn clock now heard sys.tool }
  | .timeOut => { sys with tool := timeOut sys.tool }
  | .board turn heard => { sys with board := runOnce cfg turn heard sys.board }

/-- What the line may do: the tool hears on the echo's endpoint what the board's transmitter forwarded, the board on
    the upload's endpoint what the tool wrote there, each of it any number of times, in any order, or never. -/
def permitted (sys : System Time) : Action Time → Bool
  | .tool _ heard => heard.all fun packet =>
    packet.endpoint != echoEndpoint || (forwarded sys.board.transmitter.trace).contains packet.payload
  | .timeOut => true
  | .board _ heard => heard.all fun packet =>
    packet.header.endpoint != cfg.receiver.connection.endpoint || (writtenTo uploadEndpoint sys.tool.written).contains packet.payload

def permittedAll : System Time → List (Action Time) → Bool
  | _, [] => true
  | sys, action :: rest => permitted cfg sys action && permittedAll (perform cfg clock sys action) rest

def performAll (sys : System Time) (actions : List (Action Time)) : System Time := actions.foldl (perform cfg clock) sys

end system

/-! ### What a run keeps -/

section run
variable {Time : Type} {cfg : RamTransfer.Config} {clock : Clock Time} {setup : Setup} {object : Bytes} {granted : Nat}
  {tool : Tool Time} {sys : System Time}

/-- A tool that uploads the object, was granted at least so many segments, and heard only echoes of the object. -/
structure Speaks (setup : Setup) (object : Bytes) (granted : Nat) (tool : Tool Time) : Prop where
  spoken : ∃ raised, Spoken setup object ⟨tool.transmitter,writtenTo uploadEndpoint tool.written,raised⟩
  grown : granted ≤ tool.transmitter.grantedEnd
  assembles : Assembles object tool.receiver
  returned : ∀ data, tool.outcome = .returned data → data = object

theorem writtenTo_bitsMessage (endpoint other : Nat) (written : List WireSpacesPacket) (payload : Bytes) :
    writtenTo endpoint (written ++ [bitsMessage other payload]) =
      writtenTo endpoint written ++ if other = endpoint then [payload] else [] := by
  rw [writtenTo,List.filter_append,List.map_append]
  by_cases same : other = endpoint <;> simp [same,writtenTo,bitsMessage]

theorem speaks_pollUpload (clock : Clock Time) (speaks : Speaks setup object granted tool) (now : Time) :
    Speaks setup object granted (pollUpload clock now tool) := by
  obtain ⟨⟨raised,spoken⟩,grown,assembles,returned⟩ := speaks
  have polled := HostTransmitter.spoken_poll clock spoken now
  have counters := HostUpload.poll_counters (HostTransmitter.poll_cases clock spoken.window now)
  unfold HostTransmitter.perform at polled
  unfold pollUpload
  dsimp only at polled counters ⊢
  generalize HostTransmitter.poll clock now tool.transmitter = outcome at polled counters
  obtain ⟨transmitter,result⟩ := outcome
  rcases result with error | (_ | outbound)
  · exact ⟨⟨_,by simpa [HostTransmitter.outputs] using polled⟩,grown.trans counters.1.ge,assembles,by rintro data ⟨⟩⟩
  · exact ⟨⟨_,by simpa [HostTransmitter.outputs] using polled⟩,grown.trans counters.1.ge,assembles,returned⟩
  · refine ⟨⟨raised ++ [],?_⟩,grown.trans counters.1.ge,assembles,fun data is => returned data ?_⟩
    · rw [writtenTo_bitsMessage,if_pos rfl]
      exact polled
    · dsimp only at is
      split at is
      · cases is
      · exact is

theorem speaks_hearUpload (speaks : Speaks setup object granted tool) (payload : Bytes) :
    Speaks setup object granted (hearUpload payload tool) := by
  obtain ⟨⟨raised,spoken⟩,grown,assembles,returned⟩ := speaks
  have received := HostTransmitter.spoken_receive ⟨tool.transmitter.lastSendTime,fun _ _ => false⟩ spoken payload
  have larger := HostUpload.receive_granted (HostTransmitter.receive_cases payload tool.transmitter)
  unfold HostTransmitter.perform at received
  unfold hearUpload
  dsimp only at received ⊢
  generalize HostTransmitter.receive payload tool.transmitter = outcome at received larger
  obtain ⟨transmitter,result⟩ := outcome
  cases result with
  | error error => exact ⟨⟨_,received⟩,grown.trans larger,assembles,by rintro data ⟨⟩⟩
  | ok done => exact ⟨⟨_,received⟩,grown.trans larger,assembles,returned⟩

theorem speaks_hearEcho (speaks : Speaks setup object granted tool) {payload : Bytes} (echoed : Echoed object payload) :
    Speaks setup object granted (hearEcho payload tool) := by
  obtain ⟨spoken,grown,assembles,returned⟩ := speaks
  unfold hearEcho
  cases received : HostReceiver.receive tool.receiver payload with
  | none => exact ⟨spoken,grown,assembles,by rintro data ⟨⟩⟩
  | some answer =>
    obtain ⟨receiver,response⟩ := answer
    have kept := assembles_receive assembles echoed received
    cases response with
    | none => exact ⟨spoken,grown,kept,returned⟩
    | some response =>
      refine ⟨?_,grown,kept,returned⟩
      obtain ⟨raised,spoken⟩ := spoken
      refine ⟨raised,?_⟩
      rw [writtenTo_bitsMessage,if_neg (by decide),List.append_nil]
      exact spoken

theorem speaks_hear (speaks : Speaks setup object granted tool) {packet : WireSpacesPacket}
    (echoed : packet.endpoint = echoEndpoint → Echoed object packet.payload) : Speaks setup object granted (hear tool packet) := by
  unfold hear
  split_ifs with ended filtered upload echo
  · exact speaks
  · exact speaks
  · exact speaks_hearUpload speaks packet.payload
  · exact speaks_hearEcho speaks (echoed echo)
  · exact speaks

theorem speaks_turn (clock : Clock Time) (speaks : Speaks setup object granted tool) (now : Time) {heard : List WireSpacesPacket}
    (echoed : ∀ packet ∈ heard, packet.endpoint = echoEndpoint → Echoed object packet.payload) :
    Speaks setup object granted (turn clock now heard tool) := by
  have polled := speaks_pollUpload clock speaks now
  have heardAll : Speaks setup object granted (heard.foldl hear (pollUpload clock now tool)) := by
    generalize pollUpload clock now tool = tool at polled
    clear speaks
    induction heard generalizing tool with
    | nil => exact polled
    | cons packet heard ih =>
      exact ih (fun other member => echoed other (List.mem_cons_of_mem _ member)) (hear tool packet)
        (speaks_hear polled (echoed packet List.mem_cons_self))
  unfold turn
  dsimp only
  split_ifs with ended finished
  · exact speaks
  · refine ⟨heardAll.spoken,heardAll.grown,heardAll.assembles,?_⟩
    intro data is
    cases is
    exact heardAll.assembles.object_eq finished.2.2
  · exact heardAll

/-- The tool and the board, in one loop around the object. -/
structure Loops (cfg : RamTransfer.Config) (setup : Setup) (object : Bytes) (sys : System Time) : Prop where
  speaks : Speaks setup object sys.tool.transmitter.grantedEnd sys.tool
  mirrors : Mirrors cfg setup object sys.tool.transmitter.grantedEnd sys.board

theorem Loops.describes (loops : Loops cfg setup object sys) : Describes setup object := by
  obtain ⟨raised,spoken⟩ := loops.speaks.spoken
  have described := HostUpload.describes_announced spoken.window.toSized
  rw [spoken.setup_is,spoken.object_is] at described
  exact described

theorem loops_tool (clock : Clock Time) (loops : Loops cfg setup object sys) (now : Time) {heard : List WireSpacesPacket}
    (allowed : permitted cfg sys (.tool now heard) = true) : Loops cfg setup object (perform cfg clock sys (.tool now heard)) := by
  have echoed : ∀ packet ∈ heard, packet.endpoint = echoEndpoint → Echoed object packet.payload := by
    intro packet member endpoint
    have known := List.all_eq_true.mp allowed packet member
    rw [endpoint,bne_self_eq_false,Bool.false_or,List.contains_iff_mem] at known
    obtain ⟨event,found,is⟩ := List.mem_filterMap.mp known
    cases event with
    | forward sent result =>
      rw [← Option.some.inj is]
      exact loops.mirrors.echoes.said sent result found
    | _ => cases is
  have speaks := speaks_turn clock loops.speaks now echoed
  exact ⟨⟨speaks.spoken,le_rfl,speaks.assembles,speaks.returned⟩,loops.mirrors.mono speaks.grown⟩

theorem loops_board (clock : Clock Time) (loops : Loops cfg setup object sys) (turn : Turn) {heard : List PacketBuffer}
    (allowed : permitted cfg sys (.board turn heard) = true) :
    Loops cfg setup object (perform cfg clock sys (.board turn heard)) := by
  refine ⟨loops.speaks,mirrors_runOnce loops.describes loops.mirrors turn ?_⟩
  intro packet member endpoint
  have known := List.all_eq_true.mp allowed packet member
  rw [endpoint,bne_self_eq_false,Bool.false_or,List.contains_iff_mem] at known
  obtain ⟨raised,spoken⟩ := loops.speaks.spoken
  have inside : sys.tool.transmitter.grantedEnd ≤ setup.finalSegmentIndex.toNat + 1 := by
    have final := spoken.window.toSized.announced_toNat.2.2.1
    rw [spoken.setup_is] at final
    exact spoken.window.granted.trans final.ge
  exact HostUpload.said_outbound inside (spoken.messages _ known)

theorem loops_perform (clock : Clock Time) (loops : Loops cfg setup object sys) (action : Action Time)
    (allowed : permitted cfg sys action = true) : Loops cfg setup object (perform cfg clock sys action) := by
  cases action with
  | tool now heard => exact loops_tool clock loops now allowed
  | timeOut =>
    show Loops cfg setup object { sys with tool := timeOut sys.tool }
    unfold timeOut
    split_ifs
    · exact loops
    · obtain ⟨⟨spoken,grown,assembles,returned⟩,mirrors⟩ := loops
      exact ⟨⟨spoken,le_rfl,assembles,by rintro data ⟨⟩⟩,mirrors⟩
  | board turn heard => exact loops_board clock loops turn allowed

theorem loops_performAll (clock : Clock Time) (loops : Loops cfg setup object sys) {actions : List (Action Time)}
    (allowed : permittedAll cfg clock sys actions = true) : Loops cfg setup object (performAll cfg clock sys actions) := by
  induction actions generalizing sys with
  | nil => exact loops
  | cons action actions ih =>
    simp only [permittedAll,Bool.and_eq_true] at allowed
    exact ih (loops_perform clock loops action allowed.1) allowed.2

/-- Whatever the line loses, duplicates, delays and reorders, in whatever order tool and board take their turns,
    `round_trip` returns nothing but the bytes it was called with. -/
theorem round_trip_returns_object (cfg : RamTransfer.Config) (clock : Clock Time) (objectBytes : Bytes) (segmentSize : Int)
    (tool : Tool Time) (begun : begin clock objectBytes segmentSize = .ok tool) (segmentSlots : Receiver.Slots)
    (receiverDatagram receiverTransmit transmitterDatagram transmitterTransmit : PacketBuffer) (actions : List (Action Time))
    (allowed : permittedAll cfg clock
      ⟨tool,construct segmentSlots receiverDatagram receiverTransmit transmitterDatagram transmitterTransmit⟩ actions = true)
    (data : Bytes)
    (returned : (performAll cfg clock
      ⟨tool,construct segmentSlots receiverDatagram receiverTransmit transmitterDatagram transmitterTransmit⟩
      actions).tool.outcome = .returned data) : data = objectBytes := by
  unfold begin at begun
  cases created : HostTransmitter.create clock objectBytes segmentSize 0x51 0xFA with
  | error raised =>
    rw [created] at begun
    cases begun
  | ok t =>
    rw [created] at begun
    obtain rfl := Except.ok.inj begun
    have spoken := HostTransmitter.spoken_create created
    have loops : Loops cfg (announced t) objectBytes
        ⟨{ transmitter := t },construct segmentSlots receiverDatagram receiverTransmit transmitterDatagram transmitterTransmit⟩ :=
      ⟨⟨⟨[],spoken⟩,le_rfl,assembles_init objectBytes unoMaximumObjectSize unoSegmentSize,by rintro data ⟨⟩⟩,
        mirrors_construct cfg _ _ _ _ _ _ _ _⟩
    exact (loops_performAll clock loops allowed).speaks.returned data returned

end run

/-! ### A run -/

def slots : Receiver.Slots := [some (.define 28 twentyEight_fits),some (.define 28 twentyEight_fits)]

/-- The board of the example, on endpoints 1 and 2 of wire 1. -/
def uno : RamTransfer.Config where
  receiver := Receiver.configure 16 ReceiverEngine.sixteen_pos ReceiverEngine.sixteen_le ⟨⟨1⟩,⟨1⟩,⟨2⟩,⟨1⟩⟩ slots 0
  transmitter := ⟨⟨⟨1⟩,⟨1⟩,⟨2⟩,⟨2⟩⟩,⟨100,250,5⟩⟩

def unoBoard : BitsRamTransferApplication :=
  construct slots (.define 28 twentyEight_fits) (.define 28 twentyEight_fits)
    (.define 28 twentyEight_fits) (.define 28 twentyEight_fits)

/-- A turn in which every packet gets out. -/
def openTurn : Turn := ⟨0,0,0,fun _ => .kAccepted,fun _ => .kAccepted,fun _ => .kAccepted⟩

/-- A packet of the tool's at the board, and one of the board's at the tool. -/
def toBoard (endpoint : U16) (payload : Bytes) : PacketBuffer :=
  let empty := PacketBuffer.define 28 twentyEight_fits
  { (empty.resize payload.length).getD empty with header := ⟨0x81,⟨1⟩,⟨2⟩,⟨1⟩,⟨endpoint⟩⟩ }.store payload

def toTool (endpoint : Nat) (payload : Bytes) : WireSpacesPacket := ⟨0x81,1,1,2,endpoint,payload⟩

/-- Both SETUPs arrive twice, and the first segment of the echo only when it is sent again. -/
def shortLoop : List (Action Nat) :=
  [.tool 0 [],
    .board openTurn [toBoard 1 (setupBytes ⟨0x51,0xFA,0,24,3⟩),toBoard 1 (setupBytes ⟨0x51,0xFA,0,24,3⟩)],
    .tool 1 [toTool 1 (ackBytes ⟨0x51,0,0xFA,0xF9⟩)],
    .tool 2 [],
    .board openTurn [toBoard 1 [1,0x51,0,0,1,2,3]],
    .tool 3 [toTool 1 (ackBytes ⟨0x51,0,0xFA,0xFA⟩),toTool 2 (setupBytes ⟨0x80,0,0,24,3⟩),toTool 2 (setupBytes ⟨0x80,0,0,24,3⟩)],
    .board openTurn [toBoard 2 (ackBytes ⟨0x80,0,0,0xFF⟩)],
    .tool 4 [],
    .board { openTurn with transmitMs := 100 } [],
    .tool 5 [toTool 2 [1,0x80,0,0,1,2,3]]]

def shortTool : Tool Nat where
  transmitter := {
    object := [1,2,3], segmentSize := 24, segmentCount := 1, sessionId := 0x51, initialSequence := 0xFA
    maximumRetries := 10, lastSendTime := 0 }

theorem short_loop_returns : ∃ data,
    (performAll uno HostTransmitter.twoTicks ⟨shortTool,unoBoard⟩ shortLoop).tool.outcome = .returned data ∧ data = [1,2,3] := by
  have returned : (performAll uno HostTransmitter.twoTicks ⟨shortTool,unoBoard⟩ shortLoop).tool.outcome = .returned [1,2,3] := by
    decide +kernel
  refine ⟨[1,2,3],returned,?_⟩
  exact round_trip_returns_object uno HostTransmitter.twoTicks [1,2,3] 24 shortTool rfl slots
    (.define 28 twentyEight_fits) (.define 28 twentyEight_fits) (.define 28 twentyEight_fits)
    (.define 28 twentyEight_fits) shortLoop (by decide +kernel) [1,2,3] returned

end WireSpaces.RoundTrip
