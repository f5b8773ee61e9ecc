import WireSpaces.HostReceiver
import WireSpaces.Router

/-!
The UART link of the examples: three ways to put a packet on the line, the board's
forwarder, the boot profile's unbuffered sender and the host tools, and the two
receivers that take packets off it. All three write the same bytes, and either
receiver gets back the packets it has room for, in order.
-/
namespace WireSpaces.UartLink
open WireSpaces.Codec WireSpaces.Packet WireSpaces.Hdlc WireSpaces.HdlcFrames WireSpaces.HdlcRoundTrip WireSpaces.Stuffing
open WireSpaces.Router (LinkAdmission)
open WireSpaces.HostReceiver (packB packH unpackB unpackH)
open WireSpaces.HostLink (HdlcStreamDecoder encodeHdlcFrame feedChunks)

/-! ### A packet as bytes -/

/-- `sizeof(Header)`. -/
def headerSize : Nat := 6

/-- The packed header as it lies in the little-endian memory of the board. -/
def headerBytes (header : Header) : Bytes :=
  [header.control,header.wire.value,header.source.value,header.destination.value] ++ writeU16 header.endpoint.value

/-- A header copied from the front of a frame. -/
def readHeader (frame : Bytes) : Header :=
  ⟨frame.getD 0 0,⟨frame.getD 1 0⟩,⟨frame.getD 2 0⟩,⟨frame.getD 3 0⟩,⟨readU16 frame 4⟩⟩

/-- A 16-bit sum. -/
def totalSize (packet : PacketBuffer) : Nat := (packet.size + headerSize) % 65536

/-- The span from the header on: the payload storage follows it. -/
def headerAndPayload (packet : PacketBuffer) : Bytes := (headerBytes packet.header ++ packet.storage).take (totalSize packet)

/-! ### The board's link -/

/-- The admission of `UartHdlcForwarder::trySend`, and the bytes it writes. -/
def trySend (maximumPayloadSize : Nat) (packet : PacketBuffer) : LinkAdmission × Bytes :=
  if packet.size > maximumPayloadSize then (.kTooLarge,[])
  else
    let frameStorage := List.replicate ((headerSize + maximumPayloadSize + kCrcSize) * 2 + 2) 0
    let encoded := encode (headerAndPayload packet) frameStorage
    if encoded.2 = 0 then (.kTooLarge,[]) else (.kAccepted,encoded.1.take encoded.2)

/-- The bytes of one `writeEscaped` call. -/
def writeEscaped (byte : U8) : Bytes := if byte = kFlag ∨ byte = kEscape then [kEscape,byte ^^^ kEscapeXor] else [byte]

/-- The bytes of `UartPduSender::sendPrepared`. -/
def sendPrepared (packet : PacketBuffer) : Bytes :=
  let txBytes := headerAndPayload packet
  let crc := Crc.compute Crc.Crc16CcittFalse txBytes
  [kFlag] ++ txBytes.flatMap writeEscaped ++ writeEscaped (crc.setWidth 8) ++ writeEscaped ((crc >>> 8).setWidth 8) ++ [kFlag]

/-- The packet of a frame, when it has a header and its payload fits the buffer. -/
def receiveFrame (capacity : Nat) (fits : capacity ≤ 65535) (frame : Bytes) : Option PacketBuffer :=
  if frame.length ≥ headerSize ∧ frame.length ≤ headerSize + capacity then
    let payloadSize := (frame.length - headerSize) % 65536
    ((PacketBuffer.define capacity fits).resize payloadSize).map fun packet =>
      { packet with header := readHeader frame }.store (frame.drop headerSize)
  else none

/-- `UartHdlcReceiver::process` on the bytes at hand, and the packets it passes to its domain. -/
def process (capacity : Nat) (fits : capacity ≤ 65535) (decoder : HdlcDecoder (headerSize + capacity)) :
    Bytes → HdlcDecoder (headerSize + capacity) × List PacketBuffer
  | [] => (decoder,[])
  | byte :: available =>
    let pushed := push byte decoder
    if !pushed.2 then process capacity fits pushed.1 available
    else
      let packet := receiveFrame capacity fits (frame pushed.1)
      let rest := process capacity fits (consume pushed.1) available
      (rest.1,packet.toList ++ rest.2)

/-- Calls of `process`, one for the bytes that came in between. -/
def processEach (capacity : Nat) (fits : capacity ≤ 65535) (decoder : HdlcDecoder (headerSize + capacity)) :
    List Bytes → HdlcDecoder (headerSize + capacity) × List PacketBuffer
  | [] => (decoder,[])
  | available :: later =>
    let processed := process capacity fits decoder available
    let rest := processEach capacity fits processed.1 later
    (rest.1,processed.2 ++ rest.2)

/-! ### The host's link -/

structure WireSpacesPacket where
  control : Nat
  wireNumber : Nat
  sourceHost : Nat
  destinationHost : Nat
  endpoint : Nat
  payload : Bytes
  deriving Repr, DecidableEq

namespace WireSpacesPacket

def transportType (packet : WireSpacesPacket) : Nat := packet.control &&& 0x07

/-- `none` is the `ValueError` of a frame without room for a header. -/
def decode (frame : Bytes) : Option WireSpacesPacket :=
  if frame.length < headerSize then none
  else
    some ⟨unpackB frame 0,unpackB frame 1,unpackB frame 2,unpackB frame 3,unpackH frame 4,frame.drop headerSize⟩

/-- `none` is the error of `struct.pack`. -/
def encode (packet : WireSpacesPacket) : Option Bytes := do
  let control ← packB packet.control
  let wireNumber ← packB packet.wireNumber
  let sourceHost ← packB packet.sourceHost
  let destinationHost ← packB packet.destinationHost
  let endpoint ← packH packet.endpoint
  return [control,wireNumber,sourceHost,destinationHost] ++ endpoint ++ packet.payload

end WireSpacesPacket

/-- The packets the host's tools take from the chunks they read. -/
def receivePackets (maximumFrameSize : Nat) (chunks : List Bytes) : List WireSpacesPacket :=
  (feedChunks { maximumFrameSize := maximumFrameSize } chunks).2.filterMap WireSpacesPacket.decode

/-- A packet of the board as the host's tools have it. -/
def hostView (packet : PacketBuffer) : WireSpacesPacket :=
  ⟨packet.header.control.toNat,packet.header.wire.value.toNat,packet.header.source.value.toNat,
    packet.header.destination.value.toNat,packet.header.endpoint.value.toNat,packet.payload⟩

/-! ### Packets and frames -/

/-- The frame of a packet. -/
def canonical (packet : PacketBuffer) : Bytes := headerBytes packet.header ++ packet.payload

theorem length_headerBytes (header : Header) : (headerBytes header).length = headerSize := rfl

theorem length_canonical (packet : PacketBuffer) : (canonical packet).length = headerSize + packet.size := by
  rw [canonical,List.length_append,length_headerBytes,packet.payload_length]

theorem canonical_ne_nil (packet : PacketBuffer) : canonical packet ≠ [] := by
  intro empty
  cases empty

/-- The span is the header and the payload as long as its size fits 16 bits. -/
theorem headerAndPayload_eq {packet : PacketBuffer} (small : packet.size + headerSize < 65536) :
    headerAndPayload packet = canonical packet := by
  unfold headerAndPayload totalSize
  rw [Nat.mod_eq_of_lt small,Nat.add_comm,List.take_append,length_headerBytes,Nat.add_sub_cancel_left]
  rw [List.take_of_length_le (by rw [length_headerBytes]; exact Nat.le_add_right _ _)]
  rfl

theorem readHeader_canonical (packet : PacketBuffer) : readHeader (canonical packet) = packet.header := by
  have endpoint : readU16 (canonical packet) 4 = packet.header.endpoint.value := by
    unfold canonical headerBytes
    rw [List.append_assoc]
    exact readU16_writeU16 packet.header.endpoint.value
      [packet.header.control,packet.header.wire.value,packet.header.source.value,packet.header.destination.value] packet.payload
  unfold readHeader
  rw [endpoint]
  rfl

theorem resize_define {capacity size : Nat} (fits : capacity ≤ 65535) (room : size ≤ capacity) :
    ∃ resized, (PacketBuffer.define capacity fits).resize size = some resized := by
  have large : size ≤ (PacketBuffer.define capacity fits).capacity := by
    rw [PacketBuffer.capacity,PacketBuffer.define,List.length_replicate]
    exact room
  unfold PacketBuffer.resize
  rw [dif_pos large]
  exact ⟨_,rfl⟩

/-- A frame's packet has the header and the payload, when the buffer is large enough. -/
theorem receiveFrame_canonical {capacity : Nat} (fits : capacity ≤ 65535) (packet : PacketBuffer) :
    (receiveFrame capacity fits (canonical packet)).map (fun received => (received.header,received.payload)) =
      if packet.size ≤ capacity then some (packet.header,packet.payload) else none := by
  have long := length_canonical packet
  by_cases room : packet.size ≤ capacity
  · have size : ((canonical packet).length - headerSize) % 65536 = packet.size := by omega
    obtain ⟨empty,resized⟩ := resize_define fits room
    have rest : (canonical packet).drop headerSize = packet.payload := List.drop_left' (length_headerBytes _)
    unfold receiveFrame
    rw [if_pos ⟨by omega,by omega⟩,if_pos room]
    simp only [size,resized,Option.map_some,rest,readHeader_canonical]
    have full : packet.payload.length = empty.size := by
      rw [packet.payload_length]
      exact (PacketBuffer.resize_capacity resized).2.symm
    exact congrArg (fun payload => some (packet.header,payload)) (PacketBuffer.store_payload full)
  · unfold receiveFrame
    rw [if_neg (by omega),if_neg room]
    rfl

theorem decode_canonical (packet : PacketBuffer) : WireSpacesPacket.decode (canonical packet) = some (hostView packet) := by
  have long := length_canonical packet
  have header := readHeader_canonical packet
  unfold WireSpacesPacket.decode hostView
  rw [if_neg (by omega),HostReceiver.unpackH_eq,← header]
  refine congrArg some ?_
  rw [WireSpacesPacket.mk.injEq]
  exact ⟨rfl,rfl,rfl,rfl,rfl,List.drop_left' (length_headerBytes _)⟩

theorem encode_hostView (packet : PacketBuffer) : (hostView packet).encode = some (canonical packet) := by
  simp [WireSpacesPacket.encode,hostView,HostReceiver.packB_toNat,HostReceiver.packH_toNat,canonical,headerBytes]

/-! ### What is put on the line -/

inductive Sender where
  | forwarder (maximumPayloadSize : Nat)
  | streaming
  | tool
  deriving Repr, DecidableEq

def Sender.admits : Sender → PacketBuffer → Bool
  | .forwarder maximumPayloadSize, packet => decide (packet.size ≤ maximumPayloadSize)
  | .streaming, _ => true
  | .tool, _ => true

def Sender.put : Sender → PacketBuffer → Bytes
  | .forwarder maximumPayloadSize, packet => (trySend maximumPayloadSize packet).2
  | .streaming, packet => sendPrepared packet
  | .tool, packet => ((hostView packet).encode.map encodeHdlcFrame).getD []

theorem length_stuff_le (content : Bytes) : (stuff scheme content).length ≤ 2 * content.length := by
  induction content with
  | nil => exact Nat.le_refl 0
  | cons byte content ih =>
    have one : (stuffItem scheme byte).length ≤ 2 := by
      unfold stuffItem
      split_ifs <;> simp
    rw [stuff_cons,List.length_append,List.length_cons]
    omega

/-- The frame storage of the forwarder always has room. -/
theorem length_encoding_le (payload : Bytes) : (encoding payload).length ≤ (payload.length + kCrcSize) * 2 + 2 := by
  have content := length_stuff_le (payload ++ trailer payload)
  have size : (payload ++ trailer payload).length = payload.length + kCrcSize := List.length_append
  rw [size] at content
  simp only [encoding,body,List.length_cons,List.length_append,List.length_nil]
  omega

theorem trySend_eq (maximumPayloadSize : Nat) {packet : PacketBuffer} (small : packet.size + headerSize < 65536) :
    trySend maximumPayloadSize packet =
      if packet.size ≤ maximumPayloadSize then (.kAccepted,encoding (canonical packet)) else (.kTooLarge,[]) := by
  unfold trySend
  by_cases fits : packet.size ≤ maximumPayloadSize
  · have nonempty := canonical_ne_nil packet
    have size := encodedSize_eq nonempty
    have room := length_encoding_le (canonical packet)
    have positive : (encoding (canonical packet)).length ≠ 0 := by simp [encoding]
    have long := length_canonical packet
    have stored : encodedSize (canonical packet) ≤
        (List.replicate ((headerSize + maximumPayloadSize + kCrcSize) * 2 + 2) (0 : U8)).length := by
      rw [size,List.length_replicate]
      omega
    rw [if_neg (by omega),if_pos fits,headerAndPayload_eq small]
    simp only [encode_eq nonempty stored,size,List.take_left,if_neg positive]
  · rw [if_pos (by omega),if_neg fits]

theorem sendPrepared_eq {packet : PacketBuffer} (small : packet.size + headerSize < 65536) :
    sendPrepared packet = encoding (canonical packet) := by
  have escaped : writeEscaped = stuffItem scheme := rfl
  simp only [sendPrepared,headerAndPayload_eq small,escaped,encoding,body,trailer,writeU16,stuff_append,stuff_cons,stuff_nil]
  simp [stuff]

/-- All senders write the same frame for a packet they admit, and nothing for another. -/
theorem put_eq (sender : Sender) {packet : PacketBuffer} (small : packet.size + headerSize < 65536) :
    sender.put packet = if sender.admits packet then encoding (canonical packet) else [] := by
  cases sender with
  | forwarder maximumPayloadSize =>
    simp only [Sender.put,Sender.admits,trySend_eq maximumPayloadSize small,decide_eq_true_eq]
    split_ifs <;> rfl
  | streaming => exact sendPrepared_eq small
  | tool =>
    simp only [Sender.put,encode_hostView,Option.map_some,Option.getD_some]
    exact HostLink.encodeHdlcFrame_eq _

/-! ### What is taken off it -/

/-- The packets of a call are those of the frames that the bytes complete. -/
theorem process_eq {capacity : Nat} (fits : capacity ≤ 65535) (available : Bytes) (decoder : HdlcDecoder (headerSize + capacity)) :
    process capacity fits decoder available =
      (after decoder available,(frames decoder available).filterMap (receiveFrame capacity fits)) := by
  induction available generalizing decoder with
  | nil => rfl
  | cons byte available ih =>
    cases ready : (push byte decoder).2 with
    | false =>
      have stepped : step decoder byte = ((push byte decoder).1,none) := by simp [step,ready]
      simp [process,ready,ih,after,frames,completions,stepped,List.reduceOption]
    | true =>
      have stepped : step decoder byte = (consume (push byte decoder).1,some (frame (push byte decoder).1)) := by
        simp [step,ready]
      simp only [process,ready,ih,after,frames,completions,stepped,List.foldl_cons]
      cases received : receiveFrame capacity fits (frame (push byte decoder).1) <;>
        simp [List.reduceOption,received]

theorem processEach_eq {capacity : Nat} (fits : capacity ≤ 65535) (chunks : List Bytes)
    (decoder : HdlcDecoder (headerSize + capacity)) :
    (processEach capacity fits decoder chunks).2 = (frames decoder chunks.flatten).filterMap (receiveFrame capacity fits) := by
  induction chunks generalizing decoder with
  | nil => rfl
  | cons available later ih =>
    simp only [processEach,ih,process_eq,List.flatten_cons,frames,completions_append,List.reduceOption_append,List.filterMap_append]

section frames
variable {capacity : Nat}

theorem frames_append (d : HdlcDecoder capacity) (stream more : Bytes) :
    frames d (stream ++ more) = frames d stream ++ frames (after d stream) more := by
  rw [frames,completions_append,List.reduceOption_append]
  rfl

/-- The frames among some that the decoder has room for. -/
def within (capacity : Nat) (sent : List Bytes) : List Bytes := sent.filter fun frame => frame.length ≤ capacity

theorem accepted_body_toList {payload : Bytes} (nonempty : payload ≠ []) :
    (accepted capacity (body payload)).toList = within capacity [payload] := by
  by_cases fits : payload.length ≤ capacity
  · simp [accepted_body nonempty fits,within,fits]
  · have large : accepted capacity (body payload) = none := by
      rw [accepted,body,unstuff_stuff]
      refine if_neg (fun all => fits ?_)
      have size : (payload ++ trailer payload).length = payload.length + 2 := List.length_append
      omega
    simp [large,within,fits]

/-- An encoding completes what the history left open, and its own frame if that fits. -/
theorem frames_encoding (capacity : Nat) (history : Bytes) {payload : Bytes} (nonempty : payload ≠ []) :
    frames (after ({} : HdlcDecoder capacity) history) (encoding payload) =
      (pendingFrame capacity history).toList ++ within capacity [payload] := by
  have free : kFlag ∉ body payload := flag_not_mem_stuff _
  have opening : frames (after ({} : HdlcDecoder capacity) history) [kFlag] = (pendingFrame capacity history).toList := by
    rw [frames,completions,completions,completion_flag]
    cases pendingFrame capacity history <;> rfl
  have inside : frames (after ({} : HdlcDecoder capacity) (history ++ [kFlag])) (body payload) = [] := by
    rw [frames,completions_free _ free]
    simp [List.reduceOption]
  have closing : frames (after ({} : HdlcDecoder capacity) (history ++ [kFlag] ++ body payload)) [kFlag] =
      within capacity [payload] := by
    rw [frames,completions,completions,completion_flag,pendingFrame,if_pos (by simp),List.append_assoc]
    rw [show openPart kFlag (history ++ ([kFlag] ++ body payload)) = body payload from openPart_after_flag history free]
    rw [← accepted_body_toList nonempty]
    cases accepted capacity (body payload) <;> rfl
  have parts : encoding payload = [kFlag] ++ body payload ++ [kFlag] := by simp [encoding]
  rw [parts,frames_append,frames_append,← after_append,← after_append,opening,inside,← List.append_assoc,closing,List.append_nil]

/-- A stretch of the line: noise, or the encoding of a frame. -/
abbrev Stretch := Bytes ⊕ Bytes

def Stretch.bytes : Stretch → Bytes
  | .inl noise => noise
  | .inr payload => encoding payload

theorem within_cons (payload : Bytes) (line : List Stretch) :
    within capacity ((.inr payload :: line).filterMap Sum.getRight?) =
      within capacity [payload] ++ within capacity (line.filterMap Sum.getRight?) := List.filter_append (p := _) [payload] _

/-- Noise before, between and behind the frames costs none of them. -/
theorem frames_noisy (history : Bytes) {line : List Stretch} (whole : ∀ payload, .inr payload ∈ line → payload ≠ []) :
    (within capacity (line.filterMap Sum.getRight?)).Sublist
      (frames (after ({} : HdlcDecoder capacity) history) (line.flatMap Stretch.bytes)) := by
  induction line generalizing history with
  | nil => exact List.Sublist.slnil
  | cons stretch line ih =>
    have later := ih (history ++ Stretch.bytes stretch) (fun payload member => whole payload (List.mem_cons_of_mem _ member))
    rw [List.flatMap_cons,frames_append,← after_append]
    cases stretch with
    | inl noise => exact later.trans (List.sublist_append_right _ _)
    | inr payload =>
      have own := frames_encoding capacity history (whole payload (by simp))
      rw [within_cons]
      refine List.Sublist.append ?_ later
      rw [show Stretch.bytes (.inr payload) = encoding payload from rfl,own]
      exact List.sublist_append_right _ _

/-- Without noise they are all there is. -/
theorem frames_clean (history : Bytes) (idle : pendingFrame capacity history = none) {line : List Stretch}
    (whole : ∀ payload, .inr payload ∈ line → payload ≠ []) (clean : ∀ noise, .inl noise ∈ line → noise = []) :
    frames (after ({} : HdlcDecoder capacity) history) (line.flatMap Stretch.bytes) =
      within capacity (line.filterMap Sum.getRight?) := by
  induction line generalizing history with
  | nil => rfl
  | cons stretch line ih =>
    have later := fun idle => ih (history ++ Stretch.bytes stretch) idle
      (fun payload member => whole payload (List.mem_cons_of_mem _ member))
      (fun noise member => clean noise (List.mem_cons_of_mem _ member))
    rw [List.flatMap_cons,frames_append,← after_append]
    cases stretch with
    | inl noise =>
      obtain rfl := clean noise (by simp)
      exact later (by rwa [Stretch.bytes,List.append_nil])
    | inr payload =>
      have own := frames_encoding capacity history (whole payload (by simp))
      rw [idle] at own
      rw [later (pendingFrame_encoding history payload),within_cons]
      exact congrArg (· ++ _) own

end frames

/-! ### The line -/

inductive Item where
  | noise (bytes : Bytes)
  | sent (sender : Sender) (packet : PacketBuffer)

def Item.bytes : Item → Bytes
  | .noise bytes => bytes
  | .sent sender packet => sender.put packet

/-- The packet of an item, when its sender admits it. -/
def Item.packet : Item → Option PacketBuffer
  | .noise _ => none
  | .sent sender packet => if sender.admits packet then some packet else none

def Item.stretch : Item → Stretch
  | .noise bytes => .inl bytes
  | .sent sender packet => if sender.admits packet then .inr (canonical packet) else .inl []

/-- Header and payload of a packet. -/
def contents (packet : PacketBuffer) : Header × Bytes := (packet.header,packet.payload)

section line
variable {items : List Item}

theorem bytes_stretch (item : Item) (small : ∀ sender packet, item = .sent sender packet → packet.size + headerSize < 65536) :
    item.stretch.bytes = item.bytes := by
  cases item with
  | noise bytes => rfl
  | sent sender packet =>
    rw [Item.bytes,put_eq sender (small sender packet rfl),Item.stretch]
    split_ifs <;> rfl

theorem frames_stretch (items : List Item) :
    (items.map Item.stretch).filterMap Sum.getRight? = (items.filterMap Item.packet).map canonical := by
  rw [List.filterMap_map,List.map_filterMap]
  refine List.filterMap_congr ?_
  intro item _
  cases item with
  | noise bytes => rfl
  | sent sender packet =>
    simp only [Function.comp_apply,Item.stretch,Item.packet]
    split_ifs <;> rfl

theorem stretch_whole (items : List Item) (payload : Bytes) (member : .inr payload ∈ items.map Item.stretch) : payload ≠ [] := by
  obtain ⟨item,-,same⟩ := List.mem_map.mp member
  cases item with
  | noise bytes => cases same
  | sent sender packet =>
    simp only [Item.stretch] at same
    split_ifs at same
    cases same
    exact canonical_ne_nil packet

theorem stretch_silent (clean : ∀ bytes, .noise bytes ∈ items → bytes = []) (noise : Bytes)
    (member : .inl noise ∈ items.map Item.stretch) : noise = [] := by
  obtain ⟨item,found,same⟩ := List.mem_map.mp member
  cases item with
  | noise bytes =>
    cases same
    exact clean noise found
  | sent sender packet =>
    simp only [Item.stretch] at same
    split_ifs at same
    cases same
    rfl

theorem within_canonical (capacity : Nat) (packets : List PacketBuffer) :
    within capacity (packets.map canonical) = (packets.filter fun packet => headerSize + packet.size ≤ capacity).map canonical := by
  rw [within,List.filter_map]
  simp only [Function.comp_def,length_canonical]

theorem arrived_canonical {capacity : Nat} (fits : capacity ≤ 65535) (packets : List PacketBuffer) :
    ((within (headerSize + capacity) (packets.map canonical)).filterMap (receiveFrame capacity fits)).map contents =
      (packets.filter fun packet => packet.size ≤ capacity).map contents := by
  rw [within_canonical,List.filterMap_map,List.map_filterMap]
  simp only [Nat.add_le_add_iff_left]
  rw [← List.filterMap_eq_map]
  refine List.filterMap_congr ?_
  intro packet member
  have room := of_decide_eq_true (List.mem_filter.mp member).2
  have received := receiveFrame_canonical fits packet
  rw [if_pos room] at received
  exact received

theorem seen_canonical (maximumFrameSize : Nat) (packets : List PacketBuffer) :
    (within maximumFrameSize (packets.map canonical)).filterMap WireSpacesPacket.decode =
      (packets.filter fun packet => headerSize + packet.size ≤ maximumFrameSize).map hostView := by
  rw [within_canonical,List.filterMap_map,← List.filterMap_eq_map]
  exact List.filterMap_congr fun packet _ => decode_canonical packet

/-- Whoever put the packets on the line, and whatever noise came between them, the board's receiver and the host's
    get every packet they have room for, unchanged and in order, however the bytes are cut into reads; without
    noise they get nothing else. -/
theorem line_carries_packets (capacity maximumFrameSize : Nat) (fits : capacity ≤ 65535) (items : List Item)
    (small : ∀ sender packet, .sent sender packet ∈ items → packet.size + headerSize < 65536) (chunks : List Bytes)
    (cut : chunks.flatten = items.flatMap Item.bytes) :
    let sent := items.filterMap Item.packet
    let arrived := (processEach capacity fits {} chunks).2.map contents
    let seen := receivePackets maximumFrameSize chunks
    let here := (sent.filter fun packet => packet.size ≤ capacity).map contents
    let there := (sent.filter fun packet => headerSize + packet.size ≤ maximumFrameSize).map hostView
    here.Sublist arrived ∧ there.Sublist seen ∧
      ((∀ bytes, .noise bytes ∈ items → bytes = []) → arrived = here ∧ seen = there) := by
  intro sent arrived seen here there
  have line : chunks.flatten = (items.map Item.stretch).flatMap Stretch.bytes := by
    rw [cut,List.flatMap_map]
    refine List.flatMap_congr fun item member => ?_
    exact (bytes_stretch item (fun sender packet same => small sender packet (same ▸ member))).symm
  have whole := stretch_whole items
  have arrivedIs : arrived =
      ((frames ({} : HdlcDecoder (headerSize + capacity)) chunks.flatten).filterMap (receiveFrame capacity fits)).map contents := by
    simp only [arrived,processEach_eq]
  have seenIs : seen = (frames ({} : HdlcDecoder maximumFrameSize) chunks.flatten).filterMap WireSpacesPacket.decode := by
    have mirrors : HostLink.Mirrors ({} : HdlcDecoder maximumFrameSize) { maximumFrameSize := maximumFrameSize } :=
      ⟨rfl,rfl,rfl,rfl,rfl⟩
    simp only [seen,receivePackets,HostLink.feedChunks_mirrors mirrors]
  have hereIs := arrived_canonical fits sent
  have thereIs := seen_canonical maximumFrameSize sent
  rw [← frames_stretch] at hereIs thereIs
  refine ⟨?_,?_,fun clean => ?_⟩
  · rw [arrivedIs,line,show here = _ from hereIs.symm]
    exact ((frames_noisy [] whole).filterMap _).map _
  · rw [seenIs,line,show there = _ from thereIs.symm]
    exact (frames_noisy [] whole).filterMap _
  · have silent := stretch_silent clean
    constructor
    · rw [arrivedIs,line,show here = _ from hereIs.symm]
      exact congrArg (fun frames => (List.filterMap _ frames).map _) (frames_clean [] rfl whole silent)
    · rw [seenIs,line,show there = _ from thereIs.symm]
      exact congrArg (List.filterMap _) (frames_clean [] rfl whole silent)

end line

theorem one_fits : 1 ≤ 65535 := by decide

theorem twentyEight_fits : 28 ≤ 65535 := by decide

theorem one_held : 1 ≤ [(0x7E : U8)].length := Nat.le_refl 1

/-- A packet of one byte that has to be escaped. -/
def flagged : PacketBuffer := ⟨1,0,⟨0x81,⟨1⟩,⟨2⟩,⟨1⟩,⟨1⟩⟩,[0x7E],one_held,one_fits⟩

/-- Line noise between two copies of a packet, and a third one that the forwarder refuses. -/
def noisyLine : List Item :=
  [.sent (.forwarder 28) flagged,.noise [0x55,0x7E,0x7D],.sent .tool flagged,.sent (.forwarder 0) flagged]

theorem noisy_line_delivers :
    [contents flagged,contents flagged].Sublist ((processEach 28 twentyEight_fits {} [noisyLine.flatMap Item.bytes]).2.map contents) := by
  have carried := line_carries_packets 28 1024 twentyEight_fits noisyLine (by
    intro sender packet member
    have same : packet = flagged := by
      simp only [noisyLine,List.mem_cons,Item.sent.injEq,List.not_mem_nil,or_false,reduceCtorEq,false_or] at member
      rcases member with member | member | member <;> exact member.2
    subst same
    decide) [noisyLine.flatMap Item.bytes] (by simp)
  exact carried.1

end WireSpaces.UartLink
