import WireSpaces.HostReceiver
import WireSpaces.ReceiverCallbacks
import WireSpaces.ReceiverIngress
import WireSpaces.SessionTraffic

/-!
The board of the RAM loopback: a sink that keeps one uploaded object, the receiver
that fills it, and the transmitter that sends it back. A completed object is the
uploaded one, byte for byte, in whatever order and however often its segments came.
-/
namespace WireSpaces.RamTransfer
open WireSpaces.Words WireSpaces.Codec WireSpaces.Packet WireSpaces.SessionTraffic WireSpaces.ReceiverCallbacks
open WireSpaces.ReceiverEngine (Build Engine Environment TransferInfo TransferAdmission Callback)
open WireSpaces.ReceiverSteps (Admissible Fresh objectOffset advanced)
open WireSpaces.ReceiverWindow (Received)
open WireSpaces.ReceiverLifecycle (Lifecycle core)
open WireSpaces.Receiver (BitsReceiver Answers)
open WireSpaces.Transmitter (BitsTransmitter)
open WireSpaces.TransmitterSteps (slice segmentPdu)
open WireSpaces.Blocks (Agrees overwrite)

def kMaximumObjectSize : Nat := 256
def kSegmentPayloadSize : U16 := 24

/-! ### The sink -/

structure RamReceiverCallbacks where
  storage : Bytes := List.replicate kMaximumObjectSize 0
  receivedSize : U16 := 0
  objectComplete : Bool := false

def beginTransfer (info : TransferInfo) (ram : RamReceiverCallbacks) : RamReceiverCallbacks × TransferAdmission :=
  if ram.objectComplete then (ram,.kBusy)
  else if info.totalSize > ram.storage.length then (ram,.kTooLarge)
  else ({ ram with receivedSize := 0 },.kAccepted)

def releaseCompletedObject (ram : RamReceiverCallbacks) : RamReceiverCallbacks :=
  { ram with receivedSize := 0, objectComplete := false }

def onSegment (objectOffset : Nat) (payload : Bytes) (ram : RamReceiverCallbacks) : RamReceiverCallbacks × Bool :=
  if (objectOffset + payload.length) % 2 ^ 32 > ram.storage.length then (ram,false)
  else
    let segmentEnd := BitVec.ofNat 16 (objectOffset + payload.length)
    ({ ram with
      storage := overwrite ram.storage objectOffset payload
      receivedSize := if segmentEnd > ram.receivedSize then segmentEnd else ram.receivedSize },true)

def onTransferComplete (ram : RamReceiverCallbacks) : RamReceiverCallbacks := { ram with objectComplete := true }

def completedObject (ram : RamReceiverCallbacks) : Bytes :=
  if ram.objectComplete then ram.storage.take ram.receivedSize.toNat else []

/-- The sink behind one callback. -/
def after (ram : RamReceiverCallbacks) : Callback → RamReceiverCallbacks
  | .beginTransfer info _ => (beginTransfer info ram).1
  | .onTransferFailed _ => releaseCompletedObject ram
  | .onSegment objectOffset payload _ => (onSegment objectOffset payload ram).1
  | .onDatagram _ => ram
  | .onTransferComplete => onTransferComplete ram
  | .onTransferAborted _ => releaseCompletedObject ram

/-- The answers it gives from a state. -/
def answering (router : PacketBuffer → RouteResult) (ram : RamReceiverCallbacks) : Answers where
  beginTransfer info := (beginTransfer info ram).2
  onSegment objectOffset payload := (onSegment objectOffset payload ram).2
  router := router

/-! ### The board -/

structure Config where
  receiver : Receiver.Config
  transmitter : Transmitter.Config

structure BitsRamTransferApplication where
  receiver : BitsReceiver
  receiverCallbacks : RamReceiverCallbacks := {}
  transmitter : BitsTransmitter
  sessionId : U8 := 0x80

/-- The application as it is constructed over its packets. -/
def construct (segmentSlots : Receiver.Slots) (receiverDatagram receiverTransmit transmitterDatagram transmitterTransmit : PacketBuffer) :
    BitsRamTransferApplication where
  receiver := ReceiverIngress.fresh segmentSlots receiverDatagram receiverTransmit
  transmitter := { datagramIngress := transmitterDatagram, transmitPacket := transmitterTransmit }

/-- What the application reads and is answered in one turn of its loop. -/
structure Turn where
  receiveMs : U32
  startMs : U32
  transmitMs : U32
  segmentRouter : PacketBuffer → RouteResult
  datagramRouter : PacketBuffer → RouteResult
  transmitRouter : PacketBuffer → RouteResult

section board
variable (cfg : Config)

/-- The dispatch table: each endpoint checks its own connection. -/
def dispatch (app : BitsRamTransferApplication) (packet : PacketBuffer) : BitsRamTransferApplication :=
  if packet.header.endpoint = cfg.receiver.connection.endpoint then
    { app with receiver := (Receiver.receive cfg.receiver packet app.receiver).1 }
  else if packet.header.endpoint = cfg.transmitter.connection.endpoint then
    { app with transmitter := (Transmitter.receive cfg.transmitter packet app.transmitter).1 }
  else app

/-- `receiver_.process`: the datagram slot is drained with the sink the segment left. -/
def processReceiver (turn : Turn) (app : BitsRamTransferApplication) : BitsRamTransferApplication :=
  let answers := answering turn.segmentRouter app.receiverCallbacks
  let segment := Receiver.processSegment cfg.receiver answers turn.receiveMs app.receiver
  let behind := sinkAfter after app.receiverCallbacks app.receiver.engine segment.1.engine
  let processed := Receiver.process cfg.receiver answers (answering turn.datagramRouter behind) turn.receiveMs app.receiver
  { app with
    receiver := processed.1
    receiverCallbacks := sinkAfter after app.receiverCallbacks app.receiver.engine processed.1.engine }

def startEcho (nowMs : U32) (app : BitsRamTransferApplication) : BitsRamTransferApplication :=
  let sequence := nowMs.setWidth 8
  let started := Transmitter.startTransfer (completedObject app.receiverCallbacks) kSegmentPayloadSize app.sessionId sequence app.transmitter
  if started.2 ≠ .kStarted then { app with transmitter := started.1 }
  else
    { app with
      transmitter := started.1, receiverCallbacks := releaseCompletedObject app.receiverCallbacks
      sessionId := app.sessionId + 1 }

/-- One turn of the loop, behind the packets that the UART receiver dispatched. -/
def runOnce (turn : Turn) (heard : List PacketBuffer) (app : BitsRamTransferApplication) : BitsRamTransferApplication :=
  let app := processReceiver cfg turn (heard.foldl (dispatch cfg) app)
  let app := if app.receiverCallbacks.objectComplete && ! Transmitter.running app.transmitter.session then
    startEcho turn.startMs app else app
  { app with transmitter := (Transmitter.process cfg.transmitter turn.transmitRouter turn.transmitMs app.transmitter).1 }

end board

/-! ### What the sink keeps -/

def live (s : Engine) : Prop := s.state = .kActive ∨ s.state = .kCompleted

/-- An engine that hears one object's upload, and its sink: what was received is in
    its place, and a completed object is the whole one. -/
structure Uploads (b : Build) (setup : Setup) (object : Bytes) (s : Engine) (ram : RamReceiverCallbacks) : Prop where
  life : Lifecycle b s
  size : ram.storage.length = kMaximumObjectSize
  setup_is : live s → s.setup = setup ∧ object.length ≤ kMaximumObjectSize
  stored : live s → ∀ i, Received s i → ∀ place, i * setup.segmentSize.toNat ≤ place →
    place < i * setup.segmentSize.toNat + (slice object setup.segmentSize.toNat i).length → Agrees ram.storage object place
  growing : s.state = .kActive → ram.objectComplete = false ∧ ram.receivedSize.toNat ≤ object.length ∧
    ∀ i, Received s i → i * setup.segmentSize.toNat + (slice object setup.segmentSize.toNat i).length ≤ ram.receivedSize.toNat
  done : ram.objectComplete = true → s.state = .kCompleted ∧ ram.storage.take ram.receivedSize.toNat = object

section uploads
variable {b : Build} {setup : Setup} {object : Bytes} {s u : Engine} {ram : RamReceiverCallbacks}

theorem uploads_init (b : Build) (setup : Setup) (object : Bytes) : Uploads b setup object {} {} := by
  refine ⟨ReceiverLifecycle.lifecycle_init b,List.length_replicate,?_,?_,nofun,nofun⟩
  · rintro (active | completed)
    · cases active
    · cases completed
  · rintro (active | completed)
    · cases active
    · cases completed

theorem received_congr (same : core u = core s) (i : Nat) : Received u i ↔ Received s i := by
  have contiguous : u.contiguousCount = s.contiguousCount := congrArg (fun parts => parts.2.2.1) same
  have bitmap : u.receiveBitmap = s.receiveBitmap := congrArg (fun parts => parts.2.2.2.2.2) same
  rw [Received,Received,contiguous,bitmap]

/-- A call that keeps the window and the sink. -/
theorem Uploads.same (uploads : Uploads b setup object s ram) (life : Lifecycle b u) (same : core u = core s)
    (state : u.state = s.state) : Uploads b setup object u ram := by
  have setups : u.setup = s.setup := congrArg (fun parts => parts.1) same
  refine ⟨life,uploads.size,?_,?_,?_,?_⟩
  · rw [live,state,setups]
    exact uploads.setup_is
  · rw [live,state]
    intro lives i received
    exact uploads.stored lives i ((received_congr same i).mp received)
  · rw [state]
    intro active
    obtain ⟨incomplete,below,ends⟩ := uploads.growing active
    exact ⟨incomplete,below,fun i received => ends i ((received_congr same i).mp received)⟩
  · rw [state]
    exact uploads.done

/-- A transfer that ended leaves nothing to echo. -/
theorem Uploads.ended (size : ram.storage.length = kMaximumObjectSize) (life : Lifecycle b u)
    (dead : u.state = .kError ∨ u.state = .kAborted) : Uploads b setup object u (releaseCompletedObject ram) := by
  have unlive : ¬ live u := by
    rintro (active | completed)
    · rw [active] at dead
      simp at dead
    · rw [completed] at dead
      simp at dead
  exact ⟨life,size,fun lives => absurd lives unlive,fun lives => absurd lives unlive,fun active => absurd (.inl active) unlive,nofun⟩

theorem outbound_setup {granted : Nat} {message : Bytes} (heard : Outbound setup object granted message)
    (typed : hasType message .kSetup = true) {requested : Setup} (decoded : decodeSetupKnownType message = some requested) :
    requested = setup := by
  rcases heard with rfl | ⟨i,-,-,rfl⟩ | other
  · rw [decodeSetup_setupBytes] at decoded
    exact (Option.some.inj decoded).symm
  · simp [segmentPdu,segmentHeaderBytes,hasType_encodeControl] at typed
  · rw [other.1] at typed
    cases typed

/-- An accepted SETUP empties the sink's count and nothing else. -/
theorem Uploads.begun (uploads : Uploads b setup object s ram) (describes : Describes setup object) (life : Lifecycle b u)
    {nowMs : U32} (admissible : Admissible b setup)
    (accepted : (beginTransfer (ReceiverEngine.transferInfo setup) ram).2 = .kAccepted)
    (started : core u = core (ReceiverEngine.startReceiving b setup nowMs s)) :
    Uploads b setup object u (beginTransfer (ReceiverEngine.transferInfo setup) ram).1 := by
  unfold beginTransfer at accepted ⊢
  split_ifs at accepted ⊢ with complete large
  have total : setupTotalSize setup ≤ kMaximumObjectSize := uploads.size ▸ not_lt.mp large
  obtain ⟨-,setupIs,none,-⟩ := ReceiverWindow.startReceiving_window admissible nowMs s
  have unreceived (i : Nat) : ¬ Received u i := fun received => none i ((received_congr started i).mp received)
  have exactTotal : setupTotalSize setup = object.length := by
    rw [describes.length]
    exact Geometry.setupTotalSize_exact setup
  refine ⟨life,uploads.size,fun _ => ⟨?_,exactTotal ▸ total⟩,fun _ i received => absurd received (unreceived i),fun _ => ?_,
    fun done => absurd done complete⟩
  · rw [show u.setup = _ from congrArg (fun parts => parts.1) started]
    exact setupIs
  · exact ⟨by simpa using complete,Nat.zero_le _,fun i received => absurd received (unreceived i)⟩

/-- The slice of an index fits the storage, and its end fits 16 bits. -/
theorem onSegment_slice (describes : Describes setup object) (size : ram.storage.length = kMaximumObjectSize)
    (fits : object.length ≤ kMaximumObjectSize) {index : Nat} (known : index ≤ setup.finalSegmentIndex.toNat) :
    let offset := index * setup.segmentSize.toNat
    let payload := slice object setup.segmentSize.toNat index
    let stop := offset + payload.length
    stop ≤ object.length ∧ ∃ received : U16, received.toNat = max ram.receivedSize.toNat stop ∧
      onSegment offset payload ram = ({ ram with storage := overwrite ram.storage offset payload, receivedSize := received },true) := by
  intro offset payload stop
  have inside : stop ≤ object.length := describes.stop_le known
  have small : kMaximumObjectSize = 256 := rfl
  have endIs : (BitVec.ofNat 16 stop).toNat = stop := by
    rw [BitVec.toNat_ofNat,Nat.mod_eq_of_lt (by omega)]
  have room : ¬ (offset + payload.length) % 2 ^ 32 > ram.storage.length := by
    rw [Nat.mod_eq_of_lt (show stop < 2 ^ 32 by omega)]
    show ¬ stop > _
    omega
  refine ⟨inside,_,?_,by rw [onSegment,if_neg room]⟩
  split
  · rename_i above
    have above : ram.receivedSize.toNat < stop := endIs ▸ above
    exact endIs.trans (max_eq_right above.le).symm
  · rename_i below
    have below : stop ≤ ram.receivedSize.toNat := endIs ▸ not_lt.mp below
    exact (max_eq_left below).symm

/-- The sink behind a fresh segment, against the window behind it. -/
structure Placed (setup : Setup) (object : Bytes) (u : Engine) (ram : RamReceiverCallbacks) : Prop where
  size : ram.storage.length = kMaximumObjectSize
  setup_is : u.setup = setup ∧ object.length ≤ kMaximumObjectSize
  incomplete : ram.objectComplete = false
  below : ram.receivedSize.toNat ≤ object.length
  ends : ∀ i, Received u i → i * setup.segmentSize.toNat + (slice object setup.segmentSize.toNat i).length ≤ ram.receivedSize.toNat
  stored : ∀ i, Received u i → ∀ place, i * setup.segmentSize.toNat ≤ place →
    place < i * setup.segmentSize.toNat + (slice object setup.segmentSize.toNat i).length → Agrees ram.storage object place

/-- A fresh segment is put in its place. -/
theorem Uploads.placed (uploads : Uploads b setup object s ram) (describes : Describes setup object)
    {granted index : Nat} {message payload : Bytes} (heard : Outbound setup object granted message)
    (fresh : Fresh b s message index payload) (moved : core u = core (advanced b index payload s)) :
    Placed setup object u (onSegment (objectOffset b s index) payload ram).1 := by
  have lives : live s := .inl fresh.active
  obtain ⟨a,-,current⟩ := uploads.life.live lives
  obtain ⟨setupIs,fits⟩ := uploads.setup_is lives
  obtain ⟨incomplete,below,ends⟩ := uploads.growing fresh.active
  have adds := ReceiverWindow.advanced_adds current.window fresh
  have count := current.window.count
  have known : index ≤ setup.finalSegmentIndex.toNat := by
    have := fresh.known
    rw [setupIs] at count
    omega
  have content : payload = slice object setup.segmentSize.toNat index := by
    rw [fresh.content]
    exact (heard_segment (.inl heard) fresh.typed fresh.small (setupIs ▸ fresh.header)).2
  have offset : objectOffset b s index = index * setup.segmentSize.toNat := by
    rw [current.window.objectOffset_eq fresh,setupIs]
  obtain ⟨inside,received,receivedIs,written⟩ := onSegment_slice describes uploads.size fits known
  have cases_of (i : Nat) (now : Received u i) : Received s i ∨ i = index := (adds.received i).mp ((received_congr moved i).mp now)
  have room : index * setup.segmentSize.toNat + (slice object setup.segmentSize.toNat index).length ≤ ram.storage.length := by
    rw [uploads.size]
    exact inside.trans fits
  rw [offset,content,written]
  refine ⟨(Blocks.length_overwrite room).trans uploads.size,⟨?_,fits⟩,incomplete,?_,fun i now => ?_,fun i now place start stop => ?_⟩
  · rw [show u.setup = _ from congrArg (fun parts => parts.1) moved]
    exact adds.setup.trans setupIs
  · rw [receivedIs]
    exact max_le below inside
  · rw [receivedIs]
    rcases cases_of i now with before | rfl
    · exact (ends i before).trans (le_max_left _ _)
    · exact le_max_right _ _
  · refine Blocks.agrees_overwrite room ?_
    rcases cases_of i now with before | rfl
    · exact .inl (uploads.stored lives i before place start stop)
    · exact .inr ⟨start,stop⟩

theorem Placed.active (placed : Placed setup object u ram) (life : Lifecycle b u) : Uploads b setup object u ram :=
  ⟨life,placed.size,fun _ => placed.setup_is,fun _ => placed.stored,fun _ => ⟨placed.incomplete,placed.below,placed.ends⟩,
    fun done => absurd (placed.incomplete.symm.trans done) (by decide)⟩

/-- With every segment in its place the sink holds the object. -/
theorem Placed.complete (placed : Placed setup object u ram) (describes : Describes setup object) (life : Lifecycle b u)
    (full : u.contiguousCount = setup.finalSegmentIndex.toNat + 1) (state : u.state = .kCompleted) :
    Uploads b setup object u (onTransferComplete ram) := by
  have all (i : Nat) (known : i ≤ setup.finalSegmentIndex.toNat) : Received u i := .inl (by omega)
  have last := placed.ends _ (all _ le_rfl)
  have whole : ram.receivedSize.toNat = object.length := by
    refine le_antisymm placed.below ?_
    have final : describes.cut.length setup.finalSegmentIndex.toNat = setup.finalSegmentSize.toNat := describes.cut.length_final
    rw [describes.slice_length le_rfl,final] at last
    rwa [describes.length]
  refine ⟨life,placed.size,fun _ => placed.setup_is,fun _ => placed.stored,fun active => ?_,fun _ => ⟨state,?_⟩⟩
  · rw [state] at active
    cases active
  · show ram.storage.take ram.receivedSize.toNat = object
    rw [whole]
    refine Blocks.take_of_agrees fun place inside => ?_
    obtain ⟨i,known,start,stop⟩ := describes.cover inside
    exact placed.stored i (all i known) place start stop

theorem beginTransfer_refused {info : TransferInfo} (other : (beginTransfer info ram).2 ≠ .kAccepted) :
    (beginTransfer info ram).1 = ram := by
  unfold beginTransfer at other ⊢
  split_ifs at other ⊢ with complete large
  · rfl
  · rfl
  · exact absurd rfl other

/-- Whatever a message of the upload causes, the sink stays in step. -/
theorem Uploads.made (uploads : Uploads b setup object s ram) (describes : Describes setup object) {granted : Nat}
    {message : Bytes} (heard : Outbound setup object granted message) {env : Environment}
    (begins : ∀ info, env.beginTransfer info = (beginTransfer info ram).2) {nowMs : U32} (life : Lifecycle b u)
    {calls : List Callback} (made : Made b env message nowMs s calls u) :
    Uploads b setup object u (calls.foldl after ram) := by
  cases made with
  | none same state => exact uploads.same life same state
  | failed same active state => exact .ended uploads.size life (.inl state)
  | refused other same state =>
    rw [begins] at other
    show Uploads b setup object u (beginTransfer _ ram).1
    rw [beginTransfer_refused other]
    exact uploads.same life same state
  | began typed decoded admissible idle accepted started ending =>
    obtain rfl := outbound_setup heard typed decoded
    have begun := uploads.begun describes life admissible ((begins _).symm.trans accepted) started
    rcases ending with ⟨rfl,-⟩ | ⟨rfl,state⟩
    · exact begun
    · exact .ended begun.size life (.inl state)
  | took fresh takes moved continues =>
    have placed := uploads.placed describes heard fresh moved
    cases continues with
    | complete full state =>
      obtain ⟨a,-,current⟩ := uploads.life.live (.inl fresh.active)
      rw [current.window.count,(uploads.setup_is (.inl fresh.active)).1] at full
      exact placed.complete describes life full state
    | more short state => exact placed.active life
    | failed short state => exact .ended placed.size life (.inl state)
  | sinkRefused fresh refuses same state =>
    exact .ended (uploads.placed describes heard fresh rfl).size life (.inl state)
  | aborted same active state => exact .ended uploads.size life (.inr state)
  | datagram payload same state => exact uploads.same life same state

/-- One message of the upload, and the sink behind it. -/
theorem Uploads.process (uploads : Uploads b setup object s ram) (describes : Describes setup object) {granted : Nat}
    {message : Bytes} (heard : Outbound setup object granted message) {env : Environment}
    (begins : ∀ info, env.beginTransfer info = (beginTransfer info ram).2) (nowMs : U32) :
    let u := (ReceiverEngine.process b env message nowMs s).1
    Uploads b setup object u (sinkAfter after ram s u) ∧ ∃ calls, Makes s calls u := by
  intro u
  have life : Lifecycle b u :=
    ReceiverLifecycle.lifecycle_steps uploads.life (ReceiverSteps.call_steps s (.process message nowMs,env))
  obtain ⟨calls,makes,made⟩ := process_handles b env message nowMs s
  rw [sinkAfter_eq after makes]
  exact ⟨uploads.made describes heard begins life made,calls,makes⟩

/-- The expiry check, and the sink behind it. -/
theorem Uploads.poll (uploads : Uploads b setup object s ram) (describes : Describes setup object) (env : Environment)
    (begins : ∀ info, env.beginTransfer info = (beginTransfer info ram).2) (nowMs : U32) :
    let u := (ReceiverEngine.poll b env nowMs s).1
    Uploads b setup object u (sinkAfter after ram s u) := by
  intro u
  have life : Lifecycle b u :=
    ReceiverLifecycle.lifecycle_steps uploads.life (ReceiverSteps.call_steps s (.poll nowMs,env))
  obtain ⟨calls,makes,made⟩ := poll_handles b env [] nowMs s
  have silent : Outbound setup object 0 [] := .inr (.inr ⟨rfl,rfl⟩)
  rw [sinkAfter_eq after makes]
  exact uploads.made describes silent begins life made

end uploads

/-! ### The receiver around it -/

section receiver
open WireSpaces.ReceiverIngress (pending pendingSegments pendingDatagrams)
variable {cfg : Receiver.Config} {setup : Setup} {object : Bytes} {granted : Nat} {r : BitsReceiver} {ram : RamReceiverCallbacks}

/-- Everything that waits in the receiver's slots is of the upload. -/
def Waiting (setup : Setup) (object : Bytes) (granted : Nat) (r : BitsReceiver) : Prop :=
  ∀ message ∈ pending r, Outbound setup object granted message

theorem waiting_receive (cfg : Receiver.Config) (waiting : Waiting setup object granted r) (packet : PacketBuffer)
    (known : Outbound setup object granted packet.payload) :
    Waiting setup object granted (Receiver.receive cfg packet r).1 ∧ (Receiver.receive cfg packet r).1.engine = r.engine := by
  obtain ⟨-,conserved⟩ := ReceiverIngress.receive_conserves cfg packet r
  refine ⟨fun message member => ?_,?_⟩
  · rcases List.mem_append.mp (conserved.mem_iff.mp member) with new | old
    · simp only [ReceiverIngress.accepted] at new
      split at new
      · rw [List.mem_singleton.mp new]
        exact known
      · cases new
    · exact waiting message old
  · have received := ReceiverEffects.receive_received cfg packet r
    generalize (Receiver.receive cfg packet r).1 = r' at received ⊢
    cases received <;> rfl

/-- What one drain leaves of the sink and of what waits. -/
structure Drained (cfg : Receiver.Config) (setup : Setup) (object : Bytes) (granted : Nat) (ram : RamReceiverCallbacks)
    (r r' : BitsReceiver) : Prop where
  uploads : Uploads cfg.build setup object r'.engine (sinkAfter after ram r.engine r'.engine)
  makes : ∃ calls, Makes r.engine calls r'.engine
  waiting : Waiting setup object granted r'

theorem Drained.quiet {r' : BitsReceiver} (uploads : Uploads cfg.build setup object r.engine ram)
    (waiting : Waiting setup object granted r') (same : r'.engine = r.engine) : Drained cfg setup object granted ram r r' := by
  have none : Makes r.engine [] r'.engine := .refl (by rw [same])
  refine ⟨?_,⟨[],none⟩,waiting⟩
  rw [sinkAfter_eq after none,same]
  exact uploads

theorem Drained.delivered {r' : BitsReceiver} {message : Bytes} {nowMs : U32} {env : Environment} (describes : Describes setup object)
    (uploads : Uploads cfg.build setup object r.engine ram) (heard : Outbound setup object granted message)
    (engine : r'.engine = (ReceiverEngine.process cfg.build env message nowMs r.engine).1)
    (waiting : Waiting setup object granted r') (begins : ∀ info, env.beginTransfer info = (beginTransfer info ram).2) :
    Drained cfg setup object granted ram r r' := by
  obtain ⟨next,makes⟩ := uploads.process describes heard begins nowMs
  rw [← engine] at next makes
  exact ⟨next,makes,waiting⟩

theorem processSegment_drained (describes : Describes setup object) (uploads : Uploads cfg.build setup object r.engine ram)
    (waiting : Waiting setup object granted r) (router : PacketBuffer → RouteResult) (nowMs : U32) :
    Drained cfg setup object granted ram r (Receiver.processSegment cfg (answering router ram) nowMs r).1 := by
  obtain ⟨segments,drains,-,datagrams⟩ := ReceiverIngress.processSegment_drains cfg (answering router ram) (answering router ram) nowMs r
  have left : Waiting setup object granted (Receiver.processSegment cfg (answering router ram) nowMs r).1 := by
    intro message member
    rcases List.mem_append.mp member with segment | datagram
    · exact waiting message (List.mem_append_left _ (drains.fromSlots.mem_iff.mpr (List.mem_append_right _ segment)))
    · exact waiting message (List.mem_append_right _ (datagrams ▸ datagram))
  cases lowest : Receiver.lowestOccupied r.segmentOccupiedMask with
  | none =>
    have same : (Receiver.processSegment cfg (answering router ram) nowMs r).1 = r := by
      rw [Receiver.processSegment,lowest]
    rw [same]
    exact .quiet uploads waiting rfl
  | some index =>
    obtain ⟨inside,set⟩ := ReceiverIngress.lowestOccupied_some lowest
    have held : ReceiverIngress.held r index = some (((r.segmentIngress.getD index none).map PacketBuffer.payload).getD []) := if_pos set
    have heard := waiting _ (List.mem_append_left _ (List.mem_filterMap.mpr ⟨index,List.mem_range.mpr inside,held⟩))
    have engine := (ReceiverIngress.deliver_spec cfg (answering router ram)
      (((r.segmentIngress.getD index none).map PacketBuffer.payload).getD []) nowMs
      { r with segmentOccupiedMask := r.segmentOccupiedMask &&& ~~~(1#16 <<< index) }).2.2
    rw [Receiver.processSegment,lowest] at left ⊢
    exact .delivered describes uploads heard engine left fun _ => rfl

theorem processDatagram_drained (describes : Describes setup object) (uploads : Uploads cfg.build setup object r.engine ram)
    (waiting : Waiting setup object granted r) (router : PacketBuffer → RouteResult) (nowMs : U32)
    (result : ReceiverEngine.ProcessResult) :
    Drained cfg setup object granted ram r (Receiver.processDatagram cfg (answering router ram) nowMs result r).1 := by
  obtain ⟨drains,empty⟩ := ReceiverIngress.processDatagram_drains cfg (answering router ram) (answering router ram) nowMs result r
  have left : Waiting setup object granted (Receiver.processDatagram cfg (answering router ram) nowMs result r).1 := by
    intro message member
    rcases List.mem_append.mp member with segment | datagram
    · exact waiting message (List.mem_append_left _ (drains.fromSlots.mem_iff.mpr segment))
    · rw [empty] at datagram
      cases datagram
  by_cases occupied : r.datagramOccupied = true
  · have heard := waiting r.datagramIngress.payload (List.mem_append_right _ (by simp [pendingDatagrams,occupied]))
    have engine : (Receiver.processDatagram cfg (answering router ram) nowMs result r).1.engine =
        (ReceiverEngine.process cfg.build (Receiver.environment cfg (answering router ram) r) r.datagramIngress.payload nowMs
          r.engine).1 := by
      rw [Receiver.processDatagram,if_pos occupied]
      dsimp only
      split <;> exact (ReceiverIngress.deliver_spec cfg (answering router ram) r.datagramIngress.payload nowMs r).2.2
    exact .delivered describes uploads heard engine left fun _ => rfl
  · have same : (Receiver.processDatagram cfg (answering router ram) nowMs result r).1 = r := by
      rw [Receiver.processDatagram,if_neg occupied]
    rw [same]
    exact .quiet uploads waiting rfl

/-- The receiver's `process`, and the sink behind it. -/
theorem process_drained (describes : Describes setup object) (uploads : Uploads cfg.build setup object r.engine ram)
    (waiting : Waiting setup object granted r) (segmentRouter datagramRouter : PacketBuffer → RouteResult) (nowMs : U32) :
    let behind := sinkAfter after ram r.engine (Receiver.processSegment cfg (answering segmentRouter ram) nowMs r).1.engine
    Drained cfg setup object granted ram r
      (Receiver.process cfg (answering segmentRouter ram) (answering datagramRouter behind) nowMs r).1 := by
  intro behind
  by_cases expired : (ReceiverEngine.poll cfg.build (Receiver.environment cfg (answering segmentRouter ram) r) nowMs r.engine).2 = .kError
  · have empty := (ReceiverIngress.process_expired (answering segmentRouter ram) (answering datagramRouter behind) nowMs expired).2.1
    have engine : (Receiver.process cfg (answering segmentRouter ram) (answering datagramRouter behind) nowMs r).1.engine =
        (ReceiverEngine.poll cfg.build (Receiver.environment cfg (answering segmentRouter ram) r) nowMs r.engine).1 := by
      rw [Receiver.process,if_pos expired]
      exact (ReceiverEffects.settle_ingress cfg _ _ r).2
    obtain ⟨calls,makes,-⟩ := poll_handles cfg.build (Receiver.environment cfg (answering segmentRouter ram) r) [] nowMs r.engine
    have polled := uploads.poll describes (Receiver.environment cfg (answering segmentRouter ram) r) (fun _ => rfl) nowMs
    rw [← engine] at makes polled
    exact ⟨polled,⟨calls,makes⟩,fun message member => by rw [empty] at member; cases member⟩
  · have idle : (ReceiverEngine.poll cfg.build (Receiver.environment cfg (answering segmentRouter ram) r) nowMs r.engine).1 = r.engine := by
      revert expired
      unfold ReceiverEngine.poll
      split
      · exact fun _ => rfl
      · exact fun alive => absurd rfl alive
    have first := processSegment_drained describes uploads waiting segmentRouter nowMs
    have second := processDatagram_drained describes first.uploads first.waiting datagramRouter nowMs
      (Receiver.processSegment cfg (answering segmentRouter ram) nowMs r).2
    have processed : Receiver.process cfg (answering segmentRouter ram) (answering datagramRouter behind) nowMs r =
        Receiver.processDatagram cfg (answering datagramRouter behind) nowMs
          (Receiver.processSegment cfg (answering segmentRouter ram) nowMs r).2
          (Receiver.processSegment cfg (answering segmentRouter ram) nowMs r).1 := by
      rw [Receiver.process,if_neg expired,idle]
    obtain ⟨calls,makes⟩ := first.makes
    obtain ⟨more,then_makes⟩ := second.makes
    rw [processed]
    refine ⟨?_,⟨_,makes.trans then_makes⟩,second.waiting⟩
    rw [← sinkAfter_trans after makes then_makes]
    exact second.uploads

end receiver

/-! ### The echo -/

/-- What the transmitter of an echo may say: a SETUP of the object, one of its
    segments, or a message that is neither. -/
inductive Echoed (object : Bytes) : Bytes → Prop where
  | setup {setup : Setup} (describes : Describes setup object) (size : setup.segmentSize = kSegmentPayloadSize) :
      Echoed object (setupBytes setup)
  | segment {setup : Setup} {index : Nat} (describes : Describes setup object) (size : setup.segmentSize = kSegmentPayloadSize)
      (known : index ≤ setup.finalSegmentIndex.toNat) : Echoed object (segmentPdu setup object index)
  | other {message : Bytes} (plain : hasType message .kSetup = false ∧ hasType message .kSegment = false) : Echoed object message

/-- A transmitter all of whose transfers were of one object. -/
structure Echoes (object : Bytes) (t : BitsTransmitter) : Prop where
  guarded : TransmitterSteps.Guarded t
  session : Transmitter.running t.session = true → t.session.object = object ∧ t.session.setup.segmentSize = kSegmentPayloadSize
  said : ∀ packet result, .forward packet result ∈ t.trace → Echoed object packet.payload

section echo
open WireSpaces.TransmitterSteps (Guarded SendWindow Step Steps)
variable {object : Bytes} {t u : BitsTransmitter}

theorem describes_session (window : SendWindow t) : Describes t.session.setup t.session.object :=
  ⟨window.total.symm,window.final,window.final_le⟩

/-- One more event, in the same transfer or behind it. -/
theorem Echoes.event (echoes : Echoes object t) (guarded : Guarded u) {event : Transmitter.Event}
    (trace : u.trace = t.trace ++ [event])
    (session : Transmitter.running u.session = true → Transmitter.running t.session = true ∧ u.session.object = t.session.object ∧
      u.session.setup = t.session.setup)
    (new : ∀ packet result, event = .forward packet result → Echoed object packet.payload) : Echoes object u := by
  refine ⟨guarded,fun runs => ?_,fun packet result member => ?_⟩
  · obtain ⟨before,objectIs,setupIs⟩ := session runs
    rw [objectIs,setupIs]
    exact echoes.session before
  · rw [trace] at member
    rcases List.mem_append.mp member with old | last
    · exact echoes.said packet result old
    · exact new packet result (List.mem_singleton.mp last).symm

/-- No event, and no other transfer. -/
theorem Echoes.keep (echoes : Echoes object t) (guarded : Guarded u) (trace : u.trace = t.trace)
    (session : Transmitter.running u.session = true → Transmitter.running t.session = true ∧ u.session.object = t.session.object ∧
      u.session.setup = t.session.setup) : Echoes object u := by
  refine ⟨guarded,fun runs => ?_,fun packet result member => echoes.said packet result (trace ▸ member)⟩
  obtain ⟨before,objectIs,setupIs⟩ := session runs
  rw [objectIs,setupIs]
  exact echoes.session before

/-- A segment of the running transfer. -/
theorem Echoes.segment (echoes : Echoes object t) (active : t.session.state = .kActive) {index : Nat}
    (granted : index < t.session.grantedEnd) : Echoed object (segmentPdu t.session.setup t.session.object index) := by
  have runs := TransmitterSteps.running_iff.mpr (.inr active)
  have window := echoes.guarded runs
  obtain ⟨objectIs,size⟩ := echoes.session runs
  have describes := describes_session window
  have inside := window.granted
  have count := window.count
  rw [objectIs] at describes ⊢
  exact .segment describes size (by omega)

/-- Whatever a transmitter is called for, as long as it starts transfers of the object only. -/
theorem echoes_step {c : Transmitter.Call} (echoes : Echoes object t) (step : Step c t u)
    (starts : ∀ started segmentSize sessionId initialSequenceNumber,
      c = .startTransfer started segmentSize sessionId initialSequenceNumber → started = object ∧ segmentSize = kSegmentPayloadSize) :
    Echoes object u := by
  have guarded := TransmitterSteps.guarded_step echoes.guarded step
  cases step with
  | note same =>
    simp only [TransmitterSteps.core,TransmitterSteps.windowFields,Prod.mk.injEq] at same
    obtain ⟨-,-,state,trace,-,objectIs,setupIs,-⟩ := same
    refine echoes.keep guarded trace fun runs => ⟨?_,objectIs,setupIs⟩
    rwa [Transmitter.running,state] at runs
  | aside beside =>
    exact echoes.event guarded rfl (fun runs => ⟨runs,rfl,rfl⟩)
      fun packet result forward => .other (TransmitterWindow.aside_types beside forward)
  | setup result starting payload =>
    refine echoes.event guarded rfl (fun runs => ⟨runs,rfl,rfl⟩) fun packet' result' forward => ?_
    cases forward
    have runs := TransmitterSteps.running_iff.mpr (.inl starting)
    obtain ⟨objectIs,size⟩ := echoes.session runs
    rw [payload]
    exact .setup (objectIs ▸ describes_session (echoes.guarded runs)) size
  | take called copied => exact echoes.keep guarded rfl fun runs => ⟨runs,rfl,rfl⟩
  | drain => exact echoes.keep guarded rfl fun runs => ⟨runs,rfl,rfl⟩
  | start called startable =>
    obtain ⟨rfl,rfl⟩ := starts _ _ _ _ called
    rw [TransmitterSteps.startTransfer_eq _ _ startable] at guarded ⊢
    refine ⟨guarded,fun _ => ⟨rfl,rfl⟩,fun packet result member => ?_⟩
    rcases List.mem_append.mp member with old | last
    · exact echoes.said packet result old
    · cases List.mem_singleton.mp last
  | refused active granted notAccepted payload =>
    refine echoes.event guarded rfl (fun runs => ⟨runs,rfl,rfl⟩) fun packet' result' forward => ?_
    cases forward
    rw [payload]
    exact echoes.segment active granted
  | segment active granted lower payload =>
    refine echoes.event guarded rfl (fun runs => ⟨runs,rfl,rfl⟩) fun packet' result' forward => ?_
    cases forward
    rw [payload]
    exact echoes.segment active granted
  | ack called typed decoded applies short =>
    refine echoes.keep guarded rfl fun _ => ⟨(TransmitterSteps.ackApplies_iff.mp applies).running,?_,?_⟩
    · exact TransmitterSteps.acknowledge_object _ _
    · exact TransmitterSteps.acknowledge_setup _ _
  | complete called typed decoded applies full =>
    refine echoes.event guarded rfl (fun runs => ?_) fun packet' result' forward => ?_
    · cases runs
    · cases forward
  | close dead =>
    refine echoes.keep guarded rfl fun runs => ?_
    rcases dead with rfl | rfl | rfl <;> cases runs

theorem echoes_steps {c : Transmitter.Call} (echoes : Echoes object t) (steps : Steps c t u)
    (starts : ∀ started segmentSize sessionId initialSequenceNumber,
      c = .startTransfer started segmentSize sessionId initialSequenceNumber → started = object ∧ segmentSize = kSegmentPayloadSize) :
    Echoes object u := by
  induction steps with
  | refl => exact echoes
  | tail _ step ih => exact echoes_step ih step starts

end echo

/-! ### The whole board -/

/-- A board whose uploads were all of one object. -/
structure Mirrors (cfg : Config) (setup : Setup) (object : Bytes) (granted : Nat) (app : BitsRamTransferApplication) : Prop where
  uploads : Uploads cfg.receiver.build setup object app.receiver.engine app.receiverCallbacks
  waiting : Waiting setup object granted app.receiver
  echoes : Echoes object app.transmitter

section mirrors
variable {cfg : Config} {setup : Setup} {object : Bytes} {granted : Nat} {app : BitsRamTransferApplication}

theorem mirrors_construct (cfg : Config) (setup : Setup) (object : Bytes) (granted : Nat) (segmentSlots : Receiver.Slots)
    (receiverDatagram receiverTransmit transmitterDatagram transmitterTransmit : PacketBuffer) :
    Mirrors cfg setup object granted
      (construct segmentSlots receiverDatagram receiverTransmit transmitterDatagram transmitterTransmit) := by
  refine ⟨uploads_init cfg.receiver.build setup object,?_,⟨?_,?_,?_⟩⟩
  · intro message member
    exact absurd member (ReceiverIngress.pending_fresh segmentSlots receiverDatagram receiverTransmit ▸ List.not_mem_nil)
  · intro running
    cases running
  · intro running
    cases running
  · intro packet result member
    cases member

theorem Mirrors.mono {granted' : Nat} (mirrors : Mirrors cfg setup object granted app) (le : granted ≤ granted') :
    Mirrors cfg setup object granted' app :=
  ⟨mirrors.uploads,fun message member => (mirrors.waiting message member).mono le,mirrors.echoes⟩

theorem mirrors_dispatch (mirrors : Mirrors cfg setup object granted app) (packet : PacketBuffer)
    (known : packet.header.endpoint = cfg.receiver.connection.endpoint → Outbound setup object granted packet.payload) :
    Mirrors cfg setup object granted (dispatch cfg app packet) := by
  unfold dispatch
  split
  · rename_i upload
    obtain ⟨waiting,same⟩ := waiting_receive cfg.receiver mirrors.waiting packet (known upload)
    refine ⟨?_,waiting,mirrors.echoes⟩
    rw [same]
    exact mirrors.uploads
  split
  · exact ⟨mirrors.uploads,mirrors.waiting,
      echoes_steps mirrors.echoes (TransmitterSteps.receive_steps cfg.transmitter rfl app.transmitter) nofun⟩
  · exact mirrors

theorem mirrors_dispatches (mirrors : Mirrors cfg setup object granted app) {heard : List PacketBuffer}
    (known : ∀ packet ∈ heard, packet.header.endpoint = cfg.receiver.connection.endpoint → Outbound setup object granted packet.payload) :
    Mirrors cfg setup object granted (heard.foldl (dispatch cfg) app) := by
  induction heard generalizing app with
  | nil => exact mirrors
  | cons packet rest ih =>
    have first := mirrors_dispatch mirrors packet (known packet (List.mem_cons_self ..))
    exact ih first fun later member => known later (List.mem_cons_of_mem _ member)

theorem mirrors_process (describes : Describes setup object) (mirrors : Mirrors cfg setup object granted app) (turn : Turn) :
    Mirrors cfg setup object granted (processReceiver cfg turn app) := by
  have drained := process_drained describes mirrors.uploads mirrors.waiting turn.segmentRouter turn.datagramRouter turn.receiveMs
  exact ⟨drained.uploads,drained.waiting,mirrors.echoes⟩

/-- The echo is of the uploaded object, and releasing it forgets nothing that a running upload needs. -/
theorem mirrors_startEcho (mirrors : Mirrors cfg setup object granted app) (complete : app.receiverCallbacks.objectComplete = true)
    (nowMs : U32) : Mirrors cfg setup object granted (startEcho nowMs app) := by
  obtain ⟨state,content⟩ := mirrors.uploads.done complete
  have whole : completedObject app.receiverCallbacks = object := by rw [completedObject,if_pos complete,content]
  have echoes : Echoes object (Transmitter.startTransfer (completedObject app.receiverCallbacks) kSegmentPayloadSize app.sessionId
      (nowMs.setWidth 8) app.transmitter).1 := by
    refine echoes_steps mirrors.echoes (TransmitterSteps.startTransfer_steps rfl app.transmitter) ?_
    rintro started segmentSize sessionId sequence same
    cases same
    exact ⟨whole,rfl⟩
  unfold startEcho
  dsimp only
  split
  · exact ⟨mirrors.uploads,mirrors.waiting,echoes⟩
  · refine ⟨⟨mirrors.uploads.life,mirrors.uploads.size,mirrors.uploads.setup_is,mirrors.uploads.stored,fun active => ?_,nofun⟩,
      mirrors.waiting,echoes⟩
    rw [state] at active
    cases active

theorem mirrors_runOnce (describes : Describes setup object) (mirrors : Mirrors cfg setup object granted app) (turn : Turn)
    {heard : List PacketBuffer}
    (known : ∀ packet ∈ heard, packet.header.endpoint = cfg.receiver.connection.endpoint → Outbound setup object granted packet.payload) :
    Mirrors cfg setup object granted (runOnce cfg turn heard app) := by
  have processed := mirrors_process describes (mirrors_dispatches mirrors known) turn
  have transmits {app : BitsRamTransferApplication} (mirrors : Mirrors cfg setup object granted app) : Mirrors cfg setup object granted
      { app with transmitter := (Transmitter.process cfg.transmitter turn.transmitRouter turn.transmitMs app.transmitter).1 } :=
    ⟨mirrors.uploads,mirrors.waiting,echoes_steps mirrors.echoes
      (TransmitterSteps.process_steps cfg.transmitter turn.transmitRouter mirrors.echoes.guarded rfl) nofun⟩
  unfold runOnce
  dsimp only
  split
  · rename_i ready
    exact transmits (mirrors_startEcho processed (Bool.and_eq_true_iff.mp ready).1 turn.startMs)
  · exact transmits processed

end mirrors

end WireSpaces.RamTransfer
