import WireSpaces.HostReceiver
import WireSpaces.ReceiverForeign

/-!
The host's receiver and the firmware's engine in lockstep. The engine has the full
window width, no expiry, a sink that takes everything and a link that sends
everything; as long as the traffic keeps to the limits, both answer every PDU with
the same bytes, are in corresponding states and hold the same object.
-/
namespace WireSpaces.HostAgreement
open WireSpaces.Words WireSpaces.Codec WireSpaces.ReceiverEngine WireSpaces.ReceiverSteps WireSpaces.ReceiverWindow
open WireSpaces.ReceiverLifecycle (core window_congr expectedSize_eq)
open WireSpaces.HostReceiver (CompactBitsReceiver State overwrite receive receiveSetup receiveSegment reply messageType
  unpackB unpackH)

/-- The engine the host's receiver is compared with. -/
def engineBuild (maximumObjectSize : Nat) (maximumSegmentSize : U16) : Build :=
  construct 16 sixteen_pos sixteen_le ⟨maximumSegmentSize,16,maximumObjectSize,0⟩

/-- A sink that accepts every transfer and segment, behind a link that sends every PDU. -/
structure Obliging (env : Environment) : Prop where
  accepts : ∀ info, env.beginTransfer info = .kAccepted
  takes : ∀ objectOffset payload, env.onSegment objectOffset payload = true
  room : ∀ size, (env.sender.prepare size).length = size
  sends : ∀ pdu, env.sender.sendPrepared pdu = .kSent

def response : Event → Option Bytes
  | .send pdu _ => if hasType pdu .kAck || hasType pdu .kReject then some pdu else none
  | .callback _ => none

/-- The ACK and REJECT PDUs of a trace. -/
def responses (trace : List Event) : List Bytes := trace.filterMap response

def keep (held : Bytes) : Event → Bytes
  | .callback (.beginTransfer info .kAccepted) => List.replicate info.totalSize 0
  | .callback (.onSegment objectOffset payload true) => overwrite held objectOffset payload
  | _ => held

/-- The object bytes of a sink that keeps each accepted segment at its offset. -/
def held (trace : List Event) : Bytes := trace.foldl keep []

def stateOf : State → TransferState
  | .idle => .kIdle
  | .active => .kActive
  | .completed => .kCompleted
  | .aborted => .kAborted

/-! ### Traffic -/

/-- A PDU with the time it arrives and what the engine's surroundings answer meanwhile. -/
structure Arrival where
  message : Bytes
  nowMs : U32
  env : Environment

section traffic
variable (b : Build)

def SetupInLimits (message : Bytes) : Prop :=
  message.length = kSetupSize ∧ (readU16 message 6).toNat ≤ b.config.maximumSegmentSize.toNat ∧
    (readU16 message 4).toNat * (readU16 message 6).toNat + (readU16 message 8).toNat ≤ b.config.maximumObjectSize

/-- A segment of the current session in range has the length its index calls for. -/
def SegmentFits (s : Engine) (message : Bytes) : Prop :=
  ∀ header ∈ decodeSegmentHeaderKnownType message, s.state = .kActive ∨ s.state = .kCompleted →
    header.sessionId = s.setup.sessionId → header.segmentIndex.toNat < s.segmentCount →
      (message.drop kSegmentHeaderSize).length = (expectedSize s.setup header.segmentIndex).toNat

def InLimits (s : Engine) (message : Bytes) : Prop :=
  (hasType message .kSetup = true → SetupInLimits b message) ∧ (hasType message .kSegment = true → SegmentFits s message)

/-- Each PDU keeps to the limits in the state it finds. -/
def AllInLimits : Engine → List Arrival → Prop
  | _, [] => True
  | s, a :: rest => InLimits b s a.message ∧ AllInLimits (process b a.env a.message a.nowMs s).1 rest

instance (s : Engine) (message : Bytes) : Decidable (InLimits b s message) := by
  unfold InLimits SetupInLimits SegmentFits
  infer_instance

instance decideAllInLimits : (s : Engine) → (arrivals : List Arrival) → Decidable (AllInLimits b s arrivals)
  | _, [] => isTrue trivial
  | s, a :: rest =>
    have := decideAllInLimits (process b a.env a.message a.nowMs s).1 rest
    inferInstanceAs (Decidable (InLimits b s a.message ∧ AllInLimits b _ rest))

/-- Step by step: the host's receiver raises nothing, returns what the engine sends,
    enters the corresponding state and holds the same object once it is complete. -/
def InLockstep : Engine → CompactBitsReceiver → List Arrival → Prop
  | _, _, [] => True
  | s, r, a :: rest =>
    let t := (process b a.env a.message a.nowMs s).1
    ∃ r' out, receive r a.message = some (r',out) ∧ responses t.trace = responses s.trace ++ out.toList ∧
      t.state = stateOf r'.state ∧ (HostReceiver.complete r' = true → HostReceiver.object r' = held t.trace) ∧
      InLockstep t r' rest

end traffic

/-! ### What the traces show -/

theorem response_datagram {event : Event} (datagram : Datagram event) : response event = none := by
  obtain ⟨payload,result,rfl⟩ := datagram
  simp [response,userDatagramBytes,hasType_encodeControl]

theorem responses_append (trace more : List Event) : responses (trace ++ more) = responses trace ++ responses more :=
  List.filterMap_append

/-- A callback with its datagrams answers nothing. -/
theorem responses_callback (trace : List Event) (call : Callback) {datagrams : List Event}
    (inside : ∀ e ∈ datagrams, Datagram e) : responses (trace ++ .callback call :: datagrams) = responses trace := by
  rw [responses_append]
  have none : responses (.callback call :: datagrams) = [] := by
    rw [responses,List.filterMap_eq_nil_iff]
    intro event member
    rcases List.mem_cons.mp member with rfl | datagram
    · rfl
    · exact response_datagram (inside event datagram)
  rw [none,List.append_nil]

theorem held_datagrams {datagrams : List Event} (inside : ∀ e ∈ datagrams, Datagram e) (start : Bytes) :
    datagrams.foldl keep start = start := by
  induction datagrams generalizing start with
  | nil => rfl
  | cons first rest ih =>
    obtain ⟨payload,result,rfl⟩ := inside first List.mem_cons_self
    exact ih (fun e member => inside e (List.mem_cons_of_mem _ member)) start

theorem held_append (trace more : List Event) : held (trace ++ more) = more.foldl keep (held trace) := List.foldl_append

theorem held_callback (trace : List Event) (call : Callback) {datagrams : List Event}
    (inside : ∀ e ∈ datagrams, Datagram e) :
    held (trace ++ .callback call :: datagrams) = keep (held trace) (.callback call) := by
  rw [held_append,List.foldl_cons,held_datagrams inside]

/-! ### Corresponding states -/

section agreement
variable {b : Build} {s t : Engine} {r : CompactBitsReceiver} {env : Environment}

/-- The two receivers share a window. -/
structure Shares (b : Build) (s : Engine) (r : CompactBitsReceiver) : Prop where
  window : Window b s
  session : r.sessionId = s.setup.sessionId.toNat
  initial : r.initialSequence = s.setup.initialSequenceNumber.toNat
  size : r.segmentSize = s.setup.segmentSize.toNat
  count : r.segmentCount = s.segmentCount
  contiguous : r.contiguousCount = s.contiguousCount
  granted : r.grantedEnd = s.grantedEnd
  bitmap : r.receivedBitmap = s.receiveBitmap.toNat
  total : r.data.length = s.setup.finalSegmentIndex.toNat * s.setup.segmentSize.toNat + s.setup.finalSegmentSize.toNat

structure Corresponds (b : Build) (s : Engine) (r : CompactBitsReceiver) : Prop where
  objectLimit : r.maximumObjectSize = b.config.maximumObjectSize
  segmentLimit : r.maximumSegmentSize = b.config.maximumSegmentSize.toNat
  state : s.state = stateOf r.state
  data : r.data = held s.trace
  live : s.state = .kActive ∨ s.state = .kCompleted → Shares b s r

theorem Shares.congr (shares : Shares b s r) (same : core t = core s) : Shares b t r := by
  have window := window_congr same shares.window
  cases s; cases t
  simp only [core,Prod.mk.injEq] at same
  obtain ⟨rfl,rfl,rfl,rfl,rfl,rfl⟩ := same
  exact ⟨window,shares.session,shares.initial,shares.size,shares.count,shares.contiguous,shares.granted,shares.bitmap,
    shares.total⟩

theorem Corresponds.same (corresponds : Corresponds b s r) (kept : held t.trace = held s.trace) (window : core t = core s)
    (state : t.state = s.state) : Corresponds b t r := by
  refine ⟨corresponds.objectLimit,corresponds.segmentLimit,state.trans corresponds.state,corresponds.data.trans kept.symm,?_⟩
  intro live
  rw [state] at live
  exact (corresponds.live live).congr window

/-- A new shared window under the same limits. -/
theorem Corresponds.share (corresponds : Corresponds b s r) {r' : CompactBitsReceiver} (shares : Shares b t r')
    (object : r'.maximumObjectSize = r.maximumObjectSize) (segment : r'.maximumSegmentSize = r.maximumSegmentSize)
    (state : t.state = stateOf r'.state) (data : r'.data = held t.trace) : Corresponds b t r' :=
  ⟨object.trans corresponds.objectLimit,segment.trans corresponds.segmentLimit,state,data,fun _ => shares⟩

theorem Corresponds.active_iff (corresponds : Corresponds b s r) : s.state = .kActive ↔ r.state = .active := by
  rw [corresponds.state]
  cases r.state <;> decide

theorem Corresponds.completed_iff (corresponds : Corresponds b s r) : s.state = .kCompleted ↔ r.state = .completed := by
  rw [corresponds.state]
  cases r.state <;> decide

theorem Corresponds.live_iff (corresponds : Corresponds b s r) :
    (s.state = .kActive ∨ s.state = .kCompleted) ↔ r.state = .active ∨ r.state = .completed :=
  or_congr corresponds.active_iff corresponds.completed_iff

/-- The host's receiver returns what the engine answers on the way from `s` to `t`. -/
def Answered (b : Build) (s t : Engine) (result : Option (CompactBitsReceiver × Option Bytes)) : Prop :=
  ∃ r' out, result = some (r',out) ∧ Corresponds b t r' ∧ responses t.trace = responses s.trace ++ out.toList

/-- Neither side does anything. -/
theorem Corresponds.ignored (corresponds : Corresponds b s r) : Answered b s s (some (r,none)) :=
  ⟨r,none,rfl,corresponds,(List.append_nil _).symm⟩

theorem Answered.from {u : Engine} {result : Option (CompactBitsReceiver × Option Bytes)} (answered : Answered b t u result)
    (silent : responses t.trace = responses s.trace) : Answered b s u result := by
  obtain ⟨r',out,returned,corresponds,sent⟩ := answered
  exact ⟨r',out,returned,corresponds,by rw [sent,silent]⟩

/-! ### Responses -/

theorem Shares.ack_eq (shares : Shares b s r) :
    HostReceiver.ack r = some (ackOf s.setup s.contiguousCount s.grantedEnd s.receiveBitmap) := by
  have granted := shares.window.granted
  have contiguous := shares.window.contiguous
  have maximum : (if r.grantedEnd > r.contiguousCount then HostReceiver.sequence r.initialSequence (r.grantedEnd - 1)
      else HostReceiver.baseSequence r.initialSequence r.contiguousCount) =
      (s.setup.initialSequenceNumber + BitVec.ofNat 8 s.grantedEnd - 1).toNat := by
    rw [shares.granted,shares.contiguous,shares.initial,HostReceiver.sequence_eq,HostReceiver.baseSequence_eq,
      ReceiverWindow.baseSequence_eq]
    by_cases open_ : s.grantedEnd > s.contiguousCount
    · have base := ReceiverWindow.baseSequence_eq s.setup s.grantedEnd
      rw [ReceiverEngine.baseSequence,if_neg (by omega)] at base
      rw [if_pos open_,base]
    · rw [if_neg open_,show s.contiguousCount = s.grantedEnd by omega]
  simp only [HostReceiver.ack,maximum]
  rw [shares.initial,shares.contiguous,HostReceiver.baseSequence_eq,ReceiverWindow.baseSequence_eq,shares.session,shares.bitmap]
  simp only [HostReceiver.encodeAck,HostReceiver.packB_toNat,HostReceiver.packH_toNat]
  rfl

theorem sendAck_obliging (wide : b.windowLimit ≠ 1) (obliging : Obliging env) (window : Window b s) :
    (sendAck b env s).1 =
      { emit (.send (ackOf s.setup s.contiguousCount s.grantedEnd s.receiveBitmap) .kSent) s with lastSend := .kSent } := by
  have size := obliging.room kAckSize
  cases encoded : encodedAck b s (env.sender.prepare kAckSize) with
  | none => simp [encodedAck,wide,encodeAck_exact size] at encoded
  | some pdu =>
    rw [window.encodedAck_eq size encoded] at encoded
    simp [sendAck,size,encoded,sendPrepared,obliging.sends]

theorem Corresponds.acked (corresponds : Corresponds b s r) (wide : b.windowLimit ≠ 1) (obliging : Obliging env)
    (live : s.state = .kActive ∨ s.state = .kCompleted) :
    Answered b s (sendAck b env s).1 (reply r (HostReceiver.ack r)) := by
  have shares := corresponds.live live
  rw [sendAck_obliging wide obliging shares.window,shares.ack_eq]
  refine ⟨r,_,rfl,corresponds.same ?_ rfl rfl,?_⟩
  · exact held_append _ _
  · show responses (s.trace ++ [_]) = _
    rw [responses_append]
    simp [responses,response,ackOf,ackBytes,hasType_encodeControl]

theorem Corresponds.rejected (corresponds : Corresponds b s r) (obliging : Obliging env) (sessionId : U8)
    (reason : RejectReason) : Answered b s (sendReject env sessionId reason s).1
      (reply r (HostReceiver.encodeReject sessionId.toNat reason.value.toNat)) := by
  have size := obliging.room kRejectSize
  have encoded : HostReceiver.encodeReject sessionId.toNat reason.value.toNat = some (rejectBytes ⟨sessionId,reason⟩) := by
    simp only [HostReceiver.encodeReject,HostReceiver.packB_toNat]
    rfl
  rw [encoded]
  simp only [sendReject,size,encodeReject_exact size,ne_eq,not_true_eq_false,if_false,sendPrepared]
  refine ⟨r,_,rfl,corresponds.same ?_ rfl rfl,?_⟩
  · exact held_append _ _
  · show responses (s.trace ++ [_]) = _
    rw [responses_append]
    simp [responses,response,rejectBytes,hasType_encodeControl]

/-! ### SETUP -/

theorem total_lt (final segment last : U16) : final.toNat * segment.toNat + last.toNat < 2 ^ 32 := by
  have small := last.isLt
  have product : final.toNat * segment.toNat ≤ 65535 * 65535 := Nat.mul_le_mul (by omega) (by omega)
  omega

theorem setupTotalSize_eq (setup : Setup) : setupTotalSize setup =
    setup.finalSegmentIndex.toNat * setup.segmentSize.toNat + setup.finalSegmentSize.toNat := by
  rw [setupTotalSize,Nat.mod_eq_of_lt (total_lt _ _ _)]

/-- The total size determines the last index and the last size. -/
theorem geometry_unique {size index last index' last' : Nat} (fits : 0 < last ∧ last ≤ size) (fits' : 0 < last' ∧ last' ≤ size)
    (total : index * size + last = index' * size + last') : index = index' ∧ last = last' := by
  have below {i j x y : Nat} (first : 0 < y) (second : x ≤ size) (same : i * size + x = j * size + y) : ¬ i < j := by
    intro less
    have product : (i + 1) * size ≤ j * size := Nat.mul_le_mul less (le_refl size)
    rw [Nat.add_mul,Nat.one_mul] at product
    omega
  obtain rfl : index = index' :=
    Nat.le_antisymm (not_lt.mp (below fits.1 fits'.2 total.symm)) (not_lt.mp (below fits'.1 fits.2 total))
  exact ⟨rfl,Nat.add_left_cancel total⟩

/-- Comparing total sizes, as the host does, and comparing all fields come to the same. -/
theorem Shares.matches_iff (shares : Shares b s r) {requested : Setup} (admissible : Admissible b requested) :
    setupMatches s.setup requested = true ↔ requested.sessionId.toNat = r.sessionId ∧
      requested.initialSequenceNumber.toNat = r.initialSequence ∧ requested.segmentSize.toNat = r.segmentSize ∧
      requested.finalSegmentIndex.toNat * requested.segmentSize.toNat + requested.finalSegmentSize.toNat = r.data.length := by
  rw [setupMatches_iff,shares.session,shares.initial,shares.size,shares.total]
  constructor
  · rintro rfl
    exact ⟨rfl,rfl,rfl,rfl⟩
  · rintro ⟨session,initial,size,total⟩
    have known := shares.window.admissible
    rw [← size] at total
    obtain ⟨index,last⟩ := geometry_unique ⟨admissible.final,admissible.final_le⟩
      ⟨known.final,known.final_le.trans size.ge⟩ total
    cases requested
    cases old : s.setup
    simp only [old,BitVec.toNat_inj] at session initial size index last
    rw [session,initial,size,index,last]

theorem startReceiving_shares {requested : Setup} (admissible : Admissible b requested)
    (width : b.config.receiveWindowWidth = 16) (nowMs : U32) (u : Engine) (r : CompactBitsReceiver) :
    Shares b (startReceiving b requested nowMs u) { r with
      state := .active, sessionId := requested.sessionId.toNat, initialSequence := requested.initialSequenceNumber.toNat,
      segmentSize := requested.segmentSize.toNat, segmentCount := requested.finalSegmentIndex.toNat + 1,
      contiguousCount := 0, grantedEnd := min (requested.finalSegmentIndex.toNat + 1) HostReceiver.compactWindowWidth,
      receivedBitmap := 0, data := List.replicate (requested.finalSegmentIndex.toNat * requested.segmentSize.toNat +
        requested.finalSegmentSize.toNat) 0 } := by
  obtain ⟨window,setup,-,-⟩ := startReceiving_window admissible nowMs u
  have contiguous : (startReceiving b requested nowMs u).contiguousCount = 0 := by
    unfold startReceiving updateGrant
    split <;> rfl
  have bitmap : (startReceiving b requested nowMs u).receiveBitmap = 0 := by
    unfold startReceiving updateGrant
    split <;> rfl
  have count := window.count
  have granted := window.granted
  rw [setup] at count
  rw [contiguous,count,width] at granted
  refine ⟨window,?_,?_,?_,?_,?_,?_,?_,?_⟩
  · rw [setup]
  · rw [setup]
  · rw [setup]
  · exact count.symm
  · exact contiguous.symm
  · rw [granted,HostReceiver.compactWindowWidth,Nat.zero_add]
  · rw [bitmap]; rfl
  · rw [setup,List.length_replicate]

theorem handleSetup_agrees (corresponds : Corresponds b s r) (width : b.config.receiveWindowWidth = 16)
    (wide : b.windowLimit ≠ 1) (obliging : Obliging env) {message : Bytes} (limits : SetupInLimits b message) (nowMs : U32) :
    Answered b s (handleSetup b env message nowMs s).1 (receiveSetup r message) := by
  obtain ⟨length,segmentLimit,objectLimit⟩ := limits
  have long : ¬ message.length < 2 := by rw [length,kSetupSize]; omega
  rw [handleSetup,if_neg long]
  cases decoded : decodeSetupKnownType message with
  | none =>
    have reserved : unpackB message 3 ≠ 0 := by
      rintro zero
      have clear : message.getD 3 0 = 0 := BitVec.eq_of_toNat_eq zero
      rw [decodeSetupKnownType,if_neg (by rw [length,clear]; simp)] at decoded
      cases decoded
    simp only [receiveSetup]
    rw [if_neg (show ¬ message.length ≠ HostReceiver.setupSize from not_not.mpr length),if_pos (.inl reserved)]
    exact corresponds.rejected obliging _ _
  | some requested =>
    obtain ⟨-,fields⟩ := Option.ite_none_left_eq_some.mp decoded
    have small := requested.finalSegmentIndex.isLt
    have sizes : requested.segmentSize.toNat ≤ b.config.maximumSegmentSize.toNat ∧
        requested.finalSegmentIndex.toNat * requested.segmentSize.toNat + requested.finalSegmentSize.toNat ≤
          b.config.maximumObjectSize := by
      cases fields
      exact ⟨segmentLimit,objectLimit⟩
    rw [HostReceiver.receiveSetup_decoded decoded]
    dsimp only
    by_cases shape : requested.segmentSize = 0 ∨ requested.finalSegmentSize = 0 ∨
        requested.finalSegmentSize.toNat > requested.segmentSize.toNat
    · rw [if_pos shape,if_pos shape]
      exact corresponds.rejected obliging _ _
    have object : ¬ setupTotalSize requested > b.config.maximumObjectSize := by
      rw [setupTotalSize_eq]
      exact not_lt.mpr sizes.2
    have segment : ¬ (b.config.receiveWindowWidth = 0 ∨
        requested.segmentSize.toNat > b.config.maximumSegmentSize.toNat) := by omega
    have admissible : Admissible b requested := admissible_of_checks shape object segment
    have segmentThere : ¬ requested.segmentSize.toNat > r.maximumSegmentSize := by
      rw [corresponds.segmentLimit]
      omega
    have objectThere : ¬ (requested.finalSegmentIndex.toNat * requested.segmentSize.toNat +
        requested.finalSegmentSize.toNat > r.maximumObjectSize ∨
        requested.finalSegmentIndex.toNat + 1 > HostReceiver.maximumCompactSegmentCount) := by
      rw [corresponds.objectLimit,HostReceiver.maximumCompactSegmentCount]
      omega
    rw [if_neg shape,if_neg shape,if_neg object,if_neg segment,if_neg segmentThere,if_neg objectThere]
    by_cases active : s.state = .kActive
    · have shares := corresponds.live (.inl active)
      rw [if_pos active,if_pos (corresponds.active_iff.mp active)]
      by_cases same : setupMatches s.setup requested = true
      · rw [if_pos same,if_pos ((shares.matches_iff admissible).mp same)]
        have renewed : Corresponds b { s with lastActivityMs := nowMs } r := corresponds.same rfl rfl rfl
        exact (renewed.acked wide obliging (.inl active)).from rfl
      · rw [if_neg same,if_neg (fun all => same ((shares.matches_iff admissible).mpr all))]
        exact corresponds.rejected obliging _ _
    · rw [if_neg active,if_neg (fun there => active (corresponds.active_iff.mpr there))]
      obtain ⟨datagrams,inside,invoked⟩ := invoke_trace env (.beginTransfer (transferInfo requested) .kAccepted) s
      simp only [obliging.accepts,ne_eq,not_true_eq_false,if_false,invoked]
      generalize beginIs : s.withTrace (s.trace ++ .callback (.beginTransfer (transferInfo requested) .kAccepted) ::
        datagrams) = begin
      have state := startReceiving_state (b := b) requested nowMs begin
      have trace := startReceiving_trace (b := b) requested nowMs begin
      have shares := startReceiving_shares admissible width nowMs begin r
      have started := corresponds.share shares rfl rfl state (by
        rw [trace,← beginIs,Engine.withTrace_trace,held_callback _ _ inside]
        simp only [keep,transferInfo,setupTotalSize_eq])
      refine (started.acked wide obliging (.inl state)).from ?_
      rw [trace,← beginIs]
      exact responses_callback _ _ inside

/-! ### SEGMENT -/

/-- The last segment ends at the total size, so the host's rest of the object is the engine's expected size. -/
theorem Shares.expected_eq (shares : Shares b s r) {index : Nat} (known : index < s.segmentCount) :
    min (r.segmentSize : Int) (r.data.length - (index * r.segmentSize : Nat)) =
      (expectedSize s.setup (BitVec.ofNat 16 index)).toNat := by
  have count := shares.window.count
  have final := shares.window.admissible.final_le
  have small := s.setup.finalSegmentIndex.isLt
  rw [expectedSize_eq s.setup (by omega),shares.size,shares.total]
  by_cases last : index = s.setup.finalSegmentIndex.toNat
  · rw [if_pos last,last]
    push_cast
    omega
  · have product : (index + 1) * s.setup.segmentSize.toNat ≤ s.setup.finalSegmentIndex.toNat * s.setup.segmentSize.toNat :=
      Nat.mul_le_mul (by omega) (le_refl _)
    rw [Nat.add_mul,Nat.one_mul] at product
    rw [if_neg last]
    push_cast
    omega

theorem segmentBit_eq {offset : Nat} (inside : offset < 16) : (1#16 <<< offset).toNat = 1 <<< offset := by
  have power : 2 ^ offset < 2 ^ 16 := Nat.pow_lt_pow_right (by omega) inside
  rw [BitVec.toNat_shiftLeft,BitVec.toNat_ofNat,Nat.one_mod_two_pow (by omega),Nat.shiftLeft_eq,Nat.one_mul,Nat.mod_eq_of_lt power]

theorem Shares.bit_iff (shares : Shares b s r) {offset : Nat} (inside : offset < 16) :
    r.receivedBitmap &&& 1 <<< offset ≠ 0 ↔ s.receiveBitmap &&& (1#16 <<< offset) ≠ 0 := by
  rw [shares.bitmap,← segmentBit_eq inside,← BitVec.toNat_and,ne_eq,ne_eq,← BitVec.toNat_inj]
  rfl

/-- Storing a segment leaves the two a shared window, and completes both or neither. -/
theorem Shares.store (shares : Shares b s r) (width : b.config.receiveWindowWidth = 16) (wide : b.windowLimit ≠ 1)
    {message payload : Bytes} {index : Nat} (fresh : Fresh b s message index payload) :
    let r' := HostReceiver.store r (index * r.segmentSize) (1 <<< (index - r.contiguousCount)) payload
    Shares b (advanced b index payload s) r' ∧
      r'.state = if (advanced b index payload s).contiguousCount = s.segmentCount then .completed else r.state := by
  have adds := advanced_adds shares.window fresh
  have granted := shares.window.granted
  have inGrant := fresh.granted
  have fromBase := fresh.from_base
  have inside : index - s.contiguousCount < 16 := by omega
  have size := shares.expected_eq fresh.known
  rw [← fresh.size] at size
  have received : r.receivedBitmap ||| 1 <<< (index - s.contiguousCount) =
      (s.receiveBitmap ||| 1#16 <<< (index - s.contiguousCount)).toNat := by
    rw [BitVec.toNat_or,segmentBit_eq inside,shares.bitmap]
  generalize bitmapIs : s.receiveBitmap ||| 1#16 <<< (index - s.contiguousCount) = bitmap at received
  have shifted : HostReceiver.shiftReceived bitmap.toNat bitmap.toNat s.contiguousCount =
      ((shiftOnes 16 bitmap s.contiguousCount).1.toNat,(shiftOnes 16 bitmap s.contiguousCount).2) :=
    HostReceiver.shiftReceived_eq bitmap.isLt (le_refl _) s.contiguousCount
  have contiguous : (advanced b index payload s).contiguousCount = (shiftOnes 16 bitmap s.contiguousCount).2 := by
    simp only [advanced,advanceWindow,updateGrant,wide,if_false,bitmapIs]
  have bits : (advanced b index payload s).receiveBitmap = (shiftOnes 16 bitmap s.contiguousCount).1 := by
    simp only [advanced,advanceWindow,updateGrant,wide,if_false,bitmapIs]
  simp only [HostReceiver.store,shares.contiguous,received,shifted]
  refine ⟨⟨adds.window,?_,?_,?_,?_,?_,?_,?_,?_⟩,?_⟩
  · rw [adds.setup]; exact shares.session
  · rw [adds.setup]; exact shares.initial
  · rw [adds.setup]; exact shares.size
  · rw [adds.count]; exact shares.count
  · exact contiguous.symm
  · rw [adds.window.granted,adds.count,contiguous,width,← shares.count]
    rfl
  · rw [bits]
  · rw [adds.setup,← shares.total]
    simp only [overwrite,List.length_append,List.length_take,List.length_drop]
    omega
  · rw [contiguous,shares.count]

/-- A fresh segment of the right length is stored by both. -/
theorem deliverSegment_agrees (corresponds : Corresponds b s r) (width : b.config.receiveWindowWidth = 16)
    (wide : b.windowLimit ≠ 1) (obliging : Obliging env) {message payload : Bytes} {index : Nat}
    (fresh : Fresh b s message index payload) :
    let r' := HostReceiver.store r (index * r.segmentSize) (1 <<< (index - r.contiguousCount)) payload
    Answered b s (deliverSegment b env (index * s.setup.segmentSize.toNat) (index - s.contiguousCount) payload s).1
      (reply r' (HostReceiver.ack r')) := by
  intro r'
  have shares := corresponds.live (.inl fresh.active)
  obtain ⟨after,state⟩ := shares.store width wide fresh
  have adds := advanced_adds shares.window fresh
  obtain ⟨datagrams,inside,invoked⟩ := invoke_trace env (.onSegment (index * s.setup.segmentSize.toNat) payload true) s
  have kept : overwrite r.data (index * r.segmentSize) payload =
      held (s.trace ++ .callback (.onSegment (index * s.setup.segmentSize.toNat) payload true) :: datagrams) := by
    rw [held_callback _ _ inside,corresponds.data,shares.size]
    rfl
  have silent := responses_callback s.trace (.onSegment (index * s.setup.segmentSize.toNat) payload true) inside
  have moved : updateGrant b (advanceWindow b (index - s.contiguousCount) payload
      (invoke env (.onSegment (index * s.setup.segmentSize.toNat) payload true) s)) =
      (advanced b index payload s).withTrace
        (s.trace ++ .callback (.onSegment (index * s.setup.segmentSize.toNat) payload true) :: datagrams) := by
    rw [invoked,← advanced_trace]
    exact advanceWindow_offset index payload _ (fun _ => rfl)
  simp only [deliverSegment,obliging.takes,if_true,moved,Engine.withTrace_contiguousCount,Engine.withTrace_segmentCount,
    advanced_segmentCount]
  by_cases full : (advanced b index payload s).contiguousCount = s.segmentCount
  · obtain ⟨behind,insideBehind,completed⟩ := invoke_trace env .onTransferComplete (((advanced b index payload s).withTrace
      (s.trace ++ .callback (.onSegment (index * s.setup.segmentSize.toNat) payload true) :: datagrams)).withState .kCompleted)
    rw [if_pos full,completed]
    rw [if_pos full] at state
    refine Answered.from (Corresponds.acked ?_ wide obliging (.inr rfl)) ?_
    · refine corresponds.share ?_ rfl rfl ?_ ?_
      · exact after.congr rfl
      · rw [state]; rfl
      · exact Eq.symm ((held_callback _ _ insideBehind).trans kept.symm)
    · exact (responses_callback _ _ insideBehind).trans silent
  · rw [if_neg full]
    rw [if_neg full] at state
    have active : (advanced b index payload s).state = .kActive := adds.state.trans fresh.active
    refine Answered.from (Corresponds.acked ?_ wide obliging (.inl active)) silent
    refine corresponds.share ?_ rfl rfl ?_ ?_
    · exact after.congr rfl
    · rw [state,← corresponds.state]
      exact adds.state
    · exact kept

theorem placeSegment_agrees (corresponds : Corresponds b s r) (width : b.config.receiveWindowWidth = 16)
    (wide : b.windowLimit ≠ 1) (obliging : Obliging env) {message payload : Bytes} {index : Nat}
    (live : s.state = .kActive ∨ s.state = .kCompleted) (known : index < s.segmentCount)
    (content : payload = message.drop kSegmentHeaderSize)
    (size : payload.length = (expectedSize s.setup (BitVec.ofNat 16 index)).toNat)
    (fresh : s.state = .kActive → s.contiguousCount ≤ index → index < s.grantedEnd → Unreceived b s index →
      Fresh b s message index payload) :
    Answered b s (placeSegment b env index payload s).1
      (if index < r.contiguousCount then reply r (HostReceiver.ack r)
        else if r.state = .completed ∨ index ≥ r.grantedEnd then reply r (HostReceiver.ack r)
        else if r.receivedBitmap &&& 1 <<< (index - r.contiguousCount) ≠ 0 then reply r (HostReceiver.ack r)
        else if ((message.drop HostReceiver.segmentHeaderSize).length : Int) ≠
            min (r.segmentSize : Int) (r.data.length - (index * r.segmentSize : Nat)) then some (r,none)
        else
          let r := HostReceiver.store r (index * r.segmentSize) (1 <<< (index - r.contiguousCount))
            (message.drop HostReceiver.segmentHeaderSize)
          reply r (HostReceiver.ack r)) := by
  have shares := corresponds.live live
  have acked := corresponds.acked wide obliging live
  have small := shares.window.small
  have granted := shares.window.granted
  unfold placeSegment
  rw [shares.expected_eq known,← size,content]
  simp only [shares.contiguous,shares.granted,← corresponds.completed_iff]
  by_cases received : index < s.contiguousCount
  · rw [if_pos received,if_pos received]
    exact acked
  rw [if_neg received,if_neg received]
  by_cases shut : s.state = .kCompleted ∨ index ≥ s.grantedEnd
  · rw [if_pos shut,if_pos shut]
    exact acked
  rw [if_neg shut,if_neg shut]
  have active : s.state = .kActive := live.resolve_right fun completed => shut (.inl completed)
  have inGrant : index < s.grantedEnd := not_le.mp fun beyond => shut (.inr beyond)
  have inside : index - s.contiguousCount < 16 := by omega
  have offset : sub32 index s.contiguousCount = index - s.contiguousCount := sub32_of_le (by omega) (by omega)
  simp only [wide,if_false,offset]
  rw [if_neg (show ¬ index - s.contiguousCount ≥ b.config.receiveWindowWidth by omega)]
  by_cases set : s.receiveBitmap &&& (1#16 <<< (index - s.contiguousCount)) ≠ 0
  · rw [if_pos set,if_pos ((shares.bit_iff inside).mpr set)]
    exact acked
  · have clear := (and_bit_eq_zero s.receiveBitmap inside).mp (not_not.mp set)
    have unreceived : Unreceived b s index := by
      simp only [Unreceived,wide,if_false]
      exact ⟨by omega,clear⟩
    have object : index * s.setup.segmentSize.toNat % 2 ^ 32 = index * s.setup.segmentSize.toNat :=
      Nat.mod_eq_of_lt (offset_lt (by rw [shares.window.count] at known; omega))
    rw [if_neg set,if_neg (fun on => set ((shares.bit_iff inside).mp on)),object]
    have delivered := deliverSegment_agrees corresponds width wide obliging (fresh active (by omega) inGrant unreceived)
    rw [content,shares.contiguous] at delivered
    have header : HostReceiver.segmentHeaderSize = kSegmentHeaderSize := rfl
    rw [header,if_neg (not_not.mpr rfl)]
    exact delivered

theorem handleSegment_agrees (corresponds : Corresponds b s r) (width : b.config.receiveWindowWidth = 16)
    (wide : b.windowLimit ≠ 1) (obliging : Obliging env) {message : Bytes} (typed : hasType message .kSegment = true)
    (fits : SegmentFits s message) (nowMs : U32) :
    Answered b s (handleSegment b env message nowMs s).1 (receiveSegment r message) := by
  unfold handleSegment receiveSegment
  by_cases short : message.length < kSegmentHeaderSize
  · rw [decodeSegmentHeaderKnownType,if_pos short,if_pos (show message.length < HostReceiver.segmentHeaderSize from short)]
    exact corresponds.ignored
  have decoded : decodeSegmentHeaderKnownType message = some ⟨message.getD 1 0,readU16 message 2⟩ := by
    rw [decodeSegmentHeaderKnownType,if_neg short]
  rw [decoded,if_neg (show ¬ message.length < HostReceiver.segmentHeaderSize from short)]
  simp only [HostReceiver.unpackH_eq]
  by_cases live : s.state = .kActive ∨ s.state = .kCompleted
  · have shares := corresponds.live live
    have session : unpackB message 1 ≠ r.sessionId ↔ message.getD 1 0 ≠ s.setup.sessionId := by
      rw [shares.session,unpackB,ne_eq,ne_eq,BitVec.toNat_inj]
    simp only [session,shares.count]
    simp only [ne_eq,← not_or,corresponds.live_iff.mp live,live,not_true_eq_false,false_or]
    by_cases foreign : ¬ message.getD 1 0 = s.setup.sessionId ∨ (readU16 message 2).toNat ≥ s.segmentCount
    · rw [if_pos foreign,if_pos foreign]
      exact corresponds.ignored
    rw [if_neg foreign,if_neg foreign]
    push Not at foreign
    have size := fits _ decoded live foreign.1 foreign.2
    rw [if_neg (not_not.mpr size)]
    obtain ⟨activity,renewed⟩ := renewActivity_eq (readU16 message 2).toNat nowMs s
    rw [renewed]
    have noted : Corresponds b { s with lastActivityMs := activity } r := corresponds.same rfl rfl rfl
    have word : BitVec.ofNat 16 (readU16 message 2).toNat = readU16 message 2 := by simp
    refine (placeSegment_agrees noted width wide obliging live foreign.2 rfl (by rw [word]; exact size) ?_).from rfl
    intro active fromBase granted unreceived
    refine ⟨typed,?_,(readU16 message 2).isLt,rfl,by rw [word]; exact size,active,foreign.2,fromBase,granted,unreceived⟩
    rw [decoded,word,foreign.1]
  · rw [if_pos (.inl (not_or.mp live)),if_pos (.inl (not_or.mp (corresponds.live_iff.not.mp live)))]
    exact corresponds.ignored

/-! ### Every PDU -/

theorem handleControl_agrees (corresponds : Corresponds b s r) (width : b.config.receiveWindowWidth = 16)
    (wide : b.windowLimit ≠ 1) (obliging : Obliging env) {message : Bytes} {type : MessageType}
    (typed : hasType message type = true) (control : type ≠ .kSegment) (limits : InLimits b s message) (nowMs : U32) :
    Answered b s (handleControl b env message type nowMs s).1 (receive r message) := by
  have named := HostReceiver.messageType_of_hasType typed
  simp only [receive,named,handleControl]
  cases type with
  | kSetup => exact handleSetup_agrees corresponds width wide obliging (limits.1 typed) nowMs
  | kSegment => exact absurd rfl control
  | kAck => exact corresponds.ignored
  | kReject => exact corresponds.ignored
  | kUserDatagram =>
    obtain ⟨datagrams,inside,invoked⟩ := invoke_trace env (.onDatagram (message.drop kUserDatagramHeaderSize)) s
    have decoded : decodeUserDatagramKnownType message = some (message.drop kUserDatagramHeaderSize) := by
      rw [decodeUserDatagramKnownType,if_neg]
      rintro rfl
      cases typed
    rw [decoded]
    dsimp only
    rw [invoked]
    refine ⟨r,none,rfl,corresponds.same (held_callback _ _ inside) rfl rfl,?_⟩
    rw [Option.toList_none,List.append_nil]
    exact responses_callback _ _ inside
  | kProbe =>
    show Answered b s _ (if message.length = kProbeSize ∧ (r.state = .active ∨ r.state = .completed) ∧
      unpackB message 1 = r.sessionId then reply r (HostReceiver.ack r) else some (r,none))
    by_cases size : message.length = kProbeSize
    · rw [decodeProbeKnownType,if_neg (not_not.mpr size)]
      dsimp only
      by_cases live : s.state = .kActive ∨ s.state = .kCompleted
      · have session : unpackB message 1 = r.sessionId ↔ message.getD 1 0 = s.setup.sessionId := by
          rw [(corresponds.live live).session,unpackB,BitVec.toNat_inj]
        by_cases foreign : message.getD 1 0 = s.setup.sessionId
        · rw [if_neg (by tauto),if_pos ⟨size,corresponds.live_iff.mp live,session.mpr foreign⟩]
          have noted : Corresponds b { s with lastActivityMs := nowMs } r := corresponds.same rfl rfl rfl
          exact (noted.acked wide obliging live).from rfl
        · rw [if_pos (.inr foreign),if_neg (fun all => foreign (session.mp all.2.2))]
          exact corresponds.ignored
      · rw [if_pos (.inl (not_or.mp live)),if_neg (fun all => live (corresponds.live_iff.mpr all.2.1))]
        exact corresponds.ignored
    · rw [decodeProbeKnownType,if_pos size,if_neg (fun all => size all.1)]
      exact corresponds.ignored
  | kAbort =>
    show Answered b s _ (if message.length = kAbortSize ∧ r.state = .active ∧ unpackB message 1 = r.sessionId then
      some ({ r with state := .aborted },none) else some (r,none))
    unfold handleAbort
    by_cases size : message.length = kAbortSize
    · rw [decodeAbortKnownType,if_neg (not_not.mpr size)]
      dsimp only
      by_cases active : s.state = .kActive
      · have session : unpackB message 1 = r.sessionId ↔ message.getD 1 0 = s.setup.sessionId := by
          rw [(corresponds.live (.inl active)).session,unpackB,BitVec.toNat_inj]
        by_cases foreign : message.getD 1 0 = s.setup.sessionId
        · rw [if_neg (by tauto),if_pos ⟨size,corresponds.active_iff.mp active,session.mpr foreign⟩]
          obtain ⟨datagrams,inside,invoked⟩ := invoke_trace env (.onTransferAborted .kPeer) (s.withState .kAborted)
          rw [invoked]
          refine ⟨_,none,rfl,⟨corresponds.objectLimit,corresponds.segmentLimit,rfl,?_,?_⟩,?_⟩
          · exact Eq.symm ((held_callback _ _ inside).trans corresponds.data.symm)
          · rintro (active | completed)
            · cases active
            · cases completed
          · rw [Option.toList_none,List.append_nil]
            exact responses_callback _ _ inside
        · rw [if_pos (.inr foreign),if_neg (fun all => foreign (session.mp all.2.2))]
          exact corresponds.ignored
      · rw [if_pos (.inl active),if_neg (fun all => active (corresponds.active_iff.mpr all.2.1))]
        exact corresponds.ignored
    · rw [decodeAbortKnownType,if_pos size,if_neg (fun all => size all.1)]
      exact corresponds.ignored

theorem process_agrees (corresponds : Corresponds b s r) (width : b.config.receiveWindowWidth = 16)
    (wide : b.windowLimit ≠ 1) (lasting : b.config.inactivityTimeoutMs = 0) (obliging : Obliging env) {message : Bytes}
    (limits : InLimits b s message) (nowMs : U32) :
    Answered b s (process b env message nowMs s).1 (receive r message) := by
  have polled : poll b env nowMs s = (s,.kIdle) := by rw [poll,if_pos (.inr (.inl lasting))]
  have noted : Corresponds b { s with lastSend := .kSent } r := corresponds.same rfl rfl rfl
  have entered : (process b env message nowMs s).1 = (dispatch b env message nowMs { s with lastSend := .kSent }).1 := by
    rw [process,polled]
    rfl
  rw [entered]
  refine Answered.from ?_ rfl
  cases message with
  | nil => exact noted.ignored
  | cons first rest =>
    cases decoded : decodeControl first with
    | none =>
      have unnamed : messageType (first :: rest) = none := by rw [HostReceiver.messageType_cons,decoded]; rfl
      simp only [dispatch,decoded,receive,unnamed]
      exact noted.ignored
    | some control =>
      have typed : hasType (first :: rest) control.type = true := hasType_cons.mpr (decodeControl_eq_some decoded)
      by_cases segment : control.type = .kSegment
      · rw [segment] at typed
        simp only [dispatch,decoded,segment,if_true,receive,HostReceiver.messageType_of_hasType typed]
        exact handleSegment_agrees noted width wide obliging typed (limits.2 typed) nowMs
      · simp only [dispatch,decoded,segment,if_false]
        exact handleControl_agrees noted width wide obliging typed segment limits nowMs

theorem corresponds_lockstep (width : b.config.receiveWindowWidth = 16) (wide : b.windowLimit ≠ 1)
    (lasting : b.config.inactivityTimeoutMs = 0) (arrivals : List Arrival) (corresponds : Corresponds b s r)
    (obliging : ∀ a ∈ arrivals, Obliging a.env) (limits : AllInLimits b s arrivals) : InLockstep b s r arrivals := by
  induction arrivals generalizing s r with
  | nil => trivial
  | cons a rest ih =>
    obtain ⟨r',out,returned,after,sent⟩ := process_agrees corresponds width wide lasting
      (obliging a List.mem_cons_self) limits.1 a.nowMs
    refine ⟨r',out,returned,sent,after.state,?_,?_⟩
    · intro complete
      rw [HostReceiver.object,if_pos complete,after.data]
    · exact ih after (fun other member => obliging other (List.mem_cons_of_mem _ member)) limits.2

end agreement

/-- The host's receiver and the firmware's engine with the same limits answer all
    traffic within these limits alike. -/
theorem host_receiver_agrees (maximumObjectSize : Nat) (maximumSegmentSize : U16) (arrivals : List Arrival)
    (obliging : ∀ a ∈ arrivals, Obliging a.env)
    (limits : AllInLimits (engineBuild maximumObjectSize maximumSegmentSize) {} arrivals) :
    InLockstep (engineBuild maximumObjectSize maximumSegmentSize) {}
      { maximumObjectSize := maximumObjectSize, maximumSegmentSize := maximumSegmentSize.toNat } arrivals := by
  have wide : (16 : Nat) ≠ 1 := by decide
  refine corresponds_lockstep rfl wide rfl arrivals ⟨rfl,rfl,rfl,rfl,?_⟩ obliging limits
  rintro (active | completed)
  · cases active
  · cases completed

/-- Three segments out of order, with a repeated SETUP, a busy one and a probe on the way. -/
def outOfOrder : List Arrival :=
  [setupBytes ⟨0x33,0xFE,2,4,2⟩,segmentHeaderBytes ⟨0x33,1⟩ ++ [5,6,7,8],setupBytes ⟨0x33,0xFE,2,4,2⟩,
    setupBytes ⟨0x34,0,0,1,1⟩,segmentHeaderBytes ⟨0x33,0⟩ ++ [1,2,3,4],probeBytes ⟨0x33⟩,
    segmentHeaderBytes ⟨0x33,2⟩ ++ [9,10]].map fun message => ⟨message,0,ReceiverSteps.sinkWith .kSent⟩

theorem out_of_order_agrees : InLockstep (engineBuild 32 8) {} { maximumObjectSize := 32, maximumSegmentSize := 8 } outOfOrder := by
  refine host_receiver_agrees 32 8 outOfOrder ?_ (by decide)
  intro a member
  obtain ⟨message,-,rfl⟩ := List.mem_map.mp member
  exact ⟨fun _ => rfl,fun _ _ => rfl,fun _ => List.length_replicate,fun _ => rfl⟩

end WireSpaces.HostAgreement
