import WireSpaces.Blocks
import WireSpaces.TransmitterEnding
import WireSpaces.TransmitterWindow
import WireSpaces.ReceiverLifecycle

/-!
The segments of an object on both sides. A SETUP that either side works with has sizes
whose 32-bit products are exact, and its segments tile the object.
-/
namespace WireSpaces.Geometry
open WireSpaces.Codec WireSpaces.Packet WireSpaces.Blocks
open WireSpaces.Transmitter (BitsTransmitter Config startTransfer sendSegment segmentCount running)
open WireSpaces.TransmitterSteps (Startable SendWindow startTransfer_cases startTransfer_eq setupOf_exact start_window
  segmentPdu)
open WireSpaces.TransmitterEnding (Started)
open WireSpaces.ReceiverEngine (Build Environment transferInfo)
open WireSpaces.ReceiverSteps (Admissible Step Steps Datagram call_steps general sinkWith)
open WireSpaces.ReceiverLifecycle (Admission Delivers admissions run_lifecycle transferCallback transferCallbacks)

def segmentStart (setup : Setup) (index : Nat) : Nat := index * setup.segmentSize.toNat

def segmentLength (setup : Setup) (index : Nat) : Nat :=
  if index = setup.finalSegmentIndex.toNat then setup.finalSegmentSize.toNat else setup.segmentSize.toNat

/-- The object's bytes that a segment carries. -/
def segmentBytes (setup : Setup) (object : Bytes) (index : Nat) : Bytes :=
  (object.drop (segmentStart setup index)).take (segmentLength setup index)

/-- The segments lie side by side from zero to the total. -/
structure Tiles (setup : Setup) (total : Nat) : Prop where
  inside : ∀ index ≤ setup.finalSegmentIndex.toNat, segmentStart setup index + segmentLength setup index ≤ total
  next : ∀ index < setup.finalSegmentIndex.toNat,
    segmentStart setup index + segmentLength setup index = segmentStart setup (index + 1)
  disjoint : ∀ i ≤ setup.finalSegmentIndex.toNat, ∀ j ≤ setup.finalSegmentIndex.toNat, i ≠ j →
    segmentStart setup i + segmentLength setup i ≤ segmentStart setup j ∨
      segmentStart setup j + segmentLength setup j ≤ segmentStart setup i
  cover : ∀ place < total, ∃ index ≤ setup.finalSegmentIndex.toNat,
    segmentStart setup index ≤ place ∧ place < segmentStart setup index + segmentLength setup index

section
variable {setup : Setup}

/-- The cut of a SETUP whose last segment is neither empty nor too long. -/
def cutOf (setup : Setup) (final : 1 ≤ setup.finalSegmentSize.toNat)
    (final_le : setup.finalSegmentSize.toNat ≤ setup.segmentSize.toNat) : Cut :=
  ⟨setup.segmentSize.toNat,setup.finalSegmentIndex.toNat,setup.finalSegmentSize.toNat,final,final_le⟩

theorem tiles_of (final : 1 ≤ setup.finalSegmentSize.toNat)
    (final_le : setup.finalSegmentSize.toNat ≤ setup.segmentSize.toNat) :
    Tiles setup (setup.finalSegmentIndex.toNat * setup.segmentSize.toNat + setup.finalSegmentSize.toNat) := by
  let cut := cutOf setup final final_le
  refine ⟨fun index known => cut.stop_le_total known,fun index inner => ?_,
    fun i left j right other => cut.disjoint other left right,fun place inside => cut.cover inside⟩
  exact (cut.stop inner.le).trans (if_neg inner.ne)

/-- No SETUP's total wraps: 65535 segments of 65535 bytes and one more stay below 2 ^ 32. -/
theorem setupTotalSize_exact (setup : Setup) :
    setupTotalSize setup =
      setup.finalSegmentIndex.toNat * setup.segmentSize.toNat + setup.finalSegmentSize.toNat := by
  have index := setup.finalSegmentIndex.isLt
  have size := setup.segmentSize.isLt
  have last := setup.finalSegmentSize.isLt
  have product : setup.finalSegmentIndex.toNat * setup.segmentSize.toNat ≤ 65535 * 65535 :=
    Nat.mul_le_mul (by omega) (by omega)
  exact Nat.mod_eq_of_lt (by omega)

theorem setupTotalSize_lt (setup : Setup) : setupTotalSize setup < 2 ^ 32 := Nat.mod_lt _ (by decide)

theorem setupSegmentCount_exact (setup : Setup) : setupSegmentCount setup = setup.finalSegmentIndex.toNat + 1 := by
  have index := setup.finalSegmentIndex.isLt
  exact Nat.mod_eq_of_lt (by omega)

end

/-! ### The sender -/

theorem startable_of_started {t : BitsTransmitter} {object : Bytes} {segmentSize : U16} {sessionId initial : U8}
    (started : (startTransfer object segmentSize sessionId initial t).2 = .kStarted) : Startable t object segmentSize :=
  (startTransfer_cases object segmentSize sessionId initial t).resolve_right fun refused => refused.2 started

/-- What `sendSegment` hands to the router, in any running state of the transfer. -/
theorem sendSegment_bytes {v : BitsTransmitter} (window : SendWindow v) (cfg : Config)
    (router : PacketBuffer → RouteResult) {offset : Nat} (nowMs : U32) (retransmission : Bool)
    (known : v.session.acknowledgedCount + offset ≤ v.session.setup.finalSegmentIndex.toNat) :
    ∃ packet, (sendSegment cfg router offset nowMs retransmission v).1.trace =
        v.trace ++ [.forward packet (router packet)] ∧
      packet.payload =
        segmentHeaderBytes ⟨v.session.setup.sessionId,BitVec.ofNat 16 (v.session.acknowledgedCount + offset)⟩ ++
          segmentBytes v.session.setup v.session.object (v.session.acknowledgedCount + offset) := by
  have inside : v.session.acknowledgedCount + offset < v.session.segmentCount := by
    rw [window.count]
    omega
  obtain ⟨packet,-,payload,-,result⟩ := window.sendSegment_eq cfg router inside nowMs retransmission
  obtain ⟨data,-,-⟩ := window.data (v.session.acknowledgedCount + offset) known rfl
  rw [Nat.mod_eq_of_lt (ReceiverWindow.offset_lt known)] at data
  refine ⟨packet,?_,?_⟩
  · rw [result]
    dsimp only
    split
    · rfl
    · rfl
  · rw [payload,segmentPdu,← data]
    rfl

/-! ### The receiver -/

/-- Every accepted `beginTransfer` of a trace told the sink of a SETUP that passed the checks. -/
def Checked (b : Build) (s : ReceiverEngine.Engine) : Prop :=
  ∀ info, .callback (.beginTransfer info .kAccepted) ∈ s.trace → ∃ setup, Admissible b setup ∧ info = transferInfo setup

section
variable {b : Build} {s t : ReceiverEngine.Engine}

/-- Events that begin no transfer change nothing. -/
theorem Checked.grow (checked : Checked b s) {more : List ReceiverEngine.Event} (trace : t.trace = s.trace ++ more)
    (none : ∀ info, .callback (.beginTransfer info .kAccepted) ∉ more) : Checked b t := by
  intro info member
  rw [trace] at member
  exact checked info ((List.mem_append.mp member).resolve_right (none info))

theorem callback_no_begin (call : ReceiverEngine.Callback) {datagrams : List ReceiverEngine.Event}
    (other : ∀ info, call ≠ .beginTransfer info .kAccepted) (inside : ∀ e ∈ datagrams, Datagram e) :
    ∀ info, .callback (.beginTransfer info .kAccepted) ∉ .callback call :: datagrams := by
  intro info member
  rcases List.mem_cons.mp member with same | behind
  · exact other info (ReceiverEngine.Event.callback.inj same).symm
  · obtain ⟨payload,result,same⟩ := inside _ behind
    cases same

theorem checked_step {c : ReceiverEngine.Call} (checked : Checked b s) (step : Step b c s t) : Checked b t := by
  cases step with
  | note activity sent => exact checked
  | @aside event beside =>
    refine checked.grow (show _ = s.trace ++ [event] from rfl) ?_
    intro info member
    obtain rfl := List.mem_singleton.mp member
    cases beside with
    | datagram datagram =>
      obtain ⟨payload,result,same⟩ := datagram
      cases same
    | refused info other => exact other rfl
  | @ack storage pdu result live size encoded => exact checked.grow (show _ = s.trace ++ [.send pdu result] from rfl) (by simp)
  | @start message nowMs setup datagrams called typed decoded admissible idle inside =>
    intro info member
    rw [ReceiverSteps.startReceiving_trace] at member
    rcases List.mem_append.mp member with old | new
    · exact checked info old
    rcases List.mem_cons.mp new with same | behind
    · cases same
      exact ⟨setup,admissible,rfl⟩
    · obtain ⟨payload,result,same⟩ := inside _ behind
      cases same
  | @accept message nowMs index payload datagrams called fresh inside short =>
    exact checked.grow rfl (callback_no_begin _ (by simp) inside)
  | @complete message nowMs index payload datagrams after called fresh inside behind full =>
    have accepted : Checked b (s.withTrace
        (s.trace ++ .callback (.onSegment (ReceiverSteps.objectOffset b s index) payload true) :: datagrams)) :=
      checked.grow rfl (callback_no_begin _ (by simp) inside)
    exact accepted.grow rfl (callback_no_begin _ (by simp) behind)
  | @refuse message nowMs index payload datagrams after called fresh inside behind =>
    have refused : Checked b (s.withTrace
        (s.trace ++ .callback (.onSegment (ReceiverSteps.objectOffset b s index) payload false) :: datagrams)) :=
      checked.grow rfl (callback_no_begin _ (by simp) inside)
    exact refused.grow rfl (callback_no_begin _ (by simp) behind)
  | @finish ending state datagrams ends active inside =>
    refine checked.grow rfl (callback_no_begin _ ?_ inside)
    cases ends with
    | failed => simp
    | aborted => simp

theorem checked_steps {c : ReceiverEngine.Call} (checked : Checked b s) (steps : Steps b c s t) : Checked b t := by
  induction steps with
  | refl => exact checked
  | tail _ step hypothesis => exact checked_step hypothesis step

end

theorem run_checked (b : Build) (calls : List (ReceiverEngine.Call × Environment)) :
    Checked b (ReceiverEngine.run b calls) := by
  induction calls using List.reverseRecOn with
  | nil => exact fun _ member => absurd member List.not_mem_nil
  | append_singleton calls c hypothesis =>
    rw [ReceiverEngine.run,List.foldl_append]
    exact checked_steps hypothesis (call_steps _ c)

theorem transferCallback_begin {event : ReceiverEngine.Event} {info : ReceiverEngine.TransferInfo}
    (shown : transferCallback event = some (.beginTransfer info .kAccepted)) :
    event = .callback (.beginTransfer info .kAccepted) := by
  cases event with
  | send => simp [transferCallback] at shown
  | callback call =>
    cases call with
    | beginTransfer told answer =>
      cases answer with
      | kAccepted => exact congrArg _ (Option.some.inj shown)
      | kBusy | kTooLarge | kRejected => simp [transferCallback] at shown
    | onSegment | onDatagram | onTransferComplete | onTransferAborted | onTransferFailed =>
      simp [transferCallback] at shown

/-- Every admission of a run is of a SETUP that passed the checks, and delivers its segments. -/
theorem admission_admissible (b : Build) (calls : List (ReceiverEngine.Call × Environment)) {a : Admission}
    (member : a ∈ admissions (ReceiverEngine.run b calls).trace) : ∃ setup, Admissible b setup ∧ Delivers setup a := by
  have life := run_lifecycle b calls
  obtain ⟨setup,delivers⟩ := life.delivers a member
  have called : .beginTransfer a.info .kAccepted ∈ transferCallbacks (ReceiverEngine.run b calls).trace := by
    rw [life.split]
    exact List.mem_flatMap.mpr ⟨a,List.mem_reverse.mpr member,List.mem_cons_self⟩
  obtain ⟨event,inTrace,shown⟩ := List.mem_filterMap.mp called
  have begun := transferCallback_begin shown
  obtain ⟨other,admissible,same⟩ := run_checked b calls a.info (begun ▸ inTrace)
  have info : transferInfo setup = transferInfo other := delivers.info.symm.trans same
  simp only [transferInfo,ReceiverEngine.TransferInfo.mk.injEq] at info
  obtain ⟨-,total,size⟩ := info
  refine ⟨setup,⟨delivers.segment,delivers.final.1,delivers.final.2,?_,admissible.width,?_⟩,delivers⟩
  · rw [total]
    exact admissible.total
  · rw [size]
    exact admissible.size

/-! ### Both sides -/

/-- A transfer that `startTransfer` began: its SETUP describes the object exactly, the object is the join of its
    segments, and `sendSegment` sends just these while the transfer runs. -/
structure SentExactly (object : Bytes) (segmentSize : U16) (u : BitsTransmitter) : Prop where
  size : u.session.setup.segmentSize = segmentSize
  final : 1 ≤ u.session.setup.finalSegmentSize.toNat ∧
    u.session.setup.finalSegmentSize.toNat ≤ u.session.setup.segmentSize.toNat
  count : setupSegmentCount u.session.setup = segmentCount object.length segmentSize.toNat
  total : setupTotalSize u.session.setup = object.length
  tiles : Tiles u.session.setup object.length
  join : (List.range (u.session.setup.finalSegmentIndex.toNat + 1)).flatMap (segmentBytes u.session.setup object) = object
  sent : ∀ (cfg : Config) (more : List (Transmitter.Call × (PacketBuffer → RouteResult))),
    let v := more.foldl (fun t c => (Transmitter.call cfg t c).1) u
    (∀ e ∈ v.trace.drop u.trace.length, ¬Started e) → running v.session = true →
    ∀ (router : PacketBuffer → RouteResult) (offset : Nat) (nowMs : U32) (retransmission : Bool),
      v.session.acknowledgedCount + offset ≤ u.session.setup.finalSegmentIndex.toNat →
      ∃ packet, (sendSegment cfg router offset nowMs retransmission v).1.trace =
          v.trace ++ [.forward packet (router packet)] ∧
        packet.payload =
          segmentHeaderBytes ⟨u.session.setup.sessionId,BitVec.ofNat 16 (v.session.acknowledgedCount + offset)⟩ ++
            segmentBytes u.session.setup object (v.session.acknowledgedCount + offset)

/-- An admitted transfer: its total does not wrap nor exceed the configured bound, and every `onSegment` call is
    for one of the segments that tile it. -/
structure HeardExactly (b : Build) (a : Admission) (setup : Setup) : Prop where
  info : a.info = transferInfo setup
  total : setupTotalSize setup =
    setup.finalSegmentIndex.toNat * setup.segmentSize.toNat + setup.finalSegmentSize.toNat
  total_le : setupTotalSize setup ≤ b.config.maximumObjectSize
  total_lt : setupTotalSize setup < 2 ^ 32
  tiles : Tiles setup (setupTotalSize setup)
  calls : ∀ call ∈ a.segments, ∃ index ≤ setup.finalSegmentIndex.toNat,
    call.objectOffset = segmentStart setup index ∧ call.payload.length = segmentLength setup index ∧
      call.objectOffset + call.payload.length ≤ setupTotalSize setup

theorem sent_exactly {t : BitsTransmitter} {object : Bytes} {segmentSize : U16} (sessionId initial : U8)
    (startable : Startable t object segmentSize) :
    SentExactly object segmentSize (startTransfer object segmentSize sessionId initial t).1 := by
  have window := start_window sessionId initial startable
  obtain ⟨count,-⟩ := setupOf_exact sessionId initial startable
  have begun := congrArg Prod.fst (startTransfer_eq sessionId initial startable)
  generalize (startTransfer object segmentSize sessionId initial t).1 = u at window begun
  have setup : u.session.setup = Transmitter.setupOf object segmentSize sessionId initial := by rw [begun]; rfl
  have same : u.session.object = object := by rw [begun]; rfl
  have total := window.total
  rw [same] at total
  refine ⟨by rw [setup]; rfl,⟨window.final,window.final_le⟩,?_,?_,?_,?_,?_⟩
  · rw [setupSegmentCount_exact,setup,count]
  · rw [setupTotalSize_exact,total]
  · rw [← total]
    exact tiles_of window.final window.final_le
  · exact (cutOf u.session.setup window.final window.final_le).join total.symm
  · intro cfg more v none runs router offset nowMs retransmission known
    have guarded : TransmitterSteps.Guarded u := fun _ => window
    have within : TransmitterWindow.Within u v := by
      refine TransmitterWindow.within_run cfg guarded more fun events whole object setup member => ?_
      refine none (.started object setup) ?_ ⟨object,setup,rfl⟩
      rwa [whole,List.drop_left]
    have later := TransmitterWindow.guarded_calls cfg guarded more runs
    rw [← within.setup] at known
    obtain ⟨packet,traced,payload⟩ := sendSegment_bytes later cfg router nowMs retransmission known
    rw [within.setup,within.object,same] at payload
    exact ⟨packet,traced,payload⟩

/-- Sizes, offsets and totals are exact on both sides. -/
theorem object_geometry_exact :
    (∀ (t : BitsTransmitter) (object : Bytes) (segmentSize : U16) (sessionId initial : U8),
      (startTransfer object segmentSize sessionId initial t).2 = .kStarted →
      SentExactly object segmentSize (startTransfer object segmentSize sessionId initial t).1) ∧
    ∀ (b : Build) (calls : List (ReceiverEngine.Call × Environment)),
      ∀ a ∈ admissions (ReceiverEngine.run b calls).trace, ∃ setup, HeardExactly b a setup := by
  refine ⟨fun t object segmentSize sessionId initial started => sent_exactly _ _ (startable_of_started started),?_⟩
  intro b calls a member
  obtain ⟨setup,admissible,delivers⟩ := admission_admissible b calls member
  have tiles := tiles_of admissible.final admissible.final_le
  rw [← setupTotalSize_exact] at tiles
  refine ⟨setup,delivers.info,setupTotalSize_exact setup,admissible.total,setupTotalSize_lt setup,tiles,?_⟩
  intro call inSegments
  obtain ⟨index,known,place,length⟩ := delivers.calls call inSegments
  refine ⟨index,known,place,length,?_⟩
  rw [place,length]
  exact tiles.inside index known

/-- Three bytes in two segments, and the engine that admits them. -/
theorem two_segments_exact :
    SentExactly [1,2,3] 2 (startTransfer [1,2,3] 2 9 250
      ⟨.define 16 (by decide),.define 16 (by decide),false,{},.kSent,[]⟩).1 ∧
    (∃ a, a ∈ admissions (ReceiverEngine.run general [(.process (setupBytes ⟨9,250,1,2,1⟩) 0,sinkWith .kSent)]).trace) ∧
    ∀ a ∈ admissions (ReceiverEngine.run general [(.process (setupBytes ⟨9,250,1,2,1⟩) 0,sinkWith .kSent)]).trace,
      ∃ setup, HeardExactly general a setup := by
  obtain ⟨sent,heard⟩ := object_geometry_exact
  refine ⟨sent _ [1,2,3] 2 9 250 (by decide),?_,heard general _⟩
  exact List.exists_mem_of_ne_nil _ (by decide)

end WireSpaces.Geometry
