import WireSpaces.Blocks
import WireSpaces.ReceiverAcks
import WireSpaces.TransmitterWindow

/-!
What the two endpoints say to each other about one session: the PDUs a
transmitter forwards for its object, what an engine that hears only those makes
of them, and what the ACKs it answers with show.
-/
namespace WireSpaces.SessionTraffic
open WireSpaces.Words WireSpaces.Codec WireSpaces.ReceiverEngine WireSpaces.ReceiverSteps WireSpaces.ReceiverWindow
open WireSpaces.ReceiverLifecycle
open WireSpaces.ReceiverAcks (sendAck_ends)
open WireSpaces.TransmitterSteps (slice segmentPdu)

/-- The message names the session: every message but a datagram has its identifier behind the control byte. -/
def carries (sessionId : U8) (message : Bytes) : Bool :=
  message[1]? == some sessionId && ! hasType message .kUserDatagram

/-- What the transmitter of an object may say once it was granted `granted`
    segments: its SETUP, a granted segment, or a message that is neither. -/
def Outbound (setup : Setup) (object : Bytes) (granted : Nat) (message : Bytes) : Prop :=
  message = setupBytes setup ∨
    (∃ i < granted, i ≤ setup.finalSegmentIndex.toNat ∧ message = segmentPdu setup object i) ∨
    hasType message .kSetup = false ∧ hasType message .kSegment = false

theorem Outbound.mono {setup : Setup} {object message : Bytes} {granted granted' : Nat} (le : granted ≤ granted')
    (outbound : Outbound setup object granted message) : Outbound setup object granted' message := by
  rcases outbound with same | ⟨i,below,known,same⟩ | other
  · exact .inl same
  · exact .inr (.inl ⟨i,below.trans_le le,known,same⟩)
  · exact .inr (.inr other)

/-- A call hears the transmitter's messages and such that do not name the session. -/
def Hears (setup : Setup) (object : Bytes) (granted : Nat) (c : Call) : Prop :=
  ∀ message nowMs, c = .process message nowMs →
    Outbound setup object granted message ∨ carries setup.sessionId message = false

/-- The admissions of the session took the object's slices at their places, none
    beyond the grant. -/
def Placed (setup : Setup) (object : Bytes) (granted : Nat) (as : List Admission) : Prop :=
  ∀ a ∈ as, a.info.sessionId = setup.sessionId → a.info = transferInfo setup ∧
    ∀ call ∈ a.segments, call.accepted = true → ∃ i < granted,
      call.objectOffset = i * setup.segmentSize.toNat ∧ call.payload = slice object setup.segmentSize.toNat i

/-- An engine that heard only the transmitter's PDUs of the session. -/
structure Heard (setup : Setup) (object : Bytes) (granted : Nat) (s : Engine) : Prop where
  same : s.state = .kActive ∨ s.state = .kCompleted → s.setup.sessionId = setup.sessionId → s.setup = setup
  placed : Placed setup object granted (admissions s.trace)

theorem heard_init (setup : Setup) (object : Bytes) : Heard setup object 0 {} := by
  constructor <;> simp [admissions,Placed]

section heard
variable {b : Build} {setup : Setup} {object : Bytes} {granted : Nat}

theorem Heard.mono {granted' : Nat} {s : Engine} (heard : Heard setup object granted s) (le : granted ≤ granted') :
    Heard setup object granted' s := by
  refine ⟨heard.same,?_⟩
  intro a member session
  obtain ⟨info,slices⟩ := heard.placed a member session
  refine ⟨info,?_⟩
  intro call found accepted
  obtain ⟨i,below,at_i⟩ := slices call found accepted
  exact ⟨i,below.trans_le le,at_i⟩

/-- A message that names a session and passes for one of its SETUPs or segments. -/
theorem carries_of_getD {sessionId : U8} {message : Bytes} {type : MessageType} (typed : hasType message type = true)
    (other : type ≠ .kUserDatagram) (long : 2 ≤ message.length) (named : message.getD 1 0 = sessionId) :
    carries sessionId message = true := by
  cases message with
  | nil => simp [hasType] at typed
  | cons first rest =>
    obtain rfl := hasType_cons.mp typed
    cases rest with
    | nil => simp at long
    | cons second rest =>
      simp only [List.getD_cons_succ,List.getD_cons_zero] at named
      simp [carries,named,hasType_encodeControl,other]

/-- The SETUP of the session that a call hears is the transmitter's. -/
theorem heard_setup {message : Bytes} (hears : Outbound setup object granted message ∨ carries setup.sessionId message = false)
    (typed : hasType message .kSetup = true) {requested : Setup} (decoded : decodeSetupKnownType message = some requested)
    (session : requested.sessionId = setup.sessionId) : requested = setup := by
  have shape : message.length = kSetupSize ∧ message.getD 1 0 = requested.sessionId := by
    unfold decodeSetupKnownType at decoded
    split at decoded
    · cases decoded
    · rename_i wellFormed
      push Not at wellFormed
      obtain rfl := Option.some.inj decoded
      exact ⟨wellFormed.1,rfl⟩
  have named : carries setup.sessionId message = true :=
    carries_of_getD typed (by decide) (by rw [shape.1]; decide) (shape.2.trans session)
  rcases hears with (rfl | ⟨i,-,-,rfl⟩ | other) | foreign
  · rw [decodeSetup_setupBytes] at decoded
    exact (Option.some.inj decoded).symm
  · simp [segmentPdu,segmentHeaderBytes,hasType_encodeControl] at typed
  · rw [other.1] at typed
    exact absurd typed (by decide)
  · rw [foreign] at named
    exact absurd named (by decide)

/-- The segment of the session that a call hears is a granted slice. -/
theorem heard_segment {message : Bytes} (hears : Outbound setup object granted message ∨ carries setup.sessionId message = false)
    (typed : hasType message .kSegment = true) {index : Nat} (small : index < 2 ^ 16)
    (decoded : decodeSegmentHeaderKnownType message = some ⟨setup.sessionId,BitVec.ofNat 16 index⟩) :
    index < granted ∧ message.drop kSegmentHeaderSize = slice object setup.segmentSize.toNat index := by
  have shape : kSegmentHeaderSize ≤ message.length ∧ message.getD 1 0 = setup.sessionId := by
    unfold decodeSegmentHeaderKnownType at decoded
    split at decoded
    · cases decoded
    · rename_i long
      exact ⟨not_lt.mp long,congrArg SegmentHeader.sessionId (Option.some.inj decoded)⟩
  have named : carries setup.sessionId message = true :=
    carries_of_getD typed (by decide) (le_trans (by decide) shape.1) shape.2
  rcases hears with (rfl | ⟨i,below,known,rfl⟩ | other) | foreign
  · simp [setupBytes,hasType_encodeControl] at typed
  · rw [segmentPdu,decodeSegmentHeader_segmentHeaderBytes] at decoded
    have indexIs := congrArg (fun h => h.segmentIndex.toNat) (Option.some.inj decoded)
    have bound := setup.finalSegmentIndex.isLt
    simp only [BitVec.toNat_ofNat,Nat.mod_eq_of_lt small,Nat.mod_eq_of_lt (show i < 2 ^ 16 by omega)] at indexIs
    subst indexIs
    exact ⟨below,rfl⟩
  · rw [other.2] at typed
    exact absurd typed (by decide)
  · rw [foreign] at named
    exact absurd named (by decide)

/-- A terminal callback adds no sink call. -/
theorem Placed.ending {as : List Admission} (placed : Placed setup object granted as) (outcome : Outcome) :
    Placed setup object granted (record as (.callback outcome.callback)) := by
  cases as with
  | nil => cases outcome <;> exact placed
  | cons latest earlier =>
    intro a member session
    have other : a ∈ earlier ∨ a.info = latest.info ∧ a.segments = latest.segments := by
      cases outcome <;>
      · simp only [Outcome.callback,record,changeLatest,List.mem_cons] at member
        rcases member with rfl | old
        · exact .inr ⟨rfl,rfl⟩
        · exact .inl old
    rcases other with old | ⟨info,segments⟩
    · exact placed a (List.mem_cons_of_mem _ old) session
    · rw [info] at session
      rw [info,segments]
      exact placed latest List.mem_cons_self session

/-- The admissions after a sink call: the latest gains the call, the others stay. -/
theorem record_onSegment {as : List Admission} {offset : Nat} {payload : Bytes} {taken : Bool} {a : Admission}
    (member : a ∈ record as (.callback (.onSegment offset payload taken))) :
    a ∈ as ∨ ∃ latest, as.head? = some latest ∧ a.info = latest.info ∧
      ∀ call ∈ a.segments, call ∈ latest.segments ∨ call = ⟨offset,payload,taken⟩ := by
  cases as with
  | nil => simp [record,changeLatest] at member
  | cons latest earlier =>
    simp only [record,changeLatest,List.mem_cons] at member
    rcases member with rfl | old
    · refine .inr ⟨latest,rfl,rfl,?_⟩
      intro call found
      simpa using found
    · exact .inl (List.mem_cons_of_mem _ old)

/-- A sink call on a fresh segment of the session is a slice at its place. -/
theorem Heard.fresh {s : Engine} (heard : Heard setup object granted s) (life : Lifecycle b s) {message payload : Bytes}
    {index : Nat} (hears : Outbound setup object granted message ∨ carries setup.sessionId message = false)
    (fresh : Fresh b s message index payload) {a : Admission} (latest : (admissions s.trace).head? = some a)
    (session : a.info.sessionId = setup.sessionId) :
    index < granted ∧ objectOffset b s index = index * setup.segmentSize.toNat ∧
      payload = slice object setup.segmentSize.toNat index := by
  obtain ⟨a',latest',current⟩ := life.live (.inl fresh.active)
  rw [latest] at latest'
  cases latest'
  have named : s.setup.sessionId = setup.sessionId := by
    rw [current.delivers.info] at session
    exact session
  have same := heard.same (.inl fresh.active) named
  obtain ⟨below,content⟩ := heard_segment hears fresh.typed fresh.small (same ▸ fresh.header)
  exact ⟨below,same ▸ current.window.objectOffset_eq fresh,fresh.content.trans content⟩

/-- After a sink call on a fresh segment, the accepted segments are slices still. -/
theorem Heard.call {s : Engine} (heard : Heard setup object granted s) (life : Lifecycle b s) {message payload : Bytes}
    {index : Nat} (hears : Outbound setup object granted message ∨ carries setup.sessionId message = false)
    (fresh : Fresh b s message index payload) (taken : Bool) :
    Placed setup object granted
      (record (admissions s.trace) (.callback (.onSegment (objectOffset b s index) payload taken))) := by
  intro a member session
  rcases record_onSegment member with old | ⟨latest,isLatest,info,calls⟩
  · exact heard.placed a old session
  · have among : latest ∈ admissions s.trace := List.mem_of_mem_head? isLatest
    obtain ⟨infoIs,slices⟩ := heard.placed latest among (info ▸ session)
    refine ⟨info.trans infoIs,?_⟩
    intro call found accepted
    rcases calls call found with old | rfl
    · exact slices call old accepted
    · exact ⟨index,heard.fresh life hears fresh isLatest (info ▸ session)⟩

theorem heard_step {c : Call} {s t : Engine} (hears : Hears setup object granted c) (life : Lifecycle b s)
    (heard : Heard setup object granted s) (step : Step b c s t) : Heard setup object granted t := by
  cases step with
  | note activity sent => exact ⟨heard.same,heard.placed⟩
  | aside beside => exact ⟨heard.same,by simpa [emit,record_aside beside] using heard.placed⟩
  | ack result live size encoded => exact ⟨heard.same,by simpa [emit,record] using heard.placed⟩
  | @start message nowMs requested datagrams called typed decoded admissible idle inside =>
    obtain ⟨-,setupIs,-,trace⟩ := startReceiving_window admissible nowMs
      (s.withTrace (s.trace ++ .callback (.beginTransfer (transferInfo requested) .kAccepted) :: datagrams))
    have own := heard_setup (hears message nowMs called) typed decoded
    refine ⟨?_,?_⟩
    · rw [setupIs]
      exact fun _ => own
    · rw [trace,Engine.withTrace_trace,admissions_callback _ _ inside]
      intro a member session
      rcases List.mem_cons.mp member with rfl | old
      · exact ⟨congrArg transferInfo (own session),by simp⟩
      · exact heard.placed a old session
  | @accept message nowMs index payload datagrams called fresh inside short =>
    obtain ⟨a,latest,current⟩ := life.live (.inl fresh.active)
    refine ⟨?_,?_⟩
    · rw [Engine.withTrace_setup,(advanced_adds current.window fresh).setup]
      exact fun _ => heard.same (.inl fresh.active)
    · rw [Engine.withTrace_trace,admissions_callback _ _ inside]
      exact heard.call life (hears message nowMs called) fresh true
  | @complete message nowMs index payload datagrams after called fresh inside behind full =>
    obtain ⟨a,latest,current⟩ := life.live (.inl fresh.active)
    refine ⟨?_,?_⟩
    · rw [Engine.withTrace_setup,Engine.withState_setup,(advanced_adds current.window fresh).setup]
      exact fun _ => heard.same (.inl fresh.active)
    · rw [Engine.withTrace_trace,admissions_callback _ _ behind,admissions_callback _ _ inside]
      exact (heard.call life (hears message nowMs called) fresh true).ending .completed
  | @refuse message nowMs index payload datagrams after called fresh inside behind =>
    refine ⟨fun live => by simp at live,?_⟩
    rw [Engine.withTrace_trace,admissions_callback _ _ behind,admissions_callback _ _ inside]
    exact (heard.call life (hears message nowMs called) fresh false).ending (.failed .kSinkRejected)
  | finish ends active inside =>
    refine ⟨fun _ => heard.same (.inl active),?_⟩
    rw [Engine.withTrace_trace,admissions_callback _ _ inside]
    cases ends with
    | failed reason => exact heard.placed.ending (.failed reason)
    | aborted reason => exact heard.placed.ending (.aborted reason)

theorem heard_steps {c : Call} {s t : Engine} (hears : Hears setup object granted c) (life : Lifecycle b s)
    (heard : Heard setup object granted s) (steps : Steps b c s t) : Lifecycle b t ∧ Heard setup object granted t := by
  induction steps with
  | refl => exact ⟨life,heard⟩
  | tail _ step ih => exact ⟨lifecycle_step ih.1 step,heard_step hears ih.1 ih.2 step⟩

/-! ### What the engine answers -/

/-- Some admission of the session was completed. -/
def Finished (sessionId : U8) (events : List Event) : Prop :=
  ∃ a ∈ admissions events, a.info.sessionId = sessionId ∧ .completed ∈ a.endings

theorem Finished.append {sessionId : U8} {events : List Event} (finished : Finished sessionId events) (more : List Event) :
    Finished sessionId (events ++ more) := by
  induction more using List.reverseRecOn with
  | nil => simpa using finished
  | append_singleton more event ih =>
    rw [← List.append_assoc,Finished,admissions_emit]
    obtain ⟨a,member,session,completed⟩ := ih
    -- An event keeps every admission, but for the latest, which may gain calls and endings.
    have kept (change : Admission → Admission) (info : (change a).info = a.info) (endings : .completed ∈ (change a).endings) :
        ∃ x ∈ changeLatest change (admissions (events ++ more)), x.info.sessionId = sessionId ∧ .completed ∈ x.endings := by
      cases listed : admissions (events ++ more) with
      | nil => rw [listed] at member; cases member
      | cons latest earlier =>
        rw [listed] at member
        rcases List.mem_cons.mp member with rfl | old
        · exact ⟨change a,List.mem_cons_self,info ▸ session,endings⟩
        · exact ⟨a,List.mem_cons_of_mem _ old,session,completed⟩
    cases event with
    | send => exact ⟨a,member,session,completed⟩
    | callback call =>
      cases call with
      | beginTransfer info answer =>
        cases answer with
        | kAccepted => exact ⟨a,List.mem_cons_of_mem _ member,session,completed⟩
        | kBusy | kTooLarge | kRejected => exact ⟨a,member,session,completed⟩
      | onDatagram => exact ⟨a,member,session,completed⟩
      | onSegment => exact kept _ rfl completed
      | onTransferComplete | onTransferAborted | onTransferFailed => exact kept _ rfl (List.mem_append_left _ completed)

/-- An ACK of the session, sent at a contiguous count: it shows that count, which
    is within the grant and is the whole object only after completion. -/
def Truthful (setup : Setup) (granted : Nat) (events : List Event) (pdu : Bytes) (count : Nat) : Prop :=
  ∀ ack, decodeAckKnownType pdu = some ack → ack.sessionId = setup.sessionId →
    (∃ g bitmap, pdu = ackOf setup count g bitmap) ∧ count ≤ granted ∧
      (count = setup.finalSegmentIndex.toNat + 1 → Finished setup.sessionId events)

/-- The ACK of a live window is truthful. -/
theorem Heard.ack {s : Engine} (heard : Heard setup object granted s) (life : Lifecycle b s)
    (live : s.state = .kActive ∨ s.state = .kCompleted) {storage pdu : Bytes} (size : storage.length = kAckSize)
    (encoded : encodedAck b s storage = some pdu) : Truthful setup granted s.trace pdu s.contiguousCount := by
  obtain ⟨a,latest,current⟩ := life.live live
  have window := current.window
  have pduIs := window.encodedAck_eq size encoded
  intro ack decoded session
  have named : s.setup.sessionId = setup.sessionId := by
    rw [pduIs,ackOf,decodeAck_ackBytes] at decoded
    rw [← session,← Option.some.inj decoded]
  have same := heard.same live named
  have among : a ∈ admissions s.trace := List.mem_of_mem_head? latest
  have ours : a.info.sessionId = setup.sessionId := by
    rw [current.delivers.info]
    exact named
  refine ⟨⟨_,_,same ▸ pduIs⟩,?_,?_⟩
  · -- The last contiguous segment was accepted, so it had been granted.
    rcases Nat.eq_zero_or_pos s.contiguousCount with zero | positive
    · omega
    · have accepted := (current.received (s.contiguousCount - 1)).mp (.inl (by omega))
      obtain ⟨call,found,offset⟩ := List.mem_map.mp accepted
      obtain ⟨inSegments,taken⟩ := List.mem_filter.mp found
      obtain ⟨i,below,place,-⟩ := (heard.placed a among ours).2 call inSegments taken
      have index : i = s.contiguousCount - 1 := by
        rw [offset,same] at place
        exact (Nat.eq_of_mul_eq_mul_right (same ▸ current.delivers.segment) place).symm
      omega
  · intro whole
    refine ⟨a,among,ours,current.delivers.complete.mpr ?_⟩
    intro index known
    rw [same] at known
    exact (current.received index).mp (.inl (by omega))

/-- Every ACK a call sends is the ACK of the window the call leaves. -/
theorem call_replies {s : Engine} {c : Call × Environment} (hears : Hears setup object granted c.1) (life : Lifecycle b s)
    (heard : Heard setup object granted s) :
    ∃ more, (call b s c).1.trace = s.trace ++ more ∧ ∀ pdu result, .send pdu result ∈ more → hasType pdu .kAck = true →
      Truthful setup granted (call b s c).1.trace pdu (call b s c).1.contiguousCount := by
  have closing := call_closing (b := b) s c
  generalize (call b s c).1 = t at closing
  cases closing with
  | quiet steps =>
    obtain ⟨more,trace,noAck⟩ := QuietSteps.trace steps
    refine ⟨more,trace,?_⟩
    intro pdu result member typed
    rw [noAck pdu result member] at typed
    exact absurd typed (by decide)
  | @acked u steps live =>
    obtain ⟨more,trace,noAck⟩ := QuietSteps.trace steps
    obtain ⟨lifeU,heardU⟩ := heard_steps hears life heard (QuietSteps.steps steps)
    have count : (sendAck b c.2 u).1.contiguousCount = u.contiguousCount := by
      have same := (sendAck_ends (b := b) c.2 u).1
      simp only [core,Prod.mk.injEq] at same
      exact same.2.2.1
    rcases sendAck_cases (b := b) (c := c.1) c.2 u with ⟨storage,pdu,size,encoded,rest⟩ | quiet
    · obtain ⟨after,traceAfter,noAckAfter⟩ := QuietSteps.trace rest
      refine ⟨more ++ (.send pdu (c.2.sender.sendPrepared pdu) :: after),?_,?_⟩
      · rw [traceAfter,show (sendPrepared c.2 pdu u).1.trace = u.trace ++ [.send pdu (c.2.sender.sendPrepared pdu)] from rfl,
          trace]
        simp
      · intro pdu' result member typed
        rcases List.mem_append.mp member with early | late
        · rw [noAck pdu' result early] at typed
          exact absurd typed (by decide)
        · rcases List.mem_cons.mp late with same | behind
          · cases same
            have truthful := heardU.ack lifeU live size encoded
            rw [count]
            intro ack decoded session
            obtain ⟨shown,within,finished⟩ := truthful ack decoded session
            refine ⟨shown,within,fun whole => ?_⟩
            rw [traceAfter,show (sendPrepared c.2 pdu u).1.trace = u.trace ++ [.send pdu (c.2.sender.sendPrepared pdu)] from rfl,
              List.append_assoc]
            exact (finished whole).append _
          · rw [noAckAfter pdu' result behind] at typed
            exact absurd typed (by decide)
    · obtain ⟨after,traceAfter,noAckAfter⟩ := QuietSteps.trace quiet
      refine ⟨more ++ after,by rw [traceAfter,trace,List.append_assoc],?_⟩
      intro pdu result member typed
      rw [noAck_append noAck noAckAfter pdu result member] at typed
      exact absurd typed (by decide)

end heard
/-! ### The object's geometry -/

/-- The announced geometry is the object's. -/
structure Describes (setup : Setup) (object : Bytes) : Prop where
  length : object.length = setup.finalSegmentIndex.toNat * setup.segmentSize.toNat + setup.finalSegmentSize.toNat
  final : 0 < setup.finalSegmentSize.toNat ∧ setup.finalSegmentSize.toNat ≤ setup.segmentSize.toNat

section describes
variable {setup : Setup} {object : Bytes}

def Describes.cut (describes : Describes setup object) : Blocks.Cut :=
  ⟨setup.segmentSize.toNat,setup.finalSegmentIndex.toNat,setup.finalSegmentSize.toNat,describes.final.1,describes.final.2⟩

theorem Describes.slice_length (describes : Describes setup object) {index : Nat} (known : index ≤ setup.finalSegmentIndex.toNat) :
    (slice object setup.segmentSize.toNat index).length = describes.cut.length index := by
  obtain ⟨length,final⟩ := describes
  rw [slice,List.length_take,List.length_drop,length,Blocks.Cut.length,Describes.cut]
  dsimp only
  split
  · rename_i last
    subst last
    omega
  · rename_i inner
    have before : index + 1 ≤ setup.finalSegmentIndex.toNat := Nat.lt_of_le_of_ne known inner
    have := Nat.mul_le_mul_right setup.segmentSize.toNat before
    rw [Nat.succ_mul] at this
    omega

/-- Every slice has the size the engine expects of its segment. -/
theorem Describes.expectedSize (describes : Describes setup object) {index : Nat} (known : index ≤ setup.finalSegmentIndex.toNat) :
    (slice object setup.segmentSize.toNat index).length = (ReceiverEngine.expectedSize setup (BitVec.ofNat 16 index)).toNat := by
  rw [expectedSize_eq setup (by omega),describes.slice_length known]
  rfl

theorem Describes.stop_le (describes : Describes setup object) {index : Nat} (known : index ≤ setup.finalSegmentIndex.toNat) :
    index * setup.segmentSize.toNat + (slice object setup.segmentSize.toNat index).length ≤ object.length := by
  rw [describes.slice_length known,describes.length]
  exact describes.cut.stop_le_total known

theorem Describes.cover (describes : Describes setup object) {place : Nat} (inside : place < object.length) :
    ∃ index ≤ setup.finalSegmentIndex.toNat, index * setup.segmentSize.toNat ≤ place ∧
      place < index * setup.segmentSize.toNat + (slice object setup.segmentSize.toNat index).length := by
  rw [describes.length] at inside
  obtain ⟨index,known,from_start,to_stop⟩ := describes.cut.cover inside
  refine ⟨index,known,from_start,?_⟩
  rw [describes.slice_length known]
  exact to_stop

end describes

end WireSpaces.SessionTraffic
