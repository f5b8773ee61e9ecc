import WireSpaces.EndToEnd
import WireSpaces.HostTransmitter

/-!
An upload from the host tools' transmitter to a firmware engine. Over a network that
loses, duplicates, reorders and delays, the transmitter completes only what the
engine has received; over a line that loses some messages, but not too many in a row,
the upload completes.
-/
namespace WireSpaces.HostUpload
open WireSpaces.Codec WireSpaces.SessionTraffic WireSpaces.HostTransmitter
open WireSpaces.HostReceiver (lowByte unpackB messageType)
open WireSpaces.ReceiverEngine (Build Engine Environment)
open WireSpaces.ReceiverSteps (general sinkWith)
open WireSpaces.ReceiverLifecycle (Lifecycle Admission admissions lifecycle_init)
open WireSpaces.ReceiverWindow (ackOf)
open WireSpaces.TransmitterSteps (slice segmentPdu)
open WireSpaces.EndToEnd (repliesOf mem_repliesOf truthful_mono delivered_of_finished)

/-! ### ACKs as the host reads them -/

theorem lowByte_sub (x y : U8) : lowByte (x.toNat - y.toNat) = (x - y).toNat := by
  have := x.isLt
  have := y.isLt
  rw [lowByte,BitVec.toNat_sub]
  omega

theorem base_difference (initial : U8) (count acknowledged : Nat) :
    initial + BitVec.ofNat 8 count - 1 - (initial + BitVec.ofNat 8 acknowledged - 1) =
      BitVec.ofNat 8 count - BitVec.ofNat 8 acknowledged := by
  bv_omega

theorem hasType_of_messageType {payload : Bytes} {type : MessageType} (named : messageType payload = some type.value.toNat) :
    hasType payload type = true := by
  cases payload with
  | nil => cases named
  | cons first rest =>
    rw [HostReceiver.messageType_cons] at named
    obtain ⟨control,found,value⟩ := Option.map_eq_some_iff.mp named
    obtain rfl := decodeControl_eq_some found
    have is : control.type = type := by
      cases kind : control.type <;> cases type <;> rw [kind] at value <;> simp_all [MessageType.value]
    rw [hasType_encodeControl]
    exact decide_eq_true is

/-- Both sides decode an ACK to the same fields. -/
theorem decodeAck_eq_ok {payload : Bytes} {ack : HostReceiver.Ack} (decoded : HostTransmitter.decodeAck payload = .ok ack) :
    ∃ shown, hasType payload .kAck = true ∧ decodeAckKnownType payload = some shown ∧
      ack = ⟨shown.sessionId.toNat,shown.windowBitmap.toNat,shown.maxReceiveSequence.toNat,shown.windowBase.toNat⟩ := by
  unfold HostTransmitter.decodeAck at decoded
  split_ifs at decoded with invalid
  push Not at invalid
  obtain ⟨size,type⟩ := invalid
  obtain rfl := Except.ok.inj decoded
  have typed : hasType payload .kAck = true := hasType_of_messageType type
  refine ⟨⟨payload.getD 1 0,readU16 payload 2,payload.getD 4 0,payload.getD 5 0⟩,typed,?_,?_⟩
  · have whole : payload.length = kAckSize := size
    rw [decodeAckKnownType,if_neg (not_not.mpr whole)]
  · rw [HostReceiver.unpackH_eq]
    rfl

section system
variable {Time : Type}

/-- An ACK of a count advances the transmitter by the difference, modulo 256. -/
theorem ackAdvance_mod {t : CompactBitsTransmitter Time} (sized : Sized t) {ack : HostReceiver.Ack} {shown : Codec.Ack}
    {payload : Bytes} (known : decodeAckKnownType payload = some shown)
    (fields : ack = ⟨shown.sessionId.toNat,shown.windowBitmap.toNat,shown.maxReceiveSequence.toNat,shown.windowBase.toNat⟩)
    {count g : Nat} {bitmap : U16} (is : payload = ackOf (announced t) count g bitmap) :
    (t.acknowledgedCount + ackAdvance t ack) % 256 = count % 256 := by
  have base : shown.windowBase = (announced t).initialSequenceNumber + BitVec.ofNat 8 count - 1 := by
    rw [is,ackOf,decodeAck_ackBytes] at known
    rw [← Option.some.inj known]
  have initial : t.initialSequence = (announced t).initialSequenceNumber.toNat := sized.announced_toNat.2.1.symm
  subst fields
  rw [ackAdvance,initial,HostReceiver.baseSequence_eq,ReceiverWindow.baseSequence_eq,lowByte_sub,base,base_difference,
    BitVec.toNat_sub,BitVec.toNat_ofNat,BitVec.toNat_ofNat]
  omega

/-! ### The system -/

/-- Both ends, and every PDU the engine ever handed to its sender with the contiguous
    count of the call that sent it. -/
structure System (Time : Type) where
  tx : Session Time
  rx : Engine
  replies : List (Bytes × Nat)

inductive Action (Time : Type) where
  | poll (now : Time)
  | hear (reply : Nat)
  | hearOther (payload : Bytes)
  | engine (c : ReceiverEngine.Call) (env : Environment)

section actions
variable (b : Build) (clock : Clock Time)

def perform (sys : System Time) : Action Time → System Time
  | .poll now => { sys with tx := HostTransmitter.perform clock sys.tx (.poll now) }
  | .hear reply =>
    match sys.replies[reply]? with
    | none => sys
    | some found => { sys with tx := HostTransmitter.perform clock sys.tx (.receive found.1) }
  | .hearOther payload => { sys with tx := HostTransmitter.perform clock sys.tx (.receive payload) }
  | .engine c env =>
    let rx := (ReceiverEngine.call b sys.rx (c,env)).1
    { sys with rx := rx, replies := sys.replies ++ repliesOf sys.rx rx }

/-- The reply, if it is an ACK, was generated at a count at most 254 below the acknowledged one. -/
def timely (sys : System Time) (reply : Nat) : Bool :=
  match sys.replies[reply]? with
  | none => true
  | some found => ! hasType found.1 .kAck || decide (sys.tx.tx.acknowledgedCount ≤ found.2 + 254)

/-- What the network may do: the engine hears what was sent to it, everything else
    does not name the session, and past 255 segments no ACK is too stale. -/
def permitted (sessionId : U8) (segments : Nat) (sys : System Time) : Action Time → Bool
  | .poll _ => true
  | .hear reply => decide (segments ≤ 255) || timely sys reply
  | .hearOther payload => ! carries sessionId payload
  | .engine (.process message _) _ => sys.tx.sent.contains message || ! carries sessionId message
  | .engine _ _ => true

def permittedAll (sessionId : U8) (segments : Nat) : System Time → List (Action Time) → Bool
  | _, [] => true
  | sys, action :: rest =>
    permitted sessionId segments sys action && permittedAll sessionId segments (perform b clock sys action) rest

def performAll (sys : System Time) (actions : List (Action Time)) : System Time := actions.foldl (perform b clock) sys

end actions

/-! ### The invariant -/

/-- What ties the two ends and everything in flight together. -/
structure Safe (b : Build) (setup : Setup) (object : Bytes) (sys : System Time) : Prop where
  spoken : Spoken setup object sys.tx
  life : Lifecycle b sys.rx
  heard : Heard setup object sys.tx.tx.grantedEnd sys.rx
  replies : ∀ reply ∈ sys.replies, hasType reply.1 .kAck = true →
    Truthful setup sys.tx.tx.grantedEnd sys.rx.trace reply.1 reply.2
  done : sys.tx.tx.state = .completed → Finished setup.sessionId sys.rx.trace

theorem describes_announced {t : CompactBitsTransmitter Time} (sized : Sized t) : Describes (announced t) t.object := by
  obtain ⟨-,-,final,size,rest⟩ := sized.announced_toNat
  obtain ⟨-,shorter,longer⟩ := sized.last
  have index : (announced t).finalSegmentIndex.toNat = t.segmentCount - 1 := by omega
  refine ⟨?_,by omega⟩
  rw [size,rest,index]
  omega

theorem said_outbound {setup : Setup} {object pdu : Bytes} {granted : Nat} (inside : granted ≤ setup.finalSegmentIndex.toNat + 1)
    (said : Said setup object granted pdu) : Outbound setup object granted pdu := by
  cases said with
  | setup => exact .inl rfl
  | segment known => exact .inr (.inl ⟨_,known,by omega,rfl⟩)
  | probe => exact .inr (.inr ⟨hasType_probeBytes _ _,hasType_probeBytes _ _⟩)
  | abort => exact .inr (.inr ⟨hasType_abortBytes _ _,hasType_abortBytes _ _⟩)

section step
variable {b : Build} {clock : Clock Time} {setup : Setup} {object : Bytes} {sys : System Time}

theorem Safe.segmentCount (safe : Safe b setup object sys) :
    sys.tx.tx.segmentCount = setup.finalSegmentIndex.toNat + 1 := by
  rw [← safe.spoken.setup_is]
  exact safe.spoken.window.toSized.announced_toNat.2.2.1.symm

theorem poll_counters {t : CompactBitsTransmitter Time} {now : Time} {polled : Polled Time} (did : Poll clock now t polled) :
    polled.1.grantedEnd = t.grantedEnd ∧ (polled.1.state = .completed → t.state = .completed) := by
  cases did with
  | silent | wait | setup | again | next | probe => exact ⟨rfl,id⟩
  | abort => exact ⟨rfl,nofun⟩

theorem safe_poll (safe : Safe b setup object sys) (now : Time) : Safe b setup object (perform b clock sys (.poll now)) := by
  obtain ⟨granted,completed⟩ := poll_counters (poll_cases clock safe.spoken.window now)
  refine ⟨spoken_poll clock safe.spoken now,safe.life,safe.heard.mono granted.ge,?_,fun final => safe.done (completed final)⟩
  intro reply member typed
  have kept := truthful_mono (safe.replies reply member typed) granted.ge []
  rwa [List.append_nil] at kept

theorem receive_granted {payload : Bytes} {t u : CompactBitsTransmitter Time} (did : Receive payload t u) :
    t.grantedEnd ≤ u.grantedEnd := by
  cases did with
  | same | rejected | aborted => exact le_refl _
  | acked => exact le_max_left _ _

/-- A call of the transmitter's `receive` whose completion is accounted for. -/
theorem Safe.receive (clock : Clock Time) (safe : Safe b setup object sys) (payload : Bytes)
    (done : (HostTransmitter.receive payload sys.tx.tx).1.state = .completed → Finished setup.sessionId sys.rx.trace) :
    Safe b setup object { sys with tx := HostTransmitter.perform clock sys.tx (.receive payload) } := by
  have granted := receive_granted (receive_cases payload sys.tx.tx)
  have spoken : Spoken setup object (HostTransmitter.perform clock sys.tx (.receive payload)) := spoken_receive clock safe.spoken payload
  refine ⟨spoken,safe.life,safe.heard.mono granted,?_,done⟩
  intro reply member typed
  have kept := truthful_mono (safe.replies reply member typed) granted []
  rwa [List.append_nil] at kept

/-- A transmitter that completes on a payload read an ACK of its last segment. -/
theorem completes_on_ack {payload : Bytes} {t u : CompactBitsTransmitter Time} (did : Receive payload t u)
    (final : u.state = .completed) : t.state = .completed ∨ ∃ ack, HostTransmitter.decodeAck payload = .ok ack ∧
      ack.sessionId = t.sessionId ∧ ackAdvance t ack ≤ 1 ∧ t.acknowledgedCount + ackAdvance t ack = t.segmentCount := by
  cases did with
  | same => exact .inl final
  | rejected | aborted => cases final
  | acked decoded session running one narrow inside sent =>
    refine .inr ⟨_,decoded,session,one,?_⟩
    simp only [applyAck] at final
    by_contra more
    rw [if_neg more] at final
    cases final

theorem safe_hear (safe : Safe b setup object sys) {segments : Nat} (whole : segments = sys.tx.tx.segmentCount) (reply : Nat)
    (fresh : (decide (segments ≤ 255) || timely sys reply) = true) :
    Safe b setup object (perform b clock sys (.hear reply)) := by
  cases found : sys.replies[reply]? with
  | none =>
    simp only [perform,found]
    exact safe
  | some entry =>
    simp only [perform,found]
    refine safe.receive clock entry.1 fun final => ?_
    rcases completes_on_ack (receive_cases entry.1 sys.tx.tx) final with before | ⟨ack,decoded,session,one,all⟩
    · exact safe.done before
    obtain ⟨shown,typed,known,fields⟩ := decodeAck_eq_ok decoded
    have window := safe.spoken.window
    have named : shown.sessionId = setup.sessionId := by
      apply BitVec.eq_of_toNat_eq
      rw [← safe.spoken.setup_is,window.toSized.announced_toNat.1,← session,fields]
    obtain ⟨⟨g,bitmap,is⟩,within,finished⟩ := safe.replies entry (List.mem_of_getElem? found) typed shown known named
    have modulo := ackAdvance_mod window.toSized known fields (safe.spoken.setup_is ▸ is)
    have granted := window.granted
    have count := safe.segmentCount
    simp only [timely,found,typed,Bool.not_true,Bool.false_or,Bool.or_eq_true,decide_eq_true_eq] at fresh
    exact finished (by omega)

theorem safe_hearOther (safe : Safe b setup object sys) (payload : Bytes) (foreign : carries setup.sessionId payload = false) :
    Safe b setup object (perform b clock sys (.hearOther payload)) := by
  refine safe.receive clock payload fun final => ?_
  rcases completes_on_ack (receive_cases payload sys.tx.tx) final with before | ⟨ack,decoded,session,-,-⟩
  · exact safe.done before
  obtain ⟨shown,typed,known,fields⟩ := decodeAck_eq_ok decoded
  have shape : payload.length = kAckSize ∧ payload.getD 1 0 = shown.sessionId := by
    unfold decodeAckKnownType at known
    split at known
    · cases known
    · rename_i size
      obtain rfl := Option.some.inj known
      exact ⟨not_not.mp size,rfl⟩
  have named : shown.sessionId = setup.sessionId := by
    apply BitVec.eq_of_toNat_eq
    rw [← safe.spoken.setup_is,safe.spoken.window.toSized.announced_toNat.1,← session,fields]
  have carried := carries_of_getD typed (by decide) (by rw [shape.1]; decide) (shape.2.trans named)
  rw [foreign] at carried
  cases carried

theorem safe_engine (safe : Safe b setup object sys) {segments : Nat} (c : ReceiverEngine.Call) (env : Environment)
    (allowed : permitted setup.sessionId segments sys (.engine c env) = true) :
    Safe b setup object (perform b clock sys (.engine c env)) := by
  have hears : Hears setup object sys.tx.tx.grantedEnd c := by
    rintro message nowMs rfl
    simp only [permitted,Bool.or_eq_true,List.contains_iff_mem,Bool.not_eq_true'] at allowed
    refine allowed.imp_left fun sent => said_outbound ?_ (safe.spoken.messages message sent)
    rw [← safe.segmentCount]
    exact safe.spoken.window.granted
  obtain ⟨life,heard⟩ := heard_steps hears safe.life safe.heard (ReceiverSteps.call_steps sys.rx (c,env))
  obtain ⟨more,trace,truthful⟩ := call_replies (c := (c,env)) hears safe.life safe.heard
  refine ⟨safe.spoken,life,heard,?_,?_⟩
  · intro reply member typed
    rcases List.mem_append.mp member with old | new
    · have kept := truthful_mono (safe.replies reply old typed) (le_refl _) more
      rwa [← trace] at kept
    · obtain ⟨result,sent,count⟩ := mem_repliesOf trace new
      rw [count]
      exact truthful reply.1 result sent typed
  · intro final
    have finished := (safe.done final).append more
    rwa [← trace] at finished

theorem safe_perform (safe : Safe b setup object sys) {segments : Nat} (whole : segments = setup.finalSegmentIndex.toNat + 1)
    (action : Action Time) (allowed : permitted setup.sessionId segments sys action = true) :
    Safe b setup object (perform b clock sys action) := by
  cases action with
  | poll now => exact safe_poll safe now
  | hear reply => exact safe_hear safe (whole.trans safe.segmentCount.symm) reply allowed
  | hearOther payload => exact safe_hearOther safe payload (by simpa [permitted] using allowed)
  | engine c env => exact safe_engine safe c env allowed

theorem safe_performAll (safe : Safe b setup object sys) {segments : Nat} (whole : segments = setup.finalSegmentIndex.toNat + 1)
    {actions : List (Action Time)} (allowed : permittedAll b clock setup.sessionId segments sys actions = true) :
    Safe b setup object (performAll b clock sys actions) := by
  induction actions generalizing sys with
  | nil => exact safe
  | cons action rest ih =>
    simp only [permittedAll,Bool.and_eq_true] at allowed
    exact ih (safe_perform safe whole action allowed.1) allowed.2

end step

/-! ### Delivery -/

/-- Before the first call of either side. -/
def begun (t : CompactBitsTransmitter Time) : System Time := ⟨{ tx := t },{},[]⟩

/-- Whenever the host's transmitter is complete, the engine has completed an admission of the session in which
    its sink accepted every slice of the object exactly once: over a network that loses, duplicates, reorders and
    delays, with at most 255 segments or with no ACK heard more than 254 counts late. -/
theorem upload_completion_implies_delivery (b : Build) (clock : Clock Time) (objectBytes : Bytes)
    (segmentSize sessionId initialSequence : Int) (maximumRetries : Nat) (t : CompactBitsTransmitter Time)
    (created : create clock objectBytes segmentSize sessionId initialSequence maximumRetries = .ok t)
    (actions : List (Action Time))
    (allowed : permittedAll b clock (announced t).sessionId t.segmentCount (begun t) actions = true)
    (completed : complete (performAll b clock (begun t) actions).tx.tx = true) :
    ∃ a ∈ admissions (performAll b clock (begun t) actions).rx.trace,
      a.info.sessionId = (announced t).sessionId ∧ .completed ∈ a.endings ∧
      ∀ i < t.segmentCount, a.accepted.filter (fun call => call.objectOffset = i * t.segmentSize) =
        [⟨i * t.segmentSize,slice objectBytes t.segmentSize i,true⟩] := by
  have spoken := spoken_create created
  have sized : Sized t := spoken.window.toSized
  have start : Safe b (announced t) objectBytes (begun t) := by
    refine ⟨spoken,lifecycle_init b,(heard_init _ _).mono (Nat.zero_le _),fun reply member => ?_,fun final => ?_⟩
    · cases member
    · rw [show (begun t).tx.tx.state = .starting from (window_create created).2.2.2.1] at final
      cases final
  obtain ⟨-,-,final,size,rest⟩ := sized.announced_toNat
  obtain ⟨-,shorter,longer⟩ := sized.last
  have safe := safe_performAll start final.symm allowed
  obtain ⟨a,member,session,ended,slices⟩ := delivered_of_finished safe.life safe.heard (by omega)
    (safe.done (by simpa [complete] using completed))
  refine ⟨a,member,session,ended,fun i known => ?_⟩
  rw [size] at slices
  exact slices i (by omega)

/-- An upload of three bytes whose first SETUP gets lost and whose first ACK arrives late again. -/
def lossyUpload : List (Action Nat) :=
  [.poll 0,.poll 2,
    .engine (.process (setupBytes (announced shortUploader)) 0) (sinkWith .kSent),
    .hear 0,.poll 3,
    .engine (.process (segmentPdu (announced shortUploader) [1,2,3] 0) 1) (sinkWith .kSent),
    .hear 0,.hear 1,.poll 4,
    .engine (.process (segmentPdu (announced shortUploader) [1,2,3] 1) 2) (sinkWith .kSent),
    .hear 2]

theorem lossy_upload_delivered :
    ∃ a ∈ admissions (performAll general twoTicks (begun shortUploader) lossyUpload).rx.trace,
      a.info.sessionId = (announced shortUploader).sessionId ∧ .completed ∈ a.endings ∧
      ∀ i < 2, a.accepted.filter (fun call => call.objectOffset = i * 2) = [⟨i * 2,slice [1,2,3] 2 i,true⟩] :=
  upload_completion_implies_delivery general twoTicks [1,2,3] 2 5 250 10 shortUploader rfl lossyUpload
    (by decide) (by decide)

end system

end WireSpaces.HostUpload
