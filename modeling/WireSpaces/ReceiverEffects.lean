import WireSpaces.Receiver

/-!
What one message does to an engine whose sink takes everything, whose link takes or
defers every ACK and whose transfers do not expire: one of five effects, of which
only a SETUP outside a transfer admits one and only a segment completes one.
-/
namespace WireSpaces.ReceiverEffects
open WireSpaces.Words WireSpaces.Codec WireSpaces.ReceiverEngine WireSpaces.ReceiverSteps

/-- An accepted `beginTransfer`. -/
def accepts : Event → Bool
  | .callback (.beginTransfer _ .kAccepted) => true
  | _ => false

/-- An `onTransferComplete`. -/
def completes : Event → Bool
  | .callback .onTransferComplete => true
  | _ => false

/-- How many transfers the sink admitted, and how many completed. -/
def tally (s : Engine) : Nat × Nat := (s.trace.countP accepts,s.trace.countP completes)

/-- The transfer's part of the engine. -/
def transfer (s : Engine) : TransferState × Setup × Nat × Nat × U16 :=
  (s.state,s.setup,s.segmentCount,s.contiguousCount,s.receiveBitmap)

/-- Nothing of the current transfer was received. -/
def Untouched (s : Engine) : Prop := s.contiguousCount = 0 ∧ s.receiveBitmap = 0

/-- The sink takes everything, the link takes or defers every PDU, and there is room for an ACK. -/
structure Agreeable (b : Build) (env : Environment) : Prop where
  begins : ∀ info, env.beginTransfer info = .kAccepted
  takes : ∀ offset payload, env.onSegment offset payload = true
  room : (env.sender.prepare kAckSize).length = kAckSize
  sends : ∀ pdu, pdu.length = kAckSize → env.sender.sendPrepared pdu = .kSent ∨ env.sender.sendPrepared pdu = .kFull
  alone : ∀ call, env.reentry call = []
  lasting : b.config.inactivityTimeoutMs = 0

/-- The effects of a message. -/
inductive Effect (message : Bytes) (s u : Engine) : Prop where
  | none (same : transfer u = transfer s) (quiet : tally u = tally s)
  | began {setup : Setup} (typed : hasType message .kSetup = true) (decoded : decodeSetupKnownType message = some setup)
      (idle : s.state ≠ .kActive) (started : transfer u = (.kActive,setup,setupSegmentCount setup,0,0))
      (one : tally u = ((tally s).1 + 1,(tally s).2))
  | took (typed : hasType message .kSegment = true) (active : s.state = .kActive) (still : u.state = .kActive)
      (setup : u.setup = s.setup) (count : u.segmentCount = s.segmentCount) (quiet : tally u = tally s)
  | finished (typed : hasType message .kSegment = true) (active : s.state = .kActive) (done : u.state = .kCompleted)
      (one : tally u = ((tally s).1,(tally s).2 + 1)) (first : Untouched s → s.segmentCount = 1)
  | ended (typed : hasType message .kAbort = true) (active : s.state = .kActive) (aborted : u.state = .kAborted)
      (quiet : tally u = tally s)

section effects
variable {b : Build} {env : Environment}

theorem tally_emit {event : Event} (s : Engine) (plain : accepts event = false ∧ completes event = false) :
    tally (emit event s) = tally s := by
  simp [tally,emit,plain.1,plain.2]

theorem invoke_eq (agreeable : Agreeable b env) (call : Callback) (s : Engine) :
    invoke env call s = emit (.callback call) s := by
  rw [invoke,agreeable.alone]
  rfl

theorem encodedAck_length (s : Engine) {storage pdu : Bytes} (size : storage.length = kAckSize)
    (encoded : encodedAck b s storage = some pdu) : pdu.length = kAckSize := by
  unfold encodedAck at encoded
  split at encoded
  · obtain rfl := Option.some.inj encoded
    simp [size,kAckSize]
  · unfold encodeAck at encoded
    split at encoded
    · cases encoded
    · obtain rfl := Option.some.inj encoded
      simp [ackBytes,writeU16,size,kAckSize]

/-- Sending the ACK is one event. -/
theorem sendAck_effect (agreeable : Agreeable b env) (s : Engine) :
    transfer (sendAck b env s).1 = transfer s ∧ tally (sendAck b env s).1 = tally s := by
  obtain ⟨pdu,encoded⟩ := encodedAck_some (b := b) s agreeable.room
  have sent := agreeable.sends pdu (encodedAck_length s agreeable.room encoded)
  have fine : (sendPrepared env pdu s).2 = true := by
    rcases sent with kSent | kFull
    · simp [sendPrepared,kSent]
    · simp [sendPrepared,kFull]
  have result : (sendAck b env s).1 = (sendPrepared env pdu s).1 := by
    simp only [sendAck,agreeable.room,encoded,ne_eq,not_true_eq_false,if_false,fine,if_true]
  rw [result]
  refine ⟨rfl,?_⟩
  simp [tally,sendPrepared,emit,accepts,completes]

theorem sendReject_effect (sessionId : U8) (reason : RejectReason) (s : Engine) :
    transfer (sendReject env sessionId reason s).1 = transfer s ∧ tally (sendReject env sessionId reason s).1 = tally s := by
  unfold sendReject
  by_cases size : (env.sender.prepare kRejectSize).length = kRejectSize
  · simp only [size,encodeReject_exact size]
    simp [transfer,tally,sendPrepared,emit,accepts,completes]
  · simp only [size,ne_eq,not_false_eq_true,if_true]
    exact ⟨rfl,rfl⟩

/-- An ACK behind another effect keeps it. -/
theorem Effect.acked {message : Bytes} {s u : Engine} (agreeable : Agreeable b env) (effect : Effect message s u) :
    Effect message s (sendAck b env u).1 := by
  obtain ⟨same,quiet⟩ := sendAck_effect agreeable u
  simp only [transfer,Prod.mk.injEq] at same
  obtain ⟨state,setup,count,contiguous,bitmap⟩ := same
  cases effect with
  | none kept silent =>
    refine .none ?_ (quiet.trans silent)
    rw [← kept]
    simp only [transfer,state,setup,count,contiguous,bitmap]
  | began typed decoded idle started one =>
    refine .began typed decoded idle ?_ (quiet.trans one)
    rw [← started]
    simp only [transfer,state,setup,count,contiguous,bitmap]
  | took typed active still setupIs countIs silent =>
    exact .took typed active (state.trans still) (setup.trans setupIs) (count.trans countIs) (quiet.trans silent)
  | finished typed active done one first => exact .finished typed active (state.trans done) (quiet.trans one) first
  | ended typed active aborted silent => exact .ended typed active (state.trans aborted) (quiet.trans silent)

/-- Renewing the activity time, or forgetting the last send, is no effect. -/
theorem Effect.noted {message : Bytes} {s t u : Engine} (effect : Effect message t u) (same : transfer t = transfer s)
    (quiet : tally t = tally s) (state : t.state = s.state) (setupIs : t.setup = s.setup)
    (countIs : t.segmentCount = s.segmentCount) (untouched : Untouched s → Untouched t) : Effect message s u := by
  cases effect with
  | none kept silent => exact .none (kept.trans same) (silent.trans quiet)
  | began typed decoded idle started one => exact .began typed decoded (state ▸ idle) started (by rw [one,quiet])
  | took typed active still setup count silent =>
    exact .took typed (state ▸ active) still (setup.trans setupIs) (count.trans countIs) (silent.trans quiet)
  | finished typed active done one first =>
    exact .finished typed (state ▸ active) done (by rw [one,quiet]) (fun fresh => countIs ▸ first (untouched fresh))
  | ended typed active aborted silent => exact .ended typed (state ▸ active) aborted (silent.trans quiet)

/-- From an untouched window one segment reaches count one at most. -/
theorem advanced_untouched {s : Engine} (untouched : Untouched s) {index : Nat} (inside : index < 16) (payload : Bytes) :
    (advanced b index payload s).contiguousCount ≤ 1 := by
  have moved : (advanced b index payload s).contiguousCount = (advanceWindow b index payload s).contiguousCount := by
    rw [advanced,untouched.1,updateGrant]
    split <;> rfl
  rw [moved,advanceWindow]
  by_cases narrow : b.windowLimit = 1
  · rw [if_pos narrow,untouched.1]
  · rw [if_neg narrow,untouched.1,untouched.2]
    have single : ∀ offset < 16, (shiftOnes 16 (0#16 ||| (1#16 <<< offset)) 0).2 ≤ 1 := by decide
    exact single index inside

theorem deliverSegment_effect (agreeable : Agreeable b env) {message : Bytes} {s : Engine} {index windowOffset : Nat}
    {payload : Bytes} (offset : Nat) (fresh : Fresh b s message index payload)
    (wide : b.windowLimit ≠ 1 → windowOffset = index - s.contiguousCount) (inside : index < s.contiguousCount + 16) :
    Effect message s (deliverSegment b env offset windowOffset payload s).1 := by
  unfold deliverSegment
  rw [if_pos (agreeable.takes offset payload)]
  simp only [invoke_eq agreeable]
  have moved : updateGrant b (advanceWindow b windowOffset payload (emit (.callback (.onSegment offset payload true)) s)) =
      (advanced b index payload s).withTrace (s.trace ++ [.callback (.onSegment offset payload true)]) := by
    rw [← advanced_trace]
    exact advanceWindow_offset index payload _ wide
  have setup : (advanced b index payload s).setup = s.setup := by
    unfold advanced advanceWindow updateGrant
    split <;> rfl
  simp only [moved,Engine.withTrace_contiguousCount,Engine.withTrace_segmentCount,advanced_segmentCount]
  by_cases full : (advanced b index payload s).contiguousCount = s.segmentCount
  · rw [if_pos full]
    refine Effect.acked agreeable (.finished fresh.typed fresh.active rfl ?_ ?_)
    · simp [tally,emit,accepts,completes]
    · intro untouched
      have small : index < 16 := by
        rw [untouched.1] at inside
        omega
      have reached := advanced_untouched (b := b) untouched small payload
      have known := fresh.known
      omega
  · rw [if_neg full]
    refine Effect.acked agreeable (.took fresh.typed fresh.active ?_ setup ?_ ?_)
    · exact (advanced_state index payload s).trans fresh.active
    · exact advanced_segmentCount index payload s
    · simp [tally,accepts,completes]

theorem handleSegment_effect (agreeable : Agreeable b env) {message : Bytes} (typed : hasType message .kSegment = true)
    (nowMs : U32) (s : Engine) : Effect message s (handleSegment b env message nowMs s).1 := by
  rcases handleSegment_cases b env message nowMs s with ⟨header,belongs,placed⟩ | ⟨same,-⟩
  swap
  · rw [same]
    exact .none rfl rfl
  obtain ⟨activity,renewed⟩ := renewActivity_eq header.segmentIndex.toNat nowMs s
  rw [placed,renewed]
  refine Effect.noted (t := { s with lastActivityMs := activity }) ?_ rfl rfl rfl rfl rfl id
  rcases placeSegment_cases b env header.segmentIndex.isLt (message.drop kSegmentHeaderSize)
    { s with lastActivityMs := activity } with acked | ⟨running,fromBase,granted,unreceived,windowOffset,wide,delivered⟩
  · rw [acked]
    exact Effect.acked agreeable (.none rfl rfl)
  · rw [delivered]
    have active := belongs.live.resolve_right running
    have inside : header.segmentIndex.toNat < s.contiguousCount + 16 := by
      have width := b.width_le
      have limit : b.windowLimit ≤ 16 := b.limit_le
      unfold Unreceived at unreceived
      simp only at unreceived fromBase
      split at unreceived <;> omega
    exact deliverSegment_effect agreeable _ (belongs.fresh typed activity active fromBase granted unreceived) wide inside

theorem handleSetup_effect (agreeable : Agreeable b env) {message : Bytes} (typed : hasType message .kSetup = true)
    (nowMs : U32) (s : Engine) : Effect message s (handleSetup b env message nowMs s).1 := by
  have rejected (sessionId : U8) (reason : RejectReason) : Effect message s (sendReject env sessionId reason s).1 :=
    .none (sendReject_effect sessionId reason s).1 (sendReject_effect sessionId reason s).2
  unfold handleSetup
  by_cases short : message.length < 2
  · rw [if_pos short]; exact .none rfl rfl
  rw [if_neg short]
  cases decoded : decodeSetupKnownType message with
  | none => exact rejected _ _
  | some requested =>
    dsimp only
    split
    · exact rejected _ _
    split
    · exact rejected _ _
    split
    · exact rejected _ _
    by_cases active : s.state = .kActive
    · rw [if_pos active]
      split
      · exact Effect.acked agreeable (.none rfl rfl)
      · exact rejected _ _
    · rw [if_neg active,agreeable.begins,if_neg (by simp),invoke_eq agreeable]
      refine Effect.acked agreeable (.began typed decoded active ?_ ?_)
      · unfold startReceiving updateGrant
        split <;> rfl
      · rw [tally,startReceiving_trace]
        simp [tally,emit,accepts,completes]

theorem handleControl_effect (agreeable : Agreeable b env) {message : Bytes} {type : MessageType}
    (typed : hasType message type = true) (nowMs : U32) (s : Engine) :
    Effect message s (handleControl b env message type nowMs s).1 := by
  unfold handleControl
  cases type with
  | kSetup => exact handleSetup_effect agreeable typed nowMs s
  | kProbe =>
    cases decodeProbeKnownType message with
    | none => exact .none rfl rfl
    | some probe =>
      dsimp only
      split
      · exact .none rfl rfl
      · exact Effect.acked agreeable (.none rfl rfl)
  | kUserDatagram =>
    cases decodeUserDatagramKnownType message with
    | none => exact .none rfl rfl
    | some payload =>
      dsimp only
      rw [invoke_eq agreeable]
      exact .none rfl (tally_emit s ⟨rfl,rfl⟩)
  | kAbort =>
    unfold handleAbort
    cases decodeAbortKnownType message with
    | none => exact .none rfl rfl
    | some abort =>
      dsimp only
      by_cases foreign : s.state ≠ .kActive ∨ abort.sessionId ≠ s.setup.sessionId
      · rw [if_pos foreign]; exact .none rfl rfl
      · rw [if_neg foreign,invoke_eq agreeable]
        push Not at foreign
        exact .ended typed foreign.1 rfl (tally_emit (s.withState .kAborted) ⟨rfl,rfl⟩)
  | kSegment => exact .none rfl rfl
  | kAck => exact .none rfl rfl
  | kReject => exact .none rfl rfl

theorem poll_lasting (lasting : b.config.inactivityTimeoutMs = 0) (nowMs : U32) (s : Engine) :
    poll b env nowMs s = (s,.kIdle) := by
  rw [poll,if_pos (.inr (.inl lasting))]

/-- Every message has one of the effects. -/
theorem process_effect (agreeable : Agreeable b env) (message : Bytes) (nowMs : U32) (s : Engine) :
    Effect message s (process b env message nowMs s).1 := by
  rw [process,poll_lasting agreeable.lasting]
  simp only [reduceCtorEq,if_false]
  refine Effect.noted (t := { s with lastSend := .kSent }) ?_ rfl rfl rfl rfl rfl id
  rcases dispatch_cases b env message nowMs { s with lastSend := .kSent } with ⟨same,-⟩ | ⟨typed,handled⟩ | ⟨type,typed,-,handled⟩
  · rw [same]
    exact .none rfl rfl
  · rw [handled]
    exact handleSegment_effect agreeable typed nowMs _
  · rw [handled]
    exact handleControl_effect agreeable typed nowMs _

end effects

/-! ### The endpoint around the engine -/

section endpoint
open WireSpaces.Packet WireSpaces.Receiver
open WireSpaces.Transmitter (sendResult)

/-- What the slot loop did: nothing, or the packet is in one more slot. -/
def Stored (packet : PacketBuffer) (mask : U16) (index : Nat) (slots : Slots) (stored : Slots × U16) : Prop :=
  stored = (slots,mask) ∨ ∃ j < slots.length, ∃ copy, copy.payload = packet.payload ∧
    stored = (slots.set j (some copy),mask ||| (1#16 <<< (index + j)))

/-- A slot that is passed by moves what happens behind it one place further. -/
theorem Stored.pass {packet : PacketBuffer} {mask : U16} {index : Nat} {rest : Slots} {stored : Slots × U16}
    (behind : Stored packet mask (index + 1) rest stored) (slot : Option PacketBuffer) :
    Stored packet mask index (slot :: rest) (slot :: stored.1,stored.2) := by
  rcases behind with rfl | ⟨j,inside,copy,payload,rfl⟩
  · exact .inl rfl
  · refine .inr ⟨j + 1,by simpa using inside,copy,payload,?_⟩
    rw [List.set_cons_succ,Nat.add_assoc,Nat.add_comm 1 j]

theorem storeSegment_stored (packet : PacketBuffer) (mask : U16) (index : Nat) (slots : Slots) (seen : Bool) :
    Stored packet mask index slots
      ((storeSegment packet mask index slots seen).1,(storeSegment packet mask index slots seen).2.1) := by
  fun_induction storeSegment packet mask index slots seen with
  | case1 => exact .inl rfl
  | case2 index rest seen stored ih => exact ih.pass none
  | case3 index slot rest seen occupied stored ih => exact ih.pass (some slot)
  | case4 index slot rest seen free copy copied =>
    exact .inr ⟨0,by simp,copy,(PacketBuffer.copyPacket_payload copied).1,rfl⟩
  | case5 index slot rest seen free refused stored ih => exact ih.pass (some slot)

/-- A received packet changes nothing, fills the datagram slot, or is one more segment. -/
inductive Received (packet : PacketBuffer) (r : BitsReceiver) : BitsReceiver → Prop where
  | unchanged : Received packet r r
  | datagram {copy : PacketBuffer} (free : r.datagramOccupied = false) (payload : copy.payload = packet.payload) :
      Received packet r { r with datagramIngress := copy, datagramOccupied := true }
  | segment {index : Nat} {copy : PacketBuffer} (typed : hasType packet.payload .kSegment = true)
      (inside : index < r.segmentIngress.length) (payload : copy.payload = packet.payload) :
      Received packet r { r with
        segmentIngress := r.segmentIngress.set index (some copy),
        segmentOccupiedMask := r.segmentOccupiedMask ||| (1#16 <<< index) }

theorem receive_received (cfg : Config) (packet : PacketBuffer) (r : BitsReceiver) :
    Received packet r (receive cfg packet r).1 := by
  unfold receive
  split
  · exact .unchanged
  · exact .unchanged
  · rename_i first rest matched bytes
    split
    · exact .unchanged
    · rename_i control decoded
      have typed : hasType packet.payload control.type = true := by
        rw [bytes]
        exact hasType_cons.mpr (decodeControl_eq_some decoded)
      by_cases segment : control.type = .kSegment
      · rw [if_neg (not_not.mpr segment)]
        have stored := storeSegment_stored packet r.segmentOccupiedMask 0 (r.segmentIngress.take kCompactWindowWidth) false
        rcases stored with same | ⟨j,inside,copy,payload,same⟩
        · obtain ⟨slots,mask⟩ := Prod.mk.inj same
          dsimp only
          rw [slots,mask,List.take_append_drop]
          exact .unchanged
        · obtain ⟨slots,mask⟩ := Prod.mk.inj same
          have place : j < r.segmentIngress.length := inside.trans_le (List.length_take_le' _ _)
          have whole : (r.segmentIngress.take kCompactWindowWidth).set j (some copy) ++
              r.segmentIngress.drop kCompactWindowWidth = r.segmentIngress.set j (some copy) := by
            rw [← List.set_append_left _ _ inside,List.take_append_drop]
          dsimp only
          rw [slots,mask,whole,Nat.zero_add]
          exact .segment (segment ▸ typed) place payload
      · rw [if_pos segment]
        split
        · exact .unchanged
        · rename_i free
          split
          · exact .unchanged
          · rename_i copy copied
            exact .datagram (by simpa using free) (PacketBuffer.copyPacket_payload copied).1

/-- The fields a reply does not touch. -/
def ingress (r : BitsReceiver) : Slots × U16 × PacketBuffer × Bool × Nat :=
  (r.segmentIngress,r.segmentOccupiedMask,r.datagramIngress,r.datagramOccupied,r.transmitPacket.capacity)

theorem forward_ingress (cfg : Config) (answers : Answers) (pdu : Bytes) (r : BitsReceiver) :
    ingress (forward cfg answers pdu r) = ingress r ∧ (forward cfg answers pdu r).engine = r.engine := by
  unfold forward
  split
  · exact ⟨rfl,rfl⟩
  · rename_i packet made
    obtain ⟨ready,prepared,rfl⟩ := Option.map_eq_some_iff.mp made
    refine ⟨?_,rfl⟩
    simp only [ingress,PacketBuffer.store_capacity,(PacketBuffer.initializePacket_spec prepared).1]

theorem settle_ingress (cfg : Config) (answers : Answers) (engine : ReceiverEngine.Engine) (r : BitsReceiver) :
    ingress (settle cfg answers engine r) = ingress r ∧ (settle cfg answers engine r).engine = engine := by
  suffices all : ∀ (sent : List Bytes) (r : BitsReceiver), ingress (sent.foldl (fun r pdu => forward cfg answers pdu r) r) =
      ingress r ∧ (sent.foldl (fun r pdu => forward cfg answers pdu r) r).engine = r.engine by
    exact all _ { r with engine := engine }
  intro sent
  induction sent with
  | nil => exact fun r => ⟨rfl,rfl⟩
  | cons pdu sent ih =>
    intro r
    obtain ⟨kept,engineKept⟩ := forward_ingress cfg answers pdu r
    obtain ⟨rest,engineRest⟩ := ih (forward cfg answers pdu r)
    exact ⟨rest.trans kept,engineRest.trans engineKept⟩

/-- A link that takes or defers every packet, behind a sink that takes everything. -/
def answering (link : PacketBuffer → Bool) : Answers where
  beginTransfer _ := .kAccepted
  onSegment _ _ := true
  router packet := if link packet then .kAccepted else .kFull

theorem environment_agreeable {cfg : Config} (lasting : cfg.build.config.inactivityTimeoutMs = 0) (link : PacketBuffer → Bool)
    {r : BitsReceiver} (room : kAckSize ≤ r.transmitPacket.capacity) :
    Agreeable cfg.build (environment cfg (answering link) r) := by
  refine ⟨fun _ => rfl,fun _ _ => rfl,?_,?_,fun _ => rfl,lasting⟩
  · obtain ⟨ready,prepared⟩ := PacketBuffer.initializePacket_isSome room cfg.connection .bits
    simp only [environment,sender,prepared,PacketBuffer.payload_length,(PacketBuffer.initializePacket_spec prepared).2]
  · intro pdu size
    obtain ⟨ready,prepared⟩ := PacketBuffer.initializePacket_isSome (size ▸ room) cfg.connection .bits
    simp only [environment,sender,framed,prepared,Option.map_some,answering]
    split
    · exact .inl rfl
    · exact .inr rfl

/-- A delivered message has its effect on the engine and touches no slot. -/
theorem deliver_effect {cfg : Config} (lasting : cfg.build.config.inactivityTimeoutMs = 0) (link : PacketBuffer → Bool)
    {r : BitsReceiver} (room : kAckSize ≤ r.transmitPacket.capacity) (message : Bytes) (nowMs : U32) :
    Effect message r.engine (deliver cfg (answering link) message nowMs r).1.engine ∧
      ingress (deliver cfg (answering link) message nowMs r).1 = ingress r := by
  obtain ⟨kept,engine⟩ := settle_ingress cfg (answering link)
    (ReceiverEngine.process cfg.build (environment cfg (answering link) r) message nowMs r.engine).1
    { r with handed := r.handed ++ [message] }
  refine ⟨?_,kept⟩
  rw [deliver,engine]
  exact process_effect (environment_agreeable lasting link room) message nowMs r.engine

theorem lowestOccupied_zero : lowestOccupied 0 = none := by decide

/-- Behind the expiry check `process` drains a segment and then the datagram slot. -/
theorem process_drains {cfg : Config} (lasting : cfg.build.config.inactivityTimeoutMs = 0)
    (segmentAnswers datagramAnswers : Answers) (nowMs : U32) (r : BitsReceiver) :
    Receiver.process cfg segmentAnswers datagramAnswers nowMs r =
      processDatagram cfg datagramAnswers nowMs (processSegment cfg segmentAnswers nowMs r).2
        (processSegment cfg segmentAnswers nowMs r).1 := by
  rw [Receiver.process,poll_lasting lasting]
  rfl

/-- With empty slots there is nothing to do. -/
theorem process_empty {cfg : Config} (lasting : cfg.build.config.inactivityTimeoutMs = 0)
    (segmentAnswers datagramAnswers : Answers) (nowMs : U32) {r : BitsReceiver} (none : r.segmentOccupiedMask = 0)
    (free : r.datagramOccupied = false) : (Receiver.process cfg segmentAnswers datagramAnswers nowMs r).1 = r := by
  have skipped : processSegment cfg segmentAnswers nowMs r = (r,.kIdle) := by
    simp only [processSegment,none,lowestOccupied_zero]
  rw [process_drains lasting,skipped,processDatagram,if_neg (by simp [free])]

end endpoint
end WireSpaces.ReceiverEffects
