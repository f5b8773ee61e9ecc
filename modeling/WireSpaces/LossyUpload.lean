import WireSpaces.HostUpload
import WireSpaces.ReceiverForeign

/-!
An upload over a line that loses messages either way. Poll after poll, the host's
transmitter and the engine move like two counters: how many messages got through,
and how many were lost since. The upload completes once the SETUP and every segment
got through, and is given up after one loss in a row more than the retries allow.
-/
namespace WireSpaces.LossyUpload
open WireSpaces.Words WireSpaces.Codec WireSpaces.SessionTraffic WireSpaces.HostTransmitter
open WireSpaces.ReceiverEngine (Build Engine Environment SendResult TransferState Callback)
open WireSpaces.ReceiverSteps (Admissible Fresh Belongs advanced general sinkWith)
open WireSpaces.ReceiverWindow (ackOf Received)
open WireSpaces.ReceiverLifecycle (Lifecycle Admission admissions Current)
open WireSpaces.ReceiverForeign (Expired)
open WireSpaces.HostUpload (describes_announced)
open WireSpaces.TransmitterSteps (slice segmentPdu)

/-! ### The engine's answers -/

/-- A sink that takes everything, and a link that takes every PDU or defers every one. -/
structure Welcoming (env : Environment) (sent : SendResult) : Prop where
  begins : ∀ info, env.beginTransfer info = .kAccepted
  takes : ∀ offset payload, env.onSegment offset payload = true
  room : (env.sender.prepare kAckSize).length = kAckSize
  sends : ∀ pdu, env.sender.sendPrepared pdu = sent
  fine : sent = .kSent ∨ sent = .kFull
  alone : ∀ call, env.reentry call = []

/-- The engine of a transfer that has received exactly its first `count` segments. -/
structure Holds (setup : Setup) (count : Nat) (s : Engine) : Prop where
  live : s.state = .kActive ∨ s.state = .kCompleted
  setup_is : s.setup = setup
  count_is : s.contiguousCount = count
  tight : ∀ i, Received s i → i < count

/-- What a call that ends with the ACK of such an engine leaves. -/
structure Answers (setup : Setup) (count : Nat) (nowMs : U32) (sent : SendResult) (s u : Engine) : Prop extends
    Holds setup count u where
  activity : u.lastActivityMs = nowMs
  trace : ∃ calls : List Callback, u.trace = s.trace ++ calls.map .callback ++
    [.send (ackOf setup count u.grantedEnd u.receiveBitmap) sent]

section engine
variable {b : Build} {env : Environment} {sent : SendResult} {setup : Setup} {object : Bytes} {count : Nat} {nowMs : U32} {s : Engine}

theorem invoke_alone (welcoming : Welcoming env sent) (call : Callback) (s : Engine) :
    ReceiverEngine.invoke env call s = s.withTrace (s.trace ++ [.callback call]) := by
  rw [ReceiverEngine.invoke,welcoming.alone]
  rfl

/-- Sending the ACK of a window adds its event. -/
theorem sendAck_answers (welcoming : Welcoming env sent) {u : Engine} (window : ReceiverWindow.Window b u) (holds : Holds setup count u)
    (activity : u.lastActivityMs = nowMs) (calls : List Callback) (trace : u.trace = s.trace ++ calls.map .callback) :
    Answers setup count nowMs sent s (ReceiverEngine.sendAck b env u).1 := by
  obtain ⟨pdu,encoded⟩ := ReceiverSteps.encodedAck_some (b := b) u welcoming.room
  have shown := window.encodedAck_eq welcoming.room encoded
  rw [holds.setup_is,holds.count_is] at shown
  have fine : (ReceiverEngine.sendPrepared env pdu u).2 = true := by
    rcases welcoming.fine with rfl | rfl <;> simp [ReceiverEngine.sendPrepared,welcoming.sends]
  have result : (ReceiverEngine.sendAck b env u).1 = (ReceiverEngine.sendPrepared env pdu u).1 := by
    simp only [ReceiverEngine.sendAck,welcoming.room,encoded,ne_eq,not_true_eq_false,if_false,fine,if_true]
  rw [result]
  refine ⟨⟨holds.live,holds.setup_is,holds.count_is,holds.tight⟩,activity,calls,?_⟩
  simp only [ReceiverEngine.sendPrepared,ReceiverEngine.emit,ReceiverEngine.Engine.withTrace,welcoming.sends,trace,shown]

/-- A message of a known type reaches the handler of its type. -/
theorem dispatch_of_type {message : Bytes} {type : MessageType} (typed : hasType message type = true) (s : Engine) :
    (ReceiverEngine.dispatch b env message nowMs s).1 = if type = .kSegment then (ReceiverEngine.handleSegment b env message nowMs s).1
      else (ReceiverEngine.handleControl b env message type nowMs s).1 := by
  cases message with
  | nil => cases typed
  | cons first rest =>
    rw [hasType_cons] at typed
    subst typed
    simp only [ReceiverEngine.dispatch,decodeControl_encodeControl]
    split <;> rfl

theorem process_segment {message : Bytes} (live : ¬ Expired b nowMs s) (typed : hasType message .kSegment = true) :
    (ReceiverEngine.process b env message nowMs s).1 =
      (ReceiverEngine.handleSegment b env message nowMs { s with lastSend := .kSent }).1 := by
  rw [ReceiverForeign.process_live live,dispatch_of_type typed,if_pos rfl]

theorem process_setup {message : Bytes} (live : ¬ Expired b nowMs s) (typed : hasType message .kSetup = true) :
    (ReceiverEngine.process b env message nowMs s).1 =
      (ReceiverEngine.handleSetup b env message nowMs { s with lastSend := .kSent }).1 := by
  rw [ReceiverForeign.process_live live,dispatch_of_type typed,if_neg (by decide),ReceiverEngine.handleControl]

/-- The SETUP begins the transfer on an engine without one, and is acknowledged again while nothing else came. -/
theorem setup_answers (welcoming : Welcoming env sent) (admissible : Admissible b setup) (life : Lifecycle b s)
    (live : ¬ Expired b nowMs s) (before : s.state ≠ .kActive ∨ Holds setup 0 s) :
    Answers setup 0 nowMs sent s (ReceiverEngine.process b env (setupBytes setup) nowMs s).1 := by
  rw [process_setup live (hasType_setupBytes _ _),ReceiverEngine.handleSetup,if_neg (by simp [setupBytes]),decodeSetup_setupBytes]
  have shape : ¬ (setup.segmentSize = 0 ∨ setup.finalSegmentSize = 0 ∨
      setup.finalSegmentSize.toNat > setup.segmentSize.toNat) := by
    rintro (zero | zero | more)
    · have := admissible.segment
      simp [zero] at this
    · have := admissible.final
      simp [zero] at this
    · have := admissible.final_le
      omega
  have width := admissible.width
  dsimp only
  rw [if_neg shape,if_neg (not_lt.mpr admissible.total),if_neg (by have := admissible.size; omega)]
  by_cases active : s.state = .kActive
  · have holds := before.resolve_left (not_not.mpr active)
    rw [if_pos active,if_pos ((ReceiverSteps.setupMatches_iff _ _).mpr holds.setup_is)]
    obtain ⟨a,-,current⟩ := life.live (.inl active)
    have window : ReceiverWindow.Window b { s with lastSend := .kSent, lastActivityMs := nowMs } :=
      ReceiverLifecycle.window_congr (s := s) rfl current.window
    exact sendAck_answers welcoming window ⟨.inl active,holds.setup_is,holds.count_is,holds.tight⟩ rfl []
      (List.append_nil s.trace).symm
  · rw [if_neg active,welcoming.begins,if_neg (by decide),invoke_alone welcoming]
    obtain ⟨window,setupIs,none,trace⟩ := ReceiverWindow.startReceiving_window admissible nowMs
      (({ s with lastSend := .kSent } : Engine).withTrace
        (s.trace ++ [.callback (.beginTransfer (ReceiverEngine.transferInfo setup) .kAccepted)]))
    have holds : Holds setup 0 (ReceiverEngine.startReceiving b setup nowMs _) :=
      ⟨.inl (ReceiverSteps.startReceiving_state _ _ _),setupIs,
        Nat.eq_zero_of_not_pos fun some => none 0 (.inl some),fun i received => absurd received (none i)⟩
    refine sendAck_answers welcoming window holds ?_ [.beginTransfer (ReceiverEngine.transferInfo setup) .kAccepted] trace
    unfold ReceiverEngine.startReceiving ReceiverEngine.updateGrant
    split <;> rfl

theorem segment_belongs (describes : Describes setup object) (life : Lifecycle b s) (holds : Holds setup count s) {index : Nat}
    (known : index ≤ setup.finalSegmentIndex.toNat) :
    Belongs s (segmentPdu setup object index) ⟨setup.sessionId,BitVec.ofNat 16 index⟩ := by
  have small : index < 2 ^ 16 := by omega
  obtain ⟨a,-,current⟩ := life.live holds.live
  refine ⟨decodeSegmentHeader_segmentHeaderBytes _ _,holds.live,congrArg Setup.sessionId holds.setup_is.symm,?_,?_⟩
  · rw [current.window.count,holds.setup_is,BitVec.toNat_ofNat,Nat.mod_eq_of_lt small]
    omega
  · rw [holds.setup_is,← describes.expectedSize known]
    rfl

/-- The next segment moves the base by one. -/
theorem advanced_holds (window : ReceiverWindow.Window b s) {message payload : Bytes} (fresh : Fresh b s message count payload)
    (holds : Holds setup count s) : Holds setup (count + 1) (advanced b count payload s) := by
  have adds := ReceiverWindow.advanced_adds window fresh
  have tight (i : Nat) (received : Received (advanced b count payload s) i) : i < count + 1 := by
    rcases (adds.received i).mp received with before | rfl
    · exact (holds.tight i before).trans (Nat.lt_succ_self count)
    · exact Nat.lt_succ_self i
  have moved : count < (advanced b count payload s).contiguousCount := by
    rcases (adds.received count).mpr (.inr rfl) with below | ⟨above,bit⟩
    · exact below
    · have same := holds.count_is
      have grows := adds.contiguous
      rw [show count - (advanced b count payload s).contiguousCount = 0 by omega,adds.window.base_clear] at bit
      cases bit
  refine ⟨?_,adds.setup.trans holds.setup_is,?_,tight⟩
  · rw [adds.state]
    exact holds.live
  · by_contra other
    have := tight (count + 1) (.inl (by omega))
    omega

/-- The next segment is handed over; the sink takes it. -/
theorem deliver_answers (welcoming : Welcoming env sent) (window : ReceiverWindow.Window b s) {message payload : Bytes}
    (fresh : Fresh b s message count payload) (holds : Holds setup count s) (activity : s.lastActivityMs = nowMs)
    (offset : Nat) : Answers setup (count + 1) nowMs sent s (ReceiverEngine.deliverSegment b env offset 0 payload s).1 := by
  have next := advanced_holds window fresh holds
  have windowed := (ReceiverWindow.advanced_adds window fresh).window
  have moved : ReceiverEngine.updateGrant b (ReceiverEngine.advanceWindow b 0 payload
      (s.withTrace (s.trace ++ [.callback (.onSegment offset payload true)]))) =
      (advanced b count payload s).withTrace (s.trace ++ [.callback (.onSegment offset payload true)]) := by
    rw [← ReceiverSteps.advanced_trace]
    refine ReceiverSteps.advanceWindow_offset count payload _ fun _ => ?_
    simp [holds.count_is]
  have timed : (advanced b count payload s).lastActivityMs = nowMs := by
    rw [← activity,advanced,ReceiverEngine.advanceWindow,ReceiverEngine.updateGrant]
    split <;> rfl
  unfold ReceiverEngine.deliverSegment
  rw [if_pos (welcoming.takes offset payload)]
  simp only [invoke_alone welcoming,moved]
  split
  · refine sendAck_answers welcoming (ReceiverLifecycle.window_congr (s := advanced b count payload s) rfl windowed)
      ⟨.inr rfl,next.setup_is,next.count_is,next.tight⟩ timed [.onSegment offset payload true,.onTransferComplete] ?_
    simp
  · exact sendAck_answers welcoming (ReceiverLifecycle.window_congr (s := advanced b count payload s) rfl windowed)
      ⟨next.live,next.setup_is,next.count_is,next.tight⟩ timed [.onSegment offset payload true] rfl

/-- The next segment of an open window is handed over, at the base. -/
theorem placeSegment_next (env : Environment) (window : ReceiverWindow.Window b s) (active : s.state = .kActive)
    (base : s.contiguousCount = count) (inside : count < s.grantedEnd) (payload : Bytes) :
    ∃ offset, ReceiverEngine.placeSegment b env count payload s = ReceiverEngine.deliverSegment b env offset 0 payload s := by
  subst base
  have width := window.admissible.width
  have shut : ¬ (s.state = .kCompleted ∨ s.contiguousCount ≥ s.grantedEnd) := by
    rintro (done | beyond)
    · rw [active] at done
      cases done
    · omega
  have small := window.small
  have contiguous := window.contiguous
  rw [ReceiverEngine.placeSegment,if_neg (lt_irrefl _),if_neg shut]
  by_cases narrow : b.windowLimit = 1
  · rw [if_pos narrow,if_neg (not_not.mpr rfl)]
    exact ⟨_,rfl⟩
  · have clear : s.receiveBitmap &&& (1#16 <<< 0) = 0 := (and_bit_eq_zero s.receiveBitmap (by decide)).mpr window.base_clear
    rw [if_neg narrow,sub32_of_le (le_refl _) (by omega),Nat.sub_self]
    dsimp only
    rw [if_neg (not_le.mpr width),if_neg (not_not.mpr clear)]
    exact ⟨_,rfl⟩

/-- A segment of the transfer below the grant is placed, and renews the lease. -/
theorem process_belonging {index : Nat} (live : ¬ Expired b nowMs s) (small : index < 2 ^ 16)
    (belongs : Belongs s (segmentPdu setup object index) ⟨setup.sessionId,BitVec.ofNat 16 index⟩) (inside : index < s.grantedEnd) :
    (ReceiverEngine.process b env (segmentPdu setup object index) nowMs s).1 =
      (ReceiverEngine.placeSegment b env index (slice object setup.segmentSize.toNat index)
        { s with lastSend := .kSent, lastActivityMs := nowMs }).1 := by
  have indexIs : (BitVec.ofNat 16 index).toNat = index := by rw [BitVec.toNat_ofNat,Nat.mod_eq_of_lt small]
  have open_ : ¬ ((s.state ≠ .kActive ∧ s.state ≠ .kCompleted) ∨ setup.sessionId ≠ s.setup.sessionId ∨
      (BitVec.ofNat 16 index).toNat ≥ s.segmentCount) := by
    rintro (other | other | beyond)
    · exact other.2 (belongs.live.resolve_left other.1)
    · exact other belongs.session
    · exact absurd belongs.known (not_lt.mpr beyond)
  have renewed : ReceiverEngine.renewActivity index nowMs { s with lastSend := .kSent } =
      { s with lastSend := .kSent, lastActivityMs := nowMs } := if_pos inside
  rw [process_segment live (hasType_segmentPdu _ _ _ _),ReceiverEngine.handleSegment,belongs.decoded]
  dsimp only
  rw [if_neg open_,if_neg (not_not.mpr belongs.size),indexIs,renewed]
  rfl

/-- The next segment, or the one before it again, is answered with the ACK behind it. -/
theorem segment_answers (welcoming : Welcoming env sent) (describes : Describes setup object) (life : Lifecycle b s)
    (live : ¬ Expired b nowMs s) {index : Nat} (known : index ≤ setup.finalSegmentIndex.toNat)
    (before : Holds setup index s ∨ Holds setup (index + 1) s) :
    Answers setup (index + 1) nowMs sent s (ReceiverEngine.process b env (segmentPdu setup object index) nowMs s).1 := by
  have small : index < 2 ^ 16 := by omega
  obtain ⟨a,-,current⟩ := life.live (before.elim (·.live) (·.live))
  have window : ReceiverWindow.Window b { s with lastSend := .kSent, lastActivityMs := nowMs } :=
    ReceiverLifecycle.window_congr (s := s) rfl current.window
  have setupIs : s.setup = setup := before.elim (·.setup_is) (·.setup_is)
  have belongs := before.elim (segment_belongs describes life · known) (segment_belongs describes life · known)
  have count : s.segmentCount = setup.finalSegmentIndex.toNat + 1 := by rw [current.window.count,setupIs]
  have width := current.window.admissible.width
  have granted := current.window.granted
  rcases before with next | again
  · have base := next.count_is
    have inside : index < s.grantedEnd := by omega
    have active : s.state = .kActive := by
      refine next.live.resolve_right fun done => ?_
      have := current.completed done
      omega
    have fresh : Fresh b { s with lastSend := .kSent, lastActivityMs := nowMs } (segmentPdu setup object index) index
        (slice object setup.segmentSize.toNat index) := by
      refine ⟨hasType_segmentPdu _ _ _ _,setupIs ▸ belongs.decoded,small,rfl,?_,active,?_,base.le,inside,?_⟩
      · rw [describes.expectedSize known,setupIs]
      · show index < s.segmentCount
        omega
      · have clear := current.window.base_clear
        simp only [ReceiverSteps.Unreceived,base,Nat.sub_self]
        split
        · trivial
        · exact ⟨width,clear⟩
    rw [process_belonging live small belongs inside]
    obtain ⟨offset,delivered⟩ := placeSegment_next env window active base inside (slice object setup.segmentSize.toNat index)
    rw [delivered]
    have answers := deliver_answers welcoming window fresh ⟨.inl active,setupIs,base,next.tight⟩ rfl offset
    exact ⟨answers.toHolds,answers.activity,answers.trace⟩
  · have base := again.count_is
    have contiguous := current.window.contiguous
    rw [process_belonging live small belongs (by omega),ReceiverEngine.placeSegment,if_pos (by simp [base])]
    exact sendAck_answers welcoming window ⟨again.live,setupIs,base,again.tight⟩ rfl [] (List.append_nil _).symm

end engine

/-! ### The transmitter's side -/

section transmitter
variable {Time : Type} {clock : Clock Time} {setup : Setup} {object : Bytes} {done losses : Nat} {t : CompactBitsTransmitter Time}

/-- What the transmitter says behind `done` acknowledged messages: the SETUP first, then segment by segment. -/
def message (setup : Setup) (object : Bytes) : Nat → Bytes
  | 0 => setupBytes setup
  | index + 1 => segmentPdu setup object index

/-- A transmitter behind `done` acknowledged messages that has said the next one `losses` times. -/
structure Waits (setup : Setup) (object : Bytes) (done losses : Nat) (t : CompactBitsTransmitter Time) : Prop where
  window : Window t
  setup_is : announced t = setup
  object_is : t.object = object
  opening : done = 0 → t.state = .starting
  going : done ≠ 0 → t.state = .active ∧ t.acknowledgedCount + 1 = done ∧ t.acknowledgedCount < t.grantedEnd
  unsaid : losses = 0 → t.lastPayload = none ∧ t.outstandingSegment = none
  said : losses ≠ 0 → t.lastPayload = some (message setup object done) ∧ t.retryCount + 1 = losses ∧
    (done ≠ 0 → t.outstandingSegment = some t.acknowledgedCount)

theorem Waits.running (waits : Waits setup object done losses t) :
    ¬ (t.state = .completed ∨ t.state = .rejected ∨ t.state = .aborted) := by
  rcases Nat.eq_zero_or_pos done with zero | some
  · rw [waits.opening zero]
    decide
  · rw [(waits.going some.ne').1]
    decide

/-- A timeout repeats the message, or gives up. -/
theorem Waits.retry (waits : Waits setup object done losses t) (again : losses ≠ 0) {now : Time} (due : clock.due now t.lastSendTime = true) :
    poll clock now t = retryOrAbort t now := by
  obtain ⟨last,-,outstanding⟩ := waits.said again
  rw [poll,if_neg waits.running]
  rcases Nat.eq_zero_or_pos done with zero | some
  · rw [if_pos (waits.opening zero),last,if_pos due]
  · rw [if_neg (by rw [(waits.going some.ne').1]; decide),if_pos (by rw [outstanding some.ne']; exact Option.some_ne_none _),
      if_pos due]

theorem Waits.gives_up (waits : Waits setup object done losses t) {now : Time}
    (due : losses ≠ 0 → clock.due now t.lastSendTime = true) (many : t.maximumRetries < losses) :
    poll clock now t = ({ t with state := .aborted },.ok (some (abortBytes ⟨setup.sessionId⟩))) := by
  have again : losses ≠ 0 := by omega
  have count := (waits.said again).2.1
  rw [waits.retry again (due again),retryOrAbort,if_pos (by omega),giveUp_eq waits.window.toSized,waits.setup_is]

/-- Within the retries a poll says the message once more. -/
theorem Waits.says (waits : Waits setup object done losses t) {now : Time}
    (due : losses ≠ 0 → clock.due now t.lastSendTime = true) (few : losses ≤ t.maximumRetries) :
    ∃ u, poll clock now t = (u,.ok (some (message setup object done))) ∧ Waits setup object done (losses + 1) u ∧
      u.lastSendTime = now ∧ fixed u = fixed t ∧ u.grantedEnd = t.grantedEnd := by
  have kept := window_poll waits.window (poll_cases clock waits.window now)
  have sized := waits.window.toSized
  by_cases again : losses = 0
  · obtain ⟨last,free⟩ := waits.unsaid again
    cases done with
    | zero =>
      have said : poll clock now t = recordSend t (message setup object 0) now false := by
        rw [poll,if_neg waits.running,if_pos (waits.opening rfl),last,encodeSetup_eq sized,waits.setup_is]
        rfl
      rw [said] at kept ⊢
      refine ⟨_,rfl,⟨kept.1,(announced_congr kept.2).trans waits.setup_is,waits.object_is,waits.opening,waits.going,nofun,?_⟩,rfl,
        kept.2,rfl⟩
      exact fun _ => ⟨rfl,by rw [again]; rfl,nofun⟩
    | succ index =>
      obtain ⟨active,next,room⟩ := waits.going (Nat.succ_ne_zero index)
      have indexIs : t.acknowledgedCount = index := by omega
      have inside : index < t.segmentCount := lt_of_lt_of_le (indexIs ▸ room) waits.window.granted
      have said : poll clock now t = recordSend { t with outstandingSegment := some t.acknowledgedCount, blockedSince := none }
          (message setup object (index + 1)) now false := by
        have encoded := encodeSegment_eq sized inside
        rw [waits.setup_is,waits.object_is] at encoded
        rw [poll,if_neg waits.running,if_neg (by rw [active]; decide),if_neg (not_not.mpr free),if_pos room,sendNext]
        simp only [indexIs,waits.object_is,encoded]
        rfl
      rw [said] at kept ⊢
      refine ⟨_,rfl,⟨kept.1,(announced_congr kept.2).trans waits.setup_is,waits.object_is,nofun,waits.going,nofun,?_⟩,rfl,kept.2,rfl⟩
      exact fun _ => ⟨rfl,by rw [again]; rfl,fun _ => rfl⟩
  · obtain ⟨last,count,outstanding⟩ := waits.said again
    have said : poll clock now t = recordSend t (message setup object done) now true := by
      rw [waits.retry again (due again),retryOrAbort,if_neg (by omega),last]
    rw [said] at kept ⊢
    refine ⟨_,rfl,⟨kept.1,(announced_congr kept.2).trans waits.setup_is,waits.object_is,waits.opening,waits.going,nofun,?_⟩,rfl,kept.2,
      rfl⟩
    exact fun _ => ⟨rfl,congrArg (· + 1) count,outstanding⟩

/-! ### The acknowledgement -/

theorem decodeAck_of_type {payload : Bytes} {shown : Codec.Ack} (typed : hasType payload .kAck = true)
    (known : decodeAckKnownType payload = some shown) :
    HostTransmitter.decodeAck payload =
      .ok ⟨shown.sessionId.toNat,shown.windowBitmap.toNat,shown.maxReceiveSequence.toNat,shown.windowBase.toNat⟩ := by
  unfold decodeAckKnownType at known
  split at known
  · cases known
  · rename_i size
    obtain rfl := Option.some.inj known
    have invalid : ¬ (payload.length ≠ ackSize ∨ HostReceiver.messageType payload ≠ some HostReceiver.messageAck) := by
      rintro (other | other)
      · exact size other
      · exact other (HostReceiver.messageType_of_hasType typed)
    rw [HostTransmitter.decodeAck,if_neg invalid,HostReceiver.unpackH_eq]
    rfl

/-- How far an ACK of the next count moves the transmitter, and what it grants. -/
theorem ack_moves (sized : Sized t) {count granted : Nat} (bitmap : U16) (next : count = t.acknowledgedCount ∨ count = t.acknowledgedCount + 1)
    (base : count ≤ granted) (span : granted ≤ count + 16) :
    ∃ ack, HostTransmitter.decodeAck (ackOf (announced t) count granted bitmap) = .ok ack ∧ ack.sessionId = t.sessionId ∧
      t.acknowledgedCount + ackAdvance t ack = count ∧ count + ackSpan ack = granted := by
  have typed : hasType (ackOf (announced t) count granted bitmap) .kAck = true := hasType_encodeControl _ _ _
  have known := decodeAck_ackBytes ⟨(announced t).sessionId,bitmap,(announced t).initialSequenceNumber + BitVec.ofNat 8 granted - 1,
    (announced t).initialSequenceNumber + BitVec.ofNat 8 count - 1⟩
  obtain ⟨ack,fields⟩ : ∃ ack : HostReceiver.Ack, ack = ⟨(announced t).sessionId.toNat,bitmap.toNat,
    ((announced t).initialSequenceNumber + BitVec.ofNat 8 granted - 1).toNat,
    ((announced t).initialSequenceNumber + BitVec.ofNat 8 count - 1).toNat⟩ := ⟨_,rfl⟩
  have modulo : (t.acknowledgedCount + ackAdvance t ack) % 256 = count % 256 := HostUpload.ackAdvance_mod sized known fields rfl
  have byte : ackAdvance t ack < 256 := by
    unfold ackAdvance HostReceiver.lowByte
    omega
  refine ⟨ack,(decodeAck_of_type typed known).trans (congrArg _ fields.symm),?_,by omega,?_⟩
  · rw [fields]
    exact sized.announced_toNat.1
  · rw [fields,ackSpan,HostUpload.lowByte_sub,HostUpload.base_difference,BitVec.toNat_sub,BitVec.toNat_ofNat,BitVec.toNat_ofNat]
    omega

/-- An ACK that passes the checks is applied. -/
theorem receive_applies {payload : Bytes} {ack : HostReceiver.Ack} (typed : hasType payload .kAck = true)
    (decoded : HostTransmitter.decodeAck payload = .ok ack) (session : ack.sessionId = t.sessionId)
    (running : t.state = .starting ∧ t.lastPayload ≠ none ∨ t.state = .active) (one : ackAdvance t ack ≤ 1)
    (narrow : ackSpan ack ≤ HostReceiver.compactWindowWidth)
    (inside : t.acknowledgedCount + ackAdvance t ack + ackSpan ack ≤ t.segmentCount)
    (sent : ackAdvance t ack = 0 ∨ t.outstandingSegment = some t.acknowledgedCount) :
    receive payload t = (applyAck t (ackAdvance t ack) (ackSpan ack),.ok ()) := by
  have type : HostReceiver.messageType payload = some HostReceiver.messageAck := HostReceiver.messageType_of_hasType typed
  have ended : ¬ (t.state ≠ .starting ∧ t.state ≠ .active) := by
    rintro ⟨notStarting,notActive⟩
    exact running.elim (fun starting => notStarting starting.1) notActive
  have early : ¬ (t.state = .starting ∧ t.lastPayload = none) := by
    rintro ⟨starting,first⟩
    rcases running with ⟨-,last⟩ | active
    · exact last first
    · rw [active] at starting
      cases starting
  rw [receive,type]
  rw [if_neg (by decide),if_neg (by decide),if_neg (not_not.mpr rfl),receiveAck,decoded]
  dsimp only
  rw [if_neg (not_not.mpr session),if_neg ended,if_neg early,if_neg (by omega),if_neg]
  rintro ⟨some,unsent⟩
  exact unsent (sent.resolve_left some)

/-- An applied ACK of the message that was said leaves nothing to repeat. -/
theorem Waits.applied (waits : Waits setup object done losses t) {advance span : Nat} (window : Window (applyAck t advance span))
    (next : done = 0 ∧ advance = 0 ∨ done ≠ 0 ∧ advance = 1) (moved : t.acknowledgedCount + advance = done)
    (known : done < t.segmentCount) (room : 0 < span) : Waits setup object (done + 1) 0 (applyAck t advance span) := by
  have cleared : (applyAck t advance span).outstandingSegment = none ∧ (applyAck t advance span).lastPayload = none := by
    rcases next with ⟨zero,rfl⟩ | ⟨-,rfl⟩
    · have starting := waits.opening zero
      exact ⟨(waits.window.starting starting).2.2.1,if_pos (.inl starting)⟩
    · exact ⟨rfl,if_pos (.inr (.inl rfl))⟩
  refine ⟨window,(announced_congr rfl).trans waits.setup_is,waits.object_is,nofun,fun _ => ⟨?_,?_,?_⟩,fun _ => cleared.symm,nofun⟩
  · exact if_neg (by omega)
  · exact congrArg (· + 1) moved
  · exact lt_max_of_lt_right (Nat.lt_add_of_pos_right room)

/-- The ACK of the message that was said moves the transmitter on, or completes it. -/
theorem Waits.acknowledged (waits : Waits setup object done losses t) (said : losses ≠ 0) {granted width : Nat} (bitmap : U16)
    (wide : 0 < width ∧ width ≤ 16) (known : done ≤ t.segmentCount) (grants : granted = min t.segmentCount (done + width)) :
    ∃ u, receive (ackOf setup done granted bitmap) t = (u,.ok ()) ∧ fixed u = fixed t ∧ t.grantedEnd ≤ u.grantedEnd ∧
      if done = t.segmentCount then u.state = .completed else Waits setup object (done + 1) 0 u := by
  have typed : hasType (ackOf setup done granted bitmap) .kAck = true := hasType_encodeControl _ _ _
  obtain ⟨last,-,outstanding⟩ := waits.said said
  have next : done = t.acknowledgedCount ∨ done = t.acknowledgedCount + 1 := by
    rcases Nat.eq_zero_or_pos done with zero | some
    · exact .inl (zero.trans (waits.window.starting (waits.opening zero)).1.symm)
    · exact .inr (waits.going some.ne').2.1.symm
  have base : done ≤ granted := by omega
  have narrow : granted ≤ done + 16 := by omega
  obtain ⟨ack,decoded,session,moved,spans⟩ := ack_moves waits.window.toSized bitmap next base narrow
  rw [waits.setup_is] at decoded
  have running : t.state = .starting ∧ t.lastPayload ≠ none ∨ t.state = .active := by
    rcases Nat.eq_zero_or_pos done with zero | some
    · exact .inl ⟨waits.opening zero,by rw [last]; exact Option.some_ne_none _⟩
    · exact .inr (waits.going some.ne').1
  have advance : done = 0 ∧ ackAdvance t ack = 0 ∨ done ≠ 0 ∧ ackAdvance t ack = 1 := by
    rcases Nat.eq_zero_or_pos done with zero | some
    · exact .inl ⟨zero,by omega⟩
    · have := (waits.going some.ne').2.1
      exact .inr ⟨some.ne',by omega⟩
  have sent : ackAdvance t ack = 0 ∨ t.outstandingSegment = some t.acknowledgedCount :=
    advance.imp (·.2) (fun later => outstanding later.1)
  have span : ackSpan ack ≤ 16 := by omega
  have applied := receive_applies typed decoded session running (by omega) span (by omega) sent
  have kept := window_receive waits.window (receive_cases (ackOf setup done granted bitmap) t)
  rw [applied] at kept
  refine ⟨_,applied,kept.2,le_max_left _ _,?_⟩
  split
  · rename_i whole
    exact if_pos (moved.trans whole)
  · rename_i part
    exact waits.applied kept.1 advance moved (by omega) (by omega)

end transmitter

/-! ### Rounds -/

/-- What becomes of the message of a poll and of its answer. -/
inductive Outcome where
  | requestLost | replyDeferred | replyLost | delivered
  deriving Repr, DecidableEq

/-- One poll, the engine's call if the message arrives, and what the answer meets. -/
structure Round (Time : Type) where
  now : Time
  nowMs : U32
  env : Environment
  outcome : Outcome

def Round.arrives {Time : Type} (round : Round Time) : Bool := round.outcome != .requestLost

/-- The result the engine's link gives in such a round. -/
def Outcome.sent : Outcome → SendResult
  | .replyDeferred => .kFull
  | _ => .kSent

/-- The two ends of the line. -/
structure Ends (Time : Type) where
  tx : CompactBitsTransmitter Time
  rx : Engine

/-- A PDU that the link took. -/
def taken : ReceiverEngine.Event → Option Bytes
  | .send pdu .kSent => some pdu
  | _ => none

/-- The PDUs of a call that the link took. -/
def answers (before after : Engine) : List Bytes := (after.trace.drop before.trace.length).filterMap taken

def exchange {Time : Type} (b : Build) (clock : Clock Time) (ends : Ends Time) (round : Round Time) : Ends Time :=
  let polled := poll clock round.now ends.tx
  match polled.2 with
  | .ok (some payload) =>
    if round.outcome = .requestLost then ⟨polled.1,ends.rx⟩
    else
      let rx := (ReceiverEngine.process b round.env payload round.nowMs ends.rx).1
      if round.outcome = .replyLost then ⟨polled.1,rx⟩
      else ⟨(answers ends.rx rx).foldl (fun t pdu => (receive pdu t).1) polled.1,rx⟩
  | _ => ⟨polled.1,ends.rx⟩

/-- The upload as two counters: the messages that got through, and the losses since. -/
inductive Fate where
  | running (done losses : Nat)
  | completed
  | aborted
  deriving Repr, DecidableEq

def Fate.next (segments retries : Nat) (outcome : Outcome) : Fate → Fate
  | .running done losses =>
    if retries < losses then .aborted
    else if outcome = .delivered then if done = segments then .completed else .running (done + 1) 0
    else .running done (losses + 1)
  | ended => ended

/-- The counters behind a sequence of rounds. -/
def fateOf (segments retries : Nat) (outcomes : List Outcome) : Fate :=
  outcomes.foldl (fun fate outcome => Fate.next segments retries outcome fate) (.running 0 0)

section rounds
variable {Time : Type} {b : Build} {clock : Clock Time} {setup : Setup} {object : Bytes}

/-- The engine has what was acknowledged, and perhaps the message that was said since. -/
def Caught (setup : Setup) (done : Nat) (rx : Engine) : Prop :=
  Holds setup done rx ∨ if done = 0 then rx.state ≠ .kActive else Holds setup (done - 1) rx

/-- The two ends and the counters. -/
structure Linked (b : Build) (setup : Setup) (object : Bytes) (done losses : Nat) (ends : Ends Time) : Prop where
  waits : Waits setup object done losses ends.tx
  known : done ≤ ends.tx.segmentCount
  life : Lifecycle b ends.rx
  heard : Heard setup object ends.tx.grantedEnd ends.rx
  caught : Caught setup done ends.rx

def Follows (b : Build) (setup : Setup) (object : Bytes) : Fate → Ends Time → Prop
  | .running done losses, ends => Linked b setup object done losses ends
  | .completed, ends => ends.tx.state = .completed ∧ Lifecycle b ends.rx ∧ Heard setup object ends.tx.grantedEnd ends.rx ∧
      Holds setup (setup.finalSegmentIndex.toNat + 1) ends.rx
  | .aborted, ends => ends.tx.state = .aborted

theorem answers_sent {before after : Engine} {calls : List Callback} {pdu : Bytes} {sent : SendResult}
    (trace : after.trace = before.trace ++ calls.map .callback ++ [.send pdu sent]) :
    answers before after = if sent = .kSent then [pdu] else [] := by
  have none : (calls.map ReceiverEngine.Event.callback).filterMap taken = [] := by
    rw [List.filterMap_map]
    exact List.filterMap_eq_nil_iff.mpr fun _ _ => rfl
  rw [answers,trace,List.append_assoc,List.drop_left,List.filterMap_append,none]
  cases sent <;> rfl

theorem Linked.segmentCount {done losses : Nat} {ends : Ends Time} (linked : Linked b setup object done losses ends) :
    ends.tx.segmentCount = setup.finalSegmentIndex.toNat + 1 := by
  rw [← linked.waits.setup_is]
  exact linked.waits.window.toSized.announced_toNat.2.2.1.symm

/-- Hearing what the transmitter says, the engine catches up and acknowledges it. -/
theorem Linked.answers {done losses : Nat} {ends : Ends Time} (linked : Linked b setup object done losses ends)
    (describes : Describes setup object) (admissible : Admissible b setup) {env : Environment} {sent : SendResult}
    (welcoming : Welcoming env sent) {nowMs : U32} (live : ¬ Expired b nowMs ends.rx) :
    Answers setup done nowMs sent ends.rx (ReceiverEngine.process b env (message setup object done) nowMs ends.rx).1 := by
  have count := linked.segmentCount
  cases done with
  | zero => exact setup_answers welcoming admissible linked.life live linked.caught.symm
  | succ index =>
    have known := linked.known
    exact segment_answers welcoming describes linked.life live (by omega) linked.caught.symm

theorem message_outbound {done losses : Nat} {t : CompactBitsTransmitter Time} (waits : Waits setup object done losses t) :
    Outbound setup object t.grantedEnd (message setup object done) := by
  cases done with
  | zero => exact .inl rfl
  | succ index =>
    obtain ⟨-,next,room⟩ := waits.going (Nat.succ_ne_zero index)
    have count := waits.window.toSized.announced_toNat.2.2.1
    have granted := waits.window.granted
    rw [waits.setup_is] at count
    exact .inr (.inl ⟨index,by omega,by omega,rfl⟩)

/-- The engine's lease and the transmitter's timer at the start of a round. -/
structure Punctual (b : Build) (clock : Clock Time) (losses : Nat) (ends : Ends Time) (round : Round Time) : Prop where
  due : losses ≠ 0 → clock.due round.now ends.tx.lastSendTime = true
  live : round.arrives = true → ¬ Expired b round.nowMs ends.rx

/-- The link holds behind a message that was said, heard or not. -/
theorem Linked.unheard {done losses : Nat} {ends : Ends Time} (linked : Linked b setup object done losses ends)
    {u : CompactBitsTransmitter Time} (waits : Waits setup object done (losses + 1) u) (same : fixed u = fixed ends.tx)
    (granted : u.grantedEnd = ends.tx.grantedEnd) : Linked b setup object done (losses + 1) ⟨u,ends.rx⟩ := by
  have count : u.segmentCount = ends.tx.segmentCount := congrArg (fun parts => parts.2.2.1) same
  refine ⟨waits,?_,linked.life,linked.heard.mono granted.ge,linked.caught⟩
  rw [count]
  exact linked.known

theorem Linked.hears {done losses : Nat} {ends : Ends Time} (linked : Linked b setup object done losses ends) {env : Environment}
    {nowMs : U32} {sent : SendResult} (answered : Answers setup done nowMs sent ends.rx
      (ReceiverEngine.process b env (message setup object done) nowMs ends.rx).1) :
    Linked b setup object done losses ⟨ends.tx,(ReceiverEngine.process b env (message setup object done) nowMs ends.rx).1⟩ := by
  have hears : Hears setup object ends.tx.grantedEnd (.process (message setup object done) nowMs) := by
    rintro heard _ same
    cases same
    exact .inl (message_outbound linked.waits)
  obtain ⟨life,heard⟩ := heard_steps hears linked.life linked.heard
    (ReceiverSteps.call_steps ends.rx (.process (message setup object done) nowMs,env))
  exact ⟨linked.waits,linked.known,life,heard,.inl answered.toHolds⟩

/-- The engine's ACK of the message moves the counters on. -/
theorem Linked.acknowledged {done losses : Nat} {ends : Ends Time} (linked : Linked b setup object done losses ends)
    (said : losses ≠ 0) (holds : Holds setup done ends.rx) :
    ∃ u, receive (ackOf setup done ends.rx.grantedEnd ends.rx.receiveBitmap) ends.tx = (u,.ok ()) ∧ fixed u = fixed ends.tx ∧
      Follows b setup object (if done = ends.tx.segmentCount then .completed else .running (done + 1) 0) ⟨u,ends.rx⟩ := by
  obtain ⟨a,-,current⟩ := linked.life.live holds.live
  have count := linked.segmentCount
  have width := current.window.admissible.width
  have narrow := ReceiverWindow.width_le_limit b
  have grants := current.window.granted
  rw [current.window.count,holds.setup_is,holds.count_is,← count] at grants
  obtain ⟨u,received,same,granted,moved⟩ := linked.waits.acknowledged said ends.rx.receiveBitmap
    ⟨width,narrow⟩ linked.known grants
  refine ⟨u,received,same,?_⟩
  have sameCount : u.segmentCount = ends.tx.segmentCount := congrArg (fun parts => parts.2.2.1) same
  split
  · rename_i whole
    rw [if_pos whole] at moved
    rw [whole,count] at holds
    exact ⟨moved,linked.life,linked.heard.mono granted,holds⟩
  · rename_i part
    rw [if_neg part] at moved
    have known := linked.known
    refine ⟨moved,?_,linked.life,linked.heard.mono granted,.inr holds⟩
    show done + 1 ≤ u.segmentCount
    omega

/-- One round within the retries moves the two ends as it moves the counters. -/
theorem Linked.exchange {done losses : Nat} {ends : Ends Time} (linked : Linked b setup object done losses ends)
    (describes : Describes setup object) (admissible : Admissible b setup) {round : Round Time}
    (welcoming : Welcoming round.env round.outcome.sent) (punctual : Punctual b clock losses ends round)
    (few : losses ≤ ends.tx.maximumRetries) :
    let after := LossyUpload.exchange b clock ends round
    Follows b setup object (Fate.next ends.tx.segmentCount ends.tx.maximumRetries round.outcome (.running done losses)) after ∧
      fixed after.tx = fixed ends.tx ∧ (round.outcome ≠ .delivered → after.tx.lastSendTime = round.now) ∧
      (if round.arrives = true then after.rx.lastActivityMs = round.nowMs else after.rx = ends.rx) := by
  obtain ⟨u,said,waits,sentAt,same,granted⟩ := linked.waits.says punctual.due few
  have unheard := linked.unheard waits same granted
  have segments : u.segmentCount = ends.tx.segmentCount := congrArg (fun parts => parts.2.2.1) same
  have lost (other : round.outcome ≠ .delivered) : Fate.next ends.tx.segmentCount ends.tx.maximumRetries round.outcome
      (.running done losses) = .running done (losses + 1) := by
    rw [Fate.next,if_neg (not_lt.mpr few),if_neg other]
  intro after
  have afterIs : after = LossyUpload.exchange b clock ends round := rfl
  rw [LossyUpload.exchange,said] at afterIs
  dsimp only at afterIs
  by_cases away : round.outcome = .requestLost
  · rw [if_pos away] at afterIs
    rw [afterIs,lost (by rw [away]; decide),if_neg (by rw [Round.arrives,away]; decide)]
    exact ⟨unheard,same,fun _ => sentAt,rfl⟩
  have arrives : round.arrives = true := by rw [Round.arrives,bne_iff_ne]; exact away
  have answered := linked.answers describes admissible welcoming (punctual.live arrives)
  have hears := unheard.hears answered
  rw [if_neg away] at afterIs
  rw [if_pos arrives]
  by_cases silent : round.outcome = .replyLost
  · rw [if_pos silent] at afterIs
    rw [afterIs,lost (by rw [silent]; decide)]
    exact ⟨hears,same,fun _ => sentAt,answered.activity⟩
  obtain ⟨calls,trace⟩ := answered.trace
  rw [if_neg silent,answers_sent trace] at afterIs
  by_cases deferred : round.outcome = .replyDeferred
  · rw [deferred,Outcome.sent,if_neg (by decide),List.foldl_nil] at afterIs
    rw [afterIs,lost (by rw [deferred]; decide)]
    exact ⟨hears,same,fun _ => sentAt,answered.activity⟩
  have delivered : round.outcome = .delivered := by
    cases kind : round.outcome <;> simp_all
  rw [delivered,if_pos (show Outcome.sent .delivered = .kSent from rfl),List.foldl_cons,List.foldl_nil] at afterIs
  obtain ⟨v,received,sameV,follows⟩ := hears.acknowledged (Nat.succ_ne_zero losses) answered.toHolds
  rw [received] at afterIs
  rw [afterIs,Fate.next,if_neg (not_lt.mpr few),if_pos delivered,← segments]
  exact ⟨follows,sameV.trans same,fun other => absurd delivered other,answered.activity⟩

/-- An engine answers nothing to an ABORT. -/
theorem abort_unanswered {env : Environment} {sent : SendResult} (welcoming : Welcoming env sent) (sessionId : U8) {nowMs : U32}
    {rx : Engine} (live : ¬ Expired b nowMs rx) :
    LossyUpload.answers rx (ReceiverEngine.process b env (abortBytes ⟨sessionId⟩) nowMs rx).1 = [] := by
  have handled : (ReceiverEngine.process b env (abortBytes ⟨sessionId⟩) nowMs rx).1 =
      (ReceiverEngine.handleAbort env (abortBytes ⟨sessionId⟩) { rx with lastSend := .kSent }).1 := by
    rw [ReceiverForeign.process_live live,dispatch_of_type (hasType_abortBytes sessionId .kAbort),if_neg (by decide)]
    rfl
  have decoded : decodeAbortKnownType (abortBytes ⟨sessionId⟩) = some ⟨sessionId⟩ := rfl
  rw [handled,ReceiverEngine.handleAbort,decoded]
  dsimp only
  split
  · simp [LossyUpload.answers]
  · simp [LossyUpload.answers,invoke_alone welcoming,taken]

/-- Past the retries the transmitter gives up. -/
theorem Linked.gives_up {done losses : Nat} {ends : Ends Time} (linked : Linked b setup object done losses ends)
    {round : Round Time} (welcoming : Welcoming round.env round.outcome.sent) (punctual : Punctual b clock losses ends round)
    (many : ends.tx.maximumRetries < losses) : (LossyUpload.exchange b clock ends round).tx.state = .aborted := by
  rw [LossyUpload.exchange,linked.waits.gives_up punctual.due many]
  dsimp only
  split_ifs with away silent
  · rfl
  · rfl
  · have arrives : round.arrives = true := by rw [Round.arrives,bne_iff_ne]; exact away
    rw [abort_unanswered welcoming setup.sessionId (punctual.live arrives)]
    rfl

/-- A transmitter that has ended says nothing more. -/
theorem exchange_ended {ends : Ends Time} {round : Round Time}
    (ended : ends.tx.state = .completed ∨ ends.tx.state = .rejected ∨ ends.tx.state = .aborted) :
    LossyUpload.exchange b clock ends round = ends := by
  rw [LossyUpload.exchange,poll,if_pos ended]

/-! ### Runs -/

/-- The rounds that are left find a running transfer's timer due and its lease running. -/
structure Ready (b : Build) (clock : Clock Time) (segments retries done losses : Nat) (ends : Ends Time) (rounds : List (Round Time)) :
    Prop where
  segments_is : ends.tx.segmentCount = segments
  retries_is : ends.tx.maximumRetries = retries
  due : losses ≠ 0 → ∀ round ∈ rounds.head?, clock.due round.now ends.tx.lastSendTime = true
  live : ∀ round ∈ (rounds.filter Round.arrives).head?, ¬ Expired b round.nowMs ends.rx

/-- Behind a loss the next poll waits for the timeout, and what arrives does so within the lease of what arrived before. -/
structure Paced (b : Build) (clock : Clock Time) (rounds : List (Round Time)) : Prop where
  polls : rounds.IsChain fun earlier later => earlier.outcome ≠ .delivered → clock.due later.now earlier.now = true
  arrivals : (rounds.filter Round.arrives).IsChain fun earlier later =>
    b.config.inactivityTimeoutMs = 0 ∨ later.nowMs - earlier.nowMs < b.config.inactivityTimeoutMs

theorem Paced.tail {round : Round Time} {rest : List (Round Time)} (paced : Paced b clock (round :: rest)) : Paced b clock rest := by
  refine ⟨(List.isChain_cons.mp paced.polls).2,?_⟩
  have arrivals := paced.arrivals
  rw [List.filter_cons] at arrivals
  split at arrivals
  · exact (List.isChain_cons.mp arrivals).2
  · exact arrivals

theorem Ready.punctual {segments retries done losses : Nat} {ends : Ends Time} {round : Round Time} {rest : List (Round Time)}
    (ready : Ready b clock segments retries done losses ends (round :: rest)) : Punctual b clock losses ends round := by
  refine ⟨fun again => ready.due again round rfl,fun arrives => ready.live round ?_⟩
  rw [List.filter_cons_of_pos arrives]
  rfl

/-- Behind a round, what is left is ready again. -/
theorem Ready.next {segments retries done losses done' losses' : Nat} {ends after : Ends Time} {round : Round Time}
    {rest : List (Round Time)} (ready : Ready b clock segments retries done losses ends (round :: rest))
    (paced : Paced b clock (round :: rest)) (same : fixed after.tx = fixed ends.tx)
    (lost : losses' ≠ 0 → round.outcome ≠ .delivered ∧ after.tx.lastSendTime = round.now)
    (heard : if round.arrives = true then after.rx.lastActivityMs = round.nowMs else after.rx = ends.rx) :
    Ready b clock segments retries done' losses' after rest := by
  refine ⟨?_,?_,fun again later head => ?_,fun later head => ?_⟩
  · exact (congrArg (fun parts => parts.2.2.1) same).trans ready.segments_is
  · exact (congrArg (fun parts => parts.2.2.2.2.2) same).trans ready.retries_is
  · obtain ⟨missed,sentAt⟩ := lost again
    rw [sentAt]
    exact (List.isChain_cons.mp paced.polls).1 later head missed
  · by_cases arrives : round.arrives = true
    · have arrivals := paced.arrivals
      rw [if_pos arrives] at heard
      rw [List.filter_cons_of_pos arrives] at arrivals
      rintro ⟨-,limited,stale⟩
      rw [heard] at stale
      rcases (List.isChain_cons.mp arrivals).1 later head with unlimited | within
      · exact limited unlimited
      · exact absurd within (BitVec.not_lt.mpr stale)
    · rw [if_neg arrives] at heard
      rw [heard]
      apply ready.live later
      rwa [List.filter_cons_of_neg arrives]

/-- Whatever gets lost, the two ends follow the counters. -/
theorem follows_run (describes : Describes setup object) (admissible : Admissible b setup) {segments retries : Nat}
    {rounds : List (Round Time)} (welcome : ∀ round ∈ rounds, Welcoming round.env round.outcome.sent) (paced : Paced b clock rounds)
    {fate : Fate} {ends : Ends Time} (follows : Follows b setup object fate ends)
    (ready : ∀ done losses, fate = .running done losses → Ready b clock segments retries done losses ends rounds) :
    Follows b setup object (rounds.foldl (fun fate round => fate.next segments retries round.outcome) fate)
      (rounds.foldl (LossyUpload.exchange b clock) ends) := by
  induction rounds generalizing fate ends with
  | nil => exact follows
  | cons round rest ih =>
    have welcoming := welcome round (List.mem_cons_self ..)
    refine ih (fun later member => welcome later (List.mem_cons_of_mem _ member)) paced.tail ?_ ?_
    · cases fate with
      | completed =>
        rw [exchange_ended (.inl follows.1)]
        exact follows
      | aborted =>
        rw [exchange_ended (.inr (.inr follows))]
        exact follows
      | running done losses =>
        have now := ready done losses rfl
        by_cases few : losses ≤ retries
        · have moved := (Linked.exchange follows describes admissible welcoming now.punctual (now.retries_is ▸ few)).1
          rwa [now.segments_is,now.retries_is] at moved
        · beta_reduce
          rw [Fate.next,if_pos (not_le.mp few)]
          exact Linked.gives_up follows welcoming now.punctual (now.retries_is ▸ not_le.mp few)
    · intro done' losses' running
      beta_reduce at running
      cases fate with
      | completed | aborted => cases running
      | running done losses =>
        have now := ready done losses rfl
        by_cases few : losses ≤ retries
        · obtain ⟨-,same,sentAt,heard⟩ :=
            Linked.exchange follows describes admissible welcoming now.punctual (now.retries_is ▸ few)
          have missed (again : losses' ≠ 0) : round.outcome ≠ .delivered := by
            intro delivered
            rw [Fate.next,if_neg (not_lt.mpr few),if_pos delivered] at running
            split at running
            · cases running
            · cases running
              exact again rfl
          exact now.next paced same (fun again => ⟨missed again,sentAt (missed again)⟩) heard
        · rw [Fate.next,if_pos (not_le.mp few)] at running
          cases running

/-! ### The upload -/

/-- An engine that holds every segment has completed the session. -/
theorem finished_of_holds {rx : Engine} (life : Lifecycle b rx) (holds : Holds setup (setup.finalSegmentIndex.toNat + 1) rx) :
    Finished setup.sessionId rx.trace := by
  obtain ⟨a,latest,current⟩ := life.live holds.live
  have setupIs := holds.setup_is
  refine ⟨a,List.mem_of_mem_head? latest,?_,current.delivers.complete.mpr fun index known => ?_⟩
  · rw [current.delivers.info,setupIs]
    rfl
  · refine (current.received index).mp (.inl ?_)
    rw [holds.count_is]
    rw [setupIs] at known
    omega

/-- The transmitter's object and segments fit an engine's limits. -/
theorem admissible_announced {t : CompactBitsTransmitter Time} (sized : Sized t) (fits : t.object.length ≤ b.config.maximumObjectSize)
    (size : t.segmentSize ≤ b.config.maximumSegmentSize.toNat) (width : 0 < b.config.receiveWindowWidth) :
    Admissible b (announced t) := by
  have describes := describes_announced sized
  have sizeIs := sized.announced_toNat.2.2.2.1
  have final := describes.final
  refine ⟨by omega,final.1,final.2,?_,width,sizeIs ▸ size⟩
  calc setupTotalSize (announced t)
    _ ≤ (announced t).finalSegmentIndex.toNat * (announced t).segmentSize.toNat + (announced t).finalSegmentSize.toNat := Nat.mod_le _ _
    _ = t.object.length := describes.length.symm
    _ ≤ b.config.maximumObjectSize := fits

/-- An engine that never admitted the session. -/
theorem heard_unheard {rx : Engine} (life : Lifecycle b rx)
    (unheard : ∀ a ∈ admissions rx.trace, a.info.sessionId ≠ setup.sessionId) (granted : Nat) : Heard setup object granted rx := by
  refine ⟨fun live session => ?_,fun a member session => absurd session (unheard a member)⟩
  obtain ⟨a,latest,current⟩ := life.live live
  have other := unheard a (List.mem_of_mem_head? latest)
  rw [current.delivers.info] at other
  exact absurd session other

theorem linked_begun {objectBytes : Bytes} {segmentSize sessionId initialSequence : Int} {maximumRetries : Nat}
    {t : CompactBitsTransmitter Time}
    (created : create clock objectBytes segmentSize sessionId initialSequence maximumRetries = .ok t) {rx : Engine} (life : Lifecycle b rx)
    (idle : rx.state ≠ .kActive) (unheard : ∀ a ∈ admissions rx.trace, a.info.sessionId ≠ (announced t).sessionId) :
    Linked b (announced t) objectBytes 0 0 ⟨t,rx⟩ := by
  obtain ⟨window,object,-,starting,last,-,free⟩ := window_create created
  have waits : Waits (announced t) objectBytes 0 0 t :=
    ⟨window,rfl,object,fun _ => starting,fun other => absurd rfl other,fun _ => ⟨last,free⟩,fun other => absurd rfl other⟩
  exact ⟨waits,Nat.zero_le _,life,heard_unheard life unheard _,.inr idle⟩

/-- However the line loses messages, the upload moves like the two counters: it completes exactly when the SETUP and
    every segment got through with no more losses in a row than retries, and is given up exactly when there were
    more; and once it completes, the engine's sink has accepted every slice of the object exactly once. -/
theorem lossy_upload_follows_counters (b : Build) (clock : Clock Time) (objectBytes : Bytes)
    (segmentSize sessionId initialSequence : Int) (maximumRetries : Nat) (t : CompactBitsTransmitter Time)
    (created : create clock objectBytes segmentSize sessionId initialSequence maximumRetries = .ok t)
    (earlier : List (ReceiverEngine.Call × Environment)) (idle : (ReceiverEngine.run b earlier).state ≠ .kActive)
    (unheard : ∀ a ∈ admissions (ReceiverEngine.run b earlier).trace, a.info.sessionId ≠ (announced t).sessionId)
    (fits : objectBytes.length ≤ b.config.maximumObjectSize) (size : t.segmentSize ≤ b.config.maximumSegmentSize.toNat)
    (width : 0 < b.config.receiveWindowWidth) (rounds : List (Round Time))
    (welcome : ∀ round ∈ rounds, Welcoming round.env round.outcome.sent) (paced : Paced b clock rounds) :
    let ends := rounds.foldl (LossyUpload.exchange b clock) ⟨t,ReceiverEngine.run b earlier⟩
    let fate := fateOf t.segmentCount maximumRetries (rounds.map Round.outcome)
    (complete ends.tx = true ↔ fate = .completed) ∧ (ends.tx.state = .aborted ↔ fate = .aborted) ∧
    (complete ends.tx = true → ∃ a ∈ admissions ends.rx.trace, a.info.sessionId = (announced t).sessionId ∧
      .completed ∈ a.endings ∧ ∀ i < t.segmentCount, a.accepted.filter (fun call => call.objectOffset = i * t.segmentSize) =
        [⟨i * t.segmentSize,slice objectBytes t.segmentSize i,true⟩]) := by
  intro ends fate
  have life := ReceiverLifecycle.run_lifecycle b earlier
  obtain ⟨window,object,retries,-⟩ := window_create created
  have sized : Sized t := window.toSized
  have describes := describes_announced sized
  have linked := linked_begun created life idle unheard
  have ready : Ready b clock t.segmentCount maximumRetries 0 0 ⟨t,ReceiverEngine.run b earlier⟩ rounds :=
    ⟨rfl,retries,fun other => absurd rfl other,fun _ _ expired => idle expired.1⟩
  rw [object] at describes
  have follows : Follows b (announced t) objectBytes fate ends := by
    have admissible := admissible_announced sized (object ▸ fits) size width
    have followed := follows_run describes admissible welcome paced (show Follows b _ _ (.running 0 0) _ from linked) (by
      rintro done losses same
      cases same
      exact ready)
    show Follows b _ _ (fateOf _ _ _) ends
    rw [fateOf,List.foldl_map]
    exact followed
  have completed (final : fate = .completed) : ∃ a ∈ admissions ends.rx.trace, a.info.sessionId = (announced t).sessionId ∧
      .completed ∈ a.endings ∧ ∀ i < t.segmentCount, a.accepted.filter (fun call => call.objectOffset = i * t.segmentSize) =
        [⟨i * t.segmentSize,slice objectBytes t.segmentSize i,true⟩] := by
    rw [final] at follows
    obtain ⟨-,life,heard,holds⟩ := follows
    obtain ⟨a,member,session,ended,slices⟩ := EndToEnd.delivered_of_finished life heard describes.final (finished_of_holds life holds)
    have final := sized.announced_toNat.2.2.1
    rw [sized.announced_toNat.2.2.2.1] at slices
    exact ⟨a,member,session,ended,fun i known => slices i (by omega)⟩
  have states : (complete ends.tx = true ↔ fate = .completed) ∧ (ends.tx.state = .aborted ↔ fate = .aborted) := by
    clear completed
    cases kind : fate with
    | completed =>
      rw [kind] at follows
      simp [complete,follows.1]
    | aborted =>
      rw [kind] at follows
      simp [complete,show ends.tx.state = .aborted from follows]
    | running done losses =>
      rw [kind] at follows
      have running := follows.waits.running
      push Not at running
      simp [complete,running.1,running.2.2]
  exact ⟨states.1,states.2,fun done => completed (states.1.mp done)⟩

def lossyRound (now : Nat) (outcome : Outcome) : Round Nat := ⟨now,BitVec.ofNat 32 now,sinkWith outcome.sent,outcome⟩

theorem lossyRound_welcoming (now : Nat) (outcome : Outcome) :
    Welcoming (lossyRound now outcome).env (lossyRound now outcome).outcome.sent := by
  have fine : outcome.sent = .kSent ∨ outcome.sent = .kFull := by cases outcome <;> decide
  exact ⟨fun _ => rfl,fun _ _ => rfl,rfl,fun _ => rfl,fine,fun _ => rfl⟩

/-- The SETUP gets through at the third try and the first segment at the second; behind a reply the next poll comes at once. -/
def lossyRounds : List (Round Nat) :=
  [lossyRound 0 .requestLost,lossyRound 2 .replyLost,lossyRound 4 .delivered,lossyRound 4 .replyDeferred,lossyRound 6 .delivered,
    lossyRound 6 .delivered]

theorem lossy_rounds_deliver :
    complete (lossyRounds.foldl (LossyUpload.exchange general twoTicks) ⟨shortUploader,{}⟩).tx = true ∧
    ∃ a ∈ admissions (lossyRounds.foldl (LossyUpload.exchange general twoTicks) ⟨shortUploader,{}⟩).rx.trace,
      a.info.sessionId = (announced shortUploader).sessionId ∧ .completed ∈ a.endings ∧
      ∀ i < 2, a.accepted.filter (fun call => call.objectOffset = i * 2) = [⟨i * 2,slice [1,2,3] 2 i,true⟩] := by
  have welcome : ∀ round ∈ lossyRounds, Welcoming round.env round.outcome.sent := by
    simp only [lossyRounds,List.forall_mem_cons]
    exact ⟨lossyRound_welcoming _ _,lossyRound_welcoming _ _,lossyRound_welcoming _ _,lossyRound_welcoming _ _,
      lossyRound_welcoming _ _,lossyRound_welcoming _ _,nofun⟩
  have paced : Paced general twoTicks lossyRounds := ⟨by decide,by decide⟩
  obtain ⟨completes,-,delivers⟩ := lossy_upload_follows_counters general twoTicks [1,2,3] 2 5 250 10 shortUploader rfl []
    (by decide) nofun (by decide) (by decide) (by decide) lossyRounds welcome paced
  have done := completes.mpr (by decide)
  exact ⟨done,delivers done⟩

end rounds

end WireSpaces.LossyUpload
