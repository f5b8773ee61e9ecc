import WireSpaces.CodecLaws
import WireSpaces.ReceiverLifecycle

/-!
Traffic beside an active transfer. The PDUs of a transfer are the accepted SETUP
again, segments of its session with the right size, and its PROBE and ABORT; every
other PDU leaves the transfer as it was, whatever the sender answers.
-/
namespace WireSpaces.ReceiverForeign
open WireSpaces.Codec WireSpaces.CodecLaws WireSpaces.ReceiverEngine WireSpaces.ReceiverSteps

/-- The session a message names. -/
def sessionOf : Message → Option U8
  | .setup setup => some setup.sessionId
  | .segment header _ => some header.sessionId
  | .ack ack => some ack.sessionId
  | .probe probe => some probe.sessionId
  | .reject reject => some reject.sessionId
  | .userDatagram _ => none
  | .abort abort => some abort.sessionId

/-- A PDU that is not one of the accepted transfer. -/
inductive Foreign (accepted : Setup) (message : Bytes) : Prop where
  | malformed (unread : ∀ type, decode type message = none)
  | wrongSize {header : SegmentHeader} {payload : Bytes} (read : decode .kSegment message = some (.segment header payload))
      (size : payload.length ≠ (expectedSize accepted header.segmentIndex).toNat)
  | reply {type : MessageType} (read : (decode type message).isSome)
      (beside : type = .kAck ∨ type = .kReject ∨ type = .kUserDatagram)
  | otherSession {type : MessageType} {value : Message} {session : U8} (read : decode type message = some value)
      (named : sessionOf value = some session) (other : session ≠ accepted.sessionId)
  | otherSetup {setup : Setup} (read : decode .kSetup message = some (.setup setup)) (differs : setup ≠ accepted)

/-- A PDU of the accepted transfer. -/
inductive Owned (accepted : Setup) (message : Bytes) : Prop where
  | setup (read : decode .kSetup message = some (.setup accepted))
  | segment {header : SegmentHeader} {payload : Bytes} (read : decode .kSegment message = some (.segment header payload))
      (session : header.sessionId = accepted.sessionId)
      (size : payload.length = (expectedSize accepted header.segmentIndex).toNat)
  | probe (read : decode .kProbe message = some (.probe ⟨accepted.sessionId⟩))
  | abort (read : decode .kAbort message = some (.abort ⟨accepted.sessionId⟩))

/-- A message has at most one reading. -/
theorem decode_unique {message : Bytes} {type other : MessageType} {value value' : Message}
    (left : decode type message = some value) (right : decode other message = some value') :
    type = other ∧ value = value' := by
  have same := hasType_unique (decode_eq_some.mp left).1 (decode_eq_some.mp right).1
  subst same
  rw [left] at right
  exact ⟨rfl,Option.some.inj right⟩

theorem Foreign.not_owned {accepted : Setup} {message : Bytes} (foreign : Foreign accepted message) :
    ¬ Owned accepted message := by
  intro owned
  obtain ⟨type,value,read,fits⟩ : ∃ type value, decode type message = some value ∧
      (value = .setup accepted ∨ value = .probe ⟨accepted.sessionId⟩ ∨ value = .abort ⟨accepted.sessionId⟩ ∨
        ∃ header payload, value = .segment header payload ∧ header.sessionId = accepted.sessionId ∧
          payload.length = (expectedSize accepted header.segmentIndex).toNat) := by
    cases owned with
    | setup read => exact ⟨_,_,read,.inl rfl⟩
    | segment read session size => exact ⟨_,_,read,.inr (.inr (.inr ⟨_,_,rfl,session,size⟩))⟩
    | probe read => exact ⟨_,_,read,.inr (.inl rfl)⟩
    | abort read => exact ⟨_,_,read,.inr (.inr (.inl rfl))⟩
  cases foreign with
  | malformed unread =>
    rw [unread type] at read
    cases read
  | wrongSize segment size =>
    obtain ⟨-,rfl⟩ := decode_unique read segment
    simp [size] at fits
  | reply accepts beside =>
    obtain ⟨reply,replied⟩ := Option.isSome_iff_exists.mp accepts
    obtain ⟨rfl,rfl⟩ := decode_unique read replied
    have typed := (decode_bytes read).1
    rcases fits with rfl | rfl | rfl | ⟨header,payload,rfl,-⟩ <;> rcases beside with rfl | rfl | rfl <;> cases typed
  | otherSession named session other =>
    obtain ⟨rfl,rfl⟩ := decode_unique read named
    rcases fits with rfl | rfl | rfl | ⟨header,payload,rfl,same,-⟩
    · exact other (Option.some.inj session).symm
    · exact other (Option.some.inj session).symm
    · exact other (Option.some.inj session).symm
    · exact other ((Option.some.inj session).symm.trans same)
  | otherSetup setup differs =>
    obtain ⟨-,rfl⟩ := decode_unique read setup
    simp [differs] at fits

/-! ### What a foreign PDU does -/

/-- Only the send result and the trace moved, and no callback but `onDatagram` was
    invoked. -/
structure Beside (s u : Engine) : Prop where
  same : u = { s with lastSend := u.lastSend, trace := u.trace }
  quiet : ∃ more, u.trace = s.trace ++ more ∧ ∀ call, .callback call ∈ more → ∃ payload, call = .onDatagram payload

theorem Beside.refl (s : Engine) : Beside s s := ⟨rfl,[],by simp,by simp⟩

theorem sendReject_beside (env : Environment) (sessionId : U8) (reason : RejectReason) (s : Engine) :
    Beside s (sendReject env sessionId reason s).1 := by
  unfold sendReject
  by_cases size : (env.sender.prepare kRejectSize).length = kRejectSize
  · simp only [size,encodeReject_exact size,ne_eq,not_true_eq_false,if_false]
    exact ⟨rfl,_,rfl,by simp⟩
  · simp only [size,ne_eq,not_false_eq_true,if_true]
    exact ⟨rfl,[],by simp,by simp⟩

theorem onDatagram_beside (env : Environment) (payload : Bytes) (s : Engine) :
    Beside s (invoke env (.onDatagram payload) s) := by
  obtain ⟨datagrams,all,result⟩ := invoke_trace env (.onDatagram payload) s
  rw [result]
  refine ⟨rfl,_,rfl,?_⟩
  intro call member
  rcases List.mem_cons.mp member with same | inside
  · cases same
    exact ⟨payload,rfl⟩
  · obtain ⟨sent,answer,event⟩ := all _ inside
    cases event

section handlers
variable {b : Build} {env : Environment} {message : Bytes} {s : Engine}

theorem handleSegment_beside (typed : hasType message .kSegment = true) (foreign : ¬ Owned s.setup message) (nowMs : U32) :
    Beside s (handleSegment b env message nowMs s).1 := by
  rcases handleSegment_cases b env message nowMs s with ⟨header,belongs,-⟩ | ⟨same,-⟩
  · have read : decode .kSegment message = some (.segment header (message.drop kSegmentHeaderSize)) :=
      decode_eq_some.mpr ⟨typed,by rw [decodeKnownType,belongs.decoded,Option.map_some]⟩
    exact absurd (.segment read belongs.session belongs.size) foreign
  · rw [same]
    exact .refl s

/-- An active engine refuses every SETUP that is not the accepted one. -/
theorem handleSetup_beside (typed : hasType message .kSetup = true) (active : s.state = .kActive)
    (foreign : ¬ Owned s.setup message) (nowMs : U32) : Beside s (handleSetup b env message nowMs s).1 := by
  have rejected := fun sessionId reason => sendReject_beside env sessionId reason s
  unfold handleSetup
  split
  · exact .refl s
  cases decoded : decodeSetupKnownType message with
  | none => exact rejected _ _
  | some requested =>
    dsimp only
    split
    · exact rejected _ _
    split
    · exact rejected _ _
    split
    · exact rejected _ _
    split
    · rename_i same
      have read : decode .kSetup message = some (.setup requested) :=
        decode_eq_some.mpr ⟨typed,by rw [decodeKnownType,decoded,Option.map_some]⟩
      rw [← (setupMatches_iff _ _).mp same] at read
      exact absurd (.setup read) foreign
    · exact rejected _ _

theorem handleControl_beside {type : MessageType} (typed : hasType message type = true) (active : s.state = .kActive)
    (foreign : ¬ Owned s.setup message) (nowMs : U32) : Beside s (handleControl b env message type nowMs s).1 := by
  unfold handleControl
  cases type with
  | kSetup => exact handleSetup_beside typed active foreign nowMs
  | kProbe =>
    cases decoded : decodeProbeKnownType message with
    | none => exact .refl s
    | some probe =>
      dsimp only
      split
      · exact .refl s
      rename_i own
      push Not at own
      have read : decode .kProbe message = some (.probe probe) :=
        decode_eq_some.mpr ⟨typed,by rw [decodeKnownType,decoded,Option.map_some]⟩
      obtain ⟨session⟩ := probe
      rw [show session = s.setup.sessionId from own.2] at read
      exact absurd (.probe read) foreign
  | kUserDatagram =>
    cases decodeUserDatagramKnownType message with
    | none => exact .refl s
    | some payload => exact onDatagram_beside env payload s
  | kAbort =>
    simp only [handleAbort]
    cases decoded : decodeAbortKnownType message with
    | none => exact .refl s
    | some abort =>
      dsimp only
      split
      · exact .refl s
      rename_i own
      push Not at own
      have read : decode .kAbort message = some (.abort abort) :=
        decode_eq_some.mpr ⟨typed,by rw [decodeKnownType,decoded,Option.map_some]⟩
      obtain ⟨session⟩ := abort
      rw [show session = s.setup.sessionId from own.2] at read
      exact absurd (.abort read) foreign
  | kSegment => exact .refl s
  | kAck => exact .refl s
  | kReject => exact .refl s

theorem dispatch_beside (active : s.state = .kActive) (foreign : ¬ Owned s.setup message) (nowMs : U32) :
    Beside s (dispatch b env message nowMs s).1 := by
  rcases dispatch_cases b env message nowMs s with ⟨same,-⟩ | ⟨typed,handled⟩ | ⟨type,typed,-,handled⟩
  · rw [same]
    exact .refl s
  · rw [handled]
    exact handleSegment_beside typed foreign nowMs
  · rw [handled]
    exact handleControl_beside typed active foreign nowMs

/-- The lease of an active transfer ran out: what `poll` tests. -/
def Expired (b : Build) (nowMs : U32) (s : Engine) : Prop :=
  s.state = .kActive ∧ b.config.inactivityTimeoutMs ≠ 0 ∧ b.config.inactivityTimeoutMs ≤ nowMs - s.lastActivityMs

theorem poll_live (live : ¬ Expired b nowMs s) : poll b env nowMs s = (s,.kIdle) := by
  rw [poll,if_pos]
  by_contra stale
  push Not at stale
  exact live ⟨stale.1,stale.2.1,BitVec.not_lt.mp stale.2.2⟩

theorem process_live {nowMs : U32} (live : ¬ Expired b nowMs s) :
    process b env message nowMs s = dispatch b env message nowMs { s with lastSend := .kSent } := by
  simp only [process,poll_live live,reduceCtorEq,if_false]

theorem process_beside {nowMs : U32} (active : s.state = .kActive) (live : ¬ Expired b nowMs s)
    (foreign : ¬ Owned s.setup message) : Beside s (process b env message nowMs s).1 := by
  have beside : Beside { s with lastSend := .kSent } (dispatch b env message nowMs { s with lastSend := .kSent }).1 := by
    apply dispatch_beside
    · exact active
    · exact foreign
  rw [process_live live]
  exact ⟨beside.same,beside.quiet⟩

end handlers

/-- In every reachable active state whose lease has not run out, a foreign PDU
    leaves the transfer and its lease unchanged and invokes no transfer callback,
    whatever the environment answers. -/
theorem foreign_leaves_transfer (b : Build) (calls : List (Call × Environment)) (env : Environment) (message : Bytes)
    (nowMs : U32) (active : (run b calls).state = .kActive) (live : ¬ Expired b nowMs (run b calls))
    (foreign : Foreign (run b calls).setup message) :
    let s := run b calls
    let t := (process b env message nowMs s).1
    t.state = s.state ∧ t.setup = s.setup ∧ t.segmentCount = s.segmentCount ∧ t.contiguousCount = s.contiguousCount ∧
      t.nextObjectOffset = s.nextObjectOffset ∧ t.grantedEnd = s.grantedEnd ∧ t.receiveBitmap = s.receiveBitmap ∧
      t.lastActivityMs = s.lastActivityMs ∧
      ∃ more, t.trace = s.trace ++ more ∧ ∀ call, .callback call ∈ more → ∃ payload, call = .onDatagram payload := by
  intro s t
  have beside : Beside s t := process_beside active live foreign.not_owned
  obtain ⟨same,quiet⟩ := beside
  rw [same]
  exact ⟨rfl,rfl,rfl,rfl,rfl,rfl,rfl,rfl,quiet⟩

/-- A boot receiver of width one with a lease of 100 ms. -/
def boot : Build := construct 1 (by decide) (by decide) ⟨4,1,16,100⟩

/-- The accepted SETUP of session 9, at time zero. -/
def accepted : List (Call × Environment) := [(.process (setupBytes ⟨9,0,2,4,4⟩) 0,sinkWith .kSent)]

/-- A SETUP of session 10 whose REJECT cannot be sent. -/
theorem foreign_leaves_boot_transfer :
    let t := (process boot (sinkWith .kNoRoute) (setupBytes ⟨10,0,2,4,4⟩) 90 (run boot accepted)).1
    t.state = .kActive ∧ t.setup = ⟨9,0,2,4,4⟩ ∧ t.lastActivityMs = 0 := by
  have read : decode .kSetup (setupBytes ⟨10,0,2,4,4⟩) = some (.setup ⟨10,0,2,4,4⟩) := by decide
  have all := foreign_leaves_transfer boot accepted (sinkWith .kNoRoute) (setupBytes ⟨10,0,2,4,4⟩) 90 (by decide)
    (by unfold Expired; decide) (.otherSetup read (by decide))
  exact ⟨all.1.trans (by decide),all.2.1.trans (by decide),all.2.2.2.2.2.2.2.1.trans (by decide)⟩

end WireSpaces.ReceiverForeign
