import WireSpaces.ReceiverForeign

/-!
The inactivity lease. Calls are made at real times and the engine sees each time
modulo 2^32. Between two calls the lease is compared with the time of the latest
renewing event, and an active transfer fails at the first call that finds it run
out.
-/
namespace WireSpaces.ReceiverLease
open WireSpaces.Codec WireSpaces.CodecLaws WireSpaces.ReceiverEngine WireSpaces.ReceiverSteps WireSpaces.ReceiverForeign
open WireSpaces.ReceiverWindow WireSpaces.ReceiverLifecycle

/-- A public call. Those that read the clock are made at a real time, in ms. -/
inductive TimedCall where
  | process (message : Bytes) (time : Nat)
  | poll (time : Nat)
  | sendDatagram (payload : Bytes)
  | abort

def TimedCall.time : TimedCall → Option Nat
  | .process _ time => some time
  | .poll time => some time
  | .sendDatagram _ => none
  | .abort => none

/-- The call the engine sees: each time modulo 2^32. -/
def TimedCall.presented : TimedCall → Call
  | .process message time => .process message (BitVec.ofNat 32 time)
  | .poll time => .poll (BitVec.ofNat 32 time)
  | .sendDatagram payload => .sendDatagram payload
  | .abort => .abort

/-- Times do not decrease and follow each other by less than 2^32 less the timeout. -/
def Scheduled (timeout : U32) (calls : List (TimedCall × Environment)) : Prop :=
  (calls.filterMap (·.1.time)).IsChain (fun earlier later => earlier ≤ later ∧ later - earlier < 2 ^ 32 - timeout.toNat)

instance (timeout : U32) (calls : List (TimedCall × Environment)) : Decidable (Scheduled timeout calls) :=
  inferInstanceAs (Decidable (List.IsChain _ _))

instance (b : Build) (setup : Setup) : Decidable (Admissible b setup) :=
  decidable_of_iff
    (0 < setup.segmentSize.toNat ∧ 0 < setup.finalSegmentSize.toNat ∧
      setup.finalSegmentSize.toNat ≤ setup.segmentSize.toNat ∧ setupTotalSize setup ≤ b.config.maximumObjectSize ∧
      0 < b.config.receiveWindowWidth ∧ setup.segmentSize.toNat ≤ b.config.maximumSegmentSize.toNat)
    ⟨fun h => ⟨h.1,h.2.1,h.2.2.1,h.2.2.2.1,h.2.2.2.2.1,h.2.2.2.2.2⟩,
      fun h => ⟨h.segment,h.final,h.final_le,h.total,h.width,h.size⟩⟩

/-- The PDUs that renew the lease: a SETUP the sink accepts, the accepted SETUP
    again, a segment of the session with the right size below the grant, and the
    session's PROBE. -/
def Renews (b : Build) (env : Environment) (s : Engine) (message : Bytes) : Prop :=
  (∃ setup ∈ decodeSetup message, if s.state = .kActive then setup = s.setup
    else Admissible b setup ∧ env.beginTransfer (transferInfo setup) = .kAccepted) ∨
  (∃ header ∈ decodeSegmentHeader message, s.state = .kActive ∧ header.sessionId = s.setup.sessionId ∧
    header.segmentIndex.toNat < s.grantedEnd ∧
    (message.drop kSegmentHeaderSize).length = (expectedSize s.setup header.segmentIndex).toNat) ∨
  ∃ probe ∈ decodeProbe message, s.state = .kActive ∧ probe.sessionId = s.setup.sessionId

instance (b : Build) (env : Environment) (s : Engine) (message : Bytes) : Decidable (Renews b env s message) :=
  inferInstanceAs (Decidable (_ ∨ _ ∨ _))

/-- The real time of the latest renewing event, kept beside the engine. A call that
    finds the lease run out discards its PDU. -/
def renewed (b : Build) (s : Engine) (renewal : Nat) (c : TimedCall × Environment) : Nat :=
  match c.1 with
  | .process message time =>
    if s.state = .kActive ∧ b.config.inactivityTimeoutMs.toNat ≤ time - renewal then renewal
    else if Renews b c.2 s message then time else renewal
  | _ => renewal

def runTimed (b : Build) (calls : List (TimedCall × Environment)) : Engine × Nat :=
  calls.foldl (fun s c => ((call b s.1 (c.1.presented,c.2)).1,renewed b s.1 s.2 c)) ({},0)

/-- The engine's part is the run of the presented calls. -/
theorem runTimed_engine (b : Build) (calls : List (TimedCall × Environment)) :
    (runTimed b calls).1 = run b (calls.map (fun c => (c.1.presented,c.2))) := by
  induction calls using List.reverseRecOn with
  | nil => rfl
  | append_singleton calls c ih =>
    rw [runTimed,List.foldl_append,List.map_append,run,List.foldl_append]
    show (call b (runTimed b calls).1 _).1 = (call b (run b _) _).1
    rw [ih]

/-! ### Steps that hold the lease -/

/-- The notification of an expired lease. -/
def expiry : Event := .callback (.onTransferFailed .kInactivityTimeout)

/-- No expiry was notified, and if the transfer is active it was, with this lease. -/
structure Held (s t : Engine) : Prop where
  quiet : ∃ more, t.trace = s.trace ++ more ∧ expiry ∉ more
  activity : t.state = .kActive → s.state = .kActive ∧ t.lastActivityMs = s.lastActivityMs

theorem Held.refl (s : Engine) : Held s s := ⟨⟨[],by simp,by simp⟩,fun active => ⟨active,rfl⟩⟩

theorem Held.trans {s t u : Engine} (first : Held s t) (second : Held t u) : Held s u := by
  obtain ⟨more,trace,silent⟩ := first.quiet
  obtain ⟨rest,later,still⟩ := second.quiet
  refine ⟨⟨more ++ rest,by rw [later,trace,List.append_assoc],?_⟩,?_⟩
  · intro member
    exact (List.mem_append.mp member).elim silent still
  · intro active
    obtain ⟨middle,same⟩ := second.activity active
    obtain ⟨start,before⟩ := first.activity middle
    exact ⟨start,same.trans before⟩

theorem datagram_held {datagrams : List Event} (all : ∀ e ∈ datagrams, Datagram e) : expiry ∉ datagrams := by
  intro member
  obtain ⟨payload,result,same⟩ := all _ member
  cases same

section handlers
variable {b : Build} {env : Environment} {message : Bytes} {s : Engine}

theorem invoke_held (env : Environment) (call : Callback) (other : call ≠ .onTransferFailed .kInactivityTimeout)
    (s : Engine) : Held s (invoke env call s) := by
  obtain ⟨datagrams,all,result⟩ := invoke_trace env call s
  rw [result]
  refine ⟨⟨_,rfl,?_⟩,fun active => ⟨active,rfl⟩⟩
  rintro (_ | ⟨_,inside⟩)
  · exact other rfl
  · exact datagram_held all inside

theorem fail_held {reason : FailureReason} (other : reason ≠ .kInactivityTimeout) (s : Engine) :
    Held s (fail env reason s) := by
  unfold fail
  split
  · obtain ⟨quiet,activity⟩ := invoke_held env (.onTransferFailed reason)
      (fun same => other (Callback.onTransferFailed.inj same)) (s.withState .kError)
    refine ⟨quiet,fun active => ?_⟩
    cases (activity active).1
  · exact .refl s

theorem sendPrepared_held (pdu : Bytes) (s : Engine) : Held s (sendPrepared env pdu s).1 :=
  ⟨⟨_,rfl,by simp [expiry]⟩,fun active => ⟨active,rfl⟩⟩

theorem noted_held (s : Engine) (sent : SendResult) : Held s { s with lastSend := sent } :=
  ⟨⟨[],by simp,by simp⟩,fun active => ⟨active,rfl⟩⟩

theorem sendAck_held (b : Build) (env : Environment) (s : Engine) : Held s (sendAck b env s).1 := by
  have refused : Held s (fail env .kSendFailed { s with lastSend := .kTooLarge }) :=
    (noted_held s .kTooLarge).trans (fail_held (by simp) _)
  unfold sendAck
  dsimp only
  split
  · exact refused
  split
  · exact refused
  · rename_i pdu _
    split
    · exact sendPrepared_held pdu s
    · exact (sendPrepared_held pdu s).trans (fail_held (by simp) _)

theorem sendReject_held (sessionId : U8) (reason : RejectReason) (s : Engine) :
    Held s (sendReject env sessionId reason s).1 := by
  obtain ⟨same,more,trace,others⟩ := sendReject_beside env sessionId reason s
  refine ⟨⟨more,trace,?_⟩,?_⟩
  · intro member
    obtain ⟨payload,impossible⟩ := others _ member
    cases impossible
  · rw [same]
    exact fun active => ⟨active,rfl⟩

theorem sendAbort_held (s : Engine) : Held s (sendAbort env s).1 := by
  unfold sendAbort
  dsimp only
  split
  · exact noted_held s .kTooLarge
  split
  · exact noted_held s .kTooLarge
  · exact (noted_held s .kTooLarge).trans (sendPrepared_held _ _)

theorem ended_held {u : Engine} (state : TransferState) (ended : state ≠ .kActive) (call : Callback)
    (other : call ≠ .onTransferFailed .kInactivityTimeout) (held : Held s u) :
    Held s (invoke env call (u.withState state)) := by
  have called := invoke_held env call other (u.withState state)
  refine held.trans ⟨called.quiet,fun active => ?_⟩
  exact absurd (called.activity active).1 ended

theorem abort_held (env : Environment) (s : Engine) : Held s (ReceiverEngine.abort env s).1 := by
  unfold ReceiverEngine.abort
  split
  · exact .refl s
  · exact ended_held .kAborted (by simp) (.onTransferAborted .kLocal) (by simp) (sendAbort_held s)

/-- The window's part of an accepted segment. -/
theorem advance_held (windowOffset : Nat) (payload : Bytes) (s : Engine) :
    Held s (updateGrant b (advanceWindow b windowOffset payload s)) := by
  unfold updateGrant advanceWindow
  split
  · exact ⟨⟨[],by simp,by simp⟩,fun active => ⟨active,rfl⟩⟩
  · exact ⟨⟨[],by simp,by simp⟩,fun active => ⟨active,rfl⟩⟩

theorem deliverSegment_held (offset windowOffset : Nat) (payload : Bytes) (s : Engine) :
    Held s (deliverSegment b env offset windowOffset payload s).1 := by
  unfold deliverSegment
  split
  · have taken := (invoke_held env (.onSegment offset payload true) (by simp) s).trans
      (advance_held (b := b) windowOffset payload _)
    dsimp only
    split
    · exact (ended_held .kCompleted (by simp) .onTransferComplete (by simp) taken).trans (sendAck_held b env _)
    · exact taken.trans (sendAck_held b env _)
  · exact (invoke_held env _ (by simp) s).trans (fail_held (by simp) _)

theorem placeSegment_held (b : Build) (env : Environment) (index : Nat) (payload : Bytes) (s : Engine) :
    Held s (placeSegment b env index payload s).1 := by
  unfold placeSegment
  dsimp only
  repeat' split
  all_goals first | exact sendAck_held b env s | exact deliverSegment_held _ _ payload s

/-! ### What a call does to the lease -/

/-- A PDU renews the lease or holds it. -/
structure Leases (b : Build) (env : Environment) (message : Bytes) (nowMs : U32) (s t : Engine) : Prop where
  quiet : ∃ more, t.trace = s.trace ++ more ∧ expiry ∉ more
  activity : t.state = .kActive →
    if Renews b env s message then t.lastActivityMs = nowMs else s.state = .kActive ∧ t.lastActivityMs = s.lastActivityMs

theorem Leases.held {t : Engine} {nowMs : U32} (held : Held s t) (not : t.state = .kActive → ¬ Renews b env s message) :
    Leases b env message nowMs s t := by
  refine ⟨held.quiet,fun active => ?_⟩
  rw [if_neg (not active)]
  exact held.activity active

theorem Leases.renewed {t u : Engine} {nowMs : U32} (held : Held u t) (renews : Renews b env s message)
    (trace : ∃ more, u.trace = s.trace ++ more ∧ expiry ∉ more) (now : u.lastActivityMs = nowMs) :
    Leases b env message nowMs s t := by
  obtain ⟨more,first,silent⟩ := trace
  obtain ⟨rest,later,still⟩ := held.quiet
  refine ⟨⟨more ++ rest,by rw [later,first,List.append_assoc],?_⟩,fun active => ?_⟩
  · intro member
    exact (List.mem_append.mp member).elim silent still
  · rw [if_pos renews]
    exact (held.activity active).2.trans now

/-- A message of one type is read by no other decoder. -/
theorem renews_iff {type : MessageType} (typed : hasType message type = true) :
    Renews b env s message ↔
      match type with
      | .kSetup => ∃ setup ∈ decodeSetupKnownType message, if s.state = .kActive then setup = s.setup
          else Admissible b setup ∧ env.beginTransfer (transferInfo setup) = .kAccepted
      | .kSegment => ∃ header ∈ decodeSegmentHeaderKnownType message, s.state = .kActive ∧
          header.sessionId = s.setup.sessionId ∧ header.segmentIndex.toNat < s.grantedEnd ∧
          (message.drop kSegmentHeaderSize).length = (expectedSize s.setup header.segmentIndex).toNat
      | .kProbe => ∃ probe ∈ decodeProbeKnownType message, s.state = .kActive ∧ probe.sessionId = s.setup.sessionId
      | _ => False := by
  have others {other : MessageType} (differs : type ≠ other) : hasType message other = false := by
    by_contra has
    exact differs (hasType_unique typed (Bool.not_eq_false _ ▸ has))
  unfold Renews decodeSetup decodeSegmentHeader decodeProbe
  cases type <;> simp [typed,others]

theorem handleSegment_leases (typed : hasType message .kSegment = true)
    (window : s.state = .kActive → s.grantedEnd ≤ s.segmentCount) (nowMs : U32) :
    Leases b env message nowMs s (handleSegment b env message nowMs s).1 := by
  rcases handleSegment_cases b env message nowMs s with ⟨header,belongs,handled⟩ | ⟨same,unread⟩
  swap
  · rw [same]
    refine .held (.refl s) (fun _ renews => ?_)
    obtain ⟨header,read,active,session,granted,size⟩ := (renews_iff typed).mp renews
    have inside := window active
    exact unread header ⟨read,.inl active,session,by omega,size⟩
  have placed := placeSegment_held b env header.segmentIndex.toNat (message.drop kSegmentHeaderSize)
    (renewActivity header.segmentIndex.toNat nowMs s)
  rw [handled]
  by_cases granted : header.segmentIndex.toNat < s.grantedEnd
  · rw [renewActivity,if_pos granted] at placed ⊢
    by_cases active : s.state = .kActive
    · have renews : Renews b env s message :=
        (renews_iff typed).mpr ⟨header,belongs.decoded,active,belongs.session,granted,belongs.size⟩
      exact .renewed placed renews ⟨[],by simp,by simp⟩ rfl
    · -- A duplicate of a completed transfer: its time moves, but the transfer holds no lease.
      exact ⟨placed.quiet,fun still => absurd (placed.activity still).1 active⟩
  · rw [renewActivity,if_neg granted] at placed ⊢
    refine .held placed (fun _ renews => ?_)
    obtain ⟨other,read,-,-,below,-⟩ := (renews_iff typed).mp renews
    obtain rfl := Option.some.inj (belongs.decoded.symm.trans read)
    exact granted below

theorem handleSetup_leases (typed : hasType message .kSetup = true)
    (admitted : s.state = .kActive → Admissible b s.setup) (nowMs : U32) :
    Leases b env message nowMs s (handleSetup b env message nowMs s).1 := by
  unfold handleSetup
  by_cases short : message.length < 2
  · rw [if_pos short]
    refine .held (.refl s) (fun _ renews => ?_)
    obtain ⟨setup,read,-⟩ := (renews_iff typed).mp renews
    rw [decodeSetupKnownType,if_pos (.inl (by simp only [kSetupSize]; omega))] at read
    cases read
  rw [if_neg short]
  cases decoded : decodeSetupKnownType message with
  | none =>
    refine .held (sendReject_held _ _ s) (fun _ renews => ?_)
    obtain ⟨setup,read,-⟩ := (renews_iff typed).mp renews
    rw [decoded] at read
    cases read
  | some requested =>
    dsimp only
    have refused {sessionId : U8} {reason : RejectReason} (bad : ¬ Admissible b requested) :
        Leases b env message nowMs s (sendReject env sessionId reason s).1 := by
      refine .held (sendReject_held _ _ s) (fun _ renews => ?_)
      obtain ⟨setup,read,same⟩ := (renews_iff typed).mp renews
      rw [decoded] at read
      cases read
      split at same
      · rename_i active
        exact bad (same ▸ admitted active)
      · exact bad same.1
    by_cases geometry : requested.segmentSize = 0 ∨ requested.finalSegmentSize = 0 ∨
        requested.finalSegmentSize.toNat > requested.segmentSize.toNat
    · rw [if_pos geometry]
      refine refused (fun good => ?_)
      have segment := good.segment
      have final := good.final
      have order := good.final_le
      rcases geometry with zero | zero | above
      · simp [zero] at segment
      · simp [zero] at final
      · omega
    rw [if_neg geometry]
    by_cases large : setupTotalSize requested > b.config.maximumObjectSize
    · rw [if_pos large]
      exact refused (fun good => absurd good.total (by omega))
    rw [if_neg large]
    by_cases wide : b.config.receiveWindowWidth = 0 ∨ requested.segmentSize.toNat > b.config.maximumSegmentSize.toNat
    · rw [if_pos wide]
      refine refused (fun good => ?_)
      have width := good.width
      have size := good.size
      omega
    rw [if_neg wide]
    by_cases active : s.state = .kActive
    · rw [if_pos active]
      by_cases same : setupMatches s.setup requested = true
      · rw [if_pos same]
        have renews : Renews b env s message :=
          (renews_iff typed).mpr ⟨requested,decoded,by rw [if_pos active,(setupMatches_iff _ _).mp same]⟩
        exact .renewed (sendAck_held b env _) renews ⟨[],by simp,by simp⟩ rfl
      · rw [if_neg same]
        refine .held (sendReject_held _ _ s) (fun _ renews => ?_)
        obtain ⟨setup,read,equal⟩ := (renews_iff typed).mp renews
        rw [decoded] at read
        cases read
        rw [if_pos active] at equal
        exact same ((setupMatches_iff _ _).mpr equal.symm)
    rw [if_neg active]
    have asked := invoke_held env
      (.beginTransfer (transferInfo requested) (env.beginTransfer (transferInfo requested))) (by simp) s
    by_cases answer : env.beginTransfer (transferInfo requested) ≠ .kAccepted
    · rw [if_pos answer]
      refine .held (asked.trans (sendReject_held _ _ _)) (fun _ renews => ?_)
      obtain ⟨setup,read,taken⟩ := (renews_iff typed).mp renews
      rw [decoded] at read
      cases read
      rw [if_neg active] at taken
      exact answer taken.2
    · rw [if_neg answer]
      have renews : Renews b env s message :=
        (renews_iff typed).mpr ⟨requested,decoded,by
          rw [if_neg active]
          exact ⟨admissible_of_checks geometry large wide,not_not.mp answer⟩⟩
      refine .renewed (sendAck_held b env _) renews ?_ ?_
      · rw [startReceiving_trace]
        exact asked.quiet
      · unfold startReceiving updateGrant
        split <;> rfl

theorem handleControl_leases {type : MessageType} (typed : hasType message type = true) (control : type ≠ .kSegment)
    (admitted : s.state = .kActive → Admissible b s.setup) (nowMs : U32) :
    Leases b env message nowMs s (handleControl b env message type nowMs s).1 := by
  unfold handleControl
  cases type with
  | kSetup => exact handleSetup_leases typed admitted nowMs
  | kProbe =>
    cases decoded : decodeProbeKnownType message with
    | none =>
      refine .held (.refl s) (fun _ renews => ?_)
      obtain ⟨probe,read,-⟩ := (renews_iff typed).mp renews
      rw [decoded] at read
      cases read
    | some probe =>
      dsimp only
      by_cases ignored : (s.state ≠ .kActive ∧ s.state ≠ .kCompleted) ∨ probe.sessionId ≠ s.setup.sessionId
      · rw [if_pos ignored]
        refine .held (.refl s) (fun _ renews => ?_)
        obtain ⟨other,read,active,session⟩ := (renews_iff typed).mp renews
        rw [decoded] at read
        cases read
        rcases ignored with idle | foreign
        · exact idle.1 active
        · exact foreign session
      · rw [if_neg ignored]
        push Not at ignored
        have acked := sendAck_held b env { s with lastActivityMs := nowMs }
        by_cases active : s.state = .kActive
        · have renews : Renews b env s message := (renews_iff typed).mpr ⟨probe,decoded,active,ignored.2⟩
          exact .renewed acked renews ⟨[],by simp,by simp⟩ rfl
        · exact ⟨acked.quiet,fun still => absurd (acked.activity still).1 active⟩
  | kUserDatagram =>
    have not : ¬ Renews b env s message := fun renews => (renews_iff typed).mp renews
    cases decodeUserDatagramKnownType message with
    | none => exact .held (.refl s) (fun _ => not)
    | some payload => exact .held (invoke_held env _ (by simp) s) (fun _ => not)
  | kAbort =>
    have not : ¬ Renews b env s message := fun renews => (renews_iff typed).mp renews
    simp only [handleAbort]
    cases decodeAbortKnownType message with
    | none => exact .held (.refl s) (fun _ => not)
    | some abort =>
      dsimp only
      split
      · exact .held (.refl s) (fun _ => not)
      · exact .held (ended_held .kAborted (by simp) (.onTransferAborted .kPeer) (by simp) (.refl s)) (fun _ => not)
  | kSegment => exact absurd rfl control
  | kAck => exact .held (.refl s) (fun _ renews => (renews_iff typed).mp renews)
  | kReject => exact .held (.refl s) (fun _ renews => (renews_iff typed).mp renews)

theorem dispatch_leases (window : s.state = .kActive → Window b s) (nowMs : U32) :
    Leases b env message nowMs s (dispatch b env message nowMs s).1 := by
  rcases dispatch_cases b env message nowMs s with ⟨same,none⟩ | ⟨typed,handled⟩ | ⟨type,typed,control,handled⟩
  · rw [same]
    refine .held (.refl s) (fun _ renews => ?_)
    simp [Renews,decodeSetup,decodeSegmentHeader,decodeProbe,none] at renews
  · rw [handled]
    refine handleSegment_leases typed (fun active => ?_) nowMs
    have granted := (window active).granted
    omega
  · rw [handled]
    exact handleControl_leases typed control (fun active => (window active).admissible) nowMs

theorem process_leases {nowMs : U32} (window : s.state = .kActive → Window b s) (live : ¬ Expired b nowMs s) :
    Leases b env message nowMs s (process b env message nowMs s).1 := by
  have leases : Leases b env message nowMs { s with lastSend := .kSent }
      (dispatch b env message nowMs { s with lastSend := .kSent }).1 := by
    refine dispatch_leases (fun active => ?_) nowMs
    exact window_congr (s := s) rfl (window active)
  rw [process_live live]
  exact ⟨leases.quiet,leases.activity⟩

theorem poll_expired {nowMs : U32} (expired : Expired b nowMs s) :
    poll b env nowMs s = (invoke env (.onTransferFailed .kInactivityTimeout) (s.withState .kError),.kError) := by
  obtain ⟨active,limited,late⟩ := expired
  rw [poll,if_neg,fail,if_pos active]
  rintro (idle | unlimited | early)
  · exact idle active
  · exact limited unlimited
  · exact absurd early (BitVec.not_lt.mpr late)

theorem process_expired {nowMs : U32} (expired : Expired b nowMs s) :
    (process b env message nowMs s).1 = invoke env (.onTransferFailed .kInactivityTimeout) (s.withState .kError) := by
  simp only [process,poll_expired expired,if_true]

end handlers

/-! ### The lease over a run -/

/-- The real time of the latest call that read the clock. -/
def clock (calls : List (TimedCall × Environment)) : Option Nat := (calls.filterMap (·.1.time)).getLast?

/-- The engine holds the time of the latest renewing event, and the latest call
    found the lease running. -/
def Lease (b : Build) (s : Engine × Nat) (clock : Option Nat) : Prop :=
  s.1.state = .kActive → s.1.lastActivityMs = BitVec.ofNat 32 s.2 ∧
    ∃ last ∈ clock, s.2 ≤ last ∧ last - s.2 < b.config.inactivityTimeoutMs.toNat

/-- Less than 2^32 behind, the wrapped difference is the real one. -/
theorem elapsed_eq {renewal time : Nat} (order : renewal ≤ time) (close : time - renewal < 2 ^ 32) :
    (BitVec.ofNat 32 time - BitVec.ofNat 32 renewal).toNat = time - renewal := by
  rw [BitVec.toNat_sub,BitVec.toNat_ofNat,BitVec.toNat_ofNat]
  omega

/-- On schedule, the engine's test of its lease is the real one. -/
theorem expired_iff {b : Build} {s : Engine × Nat} {latest : Option Nat} {time : Nat}
    (limited : b.config.inactivityTimeoutMs ≠ 0) (lease : Lease b s latest)
    (next : ∀ last ∈ latest, last ≤ time ∧ time - last < 2 ^ 32 - b.config.inactivityTimeoutMs.toNat) :
    Expired b (BitVec.ofNat 32 time) s.1 ↔
      s.1.state = .kActive ∧ b.config.inactivityTimeoutMs.toNat ≤ time - s.2 := by
  have elapsed (active : s.1.state = .kActive) :
      (BitVec.ofNat 32 time - s.1.lastActivityMs).toNat = time - s.2 := by
    obtain ⟨held,last,clocked,order,running⟩ := lease active
    obtain ⟨later,gap⟩ := next last clocked
    rw [held]
    exact elapsed_eq (by omega) (by omega)
  constructor
  · rintro ⟨active,-,late⟩
    refine ⟨active,?_⟩
    rw [← elapsed active]
    exact late
  · rintro ⟨active,late⟩
    refine ⟨active,limited,?_⟩
    rw [BitVec.le_def,elapsed active]
    exact late

/-- The schedule of a longer run. -/
theorem scheduled_append {timeout : U32} {before : List (TimedCall × Environment)} {c : TimedCall × Environment}
    (scheduled : Scheduled timeout (before ++ [c])) :
    Scheduled timeout before ∧ ∀ time ∈ c.1.time, ∀ last ∈ clock before,
      last ≤ time ∧ time - last < 2 ^ 32 - timeout.toNat := by
  rw [Scheduled,List.filterMap_append,List.isChain_append] at scheduled
  obtain ⟨past,-,gap⟩ := scheduled
  refine ⟨past,?_⟩
  intro time timed last clocked
  refine gap last clocked time ?_
  rw [Option.mem_def] at timed
  simp [timed]

theorem clock_append (before : List (TimedCall × Environment)) (c : TimedCall × Environment) :
    clock (before ++ [c]) = c.1.time.or (clock before) := by
  rw [clock,clock,List.filterMap_append,List.getLast?_append]
  cases timed : c.1.time with
  | none => simp [timed]
  | some time => simp [timed]

theorem runTimed_append (b : Build) (before : List (TimedCall × Environment)) (c : TimedCall × Environment) :
    runTimed b (before ++ [c]) = ((call b (runTimed b before).1 (c.1.presented,c.2)).1,
      renewed b (runTimed b before).1 (runTimed b before).2 c) := by
  rw [runTimed,List.foldl_append]
  rfl

theorem runTimed_window (b : Build) (calls : List (TimedCall × Environment))
    (active : (runTimed b calls).1.state = .kActive) : Window b (runTimed b calls).1 := by
  rw [runTimed_engine] at active ⊢
  obtain ⟨a,-,current⟩ := (run_lifecycle b _).live (.inl active)
  exact current.window

/-- What `fail` for inactivity leaves. -/
theorem expire_trace (env : Environment) (s : Engine) :
    ∃ datagrams, (∀ e ∈ datagrams, Datagram e) ∧
      (env.reentry (.onTransferFailed .kInactivityTimeout) = [] → datagrams = []) ∧
      invoke env (.onTransferFailed .kInactivityTimeout) (s.withState .kError) =
        (s.withState .kError).withTrace (s.trace ++ expiry :: datagrams) := by
  obtain ⟨datagrams,all,result⟩ := invoke_trace env (.onTransferFailed .kInactivityTimeout) (s.withState .kError)
  refine ⟨datagrams,all,?_,result⟩
  intro alone
  have traces := congrArg Engine.trace result
  simpa [invoke,alone,emit] using traces

section step
variable {b : Build} {s : Engine × Nat} {latest : Option Nat}

/-- A process call on schedule. -/
theorem process_lease (limited : b.config.inactivityTimeoutMs ≠ 0) (window : s.1.state = .kActive → Window b s.1)
    (lease : Lease b s latest) (message : Bytes) (time : Nat) (env : Environment)
    (next : ∀ last ∈ latest, last ≤ time ∧ time - last < 2 ^ 32 - b.config.inactivityTimeoutMs.toNat) :
    Lease b ((process b env message (BitVec.ofNat 32 time) s.1).1,renewed b s.1 s.2 (.process message time,env))
      (some time) := by
  have same := expired_iff limited lease next
  intro active
  by_cases expired : Expired b (BitVec.ofNat 32 time) s.1
  · obtain ⟨datagrams,-,-,result⟩ := expire_trace env s.1
    rw [process_expired expired,result] at active
    cases active
  have running : ¬ (s.1.state = .kActive ∧ b.config.inactivityTimeoutMs.toNat ≤ time - s.2) :=
    fun late => expired (same.mpr late)
  have leases : Leases b env message (BitVec.ofNat 32 time) s.1 (process b env message (BitVec.ofNat 32 time) s.1).1 :=
    process_leases window expired
  have leased := leases.activity active
  simp only [renewed,if_neg running]
  have positive : 0 < b.config.inactivityTimeoutMs.toNat :=
    Nat.pos_of_ne_zero (fun zero => limited (BitVec.eq_of_toNat_eq (by simpa using zero)))
  by_cases renews : Renews b env s.1 message
  · rw [if_pos renews] at leased ⊢
    exact ⟨leased,time,rfl,le_refl _,by omega⟩
  · rw [if_neg renews] at leased ⊢
    obtain ⟨before,kept⟩ := leased
    obtain ⟨held,last,clocked,order,-⟩ := lease before
    have later := (next last clocked).1
    have early : ¬ b.config.inactivityTimeoutMs.toNat ≤ time - s.2 := fun late => running ⟨before,late⟩
    exact ⟨kept.trans held,time,rfl,by omega,by omega⟩

theorem poll_lease (limited : b.config.inactivityTimeoutMs ≠ 0) (lease : Lease b s latest) (time : Nat)
    (env : Environment)
    (next : ∀ last ∈ latest, last ≤ time ∧ time - last < 2 ^ 32 - b.config.inactivityTimeoutMs.toNat) :
    Lease b ((poll b env (BitVec.ofNat 32 time) s.1).1,s.2) (some time) := by
  have same := expired_iff limited lease next
  intro active
  by_cases expired : Expired b (BitVec.ofNat 32 time) s.1
  · obtain ⟨datagrams,-,-,result⟩ := expire_trace env s.1
    rw [poll_expired expired,result] at active
    cases active
  rw [poll_live expired] at active ⊢
  obtain ⟨held,last,clocked,order,-⟩ := lease active
  have later := (next last clocked).1
  have early : ¬ b.config.inactivityTimeoutMs.toNat ≤ time - s.2 := fun late => expired (same.mpr ⟨active,late⟩)
  exact ⟨held,time,rfl,by simp only; omega,by simp only; omega⟩

end step

/-- Every scheduled run keeps the lease. -/
theorem runTimed_lease (b : Build) (limited : b.config.inactivityTimeoutMs ≠ 0) (calls : List (TimedCall × Environment))
    (scheduled : Scheduled b.config.inactivityTimeoutMs calls) : Lease b (runTimed b calls) (clock calls) := by
  induction calls using List.reverseRecOn with
  | nil => intro active; cases active
  | append_singleton before c ih =>
    obtain ⟨past,next⟩ := scheduled_append scheduled
    have lease := ih past
    rw [runTimed_append,clock_append]
    obtain ⟨timed,env⟩ := c
    cases timed with
    | process message time =>
      exact process_lease limited (runTimed_window b before) lease message time env (next time rfl)
    | poll time => exact poll_lease limited lease time env (next time rfl)
    | sendDatagram payload =>
      obtain ⟨sends,-,result⟩ := sendDatagram_trace env.sender payload (runTimed b before).1
      intro active
      simp only [call,TimedCall.presented,result] at active ⊢
      exact lease active
    | abort =>
      intro active
      obtain ⟨still,kept⟩ := (abort_held env (runTimed b before).1).activity active
      obtain ⟨held,running⟩ := lease still
      exact ⟨kept.trans held,running⟩

/-- Whether a call notified the expiry. One that did changed the state and the
    trace only, and sent nothing but the datagrams of the sink's own callback. -/
structure Expires (env : Environment) (s t : Engine) (runsOut : Prop) : Prop where
  notified : ∃ more, t.trace = s.trace ++ more ∧ (expiry ∈ more ↔ runsOut)
  alone : runsOut → ∃ datagrams, (∀ e ∈ datagrams, Datagram e) ∧
    (env.reentry (.onTransferFailed .kInactivityTimeout) = [] → datagrams = []) ∧
    t = (s.withState .kError).withTrace (s.trace ++ expiry :: datagrams)

theorem Expires.out {env : Environment} {s t : Engine} {runsOut : Prop} (out : runsOut)
    (result : t = invoke env (.onTransferFailed .kInactivityTimeout) (s.withState .kError)) : Expires env s t runsOut := by
  obtain ⟨datagrams,all,alone,after⟩ := expire_trace env s
  rw [result,after]
  refine ⟨⟨expiry :: datagrams,rfl,?_⟩,fun _ => ⟨datagrams,all,alone,rfl⟩⟩
  simp [out]

theorem Expires.not {env : Environment} {s t : Engine} {runsOut : Prop} (not : ¬ runsOut)
    (quiet : ∃ more, t.trace = s.trace ++ more ∧ expiry ∉ more) : Expires env s t runsOut := by
  obtain ⟨more,trace,without⟩ := quiet
  exact ⟨⟨more,trace,by simp [without,not]⟩,fun out => absurd out not⟩

/-- On every schedule an active transfer fails for inactivity at exactly the calls
    that read the clock at least the timeout after the latest renewing event, and
    a call at which it does so does nothing else. -/
theorem lease_expires_exactly (b : Build) (limited : b.config.inactivityTimeoutMs ≠ 0)
    (before : List (TimedCall × Environment)) (c : TimedCall) (env : Environment)
    (scheduled : Scheduled b.config.inactivityTimeoutMs (before ++ [(c,env)])) :
    let s := (runTimed b before).1
    let renewal := (runTimed b before).2
    Expires env s (call b s (c.presented,env)).1
      (s.state = .kActive ∧ ∃ time ∈ c.time, b.config.inactivityTimeoutMs.toNat ≤ time - renewal) := by
  intro s renewal
  obtain ⟨past,next⟩ := scheduled_append scheduled
  have lease := runTimed_lease b limited before past
  have expired {time : Nat} (timed : c.time = some time) : Expired b (BitVec.ofNat 32 time) s ↔
      (s.state = .kActive ∧ ∃ time ∈ c.time, b.config.inactivityTimeoutMs.toNat ≤ time - renewal) := by
    rw [expired_iff limited lease (next time timed),timed]
    simp [s,renewal]
  cases c with
  | process message time =>
    by_cases late : Expired b (BitVec.ofNat 32 time) s
    · exact .out ((expired rfl).mp late) (process_expired late)
    · have leases : Leases b env message (BitVec.ofNat 32 time) s (process b env message (BitVec.ofNat 32 time) s).1 :=
        process_leases (runTimed_window b before) late
      exact .not (fun out => late ((expired rfl).mpr out)) leases.quiet
  | poll time =>
    by_cases late : Expired b (BitVec.ofNat 32 time) s
    · exact .out ((expired rfl).mp late) (congrArg Prod.fst (poll_expired late))
    · refine .not (fun out => late ((expired rfl).mpr out)) ⟨[],?_,by simp⟩
      show (poll b env (BitVec.ofNat 32 time) s).1.trace = _
      rw [poll_live late,List.append_nil]
  | sendDatagram payload =>
    obtain ⟨sends,all,result⟩ := sendDatagram_trace env.sender payload s
    refine .not ?_ ⟨sends,congrArg Engine.trace result,datagram_held all⟩
    rintro ⟨-,time,timed,-⟩
    cases timed
  | abort =>
    refine .not ?_ (abort_held env s).quiet
    rintro ⟨-,time,timed,-⟩
    cases timed

/-- A transfer of a boot receiver begun 50 ms before the clock wraps, with a timeout
    of 100 ms: one ms early, and on time. -/
def acrossWrap : List (TimedCall × Environment) :=
  [(.process (setupBytes ⟨9,0,2,4,4⟩) (2 ^ 32 - 50),sinkWith .kFull),(.poll (2 ^ 32 + 49),sinkWith .kSent)]

theorem lease_expires_across_wrap :
    ((runTimed boot acrossWrap).1.state = .kActive) ∧
      (call boot (runTimed boot acrossWrap).1 (.poll 50,sinkWith .kSent)).1.state = .kError := by
  have active : (runTimed boot acrossWrap).1.state = .kActive := by decide
  obtain ⟨-,alone⟩ := lease_expires_exactly boot (by decide) acrossWrap (.poll (2 ^ 32 + 50)) (sinkWith .kSent) (by decide)
  obtain ⟨datagrams,-,-,result⟩ := alone ⟨active,2 ^ 32 + 50,rfl,by decide⟩
  exact ⟨active,congrArg Engine.state result⟩

end WireSpaces.ReceiverLease
