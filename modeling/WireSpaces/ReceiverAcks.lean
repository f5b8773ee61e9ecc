import WireSpaces.ReceiverLifecycle

/-!
What the ACKs of a receiver engine say: each encodes exactly the segments the
sink had accepted when it was sent, and no later ACK of the same admission takes
an acceptance or a grant back.
-/
namespace WireSpaces.ReceiverAcks
open WireSpaces.Words WireSpaces.Codec WireSpaces.ReceiverEngine WireSpaces.ReceiverSteps WireSpaces.ReceiverWindow
open WireSpaces.ReceiverLifecycle

/-- Position `k` of the trace is the sending of the ACK `pdu`. -/
def AckAt (events : List Event) (k : Nat) (pdu : Bytes) : Prop :=
  hasType pdu .kAck = true ∧ ∃ result, events[k]? = some (.send pdu result)

/-- Position `k` of the trace is an accepted `beginTransfer`. -/
def AdmissionAt (events : List Event) (k : Nat) : Prop :=
  ∃ info, events[k]? = some (.callback (.beginTransfer info .kAccepted))

/-- The ACK `pdu`, sent after `before`, shows the base `contiguous` and the end
    `granted` of the transfer `setup`, and with its bitmap exactly the indices
    accepted so far. -/
def Tells (b : Build) (setup : Setup) (before : List Event) (contiguous granted : Nat) (pdu : Bytes) : Prop :=
  ∃ bitmap : U16, pdu = ackOf setup contiguous granted bitmap ∧ contiguous ≤ granted ∧
    granted = min (setup.finalSegmentIndex.toNat + 1) (contiguous + b.config.receiveWindowWidth) ∧
    bitmap.getLsbD 0 = false ∧ (∀ j, granted - contiguous ≤ j → bitmap.getLsbD j = false) ∧
    ∀ i, Accepted setup before i ↔ i < contiguous ∨ contiguous ≤ i ∧ bitmap.getLsbD (i - contiguous) = true

/-- The ACKs sent so far, pairwise within one admission and against the present window. -/
structure Told (b : Build) (s : Engine) : Prop where
  pairs : ∀ k₁ k₂ pdu₁ pdu₂, k₁ ≤ k₂ → AckAt s.trace k₁ pdu₁ → AckAt s.trace k₂ pdu₂ →
    (∀ j, k₁ < j → j < k₂ → ¬ AdmissionAt s.trace j) →
    ∃ setup c₁ g₁ c₂ g₂, Tells b setup (s.trace.take k₁) c₁ g₁ pdu₁ ∧ Tells b setup (s.trace.take k₂) c₂ g₂ pdu₂ ∧
      c₁ ≤ c₂ ∧ g₁ ≤ g₂
  present : ∀ k pdu, AckAt s.trace k pdu → (∀ j, k < j → ¬ AdmissionAt s.trace j) →
    ∃ c g, Tells b s.setup (s.trace.take k) c g pdu ∧ c ≤ s.contiguousCount ∧ g ≤ s.grantedEnd

theorem told_init (b : Build) : Told b {} := by
  constructor <;> simp [AckAt]

section step
variable {b : Build}

/-! ### Positions of a longer trace -/

theorem ackAt_append {trace : List Event} {k : Nat} {pdu : Bytes} (more : List Event) (below : k < trace.length) :
    AckAt (trace ++ more) k pdu ↔ AckAt trace k pdu := by
  simp only [AckAt,List.getElem?_append_left below]

theorem admissionAt_append {trace : List Event} {k : Nat} (more : List Event) (found : AdmissionAt trace k) :
    AdmissionAt (trace ++ more) k := by
  obtain ⟨info,at_k⟩ := found
  exact ⟨info,by rw [List.getElem?_append_left (List.getElem?_eq_some_iff.mp at_k).1]; exact at_k⟩

/-- Events that are no ACK add no ACK position. -/
theorem ackAt_old {trace more : List Event} {k : Nat} {pdu : Bytes}
    (quiet : NoAck more) (sent : AckAt (trace ++ more) k pdu) :
    k < trace.length := by
  by_contra beyond
  obtain ⟨typed,result,at_k⟩ := sent
  rw [List.getElem?_append_right (by omega)] at at_k
  rw [quiet pdu result (List.mem_of_getElem? at_k)] at typed
  exact Bool.false_ne_true typed

/-! ### Steps -/

/-- A step that sends no ACK and keeps the transfer, its base and its grant. -/
theorem Told.keep {s t : Engine} (inv : Told b s) (more : List Event) (trace : t.trace = s.trace ++ more)
    (quiet : NoAck more) (setup : t.setup = s.setup)
    (contiguous : s.contiguousCount ≤ t.contiguousCount) (granted : s.grantedEnd ≤ t.grantedEnd) : Told b t := by
  refine ⟨?_,?_⟩
  · intro k₁ k₂ pdu₁ pdu₂ le first second none
    rw [trace] at first second none ⊢
    have below₁ := ackAt_old quiet first
    have below₂ := ackAt_old quiet second
    rw [List.take_append_of_le_length below₁.le,List.take_append_of_le_length below₂.le]
    exact inv.pairs k₁ k₂ pdu₁ pdu₂ le ((ackAt_append more below₁).mp first) ((ackAt_append more below₂).mp second)
      (fun j lower upper found => none j lower upper (admissionAt_append more found))
  · intro k pdu sent none
    rw [trace] at sent none ⊢
    have below := ackAt_old quiet sent
    obtain ⟨c,g,tells,cLe,gLe⟩ := inv.present k pdu ((ackAt_append more below).mp sent)
      (fun j lower found => none j lower (admissionAt_append more found))
    rw [List.take_append_of_le_length below.le,setup]
    exact ⟨c,g,tells,cLe.trans contiguous,gLe.trans granted⟩

/-- An admission starts a new account. -/
theorem Told.fresh {s t : Engine} (inv : Told b s) {info : TransferInfo} {datagrams : List Event}
    (trace : t.trace = s.trace ++ .callback (.beginTransfer info .kAccepted) :: datagrams)
    (inside : ∀ e ∈ datagrams, Datagram e) : Told b t := by
  have quiet : NoAck (.callback (.beginTransfer info .kAccepted) :: datagrams) := callback_quiet inside
  have kept : Told b (s.withTrace t.trace) := inv.keep _ trace quiet rfl (le_refl _) (le_refl _)
  refine ⟨kept.pairs,?_⟩
  intro k pdu sent none
  rw [trace] at sent none
  refine absurd ⟨info,?_⟩ (none s.trace.length (ackAt_old quiet sent))
  simp

/-- The ACK of the present window tells the truth. -/
theorem tells_now {s : Engine} {a : Admission} (latest : (admissions s.trace).head? = some a) (current : Current b s a)
    {storage pdu : Bytes} (size : storage.length = kAckSize) (encoded : encodedAck b s storage = some pdu) :
    Tells b s.setup s.trace s.contiguousCount s.grantedEnd pdu := by
  have window := current.window
  have count := window.count
  have contiguous := window.contiguous
  have granted := window.granted
  refine ⟨s.receiveBitmap,window.encodedAck_eq size encoded,by omega,by rw [granted,count],window.base_clear,window.span_clear,?_⟩
  intro i
  rw [show (i < s.contiguousCount ∨ s.contiguousCount ≤ i ∧ s.receiveBitmap.getLsbD (i - s.contiguousCount) = true) ↔
    Received s i from Iff.rfl,current.received i]
  constructor
  · rintro ⟨a',latest',member⟩
    rw [latest] at latest'
    cases latest'
    exact member
  · intro member
    exact ⟨a,latest,member⟩

/-- Sending the ACK of the present window. -/
theorem Told.send {s : Engine} (inv : Told b s) {a : Admission} (latest : (admissions s.trace).head? = some a)
    (current : Current b s a) {storage pdu : Bytes} (result : SendResult) (size : storage.length = kAckSize)
    (encoded : encodedAck b s storage = some pdu) : Told b (emit (.send pdu result) s) := by
  have tells := tells_now latest current size encoded
  have last {k : Nat} {pdu' : Bytes} (sent : AckAt (s.trace ++ [.send pdu result]) k pdu') (beyond : ¬ k < s.trace.length) :
      k = s.trace.length ∧ pdu' = pdu := by
    obtain ⟨-,result',at_k⟩ := sent
    rw [List.getElem?_append_right (by omega)] at at_k
    have zero := (List.getElem?_eq_some_iff.mp at_k).1
    simp only [List.length_singleton] at zero
    rw [show k - s.trace.length = 0 by omega] at at_k
    simp only [List.getElem?_cons_zero,Option.some.injEq,Event.send.injEq] at at_k
    exact ⟨by omega,at_k.1.symm⟩
  have take : (s.trace ++ [Event.send pdu result]).take s.trace.length = s.trace := by simp
  refine ⟨?_,?_⟩
  · intro k₁ k₂ pdu₁ pdu₂ le first second none
    simp only [emit,Engine.withTrace_trace] at first second none ⊢
    by_cases below₂ : k₂ < s.trace.length
    · have below₁ : k₁ < s.trace.length := by omega
      rw [List.take_append_of_le_length below₁.le,List.take_append_of_le_length below₂.le]
      exact inv.pairs k₁ k₂ pdu₁ pdu₂ le ((ackAt_append _ below₁).mp first) ((ackAt_append _ below₂).mp second)
        (fun j lower upper found => none j lower upper (admissionAt_append _ found))
    · obtain ⟨rfl,rfl⟩ := last second below₂
      by_cases below₁ : k₁ < s.trace.length
      · obtain ⟨c,g,tells₁,cLe,gLe⟩ := inv.present k₁ pdu₁ ((ackAt_append _ below₁).mp first) (by
          intro j lower found
          have upper : j < s.trace.length := by
            obtain ⟨info,at_j⟩ := found
            exact (List.getElem?_eq_some_iff.mp at_j).1
          exact none j lower upper (admissionAt_append _ found))
        rw [take,List.take_append_of_le_length below₁.le]
        exact ⟨s.setup,c,g,_,_,tells₁,tells,cLe,gLe⟩
      · obtain ⟨rfl,rfl⟩ := last first below₁
        rw [take]
        exact ⟨s.setup,_,_,_,_,tells,tells,le_refl _,le_refl _⟩
  · intro k pdu' sent none
    simp only [emit,Engine.withTrace_trace] at sent none ⊢
    by_cases below : k < s.trace.length
    · rw [List.take_append_of_le_length below.le]
      exact inv.present k pdu' ((ackAt_append _ below).mp sent)
        (fun j lower found => none j lower (admissionAt_append _ found))
    · obtain ⟨rfl,rfl⟩ := last sent below
      rw [take]
      exact ⟨_,_,tells,le_refl _,le_refl _⟩

theorem told_step {c : Call} {s t : Engine} (inv : Told b s) (life : Lifecycle b s) (step : Step b c s t) : Told b t := by
  cases step with
  | note activity sent => exact inv.keep [] (by simp) (by simp [NoAck]) rfl (le_refl _) (le_refl _)
  | @aside event beside =>
    exact inv.keep [event] rfl (aside_quiet beside) rfl (le_refl _) (le_refl _)
  | ack result live size encoded =>
    obtain ⟨a,latest,current⟩ := life.live live
    exact inv.send latest current result size encoded
  | @start message nowMs setup datagrams called typed decoded admissible idle inside =>
    exact inv.fresh (startReceiving_window admissible nowMs _).2.2.2 inside
  | @accept message nowMs index payload datagrams called fresh inside short =>
    obtain ⟨a,latest,current⟩ := life.live (.inl fresh.active)
    have adds := advanced_adds current.window fresh
    exact inv.keep _ rfl (callback_quiet inside) adds.setup adds.contiguous adds.granted
  | @complete message nowMs index payload datagrams after called fresh inside behind full =>
    obtain ⟨a,latest,current⟩ := life.live (.inl fresh.active)
    have adds := advanced_adds current.window fresh
    have accepted : Told b (s.withTrace (s.trace ++ .callback (.onSegment (objectOffset b s index) payload true) :: datagrams)) :=
      inv.keep _ rfl (callback_quiet inside) rfl (le_refl _) (le_refl _)
    exact accepted.keep _ rfl (callback_quiet behind) adds.setup adds.contiguous adds.granted
  | @refuse message nowMs index payload datagrams after called fresh inside behind =>
    have refused : Told b (s.withTrace (s.trace ++ .callback (.onSegment (objectOffset b s index) payload false) :: datagrams)) :=
      inv.keep _ rfl (callback_quiet inside) rfl (le_refl _) (le_refl _)
    exact refused.keep _ rfl (callback_quiet behind) rfl (le_refl _) (le_refl _)
  | finish ends active inside => exact inv.keep _ rfl (callback_quiet inside) rfl (le_refl _) (le_refl _)

theorem run_told (b : Build) (calls : List (Call × Environment)) : Told b (run b calls) := by
  suffices both : ∀ {c : Call} {s t : Engine}, Steps b c s t → Told b s ∧ Lifecycle b s → Told b t ∧ Lifecycle b t by
    have whole : Told b (run b calls) ∧ Lifecycle b (run b calls) := by
      induction calls using List.reverseRecOn with
      | nil => exact ⟨told_init b,lifecycle_init b⟩
      | append_singleton calls c ih =>
        rw [run,List.foldl_append]
        exact both (call_steps _ c) ih
    exact whole.1
  intro c s t steps inv
  induction steps with
  | refl => exact inv
  | tail _ step ih => exact ⟨told_step ih.1 ih.2 step,lifecycle_step ih.2 step⟩

end step

/-! ### Acceptance only grows within an admission -/

private theorem accepted_record {setup : Setup} {i : Nat} {as : List Admission} {event : Event}
    (other : ∀ info, event ≠ .callback (.beginTransfer info .kAccepted))
    (accepted : ∃ a, as.head? = some a ∧ i * setup.segmentSize.toNat ∈ a.acceptedOffsets) :
    ∃ a, (record as event).head? = some a ∧ i * setup.segmentSize.toNat ∈ a.acceptedOffsets := by
  obtain ⟨a,latest,member⟩ := accepted
  obtain ⟨earlier,rfl⟩ := List.head?_eq_some_iff.mp latest
  cases event with
  | send => exact ⟨a,rfl,member⟩
  | callback call =>
    cases call with
    | beginTransfer info answer =>
      cases answer with
      | kAccepted => exact absurd rfl (other info)
      | kBusy | kTooLarge | kRejected => exact ⟨a,rfl,member⟩
    | onSegment objectOffset payload accepted =>
      refine ⟨_,rfl,?_⟩
      simp only [Admission.acceptedOffsets,Admission.accepted,List.filter_append,List.map_append] at member ⊢
      exact List.mem_append_left _ member
    | onDatagram => exact ⟨a,rfl,member⟩
    | onTransferComplete | onTransferAborted | onTransferFailed => exact ⟨_,rfl,member⟩

theorem accepted_mono {setup : Setup} {i : Nat} (before between : List Event)
    (none : ∀ info, .callback (.beginTransfer info .kAccepted) ∉ between) (accepted : Accepted setup before i) :
    Accepted setup (before ++ between) i := by
  induction between using List.reverseRecOn with
  | nil => simpa using accepted
  | append_singleton between event ih =>
    have shorter := ih (fun info member => none info (List.mem_append_left _ member))
    rw [← List.append_assoc,Accepted,admissions_emit]
    exact accepted_record (fun info same => none info (by simp [same])) shorter

/-! ### The ACK of a call -/

/-- An ACK tells one base and one end. -/
theorem tells_unique {b : Build} {setup : Setup} {before : List Event} {c g c' g' : Nat} {pdu : Bytes}
    (left : Tells b setup before c g pdu) (right : Tells b setup before c' g' pdu) : c = c' ∧ g = g' := by
  obtain ⟨bitmap,-,-,granted,clear,-,accepted⟩ := left
  obtain ⟨bitmap',-,-,granted',clear',-,accepted'⟩ := right
  have base : ¬ Accepted setup before c := by
    rw [accepted,Nat.sub_self,clear]
    simp
  have base' : ¬ Accepted setup before c' := by
    rw [accepted',Nat.sub_self,clear']
    simp
  have same : c = c' := by
    rcases Nat.lt_trichotomy c c' with below | same | above
    · exact absurd ((accepted' c).mpr (.inl below)) base
    · exact same
    · exact absurd ((accepted c').mpr (.inl above)) base'
  exact ⟨same,by rw [granted,granted',same]⟩

/-- The ACK `pdu`, sent behind the events `before`, is that of the transfer the
    engine `s` holds: the session and the sequence numbers of its SETUP, its base,
    its granted end and its bitmap. -/
structure Shows (b : Build) (s : Engine) (before : List Event) (pdu : Bytes) : Prop where
  encodes : decodeAck pdu = some {
    sessionId := s.setup.sessionId
    windowBitmap := s.receiveBitmap
    maxReceiveSequence := s.setup.initialSequenceNumber + BitVec.ofNat 8 s.grantedEnd - 1
    windowBase := s.setup.initialSequenceNumber + BitVec.ofNat 8 s.contiguousCount - 1 }
  tells : Tells b s.setup before s.contiguousCount s.grantedEnd pdu

theorem decodeAck_ackOf (setup : Setup) (contiguous granted : Nat) (bitmap : U16) :
    decodeAck (ackOf setup contiguous granted bitmap) =
      some ⟨setup.sessionId,bitmap,setup.initialSequenceNumber + BitVec.ofNat 8 granted - 1,
        setup.initialSequenceNumber + BitVec.ofNat 8 contiguous - 1⟩ := by
  have typed : hasType (ackOf setup contiguous granted bitmap) .kAck = true := by
    simp [ackOf,ackBytes,hasType_encodeControl]
  rw [decodeAck,if_pos typed,ackOf,decodeAck_ackBytes]

section call
variable {b : Build}

/-- No event is an accepted `beginTransfer`. -/
def NoAdmission (events : List Event) : Prop := ∀ info, .callback (.beginTransfer info .kAccepted) ∉ events

theorem noAdmission_append {first second : List Event} (left : NoAdmission first) (right : NoAdmission second) :
    NoAdmission (first ++ second) :=
  fun info member => (List.mem_append.mp member).elim (left info) (right info)

theorem datagram_noAdmission {events : List Event} (all : ∀ e ∈ events, Datagram e) : NoAdmission events := by
  intro info member
  obtain ⟨payload,result,same⟩ := all _ member
  cases same

theorem callback_noAdmission {call : Callback} {datagrams : List Event}
    (other : ∀ info, call ≠ .beginTransfer info .kAccepted) (inside : ∀ e ∈ datagrams, Datagram e) :
    NoAdmission (.callback call :: datagrams) := by
  intro info member
  rcases List.mem_cons.mp member with same | datagram
  · exact other info (Event.callback.inj same).symm
  · exact datagram_noAdmission inside info datagram

/-- What failing adds to the trace. -/
theorem fail_ends (env : Environment) (reason : FailureReason) (s : Engine) :
    core (fail env reason s) = core s ∧
    ∃ more, (fail env reason s).trace = s.trace ++ more ∧ NoAck more ∧ NoAdmission more := by
  unfold fail
  by_cases active : s.state = .kActive
  · obtain ⟨datagrams,inside,result⟩ := invoke_trace env (.onTransferFailed reason) (s.withState .kError)
    rw [if_pos active,result]
    exact ⟨rfl,_,rfl,callback_quiet inside,callback_noAdmission (by simp) inside⟩
  · rw [if_neg active]
    exact ⟨rfl,[],by simp,by simp [NoAck],by simp [NoAdmission]⟩

/-- Sending the ACK keeps every field it shows; the ACK is the first event it adds. -/
theorem sendAck_ends (env : Environment) (s : Engine) :
    core (sendAck b env s).1 = core s ∧
    ∃ more, (sendAck b env s).1.trace = s.trace ++ more ∧ NoAdmission more ∧
      (NoAck more ∨ ∃ storage pdu result rest, storage.length = kAckSize ∧ encodedAck b s storage = some pdu ∧
        more = .send pdu result :: rest ∧ NoAck rest) := by
  by_cases size : (env.sender.prepare kAckSize).length = kAckSize
  · obtain ⟨pdu,encoded⟩ := encodedAck_some (b := b) s size
    have sent : sendAck b env s =
        (if (sendPrepared env pdu s).2 then (sendPrepared env pdu s).1 else fail env .kSendFailed (sendPrepared env pdu s).1,
          (sendPrepared env pdu s).2) := by
      unfold sendAck
      simp only [size,encoded,ne_eq,not_true_eq_false,if_false]
    rw [sent]
    by_cases taken : (sendPrepared env pdu s).2 = true
    · simp only [taken,if_true]
      exact ⟨rfl,_,rfl,by simp [NoAdmission],.inr ⟨_,pdu,_,[],size,encoded,rfl,by simp [NoAck]⟩⟩
    · simp only [taken]
      obtain ⟨same,more,trace,quiet,plain⟩ := fail_ends env .kSendFailed (sendPrepared env pdu s).1
      refine ⟨same,.send pdu (env.sender.sendPrepared pdu) :: more,?_,?_,.inr ⟨_,pdu,_,more,size,encoded,rfl,quiet⟩⟩
      · exact trace.trans (List.append_assoc _ _ _)
      · have alone : NoAdmission [.send pdu (env.sender.sendPrepared pdu)] := by simp [NoAdmission]
        exact noAdmission_append alone plain
  · have refused : sendAck b env s = (fail env .kSendFailed { s with lastSend := .kTooLarge },false) := by
      unfold sendAck
      simp only [size,ne_eq,not_false_eq_true,if_true]
    rw [refused]
    obtain ⟨same,more,trace,quiet,plain⟩ := fail_ends env .kSendFailed { s with lastSend := .kTooLarge }
    exact ⟨same,more,trace,plain,.inl quiet⟩

/-- Behind a quiet trace the only ACK of `.send pdu result :: rest` is its first event. -/
theorem ackAt_first {trace rest : List Event} {pdu pdu' : Bytes} {result : SendResult} {k : Nat} (quiet : NoAck rest)
    (behind : trace.length ≤ k) (sent : AckAt (trace ++ .send pdu result :: rest) k pdu') :
    k = trace.length ∧ pdu' = pdu := by
  obtain ⟨typed,result',at_k⟩ := sent
  rw [List.getElem?_append_right behind] at at_k
  rcases Nat.eq_zero_or_pos (k - trace.length) with here | later
  · rw [here,List.getElem?_cons_zero] at at_k
    cases at_k
    exact ⟨by omega,rfl⟩
  · rw [show k - trace.length = k - trace.length - 1 + 1 by omega,List.getElem?_cons_succ] at at_k
    rw [quiet pdu' result' (List.mem_of_getElem? at_k)] at typed
    exact absurd typed Bool.false_ne_true

/-- Where an admission is recorded, the trace holds one. -/
theorem admissionAt_of_head {trace : List Event} {a : Admission} (latest : (admissions trace).head? = some a) :
    ∃ j, AdmissionAt trace j := by
  by_contra none
  have plain : NoAdmission trace := by
    intro info member
    obtain ⟨j,at_j⟩ := List.mem_iff_getElem?.mp member
    exact none ⟨j,info,at_j⟩
  have empty : admissions trace = [] := by
    clear none latest
    induction trace using List.reverseRecOn with
    | nil => rfl
    | append_singleton trace event ih =>
      rw [admissions_emit,ih (fun info member => plain info (List.mem_append_left _ member))]
      unfold record
      split
      · exact absurd (List.mem_append_right _ List.mem_cons_self) (plain _)
      all_goals rfl
  rw [empty] at latest
  cases latest

/-- The ACK a call sends is that of the transfer the call leaves; its admission is
    in front of the ACK and none is behind it. -/
theorem call_shows {s : Engine} (life : Lifecycle b s) (c : Call × Environment) {k : Nat} {pdu : Bytes}
    (new : s.trace.length ≤ k) (sent : AckAt (call b s c).1.trace k pdu) :
    Shows b (call b s c).1 ((call b s c).1.trace.take k) pdu ∧ (∃ j, AdmissionAt (call b s c).1.trace j) ∧
      ∀ j, k < j → ¬ AdmissionAt (call b s c).1.trace j := by
  have closing := call_closing (b := b) s c
  generalize (call b s c).1 = u at closing sent ⊢
  cases closing with
  | quiet steps =>
    obtain ⟨more,trace,quiet⟩ := QuietSteps.trace steps
    rw [trace] at sent
    exact absurd (ackAt_old quiet sent) (by omega)
  | @acked t steps live =>
    obtain ⟨first,traceT,quietFirst⟩ := QuietSteps.trace steps
    obtain ⟨a,latest,current⟩ := (lifecycle_steps life (QuietSteps.steps steps)).live live
    obtain ⟨same,more,trace,plain,acks⟩ := sendAck_ends (b := b) c.2 t
    -- The ACK cannot be one of the events in front of `t`.
    have behind : t.trace.length ≤ k := by
      by_contra below
      have early : AckAt (s.trace ++ first) k pdu := by
        rw [← traceT]
        exact (ackAt_append more (by omega)).mp (trace ▸ sent)
      exact absurd (ackAt_old quietFirst early) (by omega)
    rcases acks with quiet | ⟨storage,pdu',result,rest,size,encoded,rfl,quiet⟩
    · rw [trace] at sent
      exact absurd (ackAt_old quiet sent) (by omega)
    rw [trace] at sent
    obtain ⟨rfl,rfl⟩ := ackAt_first quiet behind sent
    simp only [core,Prod.mk.injEq] at same
    obtain ⟨setup,-,contiguous,-,granted,bitmap⟩ := same
    have before : (sendAck b c.2 t).1.trace.take t.trace.length = t.trace := by rw [trace,List.take_left]
    refine ⟨⟨?_,?_⟩,?_,?_⟩
    · rw [current.window.encodedAck_eq size encoded,decodeAck_ackOf,setup,contiguous,granted,bitmap]
    · rw [before,setup,contiguous,granted]
      exact tells_now latest current size encoded
    · obtain ⟨j,admitted⟩ := admissionAt_of_head latest
      exact ⟨j,by rw [trace]; exact admissionAt_append _ admitted⟩
    · rintro j lower ⟨info,at_j⟩
      rw [trace,List.getElem?_append_right (by omega)] at at_j
      exact plain info (List.mem_of_getElem? at_j)

/-! ### The SETUP in force -/

/-- What a call does to the SETUP: kept with no admission, or that of the call's own message. -/
inductive Setups (c : Call) (s t : Engine) : Prop where
  | kept (more : List Event) (trace : t.trace = s.trace ++ more) (plain : NoAdmission more) (same : t.setup = s.setup)
  | taken {message : Bytes} {nowMs : U32} (first rest : List Event) (called : c = .process message nowMs)
      (decoded : decodeSetup message = some t.setup)
      (trace : t.trace = s.trace ++ first ++ .callback (.beginTransfer (transferInfo t.setup) .kAccepted) :: rest)
      (plain : NoAdmission rest)

theorem Setups.trace {c : Call} {s t : Engine} (setups : Setups c s t) : ∃ more, t.trace = s.trace ++ more := by
  cases setups with
  | kept _ trace _ _ => exact ⟨_,trace⟩
  | taken _ _ _ _ trace _ => exact ⟨_,trace.trans (List.append_assoc _ _ _)⟩

/-- A step that admits nothing keeps the account of the SETUP. -/
theorem Setups.keep {c : Call} {s t u : Engine} (setups : Setups c s t) (more : List Event) (trace : u.trace = t.trace ++ more)
    (plain : NoAdmission more) (same : u.setup = t.setup) : Setups c s u := by
  cases setups with
  | kept _ traceT plainT sameT =>
    exact .kept _ (by rw [trace,traceT,List.append_assoc]) (noAdmission_append plainT plain) (same.trans sameT)
  | @taken message nowMs first rest called decoded traceT plainT =>
    refine .taken first (rest ++ more) called (same ▸ decoded) ?_ (noAdmission_append plainT plain)
    rw [trace,traceT,same,List.append_assoc,List.cons_append]

theorem setups_step {c : Call} {s t u : Engine} (setups : Setups c s t) (step : Step b c t u) : Setups c s u := by
  cases step with
  | note activity sent => exact setups.keep [] (by simp) (by simp [NoAdmission]) rfl
  | @aside event beside =>
    refine setups.keep [event] rfl ?_ rfl
    intro info member
    rw [List.mem_singleton] at member
    subst member
    cases beside with
    | datagram datagram =>
      obtain ⟨_,_,same⟩ := datagram
      cases same
    | refused _ other => exact other rfl
  | ack result live size encoded => exact setups.keep [_] rfl (by simp [NoAdmission]) rfl
  | @start message nowMs setup datagrams called typed decoded admissible idle inside =>
    obtain ⟨-,same,-,trace⟩ := startReceiving_window admissible nowMs
      (t.withTrace (t.trace ++ .callback (.beginTransfer (transferInfo setup) .kAccepted) :: datagrams))
    obtain ⟨first,grown⟩ := setups.trace
    refine .taken first datagrams called ?_ ?_ (datagram_noAdmission inside)
    · rw [same,decodeSetup,if_pos typed,decoded]
    · rw [trace,same,← grown]
      rfl
  | @accept message nowMs index payload datagrams called fresh inside short =>
    exact setups.keep _ rfl (callback_noAdmission (by simp) inside) (advanced_setup index payload t)
  | @complete message nowMs index payload datagrams after called fresh inside behind full =>
    exact setups.keep _ (List.append_assoc _ _ _)
      (noAdmission_append (callback_noAdmission (by simp) inside) (callback_noAdmission (by simp) behind))
      (advanced_setup index payload t)
  | @refuse message nowMs index payload datagrams after called fresh inside behind =>
    exact setups.keep _ (List.append_assoc _ _ _)
      (noAdmission_append (callback_noAdmission (by simp) inside) (callback_noAdmission (by simp) behind)) rfl
  | finish ends active inside =>
    refine setups.keep _ rfl (callback_noAdmission ?_ inside) rfl
    cases ends <;> simp

theorem call_setups (s : Engine) (c : Call × Environment) : Setups c.1 s (call b s c).1 := by
  have start : Setups c.1 s s := .kept [] (by simp) (by simp [NoAdmission]) rfl
  have steps := call_steps (b := b) s c
  generalize (call b s c).1 = t at steps ⊢
  induction steps with
  | refl => exact start
  | tail _ step ih => exact setups_step ih step

end call

/-! ### Runs -/

/-- Event `k` of the run was added by call `n`. -/
structure AddedBy (b : Build) (calls : List (Call × Environment)) (k n : Nat) : Prop where
  begins : (run b (calls.take n)).trace.length ≤ k
  ends : k < (run b (calls.take (n + 1))).trace.length

/-- The transfer in force at position `k` of the run: the latest admission before it
    was made by a call with a SETUP PDU that decodes to `setup`, for that SETUP. -/
def InForce (b : Build) (calls : List (Call × Environment)) (k : Nat) (setup : Setup) : Prop :=
  ∃ j n message nowMs env, j < k ∧ AddedBy b calls j n ∧ calls[n]? = some (.process message nowMs,env) ∧
    decodeSetup message = some setup ∧
    (run b calls).trace[j]? = some (.callback (.beginTransfer (transferInfo setup) .kAccepted)) ∧
    ∀ i, j < i → i < k → ¬ AdmissionAt (run b calls).trace i

section runs
variable {b : Build} {calls : List (Call × Environment)}

theorem run_snoc (calls : List (Call × Environment)) (c : Call × Environment) :
    run b (calls ++ [c]) = (call b (run b calls) c).1 := by
  rw [run,List.foldl_append]
  rfl

theorem run_take_succ {n : Nat} {c : Call × Environment} (at_n : calls[n]? = some c) :
    run b (calls.take (n + 1)) = (call b (run b (calls.take n)) c).1 := by
  rw [List.take_add_one,at_n]
  exact run_snoc _ _

theorem run_grows (calls more : List (Call × Environment)) : (run b calls).trace <+: (run b (calls ++ more)).trace := by
  induction more using List.reverseRecOn with
  | nil => rw [List.append_nil]
  | append_singleton more c ih =>
    rw [← List.append_assoc,run_snoc]
    obtain ⟨added,trace⟩ := (call_setups (b := b) (run b (calls ++ more)) c).trace
    exact ih.trans ⟨added,trace.symm⟩

theorem take_grows {m n : Nat} (le : m ≤ n) : (run b (calls.take m)).trace <+: (run b (calls.take n)).trace := by
  have split : calls.take n = calls.take m ++ (calls.take n).drop m := by
    conv_lhs => rw [← List.take_append_drop m (calls.take n),List.take_take,Nat.min_eq_left le]
  rw [split]
  exact run_grows _ _

theorem take_prefix (calls : List (Call × Environment)) (n : Nat) : (run b (calls.take n)).trace <+: (run b calls).trace := by
  have whole := run_grows (b := b) (calls.take n) (calls.drop n)
  rwa [List.take_append_drop] at whole

theorem AddedBy.not_later {k m n : Nat} (left : AddedBy b calls k m) (right : AddedBy b calls k n) : ¬ m < n := by
  intro below
  have grows : (run b (calls.take (m + 1))).trace <+: (run b (calls.take n)).trace := take_grows below
  have shorter := grows.length_le
  have ends := left.ends
  have begins := right.begins
  omega

theorem AddedBy.unique {k m n : Nat} (left : AddedBy b calls k m) (right : AddedBy b calls k n) : m = n := by
  have le := left.not_later right
  have ge := right.not_later left
  omega

/-- A longer run adds its old events with the same calls. -/
theorem AddedBy.snoc {k n : Nat} (added : AddedBy b calls k n) (below : n < calls.length) (c : Call × Environment) :
    AddedBy b (calls ++ [c]) k n := by
  refine ⟨?_,?_⟩
  · rw [List.take_append_of_le_length (by omega)]
    exact added.begins
  · rw [List.take_append_of_le_length (by omega)]
    exact added.ends

/-- Every event was added by some call. -/
theorem exists_addedBy {k : Nat} (inside : k < (run b calls).trace.length) :
    ∃ n c, calls[n]? = some c ∧ AddedBy b calls k n := by
  induction calls using List.reverseRecOn with
  | nil => cases inside
  | append_singleton calls c ih =>
    by_cases old : k < (run b calls).trace.length
    · obtain ⟨n,c',at_n,added⟩ := ih old
      have below := (List.getElem?_eq_some_iff.mp at_n).1
      exact ⟨n,c',by rw [List.getElem?_append_left below]; exact at_n,added.snoc below c⟩
    · refine ⟨calls.length,c,by simp,?_,?_⟩
      · rw [List.take_left]
        omega
      · rwa [List.take_of_length_le (by simp)]

/-- Where a run has an admission, its latest one was for the SETUP the engine holds. -/
theorem run_inForce (admitted : ∃ j, AdmissionAt (run b calls).trace j) :
    InForce b calls (run b calls).trace.length (run b calls).setup := by
  induction calls using List.reverseRecOn with
  | nil =>
    obtain ⟨j,info,at_j⟩ := admitted
    cases at_j
  | append_singleton calls c ih =>
    have setups := call_setups (b := b) (run b calls) c
    rw [← run_snoc] at setups
    cases setups with
    | kept more trace plain same =>
      -- The latest admission is an old one.
      have older {i : Nat} (found : AdmissionAt (run b (calls ++ [c])).trace i) : AdmissionAt (run b calls).trace i := by
        obtain ⟨info,at_i⟩ := found
        rw [trace] at at_i
        by_cases inside : i < (run b calls).trace.length
        · exact ⟨info,by rwa [List.getElem?_append_left inside] at at_i⟩
        · rw [List.getElem?_append_right (by omega)] at at_i
          exact absurd (List.mem_of_getElem? at_i) (plain info)
      obtain ⟨i,found⟩ := admitted
      obtain ⟨j,n,message,nowMs,env,inside,added,at_n,decoded,at_j,latest⟩ := ih ⟨i,older found⟩
      have below := (List.getElem?_eq_some_iff.mp at_n).1
      refine ⟨j,n,message,nowMs,env,?_,added.snoc below c,?_,?_,?_,?_⟩
      · rw [trace,List.length_append]
        omega
      · rwa [List.getElem?_append_left below]
      · rwa [same]
      · rw [trace,same]
        rwa [List.getElem?_append_left inside]
      · intro i lower _ found
        have old := older found
        refine latest i lower ?_ old
        obtain ⟨_,at_i⟩ := old
        exact (List.getElem?_eq_some_iff.mp at_i).1
    | @taken message nowMs first rest called decoded trace plain =>
      obtain ⟨c,env⟩ := c
      cases called
      have here : (run b calls).trace.length + first.length < (run b (calls ++ [(.process message nowMs,env)])).trace.length := by
        rw [trace]
        simp
      refine ⟨(run b calls).trace.length + first.length,calls.length,message,nowMs,env,here,⟨?_,?_⟩,by simp,decoded,?_,?_⟩
      · rw [List.take_left]
        omega
      · rwa [List.take_of_length_le (by simp)]
      · rw [trace,← List.length_append,List.getElem?_append_right (le_refl _),Nat.sub_self]
        rfl
      · rintro i lower - ⟨info,at_i⟩
        rw [trace,List.getElem?_append_right (by simp; omega)] at at_i
        rw [show i - ((run b calls).trace ++ first).length = i - ((run b calls).trace ++ first).length - 1 + 1 by simp; omega,
          List.getElem?_cons_succ] at at_i
        exact plain info (List.mem_of_getElem? at_i)

theorem ackAt_not_admission {trace : List Event} {k : Nat} {pdu : Bytes} (sent : AckAt trace k pdu) : ¬ AdmissionAt trace k := by
  rintro ⟨info,at_k⟩
  obtain ⟨-,result,sent⟩ := sent
  rw [sent] at at_k
  cases at_k

/-- At one position one transfer is in force. -/
theorem InForce.unique {k : Nat} {setup setup' : Setup} (left : InForce b calls k setup) (right : InForce b calls k setup') :
    setup = setup' := by
  obtain ⟨j,n,message,nowMs,env,inside,added,at_n,decoded,at_j,latest⟩ := left
  obtain ⟨j',n',message',nowMs',env',inside',added',at_n',decoded',at_j',latest'⟩ := right
  have place : j = j' := by
    rcases Nat.lt_trichotomy j j' with below | same | above
    · exact absurd ⟨_,at_j'⟩ (latest j' below inside')
    · exact same
    · exact absurd ⟨_,at_j⟩ (latest' j above inside)
  subst place
  rw [added.unique added',at_n'] at at_n
  cases at_n
  rw [decoded'] at decoded
  exact (Option.some.inj decoded).symm

/-- A transfer stays in force while nothing is admitted. -/
theorem InForce.later {k₁ k₂ : Nat} {setup : Setup} (force : InForce b calls k₁ setup) (le : k₁ ≤ k₂)
    (none : ∀ j, k₁ ≤ j → j < k₂ → ¬ AdmissionAt (run b calls).trace j) : InForce b calls k₂ setup := by
  obtain ⟨j,n,message,nowMs,env,inside,added,at_n,decoded,at_j,latest⟩ := force
  refine ⟨j,n,message,nowMs,env,by omega,added,at_n,decoded,at_j,?_⟩
  intro i lower upper
  by_cases before : i < k₁
  · exact latest i lower before
  · exact none i (by omega) upper

/-- Every ACK of a run is that of the transfer in force, as the call that sent it left the transfer. -/
theorem run_shows {k : Nat} {pdu : Bytes} (sent : AckAt (run b calls).trace k pdu) :
    ∃ n, AddedBy b calls k n ∧ Shows b (run b (calls.take (n + 1))) ((run b calls).trace.take k) pdu ∧
      InForce b calls k (run b (calls.take (n + 1))).setup := by
  have inside : k < (run b calls).trace.length := by
    obtain ⟨-,result,at_k⟩ := sent
    exact (List.getElem?_eq_some_iff.mp at_k).1
  obtain ⟨n,c,at_n,added⟩ := exists_addedBy inside
  refine ⟨n,added,?_⟩
  obtain ⟨rest,whole⟩ := take_prefix (b := b) calls (n + 1)
  have early : AckAt (run b (calls.take (n + 1))).trace k pdu := (ackAt_append rest added.ends).mp (whole ▸ sent)
  have call := run_take_succ (b := b) at_n
  obtain ⟨shows,admitted,behind⟩ := call_shows (run_lifecycle b (calls.take n)) c added.begins (call ▸ early)
  rw [← call] at shows admitted behind
  rw [← whole,List.take_append_of_le_length added.ends.le]
  refine ⟨shows,?_⟩
  obtain ⟨j,m,message,nowMs,env,known,addedJ,at_m,decoded,at_j,latest⟩ := run_inForce admitted
  rw [List.getElem?_take] at at_m
  split at at_m
  · rename_i below
    have front : j < k := by
      rcases Nat.lt_trichotomy j k with lower | same | upper
      · exact lower
      · exact absurd ⟨_,same ▸ at_j⟩ (ackAt_not_admission early)
      · exact absurd ⟨_,at_j⟩ (behind j upper)
    refine ⟨j,m,message,nowMs,env,front,⟨?_,?_⟩,at_m,decoded,?_,?_⟩
    · have begins := addedJ.begins
      rwa [List.take_take,Nat.min_eq_left below.le] at begins
    · have ends := addedJ.ends
      rwa [List.take_take,Nat.min_eq_left below] at ends
    · rw [← whole,List.getElem?_append_left known]
      exact at_j
    · rintro i lower upper ⟨info,at_i⟩
      have within := upper.trans added.ends
      rw [← whole,List.getElem?_append_left within] at at_i
      exact latest i lower within ⟨info,at_i⟩
  · cases at_m

/-- What an ACK told is below what the transfer in force holds at any later ACK. -/
theorem run_keeps {k₁ k₂ n c g : Nat} {pdu₁ pdu₂ : Bytes} {setup : Setup} (first : AckAt (run b calls).trace k₁ pdu₁)
    (second : AckAt (run b calls).trace k₂ pdu₂) (le : k₁ ≤ k₂) (added : AddedBy b calls k₂ n)
    (none : ∀ j, k₁ ≤ j → j < k₂ → ¬ AdmissionAt (run b calls).trace j)
    (same : setup = (run b (calls.take (n + 1))).setup) (tells : Tells b setup ((run b calls).trace.take k₁) c g pdu₁) :
    c ≤ (run b (calls.take (n + 1))).contiguousCount ∧ g ≤ (run b (calls.take (n + 1))).grantedEnd := by
  obtain ⟨rest,whole⟩ := take_prefix (b := b) calls (n + 1)
  have ends := added.ends
  have early := (ackAt_append rest (by omega)).mp (whole ▸ first)
  have last := (ackAt_append rest ends).mp (whole ▸ second)
  have sender : ∃ x, calls[n]? = some x := by
    obtain ⟨m,x,at_m,addedM⟩ := exists_addedBy  (k := k₂) (by rw [← whole,List.length_append]; omega)
    exact ⟨x,addedM.unique added ▸ at_m⟩
  obtain ⟨x,at_n⟩ := sender
  have call := run_take_succ (b := b) at_n
  obtain ⟨-,-,behind⟩ := call_shows (run_lifecycle b (calls.take n)) x added.begins (call ▸ last)
  rw [← call] at behind
  obtain ⟨c',g',tells',cLe,gLe⟩ := (run_told b (calls.take (n + 1))).present k₁ pdu₁ early (by
    intro j lower found
    rcases Nat.lt_trichotomy j k₂ with before | here | after
    · obtain ⟨info,at_j⟩ := found
      exact none j lower.le before ⟨info,by rw [← whole,List.getElem?_append_left (by omega)]; exact at_j⟩
    · exact ackAt_not_admission last (here ▸ found)
    · exact behind j after found)
  rw [← same] at tells'
  rw [← whole,List.take_append_of_le_length (by omega)] at tells
  obtain ⟨rfl,rfl⟩ := tells_unique tells tells'
  exact ⟨cLe,gLe⟩

end runs

/-- In every reachable active or completed state the window is exact. Every ACK of
    the run was sent by one of its calls: it shows the session, the sequence numbers,
    the base, the granted end and the bitmap of the transfer that call leaves, the one
    in force, and tells exactly the accepted indices and the permitted range. Of two
    ACKs with no admission between them the later takes nothing back. -/
theorem window_exact_and_acks_truthful (b : Build) (calls : List (Call × Environment)) :
    let s := run b calls
    (s.state = .kActive ∨ s.state = .kCompleted →
      s.contiguousCount ≤ s.grantedEnd ∧
      s.grantedEnd = min s.segmentCount (s.contiguousCount + b.config.receiveWindowWidth) ∧
      (∀ j, s.receiveBitmap.getLsbD j = true ↔ Accepted s.setup s.trace (s.contiguousCount + j)) ∧
      s.receiveBitmap.getLsbD 0 = false ∧
      ∀ j, s.grantedEnd - s.contiguousCount ≤ j → s.receiveBitmap.getLsbD j = false) ∧
    (∀ k pdu, AckAt s.trace k pdu → ∃ n, AddedBy b calls k n ∧
      Shows b (run b (calls.take (n + 1))) (s.trace.take k) pdu ∧ InForce b calls k (run b (calls.take (n + 1))).setup) ∧
    ∀ k₁ k₂ pdu₁ pdu₂ n₁ n₂, k₁ ≤ k₂ → AckAt s.trace k₁ pdu₁ → AckAt s.trace k₂ pdu₂ →
      AddedBy b calls k₁ n₁ → AddedBy b calls k₂ n₂ → (∀ j, k₁ < j → j < k₂ → ¬ AdmissionAt s.trace j) →
      let e₁ := run b (calls.take (n₁ + 1))
      let e₂ := run b (calls.take (n₂ + 1))
      e₁.setup = e₂.setup ∧ e₁.contiguousCount ≤ e₂.contiguousCount ∧ e₁.grantedEnd ≤ e₂.grantedEnd ∧
        ∀ i, Accepted e₁.setup (s.trace.take k₁) i → Accepted e₂.setup (s.trace.take k₂) i := by
  have life := run_lifecycle b calls
  intro s
  change Lifecycle b s at life
  refine ⟨?_,fun k pdu sent => run_shows sent,?_⟩
  · intro live
    obtain ⟨a,latest,current⟩ := life.live live
    have window := current.window
    have contiguous := window.contiguous
    have granted := window.granted
    refine ⟨by omega,granted,?_,window.base_clear,window.span_clear⟩
    intro j
    have accepted : Accepted s.setup s.trace (s.contiguousCount + j) ↔ Received s (s.contiguousCount + j) := by
      rw [current.received]
      constructor
      · rintro ⟨a',latest',member⟩
        rw [latest] at latest'
        cases latest'
        exact member
      · intro member
        exact ⟨a,latest,member⟩
    rw [accepted]
    simp [Received]
  · intro k₁ k₂ pdu₁ pdu₂ n₁ n₂ le first second added₁ added₂ none e₁ e₂
    obtain ⟨m₁,by₁,shows₁,force₁⟩ := run_shows first
    obtain ⟨m₂,by₂,shows₂,force₂⟩ := run_shows second
    cases by₁.unique added₁
    cases by₂.unique added₂
    have plain : ∀ j, k₁ ≤ j → j < k₂ → ¬ AdmissionAt s.trace j := by
      intro j lower upper
      rcases Nat.eq_or_lt_of_le lower with rfl | above
      · exact ackAt_not_admission first
      · exact none j above upper
    have setup : e₁.setup = e₂.setup := (force₁.later le plain).unique force₂
    obtain ⟨baseLe,grantLe⟩ := run_keeps first second le added₂ plain setup shows₁.tells
    refine ⟨setup,baseLe,grantLe,?_⟩
    intro i accepted
    rw [← setup]
    have between : s.trace.take k₂ = s.trace.take k₁ ++ (s.trace.drop k₁).take (k₂ - k₁) := by
      rw [← List.take_add,Nat.add_sub_cancel' le]
    rw [between]
    refine accepted_mono _ _ ?_ accepted
    intro info member
    obtain ⟨j,at_j⟩ := List.mem_iff_getElem?.mp member
    rw [List.getElem?_take] at at_j
    split at at_j
    · rename_i within
      rw [List.getElem?_drop] at at_j
      exact plain (k₁ + j) (by omega) (by omega) ⟨info,at_j⟩
    · cases at_j

/-- An engine with a window of three segments. -/
def threeWide : Build := construct 16 sixteen_pos sixteen_le ⟨64,3,1024,0⟩

/-- Four one-byte segments from sequence number 254 on; the second comes first. -/
def reordered : List (Call × Environment) :=
  [(.process (setupBytes ⟨9,254,3,1,1⟩) 0,sinkWith .kSent),(.process (segmentHeaderBytes ⟨9,1⟩ ++ [0x42]) 1,sinkWith .kSent),
    (.process (segmentHeaderBytes ⟨9,0⟩ ++ [0x41]) 2,sinkWith .kSent)]

/-- The ACK behind the gap shows the second segment; the ACK that closes the gap
    shows base 255 and, behind the wrap, maximum 1, and withdraws nothing. -/
theorem reordered_acks_truthful :
    AckAt (run threeWide reordered).trace 3 (ackBytes ⟨9,2,0,253⟩) ∧ AckAt (run threeWide reordered).trace 5 (ackBytes ⟨9,0,1,255⟩) ∧
    (∃ n, AddedBy threeWide reordered 5 n ∧ InForce threeWide reordered 5 (run threeWide (reordered.take (n + 1))).setup) ∧
    (run threeWide (reordered.take 2)).grantedEnd ≤ (run threeWide (reordered.take 3)).grantedEnd := by
  have first : AckAt (run threeWide reordered).trace 3 (ackBytes ⟨9,2,0,253⟩) := ⟨by decide,.kSent,by decide⟩
  have second : AckAt (run threeWide reordered).trace 5 (ackBytes ⟨9,0,1,255⟩) := ⟨by decide,.kSent,by decide⟩
  have none : ∀ j, 3 < j → j < 5 → ¬ AdmissionAt (run threeWide reordered).trace j := by
    rintro j lower upper ⟨info,at_j⟩
    obtain rfl : j = 4 := by omega
    rw [show (run threeWide reordered).trace[4]? = some (.callback (.onSegment 0 [0x41] true)) by decide] at at_j
    cases at_j
  obtain ⟨n,added,-,force⟩ := (window_exact_and_acks_truthful threeWide reordered).2.1 5 _ second
  obtain ⟨-,-,granted,-⟩ := (window_exact_and_acks_truthful threeWide reordered).2.2 3 5 _ _ 1 2 (by decide) first second
    ⟨by decide,by decide⟩ ⟨by decide,by decide⟩ none
  exact ⟨first,second,⟨n,added,force⟩,granted⟩

end WireSpaces.ReceiverAcks
