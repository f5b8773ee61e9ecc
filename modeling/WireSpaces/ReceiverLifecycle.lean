import WireSpaces.ReceiverWindow

/-!
The callback trace of a receiver engine as a list of admissions, and the
invariant that ties the latest admission to the engine's window.
-/
namespace WireSpaces.ReceiverLifecycle
open WireSpaces.Words WireSpaces.Codec WireSpaces.ReceiverEngine WireSpaces.ReceiverSteps WireSpaces.ReceiverWindow

/-! ### Admissions -/

/-- One `onSegment` call with the sink's answer. -/
structure SegmentCall where
  objectOffset : Nat
  payload : Bytes
  accepted : Bool
  deriving Repr, DecidableEq

inductive Outcome where
  | completed
  | aborted (reason : AbortReason)
  | failed (reason : FailureReason)
  deriving Repr, DecidableEq

def Outcome.callback : Outcome → Callback
  | .completed => .onTransferComplete
  | .aborted reason => .onTransferAborted reason
  | .failed reason => .onTransferFailed reason

/-- An accepted `beginTransfer` with the segment calls and the terminal callbacks that follow it. -/
structure Admission where
  info : TransferInfo
  segments : List SegmentCall
  endings : List Outcome
  deriving Repr, DecidableEq

/-- The callbacks of an admission, in the order a well-behaved engine makes them. -/
def Admission.callbacks (a : Admission) : List Callback :=
  .beginTransfer a.info .kAccepted ::
    (a.segments.map (fun call => .onSegment call.objectOffset call.payload call.accepted) ++ a.endings.map Outcome.callback)

def Admission.accepted (a : Admission) : List SegmentCall := a.segments.filter (·.accepted)
def Admission.acceptedOffsets (a : Admission) : List Nat := a.accepted.map (·.objectOffset)

def changeLatest (change : Admission → Admission) : List Admission → List Admission
  | [] => []
  | latest :: earlier => change latest :: earlier

/-- Admissions so far, latest first, after one more event. -/
def record (admissions : List Admission) : Event → List Admission
  | .callback (.beginTransfer info .kAccepted) => ⟨info,[],[]⟩ :: admissions
  | .callback (.onSegment objectOffset payload accepted) =>
    changeLatest (fun a => { a with segments := a.segments ++ [⟨objectOffset,payload,accepted⟩] }) admissions
  | .callback .onTransferComplete => changeLatest (fun a => { a with endings := a.endings ++ [.completed] }) admissions
  | .callback (.onTransferAborted reason) =>
    changeLatest (fun a => { a with endings := a.endings ++ [.aborted reason] }) admissions
  | .callback (.onTransferFailed reason) =>
    changeLatest (fun a => { a with endings := a.endings ++ [.failed reason] }) admissions
  | _ => admissions

/-- The admissions of a trace, latest first. -/
def admissions (trace : List Event) : List Admission := trace.foldl record []

/-- The callbacks that concern a transfer: all but `onDatagram` and a refused `beginTransfer`. -/
def transferCallback : Event → Option Callback
  | .callback (.beginTransfer info .kAccepted) => some (.beginTransfer info .kAccepted)
  | .callback (.beginTransfer _ _) => none
  | .callback (.onDatagram _) => none
  | .callback call => some call
  | .send _ _ => none

def transferCallbacks (trace : List Event) : List Callback := trace.filterMap transferCallback

/-- The sink calls of an admission follow the transfer's geometry, accept every
    index at most once, and completion is reported exactly when all were accepted. -/
structure Delivers (setup : Setup) (a : Admission) : Prop where
  info : a.info = transferInfo setup
  segment : 0 < setup.segmentSize.toNat
  final : 0 < setup.finalSegmentSize.toNat ∧ setup.finalSegmentSize.toNat ≤ setup.segmentSize.toNat
  calls : ∀ call ∈ a.segments, ∃ index ≤ setup.finalSegmentIndex.toNat,
    call.objectOffset = index * setup.segmentSize.toNat ∧
      call.payload.length =
        if index = setup.finalSegmentIndex.toNat then setup.finalSegmentSize.toNat else setup.segmentSize.toNat
  once : a.acceptedOffsets.Nodup
  complete : .completed ∈ a.endings ↔
    ∀ index ≤ setup.finalSegmentIndex.toNat, index * setup.segmentSize.toNat ∈ a.acceptedOffsets

/-! ### Reading the trace -/

theorem admissions_append (trace more : List Event) : admissions (trace ++ more) = more.foldl record (admissions trace) := by
  simp [admissions]

@[simp] theorem admissions_emit (trace : List Event) (event : Event) :
    admissions (trace ++ [event]) = record (admissions trace) event := by
  simp [admissions_append]

theorem record_datagram {event : Event} (datagram : Datagram event) (as : List Admission) : record as event = as := by
  obtain ⟨payload,result,rfl⟩ := datagram
  rfl

theorem record_aside {event : Event} (beside : Aside event) (as : List Admission) : record as event = as := by
  cases beside with
  | datagram datagram => exact record_datagram datagram as
  | reject => rfl
  | abort => rfl
  | onDatagram => rfl
  | @refused info answer other => cases answer <;> first | rfl | exact absurd rfl other

theorem transferCallback_aside {event : Event} (beside : Aside event) : transferCallback event = none := by
  cases beside with
  | datagram datagram => obtain ⟨payload,result,rfl⟩ := datagram; rfl
  | reject => rfl
  | abort => rfl
  | onDatagram => rfl
  | @refused info answer other => cases answer <;> first | rfl | exact absurd rfl other

theorem foldl_record_datagrams {datagrams : List Event} (inside : ∀ e ∈ datagrams, Datagram e) (as : List Admission) :
    datagrams.foldl record as = as := by
  induction datagrams generalizing as with
  | nil => rfl
  | cons first rest ih =>
    rw [List.foldl_cons,record_datagram (inside first List.mem_cons_self)]
    exact ih (fun e member => inside e (List.mem_cons_of_mem _ member)) as

theorem transferCallbacks_datagrams {datagrams : List Event} (inside : ∀ e ∈ datagrams, Datagram e) :
    datagrams.filterMap transferCallback = [] := by
  rw [List.filterMap_eq_nil_iff]
  exact fun e member => transferCallback_aside (.datagram (inside e member))

/-- A callback and the datagrams sent inside it count as the callback alone. -/
theorem admissions_callback (trace : List Event) (event : Event) {datagrams : List Event}
    (inside : ∀ e ∈ datagrams, Datagram e) :
    admissions (trace ++ event :: datagrams) = record (admissions trace) event := by
  rw [admissions_append,List.foldl_cons,foldl_record_datagrams inside]

theorem transferCallbacks_callback (trace : List Event) (event : Event) {datagrams : List Event}
    (inside : ∀ e ∈ datagrams, Datagram e) :
    transferCallbacks (trace ++ event :: datagrams) = transferCallbacks trace ++ (transferCallback event).toList := by
  rw [transferCallbacks,transferCallbacks,List.filterMap_append,List.filterMap_cons,transferCallbacks_datagrams inside]
  cases transferCallback event <;> rfl

/-! ### The invariant -/

/-- Segment `index` was accepted in the latest admission of the trace. -/
def Accepted (setup : Setup) (trace : List Event) (index : Nat) : Prop :=
  ∃ a, (admissions trace).head? = some a ∧ index * setup.segmentSize.toNat ∈ a.acceptedOffsets

/-- The latest admission while its transfer is active or completed. -/
structure Current (b : Build) (s : Engine) (a : Admission) : Prop where
  window : Window b s
  delivers : Delivers s.setup a
  received : ∀ index, Received s index ↔ index * s.setup.segmentSize.toNat ∈ a.acceptedOffsets
  active : s.state = .kActive → a.endings = [] ∧ s.contiguousCount < s.segmentCount
  completed : s.state = .kCompleted → s.contiguousCount = s.segmentCount

/-- The trace splits into admissions; all but a running one have ended once. -/
structure Lifecycle (b : Build) (s : Engine) : Prop where
  split : transferCallbacks s.trace = (admissions s.trace).reverse.flatMap Admission.callbacks
  delivers : ∀ a ∈ admissions s.trace, ∃ setup, Delivers setup a
  earlier : ∀ a ∈ (admissions s.trace).tail, ∃ outcome, a.endings = [outcome]
  closed : s.state ≠ .kActive → ∀ a, (admissions s.trace).head? = some a → ∃ outcome, a.endings = [outcome]
  live : s.state = .kActive ∨ s.state = .kCompleted → ∃ a, (admissions s.trace).head? = some a ∧ Current b s a

theorem lifecycle_init (b : Build) : Lifecycle b {} := by
  constructor <;> simp [admissions,transferCallbacks]

section step
variable {b : Build}

/-- The fields a window reads. -/
def core (s : Engine) : Setup × Nat × Nat × Nat × Nat × U16 :=
  (s.setup,s.segmentCount,s.contiguousCount,s.nextObjectOffset,s.grantedEnd,s.receiveBitmap)

theorem window_congr {s t : Engine} (same : core t = core s) (window : Window b s) : Window b t := by
  cases s; cases t
  simp only [core,Prod.mk.injEq] at same
  obtain ⟨rfl,rfl,rfl,rfl,rfl,rfl⟩ := same
  exact ⟨window.admissible,window.count,window.contiguous,window.granted,window.base_clear,window.span_clear,
    window.narrow_bitmap,window.narrow_offset⟩

theorem current_congr {s t : Engine} {a : Admission} (same : core t = core s) (state : t.state = s.state)
    (current : Current b s a) : Current b t a := by
  have window := window_congr same current.window
  cases s; cases t
  simp only [core,Prod.mk.injEq] at same
  obtain ⟨rfl,rfl,rfl,rfl,rfl,rfl⟩ := same
  dsimp only at state
  subst state
  exact ⟨window,current.delivers,current.received,current.active,current.completed⟩

/-- A step that leaves the admissions, the window and the state alone. -/
theorem Lifecycle.same {s t : Engine} (inv : Lifecycle b s) (recorded : admissions t.trace = admissions s.trace)
    (called : transferCallbacks t.trace = transferCallbacks s.trace) (window : core t = core s)
    (state : t.state = s.state) : Lifecycle b t := by
  refine ⟨by rw [called,recorded,inv.split],by rw [recorded]; exact inv.delivers,by rw [recorded]; exact inv.earlier,
    by rw [recorded,state]; exact inv.closed,?_⟩
  rw [state,recorded]
  intro live
  obtain ⟨a,latest,current⟩ := inv.live live
  exact ⟨a,latest,current_congr window state current⟩

/-- A step that changes the latest admission from `a` to `a'` along with one callback. -/
theorem Lifecycle.change {s t : Engine} {a : Admission} {earlier : List Admission} (inv : Lifecycle b s)
    (a' : Admission) (calls : List Callback) (before : admissions s.trace = a :: earlier)
    (after : admissions t.trace = a' :: earlier)
    (called : transferCallbacks t.trace = transferCallbacks s.trace ++ calls) (rendered : a'.callbacks = a.callbacks ++ calls) (delivers : ∃ setup, Delivers setup a')
    (closed : t.state ≠ .kActive → ∃ outcome, a'.endings = [outcome])
    (live : t.state = .kActive ∨ t.state = .kCompleted → Current b t a') : Lifecycle b t := by
  refine ⟨?_,?_,?_,?_,?_⟩
  · rw [called,inv.split,before,after]
    simp [rendered]
  · intro x member
    rw [after] at member
    rcases List.mem_cons.mp member with rfl | old
    · exact delivers
    · exact inv.delivers x (by rw [before]; exact List.mem_cons_of_mem _ old)
  · rw [after]
    have := inv.earlier
    rwa [before] at this
  · intro idle x latest
    rw [after] at latest
    cases latest
    exact closed idle
  · intro lives
    exact ⟨a',by rw [after]; rfl,live lives⟩

theorem expectedSize_eq (setup : Setup) {index : Nat} (small : index < 2 ^ 16) :
    (expectedSize setup (BitVec.ofNat 16 index)).toNat =
      if index = setup.finalSegmentIndex.toNat then setup.finalSegmentSize.toNat else setup.segmentSize.toNat := by
  unfold expectedSize
  by_cases last : index = setup.finalSegmentIndex.toNat
  · simp [last]
  · have other : BitVec.ofNat 16 index ≠ setup.finalSegmentIndex := by
      rintro same
      apply last
      rw [← same,BitVec.toNat_ofNat,Nat.mod_eq_of_lt small]
    simp [last,other]

/-- What a fresh segment adds to the latest admission. -/
theorem Current.call {s : Engine} {a : Admission} (current : Current b s a) {message payload : Bytes} {index : Nat}
    (fresh : Fresh b s message index payload) (accepted : Bool) :
    let call : SegmentCall := ⟨objectOffset b s index,payload,accepted⟩
    ∀ x ∈ a.segments ++ [call], ∃ i ≤ s.setup.finalSegmentIndex.toNat,
      x.objectOffset = i * s.setup.segmentSize.toNat ∧ x.payload.length =
        if i = s.setup.finalSegmentIndex.toNat then s.setup.finalSegmentSize.toNat else s.setup.segmentSize.toNat := by
  intro call x member
  rcases List.mem_append.mp member with old | new
  · exact current.delivers.calls x old
  · obtain rfl := List.mem_singleton.mp new
    have known := fresh.known
    rw [current.window.count] at known
    refine ⟨index,by omega,current.window.objectOffset_eq fresh,?_⟩
    rw [← expectedSize_eq s.setup fresh.small]
    exact fresh.size

/-- The latest admission after the sink accepted segment `index`. -/
theorem Current.accept {s : Engine} {a : Admission} (current : Current b s a) {message payload : Bytes} {index : Nat}
    (fresh : Fresh b s message index payload) (outcomes : List Outcome)
    (completes : .completed ∈ outcomes ↔ (advanced b index payload s).contiguousCount = s.segmentCount) :
    let a' : Admission := ⟨a.info,a.segments ++ [⟨objectOffset b s index,payload,true⟩],outcomes⟩
    Delivers s.setup a' ∧ ∀ i, Received (advanced b index payload s) i ↔ i * s.setup.segmentSize.toNat ∈ a'.acceptedOffsets := by
  intro a'
  have adds := advanced_adds current.window fresh
  have positive := current.delivers.segment
  have offsets : a'.acceptedOffsets = a.acceptedOffsets ++ [index * s.setup.segmentSize.toNat] := by
    simp [a',Admission.acceptedOffsets,Admission.accepted,current.window.objectOffset_eq fresh]
  have received : ∀ i, Received (advanced b index payload s) i ↔ i * s.setup.segmentSize.toNat ∈ a'.acceptedOffsets := by
    intro i
    rw [adds.received,offsets,List.mem_append,current.received,List.mem_singleton]
    exact or_congr_right ⟨fun same => by rw [same],fun same => Nat.eq_of_mul_eq_mul_right positive same⟩
  refine ⟨⟨current.delivers.info,positive,current.delivers.final,current.call fresh true,?_,?_⟩,received⟩
  · rw [offsets,List.nodup_append]
    refine ⟨current.delivers.once,List.nodup_singleton _,?_⟩
    intro x old y new same
    obtain rfl := List.mem_singleton.mp new
    rw [same] at old
    exact current.window.fresh_not_received fresh ((current.received index).mpr old)
  · -- All indices are in exactly when the base has reached the end.
    rw [completes]
    have count := current.window.count
    constructor
    · intro full i known
      exact (received i).mp (.inl (by omega))
    · intro all
      by_contra short
      have below := adds.window.contiguous
      rw [adds.count] at below
      exact adds.window.base_not_received ((received _).mpr (all _ (by omega)))

theorem lifecycle_step {c : Call} {s t : Engine} (inv : Lifecycle b s) (step : Step b c s t) : Lifecycle b t := by
  cases step with
  | note activity sent => exact inv.same rfl rfl rfl rfl
  | aside beside =>
    exact inv.same (by simp [emit,record_aside beside])
      (by simp [emit,transferCallbacks,transferCallback_aside beside]) rfl rfl
  | ack result live size encoded =>
    exact inv.same (by simp [emit,record]) (by simp [emit,transferCallbacks,transferCallback]) rfl rfl
  | @start message nowMs setup datagrams called typed decoded admissible idle inside =>
    obtain ⟨window,setupIs,none,trace⟩ := startReceiving_window admissible nowMs
      (s.withTrace (s.trace ++ .callback (.beginTransfer (transferInfo setup) .kAccepted) :: datagrams))
    set t := startReceiving b setup nowMs
      (s.withTrace (s.trace ++ .callback (.beginTransfer (transferInfo setup) .kAccepted) :: datagrams)) with tIs
    have recorded : admissions t.trace = ⟨transferInfo setup,[],[]⟩ :: admissions s.trace := by
      rw [trace]; exact admissions_callback _ _ inside
    have count := window.count
    have short : t.contiguousCount < t.segmentCount := by
      have := none 0
      simp only [Received,not_or] at this
      omega
    have delivers : Delivers setup ⟨transferInfo setup,[],[]⟩ := by
      refine ⟨rfl,admissible.segment,⟨admissible.final,admissible.final_le⟩,by simp,by simp [Admission.acceptedOffsets,Admission.accepted],?_⟩
      simp only [List.not_mem_nil,Admission.acceptedOffsets,Admission.accepted,List.filter_nil,List.map_nil,imp_false,false_iff]
      intro all
      exact all 0 (by omega)
    have state : t.state = .kActive := startReceiving_state _ _ _
    refine ⟨?_,?_,?_,fun idle' => absurd state idle',?_⟩
    · rw [recorded,trace]
      simp only [Engine.withTrace_trace]
      rw [transferCallbacks_callback _ _ inside,inv.split]
      simp [transferCallback,Admission.callbacks]
    · intro a member
      rw [recorded] at member
      rcases List.mem_cons.mp member with rfl | old
      · exact ⟨setup,delivers⟩
      · exact inv.delivers a old
    · -- The admission before this one has ended, since the engine was not active.
      rw [recorded,List.tail_cons]
      intro a member
      cases listed : admissions s.trace with
      | nil => rw [listed] at member; cases member
      | cons latest earlier =>
        rw [listed] at member
        rcases List.mem_cons.mp member with rfl | old
        · exact inv.closed idle _ (by rw [listed]; rfl)
        · exact inv.earlier a (by rw [listed]; exact old)
    · intro _
      refine ⟨_,by rw [recorded]; rfl,window,by rw [setupIs]; exact delivers,?_,fun _ => ⟨rfl,short⟩,
        fun completed => absurd (state.symm.trans completed) (by decide)⟩
      intro i
      simp [none i,Admission.acceptedOffsets,Admission.accepted]
  | @accept message nowMs index payload datagrams called fresh inside short =>
    obtain ⟨a,latest,current⟩ := inv.live (.inl fresh.active)
    obtain ⟨earlier,before⟩ : ∃ earlier, admissions s.trace = a :: earlier := List.head?_eq_some_iff.mp latest
    have adds := advanced_adds current.window fresh
    have endings := (current.active fresh.active).1
    obtain ⟨delivers,received⟩ := current.accept fresh [] (by simpa using short)
    refine inv.change ⟨a.info,a.segments ++ [⟨objectOffset b s index,payload,true⟩],[]⟩
      [.onSegment (objectOffset b s index) payload true] before ?_ ?_ ?_ ⟨_,delivers⟩ ?_ ?_
    · simp only [Engine.withTrace_trace]
      rw [admissions_callback _ _ inside,before]
      simp [record,changeLatest,endings]
    · simp only [Engine.withTrace_trace]
      rw [transferCallbacks_callback _ _ inside]
      rfl
    · simp [Admission.callbacks,endings]
    · intro idle
      exact absurd (adds.state.trans fresh.active) idle
    · intro _
      have contiguous := adds.window.contiguous
      refine ⟨window_congr (s := advanced b index payload s) rfl adds.window,?_,?_,fun _ => ⟨rfl,?_⟩,?_⟩
      · simpa only [Engine.withTrace_setup,adds.setup] using delivers
      · intro i
        rw [Engine.withTrace_setup,adds.setup]
        exact received i
      · have := adds.count
        simp only [Engine.withTrace_contiguousCount,Engine.withTrace_segmentCount]
        omega
      · intro completed
        exact absurd ((adds.state.trans fresh.active).symm.trans completed) (by decide)
  | @complete message nowMs index payload datagrams after called fresh inside behind full =>
    obtain ⟨a,latest,current⟩ := inv.live (.inl fresh.active)
    obtain ⟨earlier,before⟩ : ∃ earlier, admissions s.trace = a :: earlier := List.head?_eq_some_iff.mp latest
    have adds := advanced_adds current.window fresh
    have endings := (current.active fresh.active).1
    obtain ⟨delivers,received⟩ := current.accept fresh [.completed] (by simpa using full)
    refine inv.change ⟨a.info,a.segments ++ [⟨objectOffset b s index,payload,true⟩],[.completed]⟩
      [.onSegment (objectOffset b s index) payload true,.onTransferComplete] before ?_ ?_ ?_ ⟨_,delivers⟩ ?_ ?_
    · simp only [Engine.withTrace_trace]
      rw [admissions_callback _ _ behind,admissions_callback _ _ inside,before]
      simp [record,changeLatest,endings]
    · simp only [Engine.withTrace_trace]
      rw [transferCallbacks_callback _ _ behind,transferCallbacks_callback _ _ inside]
      simp [transferCallback]
    · simp [Admission.callbacks,endings,Outcome.callback]
    · intro _
      exact ⟨_,rfl⟩
    · intro _
      refine ⟨window_congr (s := advanced b index payload s) rfl adds.window,?_,?_,fun active => absurd active (by simp),fun _ => ?_⟩
      · simpa only [Engine.withTrace_setup,Engine.withState_setup,adds.setup] using delivers
      · intro i
        rw [Engine.withTrace_setup,Engine.withState_setup,adds.setup]
        exact received i
      · have := adds.count
        simp only [Engine.withTrace_contiguousCount,Engine.withTrace_segmentCount,Engine.withState_contiguousCount,
          Engine.withState_segmentCount]
        omega
  | @refuse message nowMs index payload datagrams after called fresh inside behind =>
    obtain ⟨a,latest,current⟩ := inv.live (.inl fresh.active)
    obtain ⟨earlier,before⟩ : ∃ earlier, admissions s.trace = a :: earlier := List.head?_eq_some_iff.mp latest
    have endings := (current.active fresh.active).1
    have offsets : (⟨a.info,a.segments ++ [⟨objectOffset b s index,payload,false⟩],[.failed .kSinkRejected]⟩ :
        Admission).acceptedOffsets = a.acceptedOffsets := by
      simp [Admission.acceptedOffsets,Admission.accepted]
    have delivers : Delivers s.setup
        ⟨a.info,a.segments ++ [⟨objectOffset b s index,payload,false⟩],[.failed .kSinkRejected]⟩ := by
      refine ⟨current.delivers.info,current.delivers.segment,current.delivers.final,current.call fresh false,?_,?_⟩
      · rw [offsets]; exact current.delivers.once
      · rw [offsets,← current.delivers.complete,endings]; simp
    refine inv.change ⟨a.info,a.segments ++ [⟨objectOffset b s index,payload,false⟩],[.failed .kSinkRejected]⟩
      [.onSegment (objectOffset b s index) payload false,.onTransferFailed .kSinkRejected] before ?_ ?_ ?_ ⟨_,delivers⟩ ?_ ?_
    · simp only [Engine.withTrace_trace]
      rw [admissions_callback _ _ behind,admissions_callback _ _ inside,before]
      simp [record,changeLatest,endings]
    · simp only [Engine.withTrace_trace]
      rw [transferCallbacks_callback _ _ behind,transferCallbacks_callback _ _ inside]
      simp [transferCallback]
    · simp [Admission.callbacks,endings,Outcome.callback]
    · intro _
      exact ⟨_,rfl⟩
    · intro live
      simp at live
  | @finish ending state datagrams ends active inside =>
    obtain ⟨a,latest,current⟩ := inv.live (.inl active)
    obtain ⟨earlier,before⟩ : ∃ earlier, admissions s.trace = a :: earlier := List.head?_eq_some_iff.mp latest
    have endings := (current.active active).1
    obtain ⟨outcome,isEnding,notComplete,ended⟩ : ∃ outcome : Outcome, ending = outcome.callback ∧ outcome ≠ .completed ∧
        ¬ (state = .kActive ∨ state = .kCompleted) := by
      cases ends with
      | failed reason => exact ⟨.failed reason,rfl,by simp,by simp⟩
      | aborted reason => exact ⟨.aborted reason,rfl,by simp,by simp⟩
    subst isEnding
    have delivers : Delivers s.setup ⟨a.info,a.segments,[outcome]⟩ := by
      refine ⟨current.delivers.info,current.delivers.segment,current.delivers.final,current.delivers.calls,
        current.delivers.once,?_⟩
      refine Iff.trans ?_ current.delivers.complete
      simp [endings,Ne.symm notComplete]
    refine inv.change ⟨a.info,a.segments,[outcome]⟩ [outcome.callback] before ?_ ?_ ?_ ⟨_,delivers⟩ ?_ ?_
    · simp only [Engine.withTrace_trace]
      rw [admissions_callback _ _ inside,before]
      cases outcome <;> simp [record,changeLatest,endings,Outcome.callback]
    · simp only [Engine.withTrace_trace]
      rw [transferCallbacks_callback _ _ inside]
      cases outcome <;> rfl
    · simp [Admission.callbacks,endings]
    · intro _
      exact ⟨_,rfl⟩
    · intro live
      exact absurd live (by simpa using ended)

theorem lifecycle_steps {c : Call} {s t : Engine} (inv : Lifecycle b s) (steps : Steps b c s t) : Lifecycle b t := by
  induction steps with
  | refl => exact inv
  | tail _ step ih => exact lifecycle_step ih step

/-- Every reachable engine keeps the invariant. -/
theorem run_lifecycle (b : Build) (calls : List (Call × Environment)) : Lifecycle b (run b calls) := by
  induction calls using List.reverseRecOn with
  | nil => exact lifecycle_init b
  | append_singleton calls c ih =>
    rw [run,List.foldl_append]
    exact lifecycle_steps ih (call_steps _ c)

end step

end WireSpaces.ReceiverLifecycle
