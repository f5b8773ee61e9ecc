import WireSpaces.ReceiverLifecycle

/-!
The build of width one against a wider build configured to width one. The two
keep different representations of the window (a running offset, or a bitmap that
stays empty), and show the same outside.
-/
namespace WireSpaces.ReceiverNarrow
open WireSpaces.Words WireSpaces.Codec WireSpaces.ReceiverEngine WireSpaces.ReceiverSteps WireSpaces.ReceiverWindow
  WireSpaces.ReceiverLifecycle

/-- The engine without the two fields that only one of the builds has. -/
def shown (s : Engine) : Engine := { s with nextObjectOffset := 0, receiveBitmap := 0 }

/-- Equal in everything but the fields that only one of the builds has. -/
def Alike (n w : Engine) : Prop := shown n = shown w

theorem Alike.fields {n w : Engine} (alike : Alike n w) :
    n.state = w.state ∧ n.setup = w.setup ∧ n.lastSend = w.lastSend ∧ n.lastActivityMs = w.lastActivityMs ∧
      n.segmentCount = w.segmentCount ∧ n.contiguousCount = w.contiguousCount ∧ n.grantedEnd = w.grantedEnd ∧
      n.trace = w.trace := by
  cases n; cases w
  simpa only [Alike,shown,Engine.mk.injEq,true_and,and_true] using alike

theorem Alike.of_fields {n w : Engine} (state : n.state = w.state) (setup : n.setup = w.setup)
    (lastSend : n.lastSend = w.lastSend) (activity : n.lastActivityMs = w.lastActivityMs)
    (count : n.segmentCount = w.segmentCount) (contiguous : n.contiguousCount = w.contiguousCount)
    (granted : n.grantedEnd = w.grantedEnd) (trace : n.trace = w.trace) : Alike n w := by
  cases n; cases w
  dsimp only at *
  subst state setup lastSend activity count contiguous granted trace
  rfl

/-- A function that does not look at the hidden fields keeps engines alike. -/
theorem Alike.map {n w : Engine} (alike : Alike n w) {f : Engine → Engine} (blind : ∀ s, shown (f s) = f (shown s)) :
    Alike (f n) (f w) := by
  rw [Alike,blind,blind,show shown n = shown w from alike]

/-- The same for a function that also returns a value. -/
theorem Alike.map₂ {α : Type} {n w : Engine} (alike : Alike n w) {f : Engine → Engine × α}
    (blind : ∀ s, (shown (f s).1,(f s).2) = f (shown s)) : Alike (f n).1 (f w).1 ∧ (f n).2 = (f w).2 := by
  have same : (shown (f n).1,(f n).2) = (shown (f w).1,(f w).2) := by
    rw [blind,blind,show shown n = shown w from alike]
  exact Prod.mk.inj same

/-- What each call of a run returns. -/
def returns (b : Build) : Engine → List (Call × Environment) → List Returned
  | _, [] => []
  | s, c :: rest => (call b s c).2 :: returns b (call b s c).1 rest

/-! ### What no build looks at -/

theorem sendDatagram_shown (sender : Sender) (payload : Bytes) (s : Engine) :
    (shown (sendDatagram sender payload s).1,(sendDatagram sender payload s).2) = sendDatagram sender payload (shown s) := by
  unfold sendDatagram
  by_cases large : payload.length > 65535 - kUserDatagramHeaderSize
  · simp only [large,if_true]
  · by_cases size : (sender.prepare (payload.length + kUserDatagramHeaderSize)).length =
        payload.length + kUserDatagramHeaderSize
    · simp only [large,if_false,size,ne_eq,not_true_eq_false,encodeUserDatagram_exact size]
      rfl
    · simp only [large,if_false,size,ne_eq,not_false_eq_true,if_true]

theorem invoke_shown (env : Environment) (call : Callback) (s : Engine) :
    shown (invoke env call s) = invoke env call (shown s) := by
  have inside : ∀ (datagrams : List (Bytes × Sender)) (s : Engine),
      shown (datagrams.foldl (fun s datagram => (sendDatagram datagram.2 datagram.1 s).1) s) =
        datagrams.foldl (fun s datagram => (sendDatagram datagram.2 datagram.1 s).1) (shown s) := by
    intro datagrams
    induction datagrams with
    | nil => intro s; rfl
    | cons first rest ih =>
      intro s
      rw [List.foldl_cons,List.foldl_cons,ih,← sendDatagram_shown]
  exact inside _ _

theorem fail_shown (env : Environment) (reason : FailureReason) (s : Engine) :
    shown (fail env reason s) = fail env reason (shown s) := by
  unfold fail
  by_cases active : s.state = .kActive
  · rw [if_pos active,if_pos (by exact active),invoke_shown]
    rfl
  · rw [if_neg active,if_neg (by exact active)]

theorem sendReject_shown (env : Environment) (sessionId : U8) (reason : RejectReason) (s : Engine) :
    (shown (sendReject env sessionId reason s).1,(sendReject env sessionId reason s).2) =
      sendReject env sessionId reason (shown s) := by
  unfold sendReject
  by_cases size : (env.sender.prepare kRejectSize).length = kRejectSize
  · simp only [size,ne_eq,not_true_eq_false,if_false,encodeReject_exact size]
    rfl
  · simp only [size,ne_eq,not_false_eq_true,if_true]
    rfl

theorem sendAbort_shown (env : Environment) (s : Engine) :
    (shown (sendAbort env s).1,(sendAbort env s).2) = sendAbort env (shown s) := by
  unfold sendAbort
  by_cases size : (env.sender.prepare kAbortSize).length = kAbortSize
  · simp only [size,ne_eq,not_true_eq_false,if_false,encodeAbort_exact size]
    rfl
  · simp only [size,ne_eq,not_false_eq_true,if_true]
    rfl

theorem abort_shown (env : Environment) (s : Engine) :
    (shown (abort env s).1,(abort env s).2) = abort env (shown s) := by
  unfold abort
  by_cases idle : s.state ≠ .kActive
  · rw [if_pos idle,if_pos (by exact idle)]
  · rw [if_neg idle,if_neg (by exact idle)]
    dsimp only
    rw [← sendAbort_shown env s]
    dsimp only
    rw [show (shown (sendAbort env s).1).withState .kAborted = shown ((sendAbort env s).1.withState .kAborted) from rfl,
      ← invoke_shown]
    rfl

theorem handleAbort_shown (env : Environment) (message : Bytes) (s : Engine) :
    (shown (handleAbort env message s).1,(handleAbort env message s).2) = handleAbort env message (shown s) := by
  unfold handleAbort
  cases decodeAbortKnownType message with
  | none => rfl
  | some abort =>
    dsimp only
    by_cases foreign : s.state ≠ .kActive ∨ abort.sessionId ≠ s.setup.sessionId
    · rw [if_pos foreign,if_pos (by exact foreign)]
    · rw [if_neg foreign,if_neg (by exact foreign)]
      dsimp only
      rw [invoke_shown]
      rfl

/-! ### The two builds side by side -/

section builds
variable {bn bw : Build} (env : Environment)

/-- Alike engines with a transfer each. -/
structure Both (bn bw : Build) (n w : Engine) : Prop where
  alike : Alike n w
  narrow : Window bn n
  wide : Window bw w

theorem Both.congr {n w n' w' : Engine} (both : Both bn bw n w) (alike : Alike n' w') (narrow : core n' = core n)
    (wide : core w' = core w) : Both bn bw n' w' :=
  ⟨alike,window_congr narrow both.narrow,window_congr wide both.wide⟩

/-- A window of width one has an empty bitmap. -/
theorem empty_bitmap {b : Build} {s : Engine} (window : Window b s) (one : b.config.receiveWindowWidth ≤ 1) :
    s.receiveBitmap = 0 := by
  have granted := window.granted
  apply BitVec.eq_of_getLsbD_eq
  intro j _
  rw [show (0 : U16).getLsbD j = false from BitVec.getLsbD_zero]
  cases j with
  | zero => exact window.base_clear
  | succ j => exact window.span_clear _ (by omega)

theorem received_iff {b : Build} {s : Engine} (window : Window b s) (one : b.config.receiveWindowWidth ≤ 1) (i : Nat) :
    Received s i ↔ i < s.contiguousCount := by
  simp [Received,empty_bitmap window one]

theorem fresh_congr {b : Build} {s t : Engine} {message payload : Bytes} {index : Nat} (same : core t = core s)
    (state : t.state = s.state) (fresh : Fresh b s message index payload) : Fresh b t message index payload := by
  cases s; cases t
  simp only [core,Prod.mk.injEq] at same
  obtain ⟨rfl,rfl,rfl,rfl,rfl,rfl⟩ := same
  dsimp only at state
  subst state
  exact ⟨fresh.typed,fresh.header,fresh.small,fresh.content,fresh.size,fresh.active,fresh.known,fresh.from_base,
    fresh.granted,fresh.unreceived⟩

variable (limit : bn.windowLimit = 1) (config : bn.config = bw.config)
include limit config

theorem width_one : bn.config.receiveWindowWidth ≤ 1 ∧ bw.config.receiveWindowWidth ≤ 1 := by
  have := bn.width_le
  rw [limit] at this
  exact ⟨this,config ▸ this⟩

/-- Byte for byte the same ACK. -/
theorem encodedAck_same {n w : Engine} (both : Both bn bw n w) {storage : Bytes} (size : storage.length = kAckSize) :
    encodedAck bn n storage = encodedAck bw w storage := by
  obtain ⟨oneN,oneW⟩ := width_one limit config
  obtain ⟨pduN,encodedN⟩ := encodedAck_some (b := bn) n size
  obtain ⟨pduW,encodedW⟩ := encodedAck_some (b := bw) w size
  obtain ⟨-,setup,-,-,-,contiguous,granted,-⟩ := both.alike.fields
  rw [encodedN,encodedW,both.narrow.encodedAck_eq size encodedN,both.wide.encodedAck_eq size encodedW,setup,contiguous,
    granted,empty_bitmap both.narrow oneN,empty_bitmap both.wide oneW]

theorem sendAck_same {n w : Engine} (both : Both bn bw n w) :
    Alike (sendAck bn env n).1 (sendAck bw env w).1 ∧ (sendAck bn env n).2 = (sendAck bw env w).2 := by
  unfold sendAck
  by_cases size : (env.sender.prepare kAckSize).length = kAckSize
  · obtain ⟨pdu,encoded⟩ := encodedAck_some (b := bw) w size
    have sent : Alike (sendPrepared env pdu n).1 (sendPrepared env pdu w).1 :=
      both.alike.map (f := fun s => (sendPrepared env pdu s).1) (fun s => rfl)
    rw [if_neg (not_not.mpr size),if_neg (not_not.mpr size),encodedAck_same limit config both size,encoded]
    dsimp only
    rw [show (sendPrepared env pdu n).2 = (sendPrepared env pdu w).2 from rfl]
    refine ⟨?_,rfl⟩
    split
    · exact sent
    · exact sent.map (fail_shown env _)
  · rw [if_pos size,if_pos size]
    refine ⟨Alike.map (f := fun s => fail env .kSendFailed { s with lastSend := .kTooLarge }) both.alike ?_,rfl⟩
    intro s
    rw [fail_shown]
    rfl

/-- Accepting the next segment moves both windows by one. -/
theorem advanced_same {n w : Engine} (both : Both bn bw n w) {message payload : Bytes} {index : Nat}
    (freshN : Fresh bn n message index payload) (freshW : Fresh bw w message index payload) :
    Both bn bw (advanced bn index payload n) (advanced bw index payload w) := by
  obtain ⟨oneN,oneW⟩ := width_one limit config
  have addsN := advanced_adds both.narrow freshN
  have addsW := advanced_adds both.wide freshW
  obtain ⟨state,setup,lastSend,activity,count,contiguous,granted,trace⟩ := both.alike.fields
  have kept {b : Build} {s : Engine} : (advanced b index payload s).lastSend = s.lastSend ∧
      (advanced b index payload s).lastActivityMs = s.lastActivityMs ∧ (advanced b index payload s).trace = s.trace := by
    unfold advanced advanceWindow updateGrant
    split <;> exact ⟨rfl,rfl,rfl⟩
  -- Both bitmaps are empty afterwards, so the received sets are the counts.
  have sameCount : (advanced bn index payload n).contiguousCount = (advanced bw index payload w).contiguousCount := by
    have sameReceived : ∀ i, i < (advanced bn index payload n).contiguousCount ↔
        i < (advanced bw index payload w).contiguousCount := by
      intro i
      rw [← received_iff addsN.window oneN,← received_iff addsW.window oneW,addsN.received,addsW.received,
        received_iff both.narrow oneN,received_iff both.wide oneW,contiguous]
    exact Nat.le_antisymm (not_lt.mp fun more => absurd ((sameReceived _).mp more) (lt_irrefl _))
      (not_lt.mp fun more => absurd ((sameReceived _).mpr more) (lt_irrefl _))
  have sameTotal : (advanced bn index payload n).segmentCount = (advanced bw index payload w).segmentCount := by
    rw [addsN.count,addsW.count,count]
  refine ⟨.of_fields ?_ ?_ ?_ ?_ sameTotal sameCount ?_ ?_,addsN.window,addsW.window⟩
  · rw [addsN.state,addsW.state,state]
  · rw [addsN.setup,addsW.setup,setup]
  · rw [kept.1,kept.1,lastSend]
  · rw [kept.2.1,kept.2.1,activity]
  · rw [addsN.window.granted,addsW.window.granted,sameTotal,sameCount,config]
  · rw [kept.2.2,kept.2.2,trace]

theorem deliverSegment_same {n w : Engine} (both : Both bn bw n w) {message payload : Bytes} {index : Nat}
    (freshN : Fresh bn n message index payload) (freshW : Fresh bw w message index payload) (offset : Nat) :
    Alike (deliverSegment bn env offset 0 payload n).1
        (deliverSegment bw env offset (index - w.contiguousCount) payload w).1 ∧
      (deliverSegment bn env offset 0 payload n).2 =
        (deliverSegment bw env offset (index - w.contiguousCount) payload w).2 := by
  unfold deliverSegment
  have called (call : Callback) : Alike (invoke env call n) (invoke env call w) := both.alike.map (invoke_shown env call)
  by_cases taken : env.onSegment offset payload = true
  · have same {s : Engine} : core (invoke env (.onSegment offset payload true) s) = core s ∧
        (invoke env (.onSegment offset payload true) s).state = s.state := by
      obtain ⟨datagrams,-,result⟩ := invoke_trace env (.onSegment offset payload true) s
      rw [result]
      exact ⟨rfl,rfl⟩
    have atW : index - w.contiguousCount = index - (invoke env (.onSegment offset payload true) w).contiguousCount := by
      have := same (s := w)
      simp only [core,Prod.mk.injEq] at this
      rw [this.1.2.2.1]
    have moved := advanced_same limit config (both.congr (called (.onSegment offset payload true)) same.1 same.1)
      (fresh_congr same.1 same.2 freshN) (fresh_congr same.1 same.2 freshW)
    rw [if_pos taken,if_pos taken]
    dsimp only
    rw [advanceWindow_offset index payload _ (fun wide => absurd limit wide),
      advanceWindow_offset index payload _ (fun _ => atW)]
    obtain ⟨-,-,-,-,count,contiguous,-,-⟩ := moved.alike.fields
    rw [count,contiguous]
    split
    · -- Completion changes the state and calls back; neither touches the window.
      refine sendAck_same env limit config (moved.congr
        (moved.alike.map (f := fun s => invoke env .onTransferComplete (s.withState .kCompleted)) ?_) ?_ ?_)
      · intro s
        rw [invoke_shown]
        rfl
      all_goals
        obtain ⟨datagrams,-,result⟩ := invoke_trace env .onTransferComplete (Engine.withState _ .kCompleted)
        rw [result]
        rfl
    · exact sendAck_same env limit config moved
  · rw [if_neg taken,if_neg taken]
    exact ⟨(called _).map (fail_shown env _),rfl⟩

theorem placeSegment_same (other : bw.windowLimit ≠ 1) {n w : Engine} (both : Both bn bw n w) (message : Bytes)
    {payload : Bytes} {index : Nat} (live : w.state = .kActive ∨ w.state = .kCompleted) (small : index < 2 ^ 16)
    (freshN : n.state = .kActive → n.contiguousCount ≤ index → index < n.grantedEnd → Unreceived bn n index →
      Fresh bn n message index payload)
    (freshW : w.state = .kActive → w.contiguousCount ≤ index → index < w.grantedEnd → Unreceived bw w index →
      Fresh bw w message index payload) :
    Alike (placeSegment bn env index payload n).1 (placeSegment bw env index payload w).1 ∧
      (placeSegment bn env index payload n).2 = (placeSegment bw env index payload w).2 := by
  obtain ⟨state,setup,-,-,count,contiguous,granted,-⟩ := both.alike.fields
  have acked := sendAck_same env limit config both
  unfold placeSegment
  rw [state,contiguous,granted]
  by_cases received : index < w.contiguousCount
  · rw [if_pos received,if_pos received]; exact acked
  rw [if_neg received,if_neg received]
  by_cases shut : w.state = .kCompleted ∨ index ≥ w.grantedEnd
  · rw [if_pos shut,if_pos shut]; exact acked
  rw [if_neg shut,if_neg shut]
  have active : w.state = .kActive := live.resolve_right fun completed => shut (.inl completed)
  have inGrant : index < w.grantedEnd := not_le.mp fun beyond => shut (.inr beyond)
  -- The grant of width one holds only the next segment, and its bit is clear.
  have one : bw.config.receiveWindowWidth = 1 :=
    Nat.le_antisymm (width_one limit config).2 both.wide.admissible.width
  have next : index = w.contiguousCount := by
    have := both.wide.granted
    omega
  have clear : w.receiveBitmap = 0 := empty_bitmap both.wide one.le
  have unreceivedN : Unreceived bn n index := by
    simp only [Unreceived,limit,if_true]
    rw [contiguous,next]
  have unreceivedW : Unreceived bw w index := by
    simp only [Unreceived,other,if_false,one,next,clear]
    simp
  have takenN := freshN (state.trans active) (by omega) (by omega) unreceivedN
  have takenW := freshW active (by omega) inGrant unreceivedW
  have offset : sub32 index w.contiguousCount = index - w.contiguousCount := sub32_of_le (by omega) (by omega)
  have offsetN := both.narrow.objectOffset_eq takenN
  have offsetW := both.wide.objectOffset_eq takenW
  rw [objectOffset,if_pos limit,setup] at offsetN
  rw [objectOffset,if_neg other] at offsetW
  rw [if_pos limit,if_neg (not_not.mpr next),if_neg other,offset,if_neg (by omega),if_neg (by simp [clear]),offsetN,
    offsetW]
  exact deliverSegment_same env limit config both takenN takenW _

theorem handleSegment_same (other : bw.windowLimit ≠ 1) {n w : Engine} (alike : Alike n w)
    (windows : w.state = .kActive ∨ w.state = .kCompleted → Both bn bw n w) {message : Bytes} (nowMs : U32)
    (typed : hasType message .kSegment = true) :
    Alike (handleSegment bn env message nowMs n).1 (handleSegment bw env message nowMs w).1 ∧
      (handleSegment bn env message nowMs n).2 = (handleSegment bw env message nowMs w).2 := by
  obtain ⟨state,setup,-,-,count,-,granted,-⟩ := alike.fields
  unfold handleSegment
  cases decoded : decodeSegmentHeaderKnownType message with
  | none => exact ⟨alike,rfl⟩
  | some header =>
    dsimp only
    rw [state,setup,count]
    by_cases foreign : (w.state ≠ .kActive ∧ w.state ≠ .kCompleted) ∨ header.sessionId ≠ w.setup.sessionId ∨
        header.segmentIndex.toNat ≥ w.segmentCount
    · rw [if_pos foreign,if_pos foreign]; exact ⟨alike,rfl⟩
    rw [if_neg foreign,if_neg foreign]
    by_cases size : (message.drop kSegmentHeaderSize).length ≠ (expectedSize w.setup header.segmentIndex).toNat
    · rw [if_pos size,if_pos size]; exact ⟨alike,rfl⟩
    rw [if_neg size,if_neg size]
    push Not at foreign
    obtain ⟨running,session,known⟩ := foreign
    have live : w.state = .kActive ∨ w.state = .kCompleted := by
      by_cases active : w.state = .kActive
      · exact .inl active
      · exact .inr (running active)
    have both := windows live
    have renewed (s : Engine) : core (renewActivity header.segmentIndex.toNat nowMs s) = core s ∧
        (renewActivity header.segmentIndex.toNat nowMs s).state = s.state := by
      unfold renewActivity
      split <;> exact ⟨rfl,rfl⟩
    have blind (s : Engine) : shown (renewActivity header.segmentIndex.toNat nowMs s) =
        renewActivity header.segmentIndex.toNat nowMs (shown s) := by
      unfold renewActivity
      by_cases inGrant : header.segmentIndex.toNat < s.grantedEnd
      · rw [if_pos inGrant,if_pos (by exact inGrant)]; rfl
      · rw [if_neg inGrant,if_neg (by exact inGrant)]
    refine placeSegment_same env limit config other
      (both.congr (alike.map blind) (renewed n).1 (renewed w).1) message (by rwa [(renewed w).2]) header.segmentIndex.isLt ?_ ?_
    · intro active fromBase granted unreceived
      have fields := (renewed n).1
      simp only [core,Prod.mk.injEq] at fields
      refine ⟨typed,?_,header.segmentIndex.isLt,rfl,?_,active,?_,fromBase,granted,unreceived⟩
      · rw [decoded,fields.1,setup,← session]; simp
      · rw [fields.1,setup]; simpa using not_not.mp size
      · rw [fields.2.1,count]; exact known
    · intro active fromBase granted unreceived
      have fields := (renewed w).1
      simp only [core,Prod.mk.injEq] at fields
      refine ⟨typed,?_,header.segmentIndex.isLt,rfl,?_,active,?_,fromBase,granted,unreceived⟩
      · rw [decoded,fields.1,← session]; simp
      · rw [fields.1]; simpa using not_not.mp size
      · rw [fields.2.1]; exact known

omit limit in
theorem startReceiving_same {n w : Engine} (alike : Alike n w) {setup : Setup} (admissible : Admissible bw setup)
    (nowMs : U32) : Both bn bw (startReceiving bn setup nowMs n) (startReceiving bw setup nowMs w) := by
  have admissibleN : Admissible bn setup :=
    ⟨admissible.segment,admissible.final,admissible.final_le,config ▸ admissible.total,config ▸ admissible.width,
      config ▸ admissible.size⟩
  obtain ⟨windowN,setupN,-,traceN⟩ := startReceiving_window admissibleN nowMs n
  obtain ⟨windowW,setupW,-,traceW⟩ := startReceiving_window admissible nowMs w
  obtain ⟨-,-,lastSend,-,-,-,-,trace⟩ := alike.fields
  have fields {b : Build} {s : Engine} : (startReceiving b setup nowMs s).lastSend = s.lastSend ∧
      (startReceiving b setup nowMs s).lastActivityMs = nowMs ∧ (startReceiving b setup nowMs s).contiguousCount = 0 := by
    unfold startReceiving updateGrant
    split <;> exact ⟨rfl,rfl,rfl⟩
  have count : (startReceiving bn setup nowMs n).segmentCount = (startReceiving bw setup nowMs w).segmentCount := by
    rw [windowN.count,windowW.count,setupN,setupW]
  refine ⟨.of_fields ?_ ?_ ?_ ?_ count ?_ ?_ ?_,windowN,windowW⟩
  · rw [startReceiving_state,startReceiving_state]
  · rw [setupN,setupW]
  · rw [fields.1,fields.1,lastSend]
  · rw [fields.2.1,fields.2.1]
  · rw [fields.2.2,fields.2.2]
  · rw [windowN.granted,windowW.granted,count,fields.2.2,fields.2.2,config]
  · rw [traceN,traceW,trace]

theorem handleSetup_same {n w : Engine} (alike : Alike n w) (windows : w.state = .kActive → Both bn bw n w)
    (message : Bytes) (nowMs : U32) :
    Alike (handleSetup bn env message nowMs n).1 (handleSetup bw env message nowMs w).1 ∧
      (handleSetup bn env message nowMs n).2 = (handleSetup bw env message nowMs w).2 := by
  obtain ⟨state,setup,-,-,-,-,-,-⟩ := alike.fields
  have rejected (sessionId : U8) (reason : RejectReason) := alike.map₂ (sendReject_shown env sessionId reason)
  unfold handleSetup
  by_cases short : message.length < 2
  · rw [if_pos short,if_pos short]; exact ⟨alike,rfl⟩
  rw [if_neg short,if_neg short]
  cases decoded : decodeSetupKnownType message with
  | none => exact rejected _ _
  | some requested =>
    dsimp only
    rw [config]
    by_cases shape : requested.segmentSize = 0 ∨ requested.finalSegmentSize = 0 ∨
        requested.finalSegmentSize.toNat > requested.segmentSize.toNat
    · rw [if_pos shape,if_pos shape]; exact rejected _ _
    rw [if_neg shape,if_neg shape]
    by_cases large : setupTotalSize requested > bw.config.maximumObjectSize
    · rw [if_pos large,if_pos large]; exact rejected _ _
    rw [if_neg large,if_neg large]
    by_cases unsupported : bw.config.receiveWindowWidth = 0 ∨
        requested.segmentSize.toNat > bw.config.maximumSegmentSize.toNat
    · rw [if_pos unsupported,if_pos unsupported]; exact rejected _ _
    rw [if_neg unsupported,if_neg unsupported]
    by_cases active : w.state = .kActive
    · rw [if_pos active,if_pos (state.trans active)]
      by_cases same : setupMatches w.setup requested = true
      · rw [if_pos same,if_pos (setup ▸ same)]
        have both := windows active
        exact sendAck_same env limit config
          (both.congr (alike.map (f := fun s => { s with lastActivityMs := nowMs }) (fun s => rfl)) rfl rfl)
      · rw [if_neg same,if_neg (setup ▸ same)]; exact rejected _ _
    · rw [if_neg active,if_neg (state ▸ active)]
      have called := alike.map (invoke_shown env
        (.beginTransfer (transferInfo requested) (env.beginTransfer (transferInfo requested))))
      by_cases refused : env.beginTransfer (transferInfo requested) ≠ .kAccepted
      · rw [if_pos refused,if_pos refused]
        exact called.map₂ (sendReject_shown env _ _)
      · rw [if_neg refused,if_neg refused]
        exact sendAck_same env limit config (startReceiving_same config called (admissible_of_checks shape large unsupported) nowMs)

theorem handleControl_same {n w : Engine} (alike : Alike n w)
    (windows : w.state = .kActive ∨ w.state = .kCompleted → Both bn bw n w) (message : Bytes) (type : MessageType)
    (nowMs : U32) :
    Alike (handleControl bn env message type nowMs n).1 (handleControl bw env message type nowMs w).1 ∧
      (handleControl bn env message type nowMs n).2 = (handleControl bw env message type nowMs w).2 := by
  unfold handleControl
  cases type with
  | kSetup => exact handleSetup_same env limit config alike (fun active => windows (.inl active)) message nowMs
  | kProbe =>
    cases decodeProbeKnownType message with
    | none => exact ⟨alike,rfl⟩
    | some probe =>
      obtain ⟨state,setup,-,-,-,-,-,-⟩ := alike.fields
      dsimp only
      have foreignN : ((n.state ≠ .kActive ∧ n.state ≠ .kCompleted) ∨ probe.sessionId ≠ n.setup.sessionId) ↔
          ((w.state ≠ .kActive ∧ w.state ≠ .kCompleted) ∨ probe.sessionId ≠ w.setup.sessionId) := by rw [state,setup]
      by_cases foreign : (w.state ≠ .kActive ∧ w.state ≠ .kCompleted) ∨ probe.sessionId ≠ w.setup.sessionId
      · rw [if_pos foreign,if_pos (foreignN.mpr foreign)]; exact ⟨alike,rfl⟩
      · rw [if_neg foreign,if_neg (fun found => foreign (foreignN.mp found))]
        push Not at foreign
        have both := windows (by by_cases active : w.state = .kActive; exacts [.inl active,.inr (foreign.1 active)])
        exact sendAck_same env limit config
          (both.congr (alike.map (f := fun s => { s with lastActivityMs := nowMs }) (fun s => rfl)) rfl rfl)
  | kUserDatagram =>
    cases decodeUserDatagramKnownType message with
    | none => exact ⟨alike,rfl⟩
    | some payload => exact ⟨alike.map (invoke_shown env _),rfl⟩
  | kAbort => exact alike.map₂ (handleAbort_shown env message)
  | kSegment => exact ⟨alike,rfl⟩
  | kAck => exact ⟨alike,rfl⟩
  | kReject => exact ⟨alike,rfl⟩

omit limit in
theorem poll_same {n w : Engine} (alike : Alike n w) (nowMs : U32) :
    Alike (poll bn env nowMs n).1 (poll bw env nowMs w).1 ∧ (poll bn env nowMs n).2 = (poll bw env nowMs w).2 := by
  obtain ⟨state,-,-,activity,-,-,-,-⟩ := alike.fields
  unfold poll
  rw [state,activity,config]
  split
  · exact ⟨alike,rfl⟩
  · exact ⟨alike.map (fail_shown env _),rfl⟩

theorem dispatch_same (other : bw.windowLimit ≠ 1) {n w : Engine} (alike : Alike n w)
    (windows : w.state = .kActive ∨ w.state = .kCompleted → Both bn bw n w) (message : Bytes) (nowMs : U32) :
    Alike (dispatch bn env message nowMs n).1 (dispatch bw env message nowMs w).1 ∧
      (dispatch bn env message nowMs n).2 = (dispatch bw env message nowMs w).2 := by
  cases message with
  | nil => exact ⟨alike,rfl⟩
  | cons first rest =>
    cases decoded : decodeControl first with
    | none => simpa only [dispatch,decoded,and_true] using alike
    | some control =>
      have typed : hasType (first :: rest) control.type = true := hasType_cons.mpr (decodeControl_eq_some decoded)
      by_cases segment : control.type = .kSegment
      · have handled := handleSegment_same env limit config other alike windows nowMs (segment ▸ typed)
        simp only [dispatch,decoded,segment,if_true]
        exact ⟨handled.1,by rw [handled.2,handled.1.fields.2.2.1]⟩
      · have handled := handleControl_same env limit config alike windows (first :: rest) control.type nowMs
        simp only [dispatch,decoded,segment,if_false]
        exact ⟨handled.1,by rw [handled.2,handled.1.fields.2.2.1]⟩

theorem process_same (other : bw.windowLimit ≠ 1) {n w : Engine} (alike : Alike n w) (lifeN : Lifecycle bn n)
    (lifeW : Lifecycle bw w) (message : Bytes) (nowMs : U32) :
    Alike (process bn env message nowMs n).1 (process bw env message nowMs w).1 ∧
      (process bn env message nowMs n).2 = (process bw env message nowMs w).2 := by
  have polled := poll_same env config alike nowMs
  have lifeN' : Lifecycle bn (poll bn env nowMs n).1 := lifecycle_steps lifeN (QuietSteps.steps (poll_steps (c := .poll nowMs) nowMs n))
  have lifeW' : Lifecycle bw (poll bw env nowMs w).1 := lifecycle_steps lifeW (QuietSteps.steps (poll_steps (c := .poll nowMs) nowMs w))
  unfold process
  dsimp only
  rw [polled.2]
  split
  · exact ⟨polled.1,rfl⟩
  · refine dispatch_same env limit config other (polled.1.map (f := fun s => { s with lastSend := .kSent }) (fun s => rfl)) ?_
      message nowMs
    intro live
    obtain ⟨a,-,currentN⟩ := lifeN'.live (by rw [polled.1.fields.1]; exact live)
    obtain ⟨a,-,currentW⟩ := lifeW'.live live
    have both : Both bn bw (poll bn env nowMs n).1 (poll bw env nowMs w).1 := ⟨polled.1,currentN.window,currentW.window⟩
    exact both.congr (polled.1.map (f := fun s => { s with lastSend := .kSent }) (fun s => rfl)) rfl rfl

theorem call_same (other : bw.windowLimit ≠ 1) {n w : Engine} (alike : Alike n w) (lifeN : Lifecycle bn n)
    (lifeW : Lifecycle bw w) (c : Call × Environment) :
    Alike (call bn n c).1 (call bw w c).1 ∧ (call bn n c).2 = (call bw w c).2 := by
  obtain ⟨c,env⟩ := c
  cases c with
  | process message nowMs =>
    have same := process_same env limit config other alike lifeN lifeW message nowMs
    exact ⟨same.1,congrArg Returned.processed same.2⟩
  | poll nowMs =>
    have same := poll_same env config alike nowMs
    exact ⟨same.1,congrArg Returned.processed same.2⟩
  | sendDatagram payload =>
    have same := alike.map₂ (sendDatagram_shown env.sender payload)
    exact ⟨same.1,congrArg Returned.sent same.2⟩
  | abort =>
    have same := alike.map₂ (abort_shown env)
    exact ⟨same.1,congrArg Returned.sent same.2⟩

theorem run_same (other : bw.windowLimit ≠ 1) (calls : List (Call × Environment)) :
    Alike (run bn calls) (run bw calls) := by
  induction calls using List.reverseRecOn with
  | nil => rfl
  | append_singleton calls c ih =>
    have same := call_same limit config other ih (run_lifecycle bn calls) (run_lifecycle bw calls) c
    simpa only [run,List.foldl_append,List.foldl_cons,List.foldl_nil] using same.1

theorem returns_same (other : bw.windowLimit ≠ 1) {n w : Engine} (alike : Alike n w) (lifeN : Lifecycle bn n)
    (lifeW : Lifecycle bw w) (calls : List (Call × Environment)) : returns bn n calls = returns bw w calls := by
  induction calls generalizing n w with
  | nil => rfl
  | cons c rest ih =>
    have same := call_same limit config other alike lifeN lifeW c
    rw [returns,returns,same.2,ih same.1 (lifecycle_steps lifeN (call_steps n c)) (lifecycle_steps lifeW (call_steps w c))]

end builds

/-- The build of width one, and the build of width 16 configured to at most width
    one, show the same state, the same callbacks and PDUs in the same order, and
    return the same values. -/
theorem narrow_build_equals_wide (config : ReceiverEngineConfig) (calls : List (Call × Environment)) :
    let narrow := construct 1 (by decide) (by decide) config
    let wide := construct 16 (by decide) (by decide) { config with receiveWindowWidth := min 1 config.receiveWindowWidth }
    (run narrow calls).state = (run wide calls).state ∧ (run narrow calls).trace = (run wide calls).trace ∧
      returns narrow {} calls = returns wide {} calls := by
  intro narrow wide
  have same : narrow.config = wide.config := by
    simp only [narrow,wide,construct]
    rw [if_neg (show ¬ min 1 config.receiveWindowWidth > 16 by omega)]
    split
    · rw [show min 1 config.receiveWindowWidth = 1 by omega]
    · rw [show min 1 config.receiveWindowWidth = config.receiveWindowWidth by omega]
  have limit : narrow.windowLimit = 1 := rfl
  have other : wide.windowLimit ≠ 1 := Nat.ne_of_beq_eq_false rfl
  have fields := (run_same limit same other calls).fields
  exact ⟨fields.1,fields.2.2.2.2.2.2.2,returns_same limit same other rfl (lifecycle_init _) (lifecycle_init _) calls⟩

end WireSpaces.ReceiverNarrow
