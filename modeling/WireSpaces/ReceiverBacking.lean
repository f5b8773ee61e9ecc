import WireSpaces.ReceiverAcks
import WireSpaces.ReceiverIngress

/-!
Grants are backed by slots: from an admission with empty slots on, every segment
inside an advertised grant finds a free slot as long as no index is offered twice.
The waiting indices lie between the base and the granted end, and the engine never
grants more of them than there are slots.
-/
namespace WireSpaces.ReceiverBacking
open WireSpaces.Words WireSpaces.Codec WireSpaces.Packet WireSpaces.Receiver WireSpaces.ReceiverIngress
open WireSpaces.ReceiverEffects (accepts)
open WireSpaces.ReceiverSteps WireSpaces.ReceiverWindow WireSpaces.ReceiverLifecycle WireSpaces.ReceiverAcks
open WireSpaces.ReceiverEngine (Build Environment Engine Event expectedSize)
open WireSpaces.Transmitter (matchesConnection)

/-- The index a segment PDU carries. -/
def indexOf (message : Bytes) : Nat := ((decodeSegmentHeaderKnownType message).map (·.segmentIndex.toNat)).getD 0

/-- How many transfers the sink admitted. -/
def admitted (s : Engine) : Nat := (admissions s.trace).length

/-! ### What a call makes of the transfer -/

theorem record_length (as : List Admission) (event : Event) :
    (record as event).length = as.length + if accepts event then 1 else 0 := by
  have change (f : Admission → Admission) : (changeLatest f as).length = as.length := by cases as <;> rfl
  cases event with
  | send pdu result => rfl
  | callback call =>
    cases call with
    | beginTransfer info answer => cases answer <;> rfl
    | onSegment objectOffset payload accepted => exact change _
    | onDatagram payload => rfl
    | onTransferComplete => exact change _
    | onTransferAborted reason => exact change _
    | onTransferFailed reason => exact change _

theorem admissions_length (events : List Event) : (admissions events).length = events.countP accepts := by
  induction events using List.reverseRecOn with
  | nil => rfl
  | append_singleton events event ih =>
    rw [admissions_emit,record_length,ih,List.countP_append]
    simp [List.countP_cons]

/-- An event beside the transfers is no admission. -/
theorem aside_admits_none {event : Event} (beside : Aside event) : accepts event = false := by
  have counted := record_length [] event
  rw [record_aside beside,Nat.left_eq_add] at counted
  simpa using counted

theorem datagrams_admit_none {datagrams : List Event} (inside : ∀ e ∈ datagrams, Datagram e) :
    datagrams.countP accepts = 0 := by
  rw [List.countP_eq_zero]
  intro event member
  rw [aside_admits_none (.datagram (inside event member))]
  exact Bool.false_ne_true

theorem admitted_more {s t : Engine} (more : List Event) (trace : t.trace = s.trace ++ more) :
    admitted t = admitted s + more.countP accepts := by
  rw [admitted,admitted,admissions_length,admissions_length,trace,List.countP_append]

/-- A callback and the datagrams sent inside it count as the callback alone. -/
theorem callback_admits (event : Event) {datagrams : List Event} (inside : ∀ e ∈ datagrams, Datagram e) :
    (event :: datagrams).countP accepts = if accepts event then 1 else 0 := by
  rw [List.countP_cons,datagrams_admit_none inside,Nat.zero_add]

/-- What a call makes of the transfer. A SETUP may open one, which has received nothing
    then; otherwise a transfer that is active at the end was so all along, its grant only grew, and it
    received at most the segment the call brought. -/
structure Carries (c : ReceiverEngine.Call) (s t : Engine) : Prop where
  grows : admitted s ≤ admitted t
  opened : admitted s < admitted t → (∃ message nowMs, c = .process message nowMs ∧ hasType message .kSetup = true) ∧
    (t.state = .kActive → ∀ i, ¬ Received t i)
  kept : admitted s = admitted t → t.state = .kActive → s.state = .kActive ∧ t.setup = s.setup ∧
    s.grantedEnd ≤ t.grantedEnd ∧ ∀ i, Received t i → Received s i ∨
      ∃ message nowMs, c = .process message nowMs ∧ hasType message .kSegment = true ∧ indexOf message = i

section engine
variable {b : Build} {c : ReceiverEngine.Call} {s t u : Engine}

theorem carries_refl (c : ReceiverEngine.Call) (s : Engine) : Carries c s s :=
  ⟨le_refl _,fun opened => absurd opened (lt_irrefl _),fun _ active => ⟨active,rfl,le_refl _,fun _ received => .inl received⟩⟩

/-- A step that opens no transfer and leaves the window alone, or ends the transfer. -/
theorem Carries.same (carries : Carries c s t) (count : admitted u = admitted t)
    (ends : u.state = .kActive → t.state = .kActive ∧ u.setup = t.setup ∧ u.grantedEnd = t.grantedEnd ∧
      ∀ i, Received u i ↔ Received t i) : Carries c s u := by
  refine ⟨count ▸ carries.grows,?_,?_⟩
  · rw [count]
    intro opened
    refine ⟨(carries.opened opened).1,?_⟩
    intro active i
    obtain ⟨before,-,-,received⟩ := ends active
    rw [received]
    exact (carries.opened opened).2 before i
  · rw [count]
    intro kept active
    obtain ⟨before,setup,granted,received⟩ := ends active
    obtain ⟨first,setupKept,grantedLe,gained⟩ := carries.kept kept before
    exact ⟨first,setup.trans setupKept,granted ▸ grantedLe,fun i found => gained i ((received i).mp found)⟩

theorem Carries.step (carries : Carries c s t) (life : Lifecycle b t) (step : Step b c t u) : Carries c s u := by
  cases step with
  | note activity sent => exact carries.same rfl (fun active => ⟨active,rfl,rfl,fun _ => Iff.rfl⟩)
  | @aside event beside =>
    have count : [event].countP accepts = 0 := by simp [aside_admits_none beside]
    refine carries.same ?_ (fun active => ⟨active,rfl,rfl,fun _ => Iff.rfl⟩)
    rw [admitted_more (s := t) [event] rfl,count]
    rfl
  | @ack storage pdu result live size encoded =>
    exact carries.same (admitted_more [.send pdu result] rfl) (fun active => ⟨active,rfl,rfl,fun _ => Iff.rfl⟩)
  | @start message nowMs setup datagrams called typed decoded admissible idle inside =>
    obtain ⟨-,-,none,trace⟩ := startReceiving_window admissible nowMs
      (t.withTrace (t.trace ++ .callback (.beginTransfer (ReceiverEngine.transferInfo setup) .kAccepted) :: datagrams))
    have count : admitted (ReceiverEngine.startReceiving b setup nowMs
        (t.withTrace (t.trace ++ .callback (.beginTransfer (ReceiverEngine.transferInfo setup) .kAccepted) :: datagrams))) =
          admitted t + 1 := by
      rw [admitted_more (s := t) _ trace,callback_admits _ inside]
      rfl
    have grows := carries.grows
    exact ⟨by omega,fun _ => ⟨⟨message,nowMs,called,typed⟩,fun _ => none⟩,fun same => by omega⟩
  | @accept message nowMs index payload datagrams called fresh inside short =>
    obtain ⟨a,-,current⟩ := life.live (.inl fresh.active)
    have adds := advanced_adds current.window fresh
    have carried : indexOf message = index := by
      simpa [indexOf,fresh.header] using fresh.small
    have count : admitted ((ReceiverSteps.advanced b index payload t).withTrace
        (t.trace ++ .callback (.onSegment (ReceiverSteps.objectOffset b t index) payload true) :: datagrams)) = admitted t := by
      rw [admitted_more (s := t) _ rfl,callback_admits _ inside]
      rfl
    refine ⟨count ▸ carries.grows,?_,?_⟩
    · -- A call that brings a segment opens no transfer.
      rw [count]
      intro opened
      obtain ⟨⟨message',nowMs',called',typed'⟩,-⟩ := carries.opened opened
      obtain ⟨rfl,-⟩ := ReceiverEngine.Call.process.inj (called.symm.trans called')
      cases hasType_unique fresh.typed typed'
    · rw [count]
      intro kept _
      obtain ⟨first,setupKept,grantedLe,gained⟩ := carries.kept kept fresh.active
      refine ⟨first,adds.setup.trans setupKept,grantedLe.trans adds.granted,?_⟩
      intro i found
      rcases (adds.received i).mp found with old | rfl
      · exact gained i old
      · exact .inr ⟨message,nowMs,called,fresh.typed,carried⟩
  | @complete message nowMs index payload datagrams after called fresh inside behind full =>
    refine carries.same ?_ (fun active => by cases active)
    rw [admitted_more (s := t) _ (List.append_assoc _ _ _),List.countP_append,callback_admits _ inside,callback_admits _ behind]
    rfl
  | @refuse message nowMs index payload datagrams after called fresh inside behind =>
    refine carries.same ?_ (fun active => by cases active)
    rw [admitted_more (s := t) _ (List.append_assoc _ _ _),List.countP_append,callback_admits _ inside,callback_admits _ behind]
    rfl
  | @finish ending state datagrams ends active inside =>
    cases ends with
    | failed reason =>
      refine carries.same ?_ (fun active => by cases active)
      rw [admitted_more (s := t) _ rfl,callback_admits _ inside]
      rfl
    | aborted reason =>
      refine carries.same ?_ (fun active => by cases active)
      rw [admitted_more (s := t) _ rfl,callback_admits _ inside]
      rfl

theorem steps_carry (life : Lifecycle b s) (steps : Steps b c s t) : Carries c s t := by
  suffices both : Carries c s t ∧ Lifecycle b t from both.1
  induction steps with
  | refl => exact ⟨carries_refl c s,life⟩
  | tail _ step ih => exact ⟨ih.1.step ih.2 step,lifecycle_step ih.2 step⟩

theorem call_carries (life : Lifecycle b s) (c : ReceiverEngine.Call) (env : Environment) :
    Carries c s (ReceiverEngine.call b s (c,env)).1 := steps_carry life (call_steps s (c,env))

theorem process_lifecycle (life : Lifecycle b s) (message : Bytes) (env : Environment) (nowMs : U32) :
    Lifecycle b (ReceiverEngine.process b env message nowMs s).1 :=
  lifecycle_steps life (call_steps s (.process message nowMs,env))

/-- Segments open no transfer. -/
theorem segments_open_none (life : Lifecycle b s) (nowMs : U32) {messages : List (Bytes × Environment)}
    (typed : ∀ m ∈ messages, hasType m.1 .kSegment = true) :
    admitted (fed b nowMs messages s) = admitted s ∧ Lifecycle b (fed b nowMs messages s) := by
  induction messages generalizing s with
  | nil => exact ⟨rfl,life⟩
  | cons m messages ih =>
    have carries := call_carries life (.process m.1 nowMs) m.2
    have same : admitted (ReceiverEngine.process b m.2 m.1 nowMs s).1 = admitted s := by
      by_contra other
      obtain ⟨⟨message,nowMs',called,setup⟩,-⟩ := carries.opened (lt_of_le_of_ne carries.grows (Ne.symm other))
      obtain ⟨rfl,-⟩ := ReceiverEngine.Call.process.inj called
      cases hasType_unique (typed m List.mem_cons_self) setup
    obtain ⟨rest,behind⟩ := ih (process_lifecycle life m.1 m.2 nowMs) (fun m' member => typed m' (List.mem_cons_of_mem _ member))
    exact ⟨rest.trans same,behind⟩

/-- Messages that leave a transfer active: it received at most the segments among them. -/
theorem fed_kept (life : Lifecycle b s) (nowMs : U32) (messages : List (Bytes × Environment)) :
    admitted s ≤ admitted (fed b nowMs messages s) ∧ (admitted s = admitted (fed b nowMs messages s) →
      (fed b nowMs messages s).state = .kActive → s.state = .kActive ∧ (fed b nowMs messages s).setup = s.setup ∧
        s.grantedEnd ≤ (fed b nowMs messages s).grantedEnd ∧ ∀ i, Received (fed b nowMs messages s) i → Received s i ∨
          ∃ message ∈ messages.map Prod.fst, hasType message .kSegment = true ∧ indexOf message = i) := by
  induction messages generalizing s with
  | nil => exact ⟨le_refl _,fun _ active => ⟨active,rfl,le_refl _,fun _ received => .inl received⟩⟩
  | cons m messages ih =>
    have first : Carries (.process m.1 nowMs) s (ReceiverEngine.process b m.2 m.1 nowMs s).1 := call_carries life _ m.2
    obtain ⟨grows,rest⟩ := ih (process_lifecycle life m.1 m.2 nowMs)
    refine ⟨first.grows.trans grows,?_⟩
    intro same active
    have firstSame : admitted s = admitted (ReceiverEngine.process b m.2 m.1 nowMs s).1 :=
      le_antisymm first.grows (same ▸ grows)
    obtain ⟨between,setup,granted,gained⟩ := rest (firstSame.symm.trans same) active
    obtain ⟨before,setupFirst,grantedFirst,gainedFirst⟩ := first.kept firstSame between
    refine ⟨before,setup.trans setupFirst,grantedFirst.trans granted,?_⟩
    intro i received
    rcases gained i received with earlier | ⟨message,member,typed,index⟩
    · rcases gainedFirst i earlier with old | ⟨message,nowMs',called,typed,index⟩
      · exact .inl old
      · obtain ⟨rfl,-⟩ := ReceiverEngine.Call.process.inj called
        exact .inr ⟨m.1,List.mem_cons_self,typed,index⟩
    · exact .inr ⟨message,List.mem_cons_of_mem _ member,typed,index⟩

end engine

/-! ### Advertised grants -/

/-- Some ACK of the current transfer showed a granted end above the index. -/
def Advertised (b : Build) (s : Engine) (index : Nat) : Prop :=
  ∃ k pdu contiguous granted, AckAt s.trace k pdu ∧ (∀ j, k < j → ¬ AdmissionAt s.trace j) ∧
    Tells b s.setup (s.trace.take k) contiguous granted pdu ∧ index < granted

theorem Advertised.granted {b : Build} {s : Engine} (told : Told b s) {index : Nat} (advertised : Advertised b s index) :
    index < s.grantedEnd := by
  obtain ⟨k,pdu,c,g,sent,latest,tells,below⟩ := advertised
  obtain ⟨c',g',tells',-,granted⟩ := told.present k pdu sent latest
  obtain ⟨-,rfl⟩ := tells_unique tells tells'
  omega

/-! ### Slots against the window -/

/-- Distinct indices of a range are no more than its length. -/
theorem length_le_of_within {indices : List Nat} {low high : Nat} (distinct : indices.Nodup)
    (within : ∀ i ∈ indices, low ≤ i ∧ i < high) : indices.length ≤ high - low := by
  have inside : indices.toFinset ⊆ Finset.Ico low high := by
    intro i member
    exact Finset.mem_Ico.mpr (within i (List.mem_toFinset.mp member))
  have bound := Finset.card_le_card inside
  rwa [List.toFinset_card_of_nodup distinct,Nat.card_Ico] at bound

/-- The window is no wider than the slots that are there. -/
theorem countSlot_count (slots : Slots) (sized : Nat × Nat) :
    (slots.foldl countSlot sized).1 = sized.1 + slots.countP Option.isSome := by
  induction slots generalizing sized with
  | nil => rfl
  | cons first rest ih =>
    rw [List.foldl_cons,ih,List.countP_cons]
    cases first with
    | none => rfl
    | some slot =>
      simp only [countSlot,Option.isSome_some,if_true]
      omega

theorem configured_width (windowLimit : Nat) (limit_pos : 1 ≤ windowLimit) (limit_le : windowLimit ≤ kCompactWindowWidth)
    (connection : ConnectionAddress) (slots : Slots) (inactivityTimeoutMs : U32) :
    (configure windowLimit limit_pos limit_le connection slots inactivityTimeoutMs).build.config.receiveWindowWidth ≤
      (slots.take kCompactWindowWidth).countP Option.isSome := by
  have count := countSlot_count (slots.take kCompactWindowWidth) (0,65535)
  rw [Nat.zero_add] at count
  simp only [configure,ReceiverEngine.construct]
  split
  · rename_i clamped
    simp only [receiverEngineConfig,count] at clamped
    exact clamped.le
  · simp only [receiverEngineConfig,count]
    exact le_refl _

/-- Where every slot is occupied, at least as many segments wait as there are slots. -/
theorem taken_count {f : Nat → Option Bytes} {index : Nat} {slots : Slots}
    (taken : ∀ (j : Nat) (slot : PacketBuffer), slots[j]? = some (some slot) → (f (index + j)).isSome) :
    slots.countP Option.isSome ≤ ((List.range' index slots.length).filterMap f).length := by
  induction slots generalizing index with
  | nil => simp
  | cons first rest ih =>
    have behind : rest.countP Option.isSome ≤ ((List.range' (index + 1) rest.length).filterMap f).length := by
      refine ih ?_
      intro j slot there
      have place : index + 1 + j = index + (j + 1) := by omega
      rw [place]
      exact taken (j + 1) slot there
    rw [List.countP_cons,List.length_cons,List.range'_succ]
    cases first with
    | none =>
      refine behind.trans (List.Sublist.length_le ?_)
      exact (List.sublist_cons_self _ _).filterMap f
    | some slot =>
      obtain ⟨message,held⟩ := Option.isSome_iff_exists.mp (taken 0 slot rfl)
      rw [Nat.add_zero] at held
      rw [List.filterMap_cons_some held,List.length_cons]
      simpa using behind

/-- A full receiver has a segment waiting in every slot. -/
theorem full_pending {cfg : Config} {packet : PacketBuffer} {r : BitsReceiver}
    (matched : matchesConnection packet cfg.connection = true) (typed : hasType packet.payload .kSegment = true)
    (full : (receive cfg packet r).2 = .kFull) :
    (r.segmentIngress.take kCompactWindowWidth).countP Option.isSome ≤ (pendingSegments r).length := by
  rw [receive_segment matched typed] at full
  have placed := storeSegment_whole packet r
  dsimp only at full
  generalize storeSegment packet r.segmentOccupiedMask 0 (r.segmentIngress.take kCompactWindowWidth) false = stored at placed full
  cases placed with
  | accepted there clear copied => cases full
  | rejected small => cases full
  | full none taken =>
    have bound : (r.segmentIngress.take kCompactWindowWidth).countP Option.isSome ≤
        ((List.range' 0 (r.segmentIngress.take kCompactWindowWidth).length).filterMap (held r)).length := by
      refine taken_count ?_
      intro j slot there
      rw [held,if_pos (taken j slot there)]
      rfl
    refine bound.trans (List.Sublist.length_le ?_)
    rw [← List.range_eq_range',pendingSegments]
    refine List.Sublist.filterMap _ (List.range_sublist.mpr ?_)
    exact List.length_take_le _ _

/-- The slots of a receiver are there where those it was built with are. -/
theorem sound_count {cfg : Config} {slots : Slots} {r : BitsReceiver} (sound : Sound cfg slots r) :
    (r.segmentIngress.take kCompactWindowWidth).countP Option.isSome = (slots.take kCompactWindowWidth).countP Option.isSome := by
  have counted (l : Slots) : (l.take kCompactWindowWidth).countP Option.isSome =
      ((l.map (Option.map PacketBuffer.capacity)).take kCompactWindowWidth).countP Option.isSome := by
    rw [← List.map_take,List.countP_map]
    congr 1
    funext slot
    cases slot <;> rfl
  rw [counted,counted,sound.shape]

/-! ### The transfer's offers -/

/-- The segment PDU a call offers to a connection. -/
def segmentOf (cfg : Config) : Call → Option Bytes
  | .receive packet =>
    if matchesConnection packet cfg.connection && hasType packet.payload .kSegment then some packet.payload else none
  | _ => none

/-- A segment of the session, of the size its index asks for. -/
def Proper (setup : Setup) (message : Bytes) : Prop :=
  ∃ index, decodeSegmentHeaderKnownType message = some ⟨setup.sessionId,index⟩ ∧
    message.length = kSegmentHeaderSize + (expectedSize setup index).toNat

/-- The calls `more` behind an admission: the transfer stays the active one, and every offered segment
    is proper, inside a grant that was advertised before, and offered once. -/
structure Offers (cfg : Config) (start : BitsReceiver) (more : List Call) : Prop where
  active : ∀ n ≤ more.length, (run cfg start (more.take n)).engine.state = .kActive
  same : ∀ n ≤ more.length, admitted (run cfg start (more.take n)).engine = admitted start.engine
  proper : ∀ n message, more[n]?.bind (segmentOf cfg) = some message → Proper start.engine.setup message ∧
    Advertised cfg.build (run cfg start (more.take n)).engine (indexOf message)
  once : ((more.filterMap (segmentOf cfg)).map indexOf).Nodup

/-- Between the calls of such a run: what waits in the slots are distinct indices of the grant that were offered
    and not received, and nothing was received that was not offered. -/
structure Backed (cfg : Config) (slots : Slots) (setup : Setup) (offered : List Nat) (r : BitsReceiver) : Prop where
  sound : Sound cfg slots r
  active : r.engine.state = .kActive
  setup_is : r.engine.setup = setup
  distinct : ((pendingSegments r).map indexOf).Nodup
  waiting : ∀ message ∈ pendingSegments r, indexOf message < r.engine.grantedEnd ∧
    ¬ Received r.engine (indexOf message) ∧ indexOf message ∈ offered
  received : ∀ i, Received r.engine i → i ∈ offered

section backed
variable {cfg : Config} {slots : Slots} {setup : Setup} {offered : List Nat} {r : BitsReceiver}

theorem Sound.lifecycle (sound : Sound cfg slots r) : Lifecycle cfg.build r.engine := by
  obtain ⟨calls,reached,-⟩ := sound.reached
  rw [reached]
  exact run_lifecycle cfg.build calls

theorem Sound.told (sound : Sound cfg slots r) : Told cfg.build r.engine := by
  obtain ⟨calls,reached,-⟩ := sound.reached
  rw [reached]
  exact run_told cfg.build calls

theorem Backed.window (backed : Backed cfg slots setup offered r) : Window cfg.build r.engine := by
  obtain ⟨a,-,current⟩ := (Sound.lifecycle backed.sound).live (.inl backed.active)
  exact current.window

/-- A new index of the grant leaves a slot for it. -/
theorem Backed.count (backed : Backed cfg slots setup offered r) {index : Nat} (granted : index < r.engine.grantedEnd)
    (new : index ∉ offered) : (pendingSegments r).length + 1 ≤ cfg.build.config.receiveWindowWidth := by
  have grant := backed.window.granted
  have above (i : Nat) (unreceived : ¬ Received r.engine i) : r.engine.contiguousCount ≤ i := by
    by_contra below
    exact unreceived (.inl (by omega))
  have fresh : index ∉ (pendingSegments r).map indexOf := by
    intro member
    obtain ⟨message,waits,rfl⟩ := List.mem_map.mp member
    exact new (backed.waiting message waits).2.2
  have bound : (index :: (pendingSegments r).map indexOf).length ≤ r.engine.grantedEnd - r.engine.contiguousCount := by
    refine length_le_of_within (List.nodup_cons.mpr ⟨fresh,backed.distinct⟩) ?_
    intro i member
    rcases List.mem_cons.mp member with rfl | waits
    · exact ⟨above i (fun received => new (backed.received i received)),granted⟩
    · obtain ⟨message,inSlot,rfl⟩ := List.mem_map.mp waits
      obtain ⟨below,unreceived,-⟩ := backed.waiting message inSlot
      exact ⟨above _ unreceived,below⟩
  rw [List.length_cons,List.length_map] at bound
  omega

/-- A proper segment inside the grant is accepted. -/
theorem Backed.accepts (backed : Backed cfg slots setup offered r) {packet : PacketBuffer}
    (wide : cfg.build.config.receiveWindowWidth ≤ (slots.take kCompactWindowWidth).countP Option.isSome)
    (roomy : ∀ (j : Nat) (slot : PacketBuffer), j < kCompactWindowWidth → slots[j]? = some (some slot) →
      kSegmentHeaderSize + setup.segmentSize.toNat ≤ slot.capacity)
    (matched : matchesConnection packet cfg.connection = true) (typed : hasType packet.payload .kSegment = true)
    (proper : Proper setup packet.payload) (granted : indexOf packet.payload < r.engine.grantedEnd)
    (new : indexOf packet.payload ∉ offered) : (receive cfg packet r).2 = .kAccepted := by
  have fits : (receive cfg packet r).2 ≠ .kRejected := by
    obtain ⟨index,-,size⟩ := proper
    have final := backed.window.admissible.final_le
    rw [backed.setup_is] at final
    have bounded : (expectedSize setup index).toNat ≤ setup.segmentSize.toNat := by
      unfold expectedSize
      split
      · exact final
      · exact le_refl _
    rw [PacketBuffer.payload_length] at size
    refine receive_fits matched typed ?_
    intro j slot inside there
    obtain ⟨built,at_j,capacity⟩ := backed.sound.slot_capacity there
    have room := roomy j built inside at_j
    omega
  cases result : (receive cfg packet r).2 with
  | kAccepted => rfl
  | kRejected => exact absurd result fits
  | kFull =>
    have full := full_pending matched typed result
    have counted := sound_count backed.sound
    have free := backed.count granted new
    omega

theorem Backed.mono (backed : Backed cfg slots setup offered r) {later : List Nat} (more : offered ⊆ later) :
    Backed cfg slots setup later r :=
  ⟨backed.sound,backed.active,backed.setup_is,backed.distinct,fun message waits =>
    ⟨(backed.waiting message waits).1,(backed.waiting message waits).2.1,more (backed.waiting message waits).2.2⟩,
    fun i received => more (backed.received i received)⟩

/-- A call that takes `taken` out of the slots and receives at most that. -/
theorem Backed.move (backed : Backed cfg slots setup offered r) {r' : BitsReceiver} (sound : Sound cfg slots r')
    (active : r'.engine.state = .kActive) (kept : r'.engine.setup = r.engine.setup)
    (grows : r.engine.grantedEnd ≤ r'.engine.grantedEnd) {taken : List Bytes}
    (moved : (pendingSegments r).Perm (taken ++ pendingSegments r'))
    (gained : ∀ i, Received r'.engine i → Received r.engine i ∨ ∃ message ∈ taken, indexOf message = i) :
    Backed cfg slots setup offered r' := by
  have distinct := (moved.map indexOf).nodup_iff.mp backed.distinct
  rw [List.map_append,List.nodup_append] at distinct
  obtain ⟨-,left,apart⟩ := distinct
  refine ⟨sound,active,kept.trans backed.setup_is,left,?_,?_⟩
  · intro message waits
    obtain ⟨below,unreceived,known⟩ := backed.waiting message (moved.mem_iff.mpr (List.mem_append_right _ waits))
    refine ⟨below.trans_le grows,?_,known⟩
    intro received
    rcases gained _ received with old | ⟨other,member,same⟩
    · exact unreceived old
    · exact apart _ (List.mem_map_of_mem member) _ (List.mem_map_of_mem waits) same
  · intro i received
    rcases gained i received with old | ⟨message,member,rfl⟩
    · exact backed.received i old
    · exact (backed.waiting message (moved.mem_iff.mpr (List.mem_append_left _ member))).2.2

/-- An engine call that hands no segment over. -/
theorem Backed.settle (backed : Backed cfg slots setup offered r) (c : ReceiverEngine.Call) (env : Environment)
    (taken : List Bytes) {r' : BitsReceiver} (sound : Sound cfg slots r') (engine : r'.engine = (ReceiverEngine.call cfg.build r.engine (c,env)).1)
    (other : ∀ message nowMs, c ≠ .process message nowMs) (active : r'.engine.state = .kActive)
    (same : admitted r'.engine = admitted r.engine) (moved : (pendingSegments r).Perm (taken ++ pendingSegments r')) : Backed cfg slots setup offered r' := by
  have carries := call_carries (Sound.lifecycle backed.sound) c env
  rw [← engine] at carries
  obtain ⟨-,setupIs,granted,gained⟩ := carries.kept same.symm active
  refine backed.move sound active setupIs granted moved ?_
  intro i received
  rcases gained i received with old | ⟨message,nowMs,called,-⟩
  · exact .inl old
  · exact absurd called (other message nowMs)

/-- A `process` call that detects expiry leaves the engine its poll made. -/
theorem expired_engine (segmentAnswers datagramAnswers : Answers) (nowMs : U32)
    (expired : (ReceiverEngine.poll cfg.build (environment cfg segmentAnswers r) nowMs r.engine).2 = .kError) :
    (process cfg segmentAnswers datagramAnswers nowMs r).1.engine =
      (ReceiverEngine.call cfg.build r.engine (.poll nowMs,environment cfg segmentAnswers r)).1 := by
  simp only [process]
  rw [if_pos expired]
  exact (ReceiverEffects.settle_ingress cfg segmentAnswers _ r).2

theorem Backed.process (backed : Backed cfg slots setup offered r) (segmentAnswers datagramAnswers : Answers) (nowMs : U32)
    (active : (process cfg segmentAnswers datagramAnswers nowMs r).1.engine.state = .kActive)
    (same : admitted (process cfg segmentAnswers datagramAnswers nowMs r).1.engine = admitted r.engine) :
    Backed cfg slots setup offered (process cfg segmentAnswers datagramAnswers nowMs r).1 := by
  have sound := call_sound backed.sound (.process segmentAnswers datagramAnswers nowMs)
  change Sound cfg slots (Receiver.process cfg segmentAnswers datagramAnswers nowMs r).1 at sound
  by_cases expired : (ReceiverEngine.poll cfg.build (environment cfg segmentAnswers r) nowMs r.engine).2 = .kError
  · have engine := expired_engine segmentAnswers datagramAnswers nowMs expired
    obtain ⟨-,none,-⟩ := process_expired segmentAnswers datagramAnswers nowMs expired
    have gone := (List.append_eq_nil_iff.mp none).1
    refine backed.settle _ _ (pendingSegments r) sound engine (by simp) active same ?_
    rw [gone,List.append_nil]
  · obtain ⟨segments,datagrams,drains,-,-⟩ := process_drains (r := r) segmentAnswers datagramAnswers nowMs expired
    obtain ⟨messages,brought,engine⟩ := drains.messages
    have kept := (fed_kept (Sound.lifecycle backed.sound) nowMs messages).2
    rw [← engine] at kept
    obtain ⟨-,setupIs,granted,gained⟩ := kept same.symm active
    refine backed.move sound active setupIs granted drains.fromSlots ?_
    intro i received
    rcases gained i received with old | ⟨message,member,typed,index⟩
    · exact .inl old
    · rw [brought] at member
      rcases List.mem_append.mp member with segment | datagram
      · exact .inr ⟨message,segment,index⟩
      · rw [(backed.sound.drained_typed drains).2 message datagram] at typed
        cases typed

/-- An offered segment joins what waits; any other packet leaves the slots alone. -/
theorem Backed.receive (backed : Backed cfg slots setup offered r) (packet : PacketBuffer)
    (new : ∀ message, segmentOf cfg (.receive packet) = some message →
      indexOf message < r.engine.grantedEnd ∧ indexOf message ∉ offered) :
    Backed cfg slots setup (offered ++ ((segmentOf cfg (.receive packet)).toList.map indexOf)) (receive cfg packet r).1 := by
  have sound := call_sound backed.sound (.receive packet)
  change Sound cfg slots (Receiver.receive cfg packet r).1 at sound
  have more := backed.mono (List.subset_append_left offered ((segmentOf cfg (.receive packet)).toList.map indexOf))
  by_cases matched : matchesConnection packet cfg.connection = true
  case neg =>
    rw [Bool.not_eq_true] at matched
    have same : Receiver.receive cfg packet r = (r,.kRejected) := by rw [Receiver.receive,matched]
    rw [same]
    exact more
  have answer := receive_offered cfg packet r
  generalize Receiver.receive cfg packet r = result at answer sound
  cases answer with
  | refused other => exact more
  | datagram other free copied =>
    exact ⟨sound,more.active,more.setup_is,more.distinct,more.waiting,more.received⟩
  | @segment index slot copy typed inside there clear copied =>
    have offers : segmentOf cfg (.receive packet) = some packet.payload := by simp [segmentOf,matched,typed]
    obtain ⟨granted,fresh⟩ := new packet.payload offers
    have joined := stored_pending inside there clear copied
    rw [offers] at more ⊢
    refine ⟨sound,more.active,more.setup_is,?_,?_,more.received⟩
    · refine (joined.map indexOf).nodup_iff.mpr (List.nodup_cons.mpr ⟨?_,more.distinct⟩)
      intro member
      obtain ⟨message,waits,same⟩ := List.mem_map.mp member
      exact fresh (same ▸ (backed.waiting message waits).2.2)
    · intro message waits
      rcases List.mem_cons.mp (joined.mem_iff.mp waits) with rfl | old
      · exact ⟨granted,fun received => fresh (backed.received _ received),by simp⟩
      · exact more.waiting message old

/-- Every call keeps the slots backed while the transfer stays the active one. -/
theorem Backed.call (backed : Backed cfg slots setup offered r) (c : Call)
    (active : (call cfg r c).engine.state = .kActive) (same : admitted (call cfg r c).engine = admitted r.engine)
    (new : ∀ message, segmentOf cfg c = some message → indexOf message < r.engine.grantedEnd ∧ indexOf message ∉ offered) :
    Backed cfg slots setup (offered ++ (segmentOf cfg c).toList.map indexOf) (call cfg r c) := by
  have sound := call_sound backed.sound c
  cases c with
  | receive packet => exact backed.receive packet new
  | process segmentAnswers datagramAnswers nowMs =>
    rw [show segmentOf cfg (.process segmentAnswers datagramAnswers nowMs) = none from rfl,Option.toList_none,List.map_nil,
      List.append_nil]
    exact backed.process segmentAnswers datagramAnswers nowMs active same
  | abort answers =>
    rw [show segmentOf cfg (.abort answers) = none from rfl]
    obtain ⟨kept,engine⟩ := ReceiverEffects.settle_ingress cfg answers
      (ReceiverEngine.abort (environment cfg answers r) r.engine).1 r
    have settled := backed.settle .abort (environment cfg answers r) [] sound engine
      (by simp) active same (.of_eq (pending_congr kept).1.symm)
    simpa using settled
  | sendDatagram answers payload =>
    rw [show segmentOf cfg (.sendDatagram answers payload) = none from rfl]
    obtain ⟨kept,engine⟩ := ReceiverEffects.settle_ingress cfg answers
      (ReceiverEngine.sendDatagram (sender cfg answers r) payload r.engine).1 r
    have settled := backed.settle (.sendDatagram payload) (environment cfg answers r) [] sound engine
      (by simp) active same (.of_eq (pending_congr kept).1.symm)
    simpa using settled

/-- An admission with empty slots is backed: the new transfer has received nothing. -/
theorem backed_start (sound : Sound cfg slots r) (segmentAnswers datagramAnswers : Answers) (nowMs : U32)
    (opened : admitted r.engine < admitted (process cfg segmentAnswers datagramAnswers nowMs r).1.engine)
    (active : (process cfg segmentAnswers datagramAnswers nowMs r).1.engine.state = .kActive)
    (empty : (process cfg segmentAnswers datagramAnswers nowMs r).1.segmentOccupiedMask = 0) :
    Backed cfg slots (process cfg segmentAnswers datagramAnswers nowMs r).1.engine.setup []
      (process cfg segmentAnswers datagramAnswers nowMs r).1 := by
  have none : pendingSegments (process cfg segmentAnswers datagramAnswers nowMs r).1 = [] := by
    refine List.filterMap_eq_nil_iff.mpr ?_
    intro j _
    rw [held,empty]
    simp
  have life := Sound.lifecycle sound
  have nothing : ∀ i, ¬ Received (process cfg segmentAnswers datagramAnswers nowMs r).1.engine i := by
    by_cases expired : (ReceiverEngine.poll cfg.build (environment cfg segmentAnswers r) nowMs r.engine).2 = .kError
    · have carries := call_carries life (.poll nowMs) (environment cfg segmentAnswers r)
      rw [← expired_engine segmentAnswers datagramAnswers nowMs expired] at carries
      exact (carries.opened opened).2 active
    · obtain ⟨segments,datagrams,drains,-,-⟩ := process_drains (r := r) segmentAnswers datagramAnswers nowMs expired
      obtain ⟨messages,brought,engine⟩ := drains.messages
      obtain ⟨before,behind,rfl,segmentsAre,datagramsAre⟩ := List.map_eq_append_iff.mp brought
      -- The segment opens nothing, so the message behind it did.
      have typed : ∀ m ∈ before, hasType m.1 .kSegment = true := by
        intro m member
        exact (sound.drained_typed drains).1 m.1 (segmentsAre ▸ List.mem_map_of_mem member)
      obtain ⟨same,between⟩ := segments_open_none life nowMs typed
      have split : fed cfg.build nowMs (before ++ behind) r.engine =
          fed cfg.build nowMs behind (fed cfg.build nowMs before r.engine) := List.foldl_append
      rw [engine,split] at opened active ⊢
      have one := drains.one_datagram
      rw [← datagramsAre,List.length_map] at one
      cases behind with
      | nil =>
        change admitted r.engine < admitted (fed cfg.build nowMs before r.engine) at opened
        omega
      | cons m rest =>
        obtain rfl : rest = [] := List.length_eq_zero_iff.mp (by simpa using one)
        have carries := call_carries between (.process m.1 nowMs) m.2
        exact (carries.opened (same ▸ opened)).2 active
  have kept := call_sound sound (.process segmentAnswers datagramAnswers nowMs)
  exact ⟨kept,active,rfl,by simp [none],by simp [none],fun i received => absurd received (nothing i)⟩

/-- What is offered was not offered before. -/
theorem Offers.new {start : BitsReceiver} {more : List Call} (offers : Offers cfg start more) {n : Nat} {c : Call}
    {message : Bytes} (at_n : more[n]? = some c) (offered : segmentOf cfg c = some message) :
    indexOf message ∉ ((more.take n).filterMap (segmentOf cfg)).map indexOf := by
  have once := offers.once.sublist (((List.take_sublist (n + 1) more).filterMap (segmentOf cfg)).map indexOf)
  rw [List.take_add_one,at_n,Option.toList_some,List.filterMap_append,List.map_append,List.filterMap_cons_some offered,
    List.filterMap_nil,List.map_singleton,List.nodup_append] at once
  intro member
  exact once.2.2 _ member _ (List.mem_singleton_self _) rfl

/-- The calls of a run keep the slots backed. -/
theorem Offers.backed {start : BitsReceiver} {more : List Call} (offers : Offers cfg start more)
    (backed : Backed cfg slots start.engine.setup [] start) {n : Nat} (inside : n ≤ more.length) :
    Backed cfg slots start.engine.setup (((more.take n).filterMap (segmentOf cfg)).map indexOf)
      (run cfg start (more.take n)) := by
  induction n with
  | zero => exact backed
  | succ n ih =>
    have before := ih (by omega)
    have active := offers.active (n + 1) inside
    have same := (offers.same (n + 1) inside).trans (offers.same n (by omega)).symm
    obtain ⟨c,at_n⟩ : ∃ c, more[n]? = some c := ⟨more[n],List.getElem?_eq_getElem inside⟩
    have longer : more.take (n + 1) = more.take n ++ [c] := by rw [List.take_add_one,at_n]; rfl
    have stepped : run cfg start (more.take n ++ [c]) = call cfg (run cfg start (more.take n)) c := List.foldl_append
    rw [longer,stepped] at active same ⊢
    have after := before.call c active same (by
      intro message offered
      obtain ⟨-,advertised⟩ := offers.proper n message (by rw [at_n]; exact offered)
      exact ⟨advertised.granted (Sound.told before.sound),offers.new at_n offered⟩)
    have appended : ((more.take n ++ [c]).filterMap (segmentOf cfg)).map indexOf =
        ((more.take n).filterMap (segmentOf cfg)).map indexOf ++ (segmentOf cfg c).toList.map indexOf := by
      rw [List.filterMap_append,List.map_append]
      cases offered : segmentOf cfg c with
      | none => rw [List.filterMap_cons_none offered,Option.toList_none,List.filterMap_nil]
      | some message => rw [List.filterMap_cons_some offered,Option.toList_some,List.filterMap_nil]
    rw [appended]
    exact after

end backed

/-- A transfer admitted with empty segment slots: as long as it stays the active one, every segment
    of the session that is sized by its index, lies below a granted end some ACK showed
    before, and is offered once, is accepted. -/
theorem grants_backed (windowLimit : Nat) (limit_pos : 1 ≤ windowLimit) (limit_le : windowLimit ≤ kCompactWindowWidth)
    (connection : ConnectionAddress) (slots : Slots) (datagramIngress transmitPacket : PacketBuffer)
    (inactivityTimeoutMs : U32) (before : List Call) (segmentAnswers datagramAnswers : Answers) (nowMs : U32) (more : List Call) :
    let cfg := configure windowLimit limit_pos limit_le connection slots inactivityTimeoutMs
    let idle := run cfg (fresh slots datagramIngress transmitPacket) before
    let start := call cfg idle (.process segmentAnswers datagramAnswers nowMs)
    admitted idle.engine < admitted start.engine → start.engine.state = .kActive → start.segmentOccupiedMask = 0 →
    Offers cfg start more → ∀ n packet, more[n]? = some (.receive packet) →
      (segmentOf cfg (.receive packet)).isSome → (receive cfg packet (run cfg start (more.take n))).2 = .kAccepted := by
  intro cfg idle start opened active empty offers n packet at_n isSegment
  have sound : Sound cfg slots idle := run_sound (sound_fresh cfg slots datagramIngress transmitPacket) before
  have inside := (List.getElem?_eq_some_iff.mp at_n).1
  have backed := offers.backed (backed_start sound segmentAnswers datagramAnswers nowMs opened active empty) inside.le
  obtain ⟨message,offered⟩ := Option.isSome_iff_exists.mp isSegment
  obtain ⟨proper,advertised⟩ := offers.proper n message (by rw [at_n]; exact offered)
  have unseen := offers.new at_n offered
  simp only [segmentOf] at offered
  split at offered
  case isFalse => cases offered
  case isTrue both =>
    obtain ⟨matched,typed⟩ := Bool.and_eq_true_iff.mp both
    obtain rfl := Option.some.inj offered
    have admissible : Admissible cfg.build start.engine.setup := backed.setup_is ▸ backed.window.admissible
    refine backed.accepts (configured_width windowLimit limit_pos limit_le connection slots inactivityTimeoutMs) ?_ matched
      typed proper (advertised.granted (Sound.told backed.sound)) unseen
    intro j slot below there
    exact slot_room admissible below there

/-- Any ACK of the current transfer shows at least the first window. -/
theorem advertised_first {b : Build} {s : Engine} (told : Told b s) (k : Nat) (pdu : Bytes) (sent : AckAt s.trace k pdu)
    (last : (s.trace.drop (k + 1)).countP accepts = 0) {index : Nat} (known : index ≤ s.setup.finalSegmentIndex.toNat)
    (first : index < b.config.receiveWindowWidth) : Advertised b s index := by
  have latest : ∀ j, k < j → ¬ AdmissionAt s.trace j := by
    rintro j behind ⟨info,at_j⟩
    have member : Event.callback (.beginTransfer info .kAccepted) ∈ s.trace.drop (k + 1) := by
      refine List.mem_of_getElem? (i := j - (k + 1)) ?_
      rw [List.getElem?_drop,Nat.add_sub_cancel' behind]
      exact at_j
    exact List.countP_eq_zero.mp last _ member rfl
  obtain ⟨c,g,tells,-,-⟩ := told.present k pdu sent latest
  refine ⟨k,pdu,c,g,sent,latest,tells,?_⟩
  obtain ⟨-,-,-,granted,-⟩ := tells
  omega

def twoSlots : Config := configure 2 (by decide) (by decide) hostTwo mixedSlots 0

/-- The receiver before and behind the admission. -/
def asked : BitsReceiver :=
  run twoSlots (fresh mixedSlots (.define 16 PacketBuffer.sixteen_fits) (.define 8 PacketBuffer.eight_fits)) [.receive setupPacket]
def begun : BitsReceiver := call twoSlots asked (.process agreeing agreeing 0)

/-- Both granted segments arrive out of order before the first is drained. -/
def outOfOrder : List Call :=
  [.receive (segmentPacket 1 0xBB),.receive (segmentPacket 0 0xAA),.process agreeing agreeing 1,.process agreeing agreeing 2]

theorem outOfOrder_offers : Offers twoSlots begun outOfOrder := by
  refine ⟨by decide +kernel,by decide +kernel,?_,by decide +kernel⟩
  have sound (n : Nat) : Sound twoSlots mixedSlots (run twoSlots begun (outOfOrder.take n)) := by
    refine run_sound (call_sound (run_sound ?_ _) _) _
    exact sound_fresh twoSlots mixedSlots _ _
  intro n message offered
  match n with
  | 0 =>
    obtain rfl := Option.some.inj offered
    refine ⟨⟨1,by decide,by decide⟩,?_⟩
    refine advertised_first (Sound.told (sound 0)) 1 [2,9,0,0,1,255] ⟨by decide,.kSent,?_⟩ ?_ ?_ ?_
    all_goals decide +kernel
  | 1 =>
    obtain rfl := Option.some.inj offered
    refine ⟨⟨0,by decide,by decide⟩,?_⟩
    refine advertised_first (Sound.told (sound 1)) 1 [2,9,0,0,1,255] ⟨by decide,.kSent,?_⟩ ?_ ?_ ?_
    all_goals decide +kernel
  | 2 => cases offered
  | 3 => cases offered
  | n + 4 => simp [outOfOrder] at offered

theorem both_granted_segments_accepted :
    (receive twoSlots (segmentPacket 1 0xBB) (run twoSlots begun (outOfOrder.take 0))).2 = .kAccepted ∧
      (receive twoSlots (segmentPacket 0 0xAA) (run twoSlots begun (outOfOrder.take 1))).2 = .kAccepted :=
  have all := grants_backed 2 (by decide) (by decide) hostTwo mixedSlots (.define 16 (by decide)) (.define 8 (by decide)) 0
    [.receive setupPacket] agreeing agreeing 0 outOfOrder (by decide +kernel) (by decide +kernel) (by decide +kernel)
    outOfOrder_offers
  ⟨all 0 _ rfl (by decide),all 1 _ rfl (by decide)⟩

end WireSpaces.ReceiverBacking
