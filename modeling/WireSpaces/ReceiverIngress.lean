import WireSpaces.Geometry
import WireSpaces.ReceiverEffects

/-!
The receiver's ingress over whole runs. What `receive` accepted is, at every moment,
what was handed to the engine, what an expiry discarded and what still waits in
the slots: nothing is lost, duplicated or overwritten.
-/
namespace WireSpaces.ReceiverIngress
open WireSpaces.Words WireSpaces.Codec WireSpaces.Packet WireSpaces.Receiver WireSpaces.ReceiverEffects
open WireSpaces.ReceiverSteps WireSpaces.ReceiverLifecycle
open WireSpaces.ReceiverEngine (Build Environment ProcessResult)
open WireSpaces.Transmitter (matchesConnection)

/-! ### Calls and runs -/

/-- A public call, with the answers it gets. -/
inductive Call where
  | receive (packet : PacketBuffer)
  | process (segmentAnswers datagramAnswers : Answers) (nowMs : U32)
  | abort (answers : Answers)
  | sendDatagram (answers : Answers) (payload : Bytes)

def Call.receives : Call → Bool
  | .receive _ => true
  | _ => false

def Call.processes : Call → Bool
  | .process _ _ _ => true
  | _ => false

/-- A constructed receiver over its storage. -/
def fresh (segmentIngress : Slots) (datagramIngress transmitPacket : PacketBuffer) : BitsReceiver where
  segmentIngress := segmentIngress
  datagramIngress := datagramIngress
  transmitPacket := transmitPacket

section calls
variable (cfg : Config)

def call (r : BitsReceiver) : Call → BitsReceiver
  | .receive packet => (receive cfg packet r).1
  | .process segmentAnswers datagramAnswers nowMs => (process cfg segmentAnswers datagramAnswers nowMs r).1
  | .abort answers => (abort cfg answers r).1
  | .sendDatagram answers payload => (sendDatagram cfg answers payload r).1

def run (r : BitsReceiver) (calls : List Call) : BitsReceiver := calls.foldl (call cfg) r

/-! ### What a run accepts, discards and still holds -/

/-- The payload behind an occupancy bit. -/
def held (r : BitsReceiver) (index : Nat) : Option Bytes :=
  if r.segmentOccupiedMask.getLsbD index then
    some (((r.segmentIngress.getD index none).map PacketBuffer.payload).getD [])
  else none

def pendingSegments (r : BitsReceiver) : List Bytes := (List.range kCompactWindowWidth).filterMap (held r)

def pendingDatagrams (r : BitsReceiver) : List Bytes := if r.datagramOccupied then [r.datagramIngress.payload] else []

/-- Everything that waits for `process`. -/
def pending (r : BitsReceiver) : List Bytes := pendingSegments r ++ pendingDatagrams r

/-- The PDU for which a call returned `kAccepted`. -/
def accepted (r : BitsReceiver) : Call → List Bytes
  | .receive packet => if (receive cfg packet r).2 = .kAccepted then [packet.payload] else []
  | _ => []

/-- A `process` call whose expiry check fails the transfer. -/
def expires (r : BitsReceiver) : Call → Bool
  | .process segmentAnswers _ nowMs =>
    (ReceiverEngine.poll cfg.build (environment cfg segmentAnswers r) nowMs r.engine).2 == .kError
  | _ => false

/-- What that call discards. -/
def discarded (r : BitsReceiver) (c : Call) : List Bytes := if expires cfg r c then pending r else []

/-- One account of every call of a run, in order. -/
def gathered (of : BitsReceiver → Call → List Bytes) : BitsReceiver → List Call → List Bytes
  | _, [] => []
  | r, c :: calls => of r c ++ gathered of (call cfg r c) calls

end calls

/-! ### Slots -/

/-- One more occupied place is one more element, wherever it stands. -/
theorem filterMap_fill {α : Type} {f g : Nat → Option α} {count place : Nat} {value : α} (inside : place < count)
    (empty : f place = none) (full : g place = some value) (others : ∀ j, j ≠ place → g j = f j) :
    ((List.range count).filterMap g).Perm (value :: (List.range count).filterMap f) := by
  induction count with
  | zero => cases inside
  | succ count ih =>
    rw [List.range_succ,List.filterMap_append,List.filterMap_append]
    by_cases last : place = count
    · have same : (List.range count).filterMap g = (List.range count).filterMap f := by
        refine List.filterMap_congr ?_
        intro j member
        have below := List.mem_range.mp member
        exact others j (by omega)
      subst last
      rw [same]
      simp only [List.filterMap_cons,List.filterMap_nil,empty,full,List.append_nil]
      exact List.perm_append_singleton value _
    · have behind : [count].filterMap g = [count].filterMap f := by
        simp only [List.filterMap_cons,List.filterMap_nil,others count (Ne.symm last)]
      rw [behind]
      exact (ih (by omega)).append_right _

/-- What the slot loop did. -/
inductive Placed (packet : PacketBuffer) (mask : U16) (index : Nat) (slots : Slots) (seen : Bool) :
    Slots × U16 × ReceiveResult → Prop where
  | accepted {j : Nat} {slot copy : PacketBuffer} (there : slots[j]? = some (some slot))
      (clear : mask.getLsbD (index + j) = false) (copied : PacketBuffer.copyPacket packet slot = some copy) :
      Placed packet mask index slots seen (slots.set j (some copy),mask ||| (1#16 <<< (index + j)),.kAccepted)
  | full (none : seen = false) (taken : ∀ (j : Nat) (slot : PacketBuffer), slots[j]? = some (some slot) → mask.getLsbD (index + j) = true) :
      Placed packet mask index slots seen (slots,mask,.kFull)
  | rejected (small : seen = true ∨
        ∃ (j : Nat) (slot : PacketBuffer), slots[j]? = some (some slot) ∧ PacketBuffer.copyPacket packet slot = none) :
      Placed packet mask index slots seen (slots,mask,.kRejected)

/-- Passing by a slot that is null or occupied. -/
theorem Placed.pass {packet : PacketBuffer} {mask : U16} {index : Nat} {rest : Slots} {seen : Bool}
    {stored : Slots × U16 × ReceiveResult} (behind : Placed packet mask (index + 1) rest seen stored)
    {first : Option PacketBuffer} (busy : ∀ slot, first = some slot → mask.getLsbD index = true) :
    Placed packet mask index (first :: rest) seen (first :: stored.1,stored.2) := by
  cases behind with
  | @accepted j slot copy there clear copied =>
    have place : index + 1 + j = index + (j + 1) := by omega
    rw [place] at clear ⊢
    exact .accepted (j := j + 1) there clear copied
  | full none taken =>
    refine .full none ?_
    intro j slot there
    cases j with
    | zero =>
      simp only [List.getElem?_cons_zero,Option.some.injEq] at there
      exact busy slot there
    | succ j =>
      rw [← taken j slot there]
      congr 1
      omega
  | rejected small =>
    refine .rejected (small.imp_right ?_)
    rintro ⟨j,slot,there,fails⟩
    exact ⟨j + 1,slot,there,fails⟩

theorem storeSegment_placed (packet : PacketBuffer) (mask : U16) {index : Nat} {slots : Slots} (seen : Bool)
    (inside : index + slots.length ≤ 16) :
    Placed packet mask index slots seen (storeSegment packet mask index slots seen) := by
  fun_induction storeSegment packet mask index slots seen with
  | case1 index seen =>
    cases seen with
    | false =>
      refine .full rfl ?_
      intro j slot there
      simp at there
    | true => exact .rejected (.inl rfl)
  | case2 index rest seen stored ih =>
    rw [List.length_cons] at inside
    exact (ih (by omega)).pass (fun slot same => by cases same)
  | case3 index slot rest seen occupied stored ih =>
    rw [List.length_cons] at inside
    refine (ih (by omega)).pass ?_
    intro _ _
    by_contra clear
    exact occupied ((and_bit_eq_zero mask (by omega)).mpr (by simpa using clear))
  | case4 index slot rest seen free copy copied =>
    rw [List.length_cons] at inside
    have clear := (and_bit_eq_zero mask (n := index) (by omega)).mp (not_not.mp free)
    exact .accepted (j := 0) rfl clear copied
  | case5 index slot rest seen free refused stored ih =>
    rw [List.length_cons] at inside
    -- Behind a free slot that is too small nothing is full any more.
    have behind := ih (by omega)
    change Placed packet mask (index + 1) rest true stored at behind
    have place (j : Nat) : index + 1 + j = index + (j + 1) := by omega
    generalize stored = stored at behind
    cases behind with
    | @accepted j slot' copy there clear copied =>
      rw [place] at clear ⊢
      exact .accepted (j := j + 1) there clear copied
    | full none taken => cases none
    | rejected small => exact .rejected (.inr ⟨0,slot,rfl,refused⟩)

/-! ### Receiving -/

section receiving
variable {cfg : Config} {packet : PacketBuffer} {r : BitsReceiver}

/-- A segment of the connection goes through the slot loop. -/
theorem receive_segment (matched : matchesConnection packet cfg.connection = true)
    (typed : hasType packet.payload .kSegment = true) :
    receive cfg packet r =
      let stored := storeSegment packet r.segmentOccupiedMask 0 (r.segmentIngress.take kCompactWindowWidth) false
      ({ r with
        segmentIngress := stored.1 ++ r.segmentIngress.drop kCompactWindowWidth,
        segmentOccupiedMask := stored.2.1 },stored.2.2) := by
  unfold receive
  rw [matched]
  cases bytes : packet.payload with
  | nil =>
    rw [bytes] at typed
    simp [hasType] at typed
  | cons first rest =>
    rw [bytes,hasType_cons] at typed
    subst typed
    rfl

/-- The slot loop on the whole list of slots. -/
theorem storeSegment_whole (packet : PacketBuffer) (r : BitsReceiver) :
    Placed packet r.segmentOccupiedMask 0 (r.segmentIngress.take kCompactWindowWidth) false
      (storeSegment packet r.segmentOccupiedMask 0 (r.segmentIngress.take kCompactWindowWidth) false) := by
  refine storeSegment_placed packet r.segmentOccupiedMask false ?_
  simp [kCompactWindowWidth]

/-- A received packet is refused and changes nothing, or is copied into a free place of its kind. -/
inductive Offered (packet : PacketBuffer) (r : BitsReceiver) : BitsReceiver × ReceiveResult → Prop where
  | refused {result : ReceiveResult} (other : result ≠ .kAccepted) : Offered packet r (r,result)
  | datagram {copy : PacketBuffer} (other : hasType packet.payload .kSegment = false) (free : r.datagramOccupied = false)
      (copied : PacketBuffer.copyPacket packet r.datagramIngress = some copy) :
      Offered packet r ({ r with datagramIngress := copy, datagramOccupied := true },.kAccepted)
  | segment {index : Nat} {slot copy : PacketBuffer} (typed : hasType packet.payload .kSegment = true) (inside : index < 16)
      (there : r.segmentIngress[index]? = some (some slot)) (clear : r.segmentOccupiedMask.getLsbD index = false)
      (copied : PacketBuffer.copyPacket packet slot = some copy) :
      Offered packet r ({ r with
        segmentIngress := r.segmentIngress.set index (some copy),
        segmentOccupiedMask := r.segmentOccupiedMask ||| (1#16 <<< index) },.kAccepted)

theorem stored_offered (typed : hasType packet.payload .kSegment = true) {stored : Slots × U16 × ReceiveResult}
    (placed : Placed packet r.segmentOccupiedMask 0 (r.segmentIngress.take kCompactWindowWidth) false stored) :
    Offered packet r ({ r with
      segmentIngress := stored.1 ++ r.segmentIngress.drop kCompactWindowWidth,
      segmentOccupiedMask := stored.2.1 },stored.2.2) := by
  cases placed with
  | @accepted j slot copy there clear copied =>
    rw [List.getElem?_take] at there
    split at there
    case isFalse => cases there
    case isTrue inside =>
      have place : j < (r.segmentIngress.take kCompactWindowWidth).length := by
        rw [List.length_take]
        exact lt_min inside (List.getElem?_eq_some_iff.mp there).1
      have whole : (r.segmentIngress.take kCompactWindowWidth).set j (some copy) ++
          r.segmentIngress.drop kCompactWindowWidth = r.segmentIngress.set j (some copy) := by
        rw [← List.set_append_left _ _ place,List.take_append_drop]
      rw [Nat.zero_add] at clear ⊢
      rw [whole]
      exact .segment typed inside there clear copied
  | full none taken =>
    rw [List.take_append_drop]
    exact .refused (by simp)
  | rejected small =>
    rw [List.take_append_drop]
    exact .refused (by simp)

theorem receive_offered (cfg : Config) (packet : PacketBuffer) (r : BitsReceiver) :
    Offered packet r (receive cfg packet r) := by
  by_cases matched : matchesConnection packet cfg.connection = true
  case neg =>
    rw [Bool.not_eq_true] at matched
    rw [receive,matched]
    exact .refused (by decide)
  by_cases typed : hasType packet.payload .kSegment = true
  · rw [receive_segment matched typed]
    exact stored_offered typed (storeSegment_whole packet r)
  · rw [Bool.not_eq_true] at typed
    unfold receive
    rw [matched]
    cases bytes : packet.payload with
    | nil => exact .refused (by decide)
    | cons first rest =>
      dsimp only
      cases decoded : decodeControl first with
      | none => exact .refused (by decide)
      | some control =>
        have other : control.type ≠ .kSegment := by
          intro same
          rw [bytes,decodeControl_eq_some decoded,hasType_encodeControl,same] at typed
          simp at typed
        dsimp only
        rw [if_pos other]
        by_cases busy : r.datagramOccupied = true
        · rw [if_pos busy]
          exact .refused (by decide)
        · rw [if_neg busy]
          cases copied : PacketBuffer.copyPacket packet r.datagramIngress with
          | none => exact .refused (by decide)
          | some copy => exact .datagram typed (by simpa using busy) copied

end receiving

/-! ### Draining -/

section draining
variable {cfg : Config} {answers : Answers} {r : BitsReceiver}

theorem settle_handed (cfg : Config) (answers : Answers) (engine : ReceiverEngine.Engine) (r : BitsReceiver) :
    (settle cfg answers engine r).handed = r.handed := by
  suffices all : ∀ (sent : List Bytes) (r : BitsReceiver),
      (sent.foldl (fun r pdu => forward cfg answers pdu r) r).handed = r.handed by
    exact all _ { r with engine := engine }
  intro sent
  induction sent with
  | nil => exact fun r => rfl
  | cons pdu sent ih =>
    intro r
    refine (ih (forward cfg answers pdu r)).trans ?_
    unfold forward
    split <;> rfl

theorem pending_congr {r r' : BitsReceiver} (same : ingress r' = ingress r) :
    pendingSegments r' = pendingSegments r ∧ pendingDatagrams r' = pendingDatagrams r := by
  simp only [ingress,Prod.mk.injEq] at same
  obtain ⟨slots,mask,datagram,occupied,-⟩ := same
  refine ⟨?_,?_⟩
  · have each : held r' = held r := by
      funext index
      simp only [held,slots,mask]
    rw [pendingSegments,pendingSegments,each]
  · rw [pendingDatagrams,pendingDatagrams,datagram,occupied]

theorem lowestOccupied_some {mask : U16} {index : Nat} (found : lowestOccupied mask = some index) :
    index < 16 ∧ mask.getLsbD index = true := by
  have inside : index < 16 := List.mem_range.mp (List.mem_of_find?_eq_some found)
  have set := List.find?_some found
  rw [bne_iff_ne] at set
  refine ⟨inside,?_⟩
  by_contra clear
  exact set ((and_bit_eq_zero mask inside).mpr (by simpa using clear))

theorem lowestOccupied_none {mask : U16} (none : lowestOccupied mask = none) (j : Nat) : mask.getLsbD j = false := by
  by_cases inside : j < 16
  · have clear := List.find?_eq_none.mp none j (List.mem_range.mpr inside)
    simp only [bne_iff_ne,ne_eq,not_not] at clear
    exact (and_bit_eq_zero mask inside).mp clear
  · exact BitVec.getLsbD_of_ge mask j (by omega)

/-- Clearing one bit clears no other. -/
theorem cleared_bit (mask : U16) (index j : Nat) :
    (mask &&& ~~~(1#16 <<< index)).getLsbD j = (mask.getLsbD j && decide (j ≠ index)) := by
  by_cases inside : j < 16
  · rw [BitVec.getLsbD_and,BitVec.getLsbD_not,testBit_shiftLeft_one]
    simp [inside]
  · rw [BitVec.getLsbD_of_ge _ j (by omega),BitVec.getLsbD_of_ge mask j (by omega)]
    rfl

/-- An engine after messages of one moment, each with the answers it got. -/
def fed (b : Build) (nowMs : U32) (messages : List (Bytes × Environment)) (s : ReceiverEngine.Engine) : ReceiverEngine.Engine :=
  messages.foldl (fun s message => (ReceiverEngine.process b message.2 message.1 nowMs s).1) s

/-- What one `process` call hands over: `segments` from the slots and `datagrams`
    from the datagram slot, at most one of each, and one of each that waits. The engine
    it leaves is the one that processed exactly these, each with its side's answers. -/
structure Drains (cfg : Config) (segmentAnswers datagramAnswers : Answers) (nowMs : U32) (r r' : BitsReceiver)
    (segments datagrams : List Bytes) : Prop where
  handed : r'.handed = r.handed ++ (segments ++ datagrams)
  one_segment : segments.length ≤ 1
  one_datagram : datagrams.length ≤ 1
  fromSlots : (pendingSegments r).Perm (segments ++ pendingSegments r')
  fromDatagram : pendingDatagrams r = datagrams ++ pendingDatagrams r'
  slots : r'.segmentIngress = r.segmentIngress
  datagram : r'.datagramIngress = r.datagramIngress
  occupied : ∀ j, r'.segmentOccupiedMask.getLsbD j = true → r.segmentOccupiedMask.getLsbD j = true
  waiting : r'.datagramOccupied = true → r.datagramOccupied = true
  engine : ∃ r₁ r₂, r'.engine = fed cfg.build nowMs (segments.map (·,environment cfg segmentAnswers r₁) ++
    datagrams.map (·,environment cfg datagramAnswers r₂)) r.engine

theorem Drains.messages {cfg : Config} {segmentAnswers datagramAnswers : Answers} {nowMs : U32} {r r' : BitsReceiver}
    {segments datagrams : List Bytes} (drains : Drains cfg segmentAnswers datagramAnswers nowMs r r' segments datagrams) :
    ∃ messages, messages.map Prod.fst = segments ++ datagrams ∧ r'.engine = fed cfg.build nowMs messages r.engine := by
  obtain ⟨r₁,r₂,engine⟩ := drains.engine
  exact ⟨_,by simp [Function.comp_def],engine⟩

theorem deliver_spec (cfg : Config) (answers : Answers) (message : Bytes) (nowMs : U32) (r : BitsReceiver) :
    (deliver cfg answers message nowMs r).1.handed = r.handed ++ [message] ∧
      ingress (deliver cfg answers message nowMs r).1 = ingress r ∧
      (deliver cfg answers message nowMs r).1.engine =
        (ReceiverEngine.process cfg.build (environment cfg answers r) message nowMs r.engine).1 := by
  obtain ⟨kept,engine⟩ := settle_ingress cfg answers
    (ReceiverEngine.process cfg.build (environment cfg answers r) message nowMs r.engine).1
    { r with handed := r.handed ++ [message] }
  exact ⟨settle_handed _ _ _ _,kept,engine⟩

/-- The segment side hands over the lowest occupied slot. -/
theorem processSegment_drains (cfg : Config) (answers datagramAnswers : Answers) (nowMs : U32) (r : BitsReceiver) :
    ∃ segments, Drains cfg answers datagramAnswers nowMs r (processSegment cfg answers nowMs r).1 segments [] ∧ (segments = [] → pendingSegments r = []) ∧
      pendingDatagrams (processSegment cfg answers nowMs r).1 = pendingDatagrams r := by
  unfold processSegment
  cases lowest : lowestOccupied r.segmentOccupiedMask with
  | none =>
    refine ⟨[],⟨by simp,by simp,by simp,by simp,by simp,rfl,rfl,fun _ set => set,fun set => set,r,r,rfl⟩,?_,rfl⟩
    intro _
    refine List.filterMap_eq_nil_iff.mpr ?_
    intro j _
    rw [held,lowestOccupied_none lowest j]
    rfl
  | some index =>
    obtain ⟨inside,set⟩ := lowestOccupied_some lowest
    set message := ((r.segmentIngress.getD index none).map PacketBuffer.payload).getD [] with messageIs
    set cleared : BitsReceiver := { r with segmentOccupiedMask := r.segmentOccupiedMask &&& ~~~(1#16 <<< index) } with clearedIs
    obtain ⟨handed,kept,engine⟩ := deliver_spec cfg answers message nowMs cleared
    obtain ⟨segments,datagrams⟩ := pending_congr kept
    simp only [ingress,Prod.mk.injEq] at kept
    obtain ⟨slots,mask,datagram,occupied,-⟩ := kept
    have apart (j : Nat) : cleared.segmentOccupiedMask.getLsbD j =
        (r.segmentOccupiedMask.getLsbD j && decide (j ≠ index)) := cleared_bit _ _ _
    refine ⟨[message],⟨handed,by simp,by simp,?_,datagrams.symm,slots,datagram,?_,?_,cleared,cleared,engine⟩,by simp,datagrams⟩
    · rw [segments]
      refine filterMap_fill inside ?_ ?_ ?_
      · simp [held,apart]
      · rw [held,if_pos set]
      · intro j other
        simp only [held,apart,ne_eq,other,not_false_eq_true,decide_true,Bool.and_true]
        rfl
    · intro j still
      rw [mask,apart] at still
      exact (Bool.and_eq_true_iff.mp still).1
    · rw [occupied]
      exact id

/-- The datagram slot is empty behind its drain. -/
theorem processDatagram_drains (cfg : Config) (segmentAnswers answers : Answers) (nowMs : U32) (result : ProcessResult)
    (r : BitsReceiver) :
    Drains cfg segmentAnswers answers nowMs r (processDatagram cfg answers nowMs result r).1 [] (pendingDatagrams r) ∧
      pendingDatagrams (processDatagram cfg answers nowMs result r).1 = [] := by
  unfold processDatagram
  by_cases busy : r.datagramOccupied = true
  · rw [if_pos busy]
    obtain ⟨handed,kept,engine⟩ := deliver_spec cfg answers r.datagramIngress.payload nowMs r
    obtain ⟨segments,-⟩ := pending_congr kept
    simp only [ingress,Prod.mk.injEq] at kept
    obtain ⟨slots,mask,datagram,-,-⟩ := kept
    have waits : pendingDatagrams r = [r.datagramIngress.payload] := if_pos busy
    have drains : Drains cfg segmentAnswers answers nowMs r
        { (deliver cfg answers r.datagramIngress.payload nowMs r).1 with datagramOccupied := false } [] (pendingDatagrams r) := by
      refine ⟨by simp [handed,waits],by simp,by simp [waits],?_,by simp [pendingDatagrams],slots,datagram,?_,by simp,r,r,?_⟩
      · exact .of_eq segments.symm
      · intro j set
        rwa [← mask]
      · rw [waits]
        exact engine
    dsimp only
    split
    · exact ⟨drains,rfl⟩
    · exact ⟨drains,rfl⟩
  · rw [if_neg busy]
    have none : pendingDatagrams r = [] := if_neg busy
    refine ⟨⟨by simp [none],by simp,by simp [none],by simp,by simp [none],rfl,rfl,fun _ set => set,fun set => set,
      r,r,by rw [none]; rfl⟩,none⟩

theorem Drains.then {segmentAnswers datagramAnswers : Answers} {r₁ r₂ : BitsReceiver} {segments datagrams : List Bytes}
    {nowMs : U32} (first : Drains cfg segmentAnswers datagramAnswers nowMs r r₁ segments [])
    (second : Drains cfg segmentAnswers datagramAnswers nowMs r₁ r₂ [] datagrams) :
    Drains cfg segmentAnswers datagramAnswers nowMs r r₂ segments datagrams where
  handed := by simp [second.handed,first.handed]
  one_segment := first.one_segment
  one_datagram := second.one_datagram
  fromSlots := first.fromSlots.trans (second.fromSlots.append_left segments)
  fromDatagram := first.fromDatagram.trans second.fromDatagram
  slots := second.slots.trans first.slots
  datagram := second.datagram.trans first.datagram
  occupied j set := first.occupied j (second.occupied j set)
  waiting set := first.waiting (second.waiting set)
  engine := by
    obtain ⟨before,_,one⟩ := first.engine
    obtain ⟨_,behind,two⟩ := second.engine
    refine ⟨before,behind,?_⟩
    simp only [two,one,fed,List.foldl_append,List.map_nil,List.foldl_nil]

/-- A check that finds no expiry leaves the engine as it is. -/
theorem poll_alive {b : Build} {env : Environment} {nowMs : U32} {s : ReceiverEngine.Engine}
    (alive : (ReceiverEngine.poll b env nowMs s).2 ≠ .kError) : (ReceiverEngine.poll b env nowMs s).1 = s := by
  revert alive
  unfold ReceiverEngine.poll
  split
  · exact fun _ => rfl
  · exact fun alive => absurd rfl alive

/-- A `process` call that detects no expiry drains both sides. -/
theorem process_drains (segmentAnswers datagramAnswers : Answers) (nowMs : U32)
    (alive : (ReceiverEngine.poll cfg.build (environment cfg segmentAnswers r) nowMs r.engine).2 ≠ .kError) :
    ∃ segments datagrams, Drains cfg segmentAnswers datagramAnswers nowMs r
        (process cfg segmentAnswers datagramAnswers nowMs r).1 segments datagrams ∧
      (segments = [] → pendingSegments r = []) ∧
      pendingDatagrams (process cfg segmentAnswers datagramAnswers nowMs r).1 = [] := by
  unfold process
  dsimp only
  rw [if_neg alive,poll_alive alive]
  obtain ⟨segments,first,some,-⟩ := processSegment_drains cfg segmentAnswers datagramAnswers nowMs r
  obtain ⟨second,none⟩ := processDatagram_drains cfg segmentAnswers datagramAnswers nowMs
    (processSegment cfg segmentAnswers nowMs r).2 (processSegment cfg segmentAnswers nowMs r).1
  exact ⟨segments,_,first.then second,some,none⟩

/-- A call that detects expiry hands nothing over and leaves nothing waiting. -/
theorem process_expired (segmentAnswers datagramAnswers : Answers) (nowMs : U32)
    (expired : (ReceiverEngine.poll cfg.build (environment cfg segmentAnswers r) nowMs r.engine).2 = .kError) :
    let after := (process cfg segmentAnswers datagramAnswers nowMs r).1
    after.handed = r.handed ∧ pending after = [] ∧ after.segmentOccupiedMask = 0 ∧ after.datagramOccupied = false ∧
      after.segmentIngress = r.segmentIngress ∧
      after.engine = (ReceiverEngine.poll cfg.build (environment cfg segmentAnswers r) nowMs r.engine).1 := by
  unfold process
  dsimp only
  rw [if_pos expired]
  obtain ⟨kept,engine⟩ := settle_ingress cfg segmentAnswers
    (ReceiverEngine.poll cfg.build (environment cfg segmentAnswers r) nowMs r.engine).1 r
  simp only [ingress,Prod.mk.injEq] at kept
  refine ⟨settle_handed _ _ _ _,?_,rfl,rfl,kept.1,engine⟩
  simp [pending,pendingSegments,pendingDatagrams,held]

end draining

/-! ### Conservation -/

section conservation
variable (cfg : Config)

/-- Replies touch no slot and hand nothing over. -/
theorem settle_pending (answers : Answers) (engine : ReceiverEngine.Engine) (r : BitsReceiver) :
    (settle cfg answers engine r).handed = r.handed ∧ pending (settle cfg answers engine r) = pending r := by
  obtain ⟨segments,datagrams⟩ := pending_congr (settle_ingress cfg answers engine r).1
  exact ⟨settle_handed cfg answers engine r,by rw [pending,pending,segments,datagrams]⟩

/-- A stored segment is one more that waits. -/
theorem stored_pending {packet slot copy : PacketBuffer} {r : BitsReceiver} {index : Nat} (inside : index < 16)
    (there : r.segmentIngress[index]? = some (some slot)) (clear : r.segmentOccupiedMask.getLsbD index = false)
    (copied : PacketBuffer.copyPacket packet slot = some copy) :
    (pendingSegments { r with
      segmentIngress := r.segmentIngress.set index (some copy),
      segmentOccupiedMask := r.segmentOccupiedMask ||| (1#16 <<< index) }).Perm (packet.payload :: pendingSegments r) := by
  have place := (List.getElem?_eq_some_iff.mp there).1
  have bit (j : Nat) : (r.segmentOccupiedMask ||| (1#16 <<< index)).getLsbD j =
      (r.segmentOccupiedMask.getLsbD j || decide (j = index ∧ j < 16)) := by
    rw [BitVec.getLsbD_or,testBit_shiftLeft_one]
  refine filterMap_fill inside ?_ ?_ ?_
  · rw [held,clear]
    rfl
  · simp only [held,bit]
    simp [inside,place,(PacketBuffer.copyPacket_payload copied).1]
  · intro j other
    simp only [held,bit]
    simp [other,Ne.symm other]

theorem receive_conserves (packet : PacketBuffer) (r : BitsReceiver) :
    (receive cfg packet r).1.handed = r.handed ∧
      (pending (receive cfg packet r).1).Perm (accepted cfg r (.receive packet) ++ pending r) := by
  have offered := receive_offered cfg packet r
  simp only [accepted]
  generalize receive cfg packet r = result at offered
  cases offered with
  | refused other =>
    rw [if_neg other]
    exact ⟨rfl,.refl _⟩
  | @datagram copy other free copied =>
    refine ⟨rfl,?_⟩
    rw [if_pos rfl]
    have none : pendingDatagrams r = [] := by rw [pendingDatagrams,free]; rfl
    have one : pendingDatagrams { r with datagramIngress := copy, datagramOccupied := true } = [packet.payload] := by
      rw [pendingDatagrams,if_pos rfl,(PacketBuffer.copyPacket_payload copied).1]
    rw [pending,pending,one,none,List.append_nil]
    exact List.perm_append_singleton packet.payload _
  | segment typed inside there clear copied =>
    refine ⟨rfl,?_⟩
    rw [if_pos rfl]
    exact (stored_pending inside there clear copied).append_right (pendingDatagrams r)

/-- Each call keeps the account: what was accepted is what was handed over, what an
    expiry discarded and what waits. -/
theorem call_conserves (r : BitsReceiver) (c : Call) :
    (r.handed ++ (accepted cfg r c ++ pending r)).Perm
      ((call cfg r c).handed ++ (discarded cfg r c ++ pending (call cfg r c))) := by
  cases c with
  | receive packet =>
    obtain ⟨handed,moved⟩ := receive_conserves cfg packet r
    change (r.handed ++ _).Perm ((receive cfg packet r).1.handed ++ ([] ++ pending (receive cfg packet r).1))
    rw [handed]
    exact moved.symm.append_left _
  | process segmentAnswers datagramAnswers nowMs =>
    by_cases expired : (ReceiverEngine.poll cfg.build (environment cfg segmentAnswers r) nowMs r.engine).2 = .kError
    · obtain ⟨handed,none,-⟩ := process_expired segmentAnswers datagramAnswers nowMs expired
      have gone : discarded cfg r (.process segmentAnswers datagramAnswers nowMs) = pending r := by
        rw [discarded,expires,if_pos (by rw [expired]; rfl)]
      have nothing : accepted cfg r (.process segmentAnswers datagramAnswers nowMs) = [] := rfl
      rw [gone,call,handed,none,nothing]
      simp
    · obtain ⟨segments,datagrams,drains,-,-⟩ := process_drains (r := r) segmentAnswers datagramAnswers nowMs expired
      have kept : discarded cfg r (.process segmentAnswers datagramAnswers nowMs) = [] := by
        rw [discarded,expires,if_neg (by simpa using expired)]
      have nothing : accepted cfg r (.process segmentAnswers datagramAnswers nowMs) = [] := rfl
      rw [kept,call,drains.handed,nothing]
      refine List.perm_iff_count.mpr ?_
      intro message
      have slots := drains.fromSlots.count_eq message
      simp only [pending,drains.fromDatagram,List.count_append,List.count_nil] at slots ⊢
      omega
  | abort answers =>
    obtain ⟨handed,same⟩ := settle_pending cfg answers
      (ReceiverEngine.abort (environment cfg answers r) r.engine).1 r
    change (r.handed ++ pending r).Perm ((settle cfg answers _ r).handed ++ pending (settle cfg answers _ r))
    rw [handed,same]
  | sendDatagram answers payload =>
    obtain ⟨handed,same⟩ := settle_pending cfg answers
      (ReceiverEngine.sendDatagram (sender cfg answers r) payload r.engine).1 r
    change (r.handed ++ pending r).Perm ((settle cfg answers _ r).handed ++ pending (settle cfg answers _ r))
    rw [handed,same]

/-- And so does a run. -/
theorem run_conserves (r : BitsReceiver) (calls : List Call) :
    (r.handed ++ (gathered cfg (accepted cfg) r calls ++ pending r)).Perm
      ((run cfg r calls).handed ++ (gathered cfg (discarded cfg) r calls ++ pending (run cfg r calls))) := by
  induction calls generalizing r with
  | nil => exact .refl _
  | cons c calls ih =>
    have first := call_conserves cfg r c
    have rest := ih (call cfg r c)
    rw [run,List.foldl_cons,← run]
    refine List.perm_iff_count.mpr ?_
    intro message
    have one := first.count_eq message
    have others := rest.count_eq message
    simp only [gathered,List.count_append] at one others ⊢
    omega

end conservation

/-! ### The invariant -/

/-- The message of an engine call. -/
def messageOf : ReceiverEngine.Call × Environment → Option Bytes
  | (.process message _,_) => some message
  | _ => none

/-- What holds of a receiver over storage of the shape of `slots`: an occupancy bit
    names a slot with a segment in it, the datagram slot holds no segment, every slot
    keeps its capacity, and the engine is one that calls have made, its `process` calls
    with exactly the messages handed over. -/
structure Sound (cfg : Config) (slots : Slots) (r : BitsReceiver) : Prop where
  named : ∀ j, r.segmentOccupiedMask.getLsbD j = true →
    ∃ slot, r.segmentIngress[j]? = some (some slot) ∧ hasType slot.payload .kSegment = true
  other : r.datagramOccupied = true → hasType r.datagramIngress.payload .kSegment = false
  shape : r.segmentIngress.map (Option.map PacketBuffer.capacity) = slots.map (Option.map PacketBuffer.capacity)
  reached : ∃ calls, r.engine = ReceiverEngine.run cfg.build calls ∧ calls.filterMap messageOf = r.handed

section sound
variable {cfg : Config} {slots : Slots} {r : BitsReceiver}

theorem sound_fresh (cfg : Config) (slots : Slots) (datagramIngress transmitPacket : PacketBuffer) :
    Sound cfg slots (fresh slots datagramIngress transmitPacket) where
  named j set := by simp [fresh] at set
  other busy := by simp [fresh] at busy
  shape := rfl
  reached := ⟨[],rfl,rfl⟩

theorem pending_fresh (slots : Slots) (datagramIngress transmitPacket : PacketBuffer) :
    pending (fresh slots datagramIngress transmitPacket) = [] := by
  simp [pending,pendingSegments,pendingDatagrams,held,fresh]

/-- An engine call more, with no message. -/
theorem Sound.reach (sound : Sound cfg slots r) (c : ReceiverEngine.Call) (env : Environment) (silent : messageOf (c,env) = none) :
    ∃ calls, (ReceiverEngine.call cfg.build r.engine (c,env)).1 = ReceiverEngine.run cfg.build calls ∧
      calls.filterMap messageOf = r.handed := by
  obtain ⟨calls,reached,handed⟩ := sound.reached
  refine ⟨calls ++ [(c,env)],?_,?_⟩
  · rw [ReceiverEngine.run,List.foldl_append,← ReceiverEngine.run,reached]
    rfl
  · rw [List.filterMap_append,handed,List.filterMap_cons,silent]
    simp

theorem Sound.settle (sound : Sound cfg slots r) (answers : Answers) {engine : ReceiverEngine.Engine}
    (reached : ∃ calls, engine = ReceiverEngine.run cfg.build calls ∧ calls.filterMap messageOf = r.handed) :
    Sound cfg slots (settle cfg answers engine r) := by
  obtain ⟨kept,engineIs⟩ := settle_ingress cfg answers engine r
  simp only [ingress,Prod.mk.injEq] at kept
  obtain ⟨slotsKept,mask,datagram,occupied,-⟩ := kept
  refine ⟨?_,?_,by rw [slotsKept]; exact sound.shape,by rw [engineIs,settle_handed]; exact reached⟩
  · rw [mask,slotsKept]
    exact sound.named
  · rw [occupied,datagram]
    exact sound.other

/-- Draining keeps the invariant. -/
theorem Sound.drained (sound : Sound cfg slots r) {segmentAnswers datagramAnswers : Answers} {r' : BitsReceiver}
    {segments datagrams : List Bytes} {nowMs : U32}
    (drains : Drains cfg segmentAnswers datagramAnswers nowMs r r' segments datagrams) : Sound cfg slots r' := by
  refine ⟨?_,?_,by rw [drains.slots]; exact sound.shape,?_⟩
  · intro j set
    rw [drains.slots]
    exact sound.named j (drains.occupied j set)
  · intro busy
    rw [drains.datagram]
    exact sound.other (drains.waiting busy)
  · obtain ⟨calls,reached,handed⟩ := sound.reached
    obtain ⟨messages,brought,engine⟩ := drains.messages
    refine ⟨calls ++ messages.map (fun message => (.process message.1 nowMs,message.2)),?_,?_⟩
    · rw [engine,reached,ReceiverEngine.run,ReceiverEngine.run,List.foldl_append,List.foldl_map]
      rfl
    · rw [List.filterMap_append,handed,drains.handed,← brought,List.filterMap_map]
      simp [Function.comp_def,messageOf]

theorem Sound.received (sound : Sound cfg slots r) {packet : PacketBuffer} {result : BitsReceiver × ReceiveResult}
    (offered : Offered packet r result) : Sound cfg slots result.1 := by
  cases offered with
  | refused other => exact sound
  | @datagram copy other free copied =>
    refine ⟨sound.named,?_,sound.shape,sound.reached⟩
    intro _
    rw [(PacketBuffer.copyPacket_payload copied).1]
    exact other
  | @segment index slot copy typed inside there clear copied =>
    obtain ⟨payload,-,capacity⟩ := PacketBuffer.copyPacket_payload copied
    obtain ⟨place,at_index⟩ := List.getElem?_eq_some_iff.mp there
    refine ⟨?_,sound.other,?_,sound.reached⟩
    · intro j set
      by_cases same : j = index
      · subst same
        exact ⟨copy,by simp [place],payload ▸ typed⟩
      · rw [BitVec.getLsbD_or,testBit_shiftLeft_one] at set
        obtain ⟨slot',there',typed'⟩ := sound.named j (by simpa [same] using set)
        exact ⟨slot',by rwa [List.getElem?_set_ne (Ne.symm same)],typed'⟩
    · -- The copy takes the capacity of the slot it is in.
      rw [← sound.shape,List.map_set]
      refine List.ext_getElem? ?_
      intro j
      by_cases same : j = index
      · subst same
        simp [place,at_index,capacity]
      · rw [List.getElem?_set_ne (Ne.symm same)]

theorem call_sound (sound : Sound cfg slots r) (c : Call) : Sound cfg slots (call cfg r c) := by
  cases c with
  | receive packet => exact sound.received (receive_offered cfg packet r)
  | process segmentAnswers datagramAnswers nowMs =>
    by_cases expired : (ReceiverEngine.poll cfg.build (environment cfg segmentAnswers r) nowMs r.engine).2 = .kError
    · have settled := sound.settle segmentAnswers (sound.reach (.poll nowMs) (environment cfg segmentAnswers r) rfl)
      simp only [call,process]
      rw [if_pos expired]
      exact ⟨by simp,by simp,settled.shape,settled.reached⟩
    · obtain ⟨segments,datagrams,drains,-,-⟩ := process_drains segmentAnswers datagramAnswers nowMs expired
      exact sound.drained drains
  | abort answers => exact sound.settle answers (sound.reach .abort (environment cfg answers r) rfl)
  | sendDatagram answers payload =>
    exact sound.settle answers (sound.reach (.sendDatagram payload) (environment cfg answers r) rfl)

theorem run_sound (sound : Sound cfg slots r) (calls : List Call) : Sound cfg slots (run cfg r calls) := by
  induction calls generalizing r with
  | nil => exact sound
  | cons c calls ih => exact ih (call_sound sound c)

/-- What waits in the slots are segments. -/
theorem Sound.pending_typed (sound : Sound cfg slots r) : ∀ message ∈ pendingSegments r, hasType message .kSegment = true := by
  intro message member
  obtain ⟨j,-,at_j⟩ := List.mem_filterMap.mp member
  unfold held at at_j
  split at at_j
  case isFalse => cases at_j
  case isTrue set =>
    obtain ⟨slot,there,typed⟩ := sound.named j set
    rw [List.getD_eq_getElem?_getD,there] at at_j
    obtain rfl := Option.some.inj at_j
    exact typed

/-- What a drain hands over from the slots are segments, and from the datagram slot none. -/
theorem Sound.drained_typed (sound : Sound cfg slots r) {segmentAnswers datagramAnswers : Answers} {r' : BitsReceiver}
    {segments datagrams : List Bytes} {nowMs : U32}
    (drains : Drains cfg segmentAnswers datagramAnswers nowMs r r' segments datagrams) :
    (∀ message ∈ segments, hasType message .kSegment = true) ∧ ∀ message ∈ datagrams, hasType message .kSegment = false := by
  refine ⟨?_,?_⟩
  · intro message member
    exact sound.pending_typed message (drains.fromSlots.mem_iff.mpr (List.mem_append_left _ member))
  · intro message member
    have waits : message ∈ pendingDatagrams r := by
      rw [drains.fromDatagram]
      exact List.mem_append_left _ member
    unfold pendingDatagrams at waits
    split at waits
    case isFalse => cases waits
    case isTrue busy =>
      obtain rfl := List.mem_singleton.mp waits
      exact sound.other busy

end sound

/-! ### Nothing waits forever -/

section waiting
variable (cfg : Config)

/-- Without a new packet a call leaves no more waiting, and a `process` call one
    segment less and no datagram. -/
theorem call_shrinks (r : BitsReceiver) {c : Call} (silent : c.receives = false) :
    (pendingSegments (call cfg r c)).length + (if c.processes then 1 else 0) ≤ max 1 (pendingSegments r).length ∧
      (pendingSegments (call cfg r c)).length ≤ (pendingSegments r).length ∧
      (c.processes = true ∨ pendingDatagrams r = [] → pendingDatagrams (call cfg r c) = []) := by
  cases c with
  | receive packet => cases silent
  | process segmentAnswers datagramAnswers nowMs =>
    by_cases expired : (ReceiverEngine.poll cfg.build (environment cfg segmentAnswers r) nowMs r.engine).2 = .kError
    · obtain ⟨-,none,-⟩ := process_expired segmentAnswers datagramAnswers nowMs expired
      obtain ⟨segments,datagrams⟩ := List.append_eq_nil_iff.mp none
      simp only [call,segments,datagrams,Call.processes]
      simp
    · obtain ⟨segments,datagrams,drains,some,gone⟩ := process_drains (r := r) segmentAnswers datagramAnswers nowMs expired
      have moved := drains.fromSlots.length_eq
      rw [List.length_append] at moved
      have one := drains.one_segment
      have progress : segments.length = 0 → (pendingSegments r).length = 0 := by
        intro empty
        rw [some (List.length_eq_zero_iff.mp empty)]
        rfl
      simp only [call,Call.processes,if_true]
      exact ⟨by omega,by omega,fun _ => gone⟩
  | abort answers =>
    obtain ⟨segments,datagrams⟩ := pending_congr (settle_ingress cfg answers
      (ReceiverEngine.abort (environment cfg answers r) r.engine).1 r).1
    simp only [call,abort,segments,datagrams,Call.processes]
    simp
  | sendDatagram answers payload =>
    obtain ⟨segments,datagrams⟩ := pending_congr (settle_ingress cfg answers
      (ReceiverEngine.sendDatagram (sender cfg answers r) payload r.engine).1 r).1
    simp only [call,sendDatagram,segments,datagrams,Call.processes]
    simp

theorem run_shrinks (r : BitsReceiver) (more : List Call) (silent : ∀ c ∈ more, c.receives = false) :
    (pendingSegments (run cfg r more)).length + min (more.countP Call.processes) (pendingSegments r).length ≤
        (pendingSegments r).length ∧
      (0 < more.countP Call.processes ∨ pendingDatagrams r = [] → pendingDatagrams (run cfg r more) = []) := by
  induction more generalizing r with
  | nil => simp [run]
  | cons c more ih =>
    obtain ⟨less,bound,emptied⟩ := call_shrinks cfg r (silent c List.mem_cons_self)
    obtain ⟨rest,drained⟩ := ih (call cfg r c) (fun c member => silent c (List.mem_cons_of_mem _ member))
    rw [run,List.foldl_cons,← run,List.countP_cons]
    cases processes : c.processes with
    | false =>
      simp only [processes,Bool.false_eq_true,if_false,Nat.add_zero,false_or] at less emptied ⊢
      exact ⟨by omega,fun either => drained (either.imp_right emptied)⟩
    | true =>
      simp only [processes,if_true,true_or,true_imp_iff] at less emptied ⊢
      exact ⟨by omega,fun _ => drained (.inr emptied)⟩

/-- Sixteen `process` calls with nothing received between them leave nothing waiting. -/
theorem pending_drained (r : BitsReceiver) (more : List Call) (silent : ∀ c ∈ more, c.receives = false)
    (enough : kCompactWindowWidth ≤ more.countP Call.processes) : pending (run cfg r more) = [] := by
  obtain ⟨fewer,empty⟩ := run_shrinks cfg r more silent
  have few : (pendingSegments r).length ≤ kCompactWindowWidth := by
    have all := List.length_filterMap_le (held r) (List.range kCompactWindowWidth)
    rwa [List.length_range] at all
  have positive : 0 < kCompactWindowWidth := by decide
  rw [pending,empty (.inl (by omega)),List.append_nil]
  exact List.length_eq_zero_iff.mp (by omega)

end waiting

/-! ### Capacity -/

theorem countSlot_room (slots : Slots) (sized : Nat × Nat) :
    (slots.foldl countSlot sized).2 ≤ sized.2 ∧
      ∀ slot, some slot ∈ slots → 0 < (slots.foldl countSlot sized).2 →
        kSegmentHeaderSize + (slots.foldl countSlot sized).2 ≤ slot.capacity := by
  induction slots generalizing sized with
  | nil => simp
  | cons first rest ih =>
    obtain ⟨bound,each⟩ := ih (countSlot sized first)
    rw [List.foldl_cons]
    have step : (countSlot sized first).2 ≤ sized.2 ∧ ∀ slot, first = some slot →
        0 < (countSlot sized first).2 → kSegmentHeaderSize + (countSlot sized first).2 ≤ slot.capacity := by
      cases first with
      | none => exact ⟨le_refl _,fun slot same => by cases same⟩
      | some slot =>
        simp only [countSlot]
        refine ⟨by split <;> split <;> omega,?_⟩
        rintro slot' same
        obtain rfl := Option.some.inj same
        split <;> split <;> omega
    refine ⟨bound.trans step.1,?_⟩
    intro slot member positive
    rcases List.mem_cons.mp member with same | behind
    · have room := step.2 slot same.symm (by omega)
      omega
    · exact each slot behind positive

/-- An admissible SETUP's segments fit every slot of the storage the engine was configured for. -/
theorem slot_room {windowLimit : Nat} {limit_pos : 1 ≤ windowLimit} {limit_le : windowLimit ≤ kCompactWindowWidth}
    {connection : ConnectionAddress} {slots : Slots} {inactivityTimeoutMs : U32} {setup : Setup}
    (admissible : Admissible (configure windowLimit limit_pos limit_le connection slots inactivityTimeoutMs).build setup)
    {j : Nat} (inside : j < kCompactWindowWidth) {slot : PacketBuffer} (there : slots[j]? = some (some slot)) :
    kSegmentHeaderSize + setup.segmentSize.toNat ≤ slot.capacity := by
  have positive := admissible.segment
  have size := admissible.size
  have member : some slot ∈ slots.take kCompactWindowWidth := by
    refine List.mem_of_getElem? (i := j) ?_
    rw [List.getElem?_take_of_lt inside]
    exact there
  obtain ⟨-,room⟩ := countSlot_room (slots.take kCompactWindowWidth) (0,65535)
  have configured : (configure windowLimit limit_pos limit_le connection slots inactivityTimeoutMs).build.config.maximumSegmentSize =
      (receiverEngineConfig slots inactivityTimeoutMs).maximumSegmentSize := by
    simp only [configure,ReceiverEngine.construct]
    split <;> rfl
  rw [configured] at size
  simp only [receiverEngineConfig,BitVec.toNat_ofNat] at size
  have bound := size.trans (Nat.mod_le _ _)
  split at bound
  · omega
  · have fits := room slot member (by omega)
    omega

/-- The slot of a receiver has the capacity of the slot it was built with. -/
theorem Sound.slot_capacity {cfg : Config} {slots : Slots} {r : BitsReceiver} (sound : Sound cfg slots r) {j : Nat}
    {slot : PacketBuffer} (there : r.segmentIngress[j]? = some (some slot)) :
    ∃ built, slots[j]? = some (some built) ∧ built.capacity = slot.capacity := by
  have same := congrArg (fun shape => shape[j]?) sound.shape
  simp only [List.getElem?_map,there,Option.map_some] at same
  cases at_j : slots[j]? with
  | none => simp [at_j] at same
  | some built =>
    cases built with
    | none => simp [at_j] at same
    | some built =>
      simp only [at_j,Option.map_some,Option.some.injEq] at same
      exact ⟨built,rfl,same.symm⟩

/-- A segment that fits every free slot of its receiver is not refused for capacity. -/
theorem receive_fits {cfg : Config} {packet : PacketBuffer} {r : BitsReceiver}
    (matched : matchesConnection packet cfg.connection = true) (typed : hasType packet.payload .kSegment = true)
    (fits : ∀ (j : Nat) (slot : PacketBuffer), j < kCompactWindowWidth → r.segmentIngress[j]? = some (some slot) →
      packet.size ≤ slot.capacity) : (receive cfg packet r).2 ≠ .kRejected := by
  rw [receive_segment matched typed]
  have placed := storeSegment_whole packet r
  dsimp only
  generalize storeSegment packet r.segmentOccupiedMask 0 (r.segmentIngress.take kCompactWindowWidth) false = stored at placed
  cases placed with
  | accepted there clear copied => simp
  | full none taken => simp
  | rejected small =>
    rcases small with seen | ⟨j,slot,there,fails⟩
    · cases seen
    · rw [List.getElem?_take] at there
      split at there
      case isFalse => cases there
      case isTrue inside =>
        obtain ⟨copy,copied⟩ := PacketBuffer.copyPacket_isSome (fits j slot inside there)
        rw [copied] at fails
        cases fails

/-- Over every interleaving of calls on a receiver of any slots: the engine is the one that
    processed exactly the messages handed over, in their order; what `receive` accepted
    is among them once, unless an expiry discards it, and nothing waits longer than sixteen
    quiet `process` calls. One `process` call has the engine process at most one segment and
    one other PDU, a refused packet changes nothing, the occupancy mask names slots that are
    there, and a segment that fits an admitted SETUP is never refused for capacity. -/
theorem ingress_conserved (windowLimit : Nat) (limit_pos : 1 ≤ windowLimit) (limit_le : windowLimit ≤ kCompactWindowWidth)
    (connection : ConnectionAddress) (slots : Slots) (datagramIngress transmitPacket : PacketBuffer)
    (inactivityTimeoutMs : U32) (calls : List Call) :
    let cfg := configure windowLimit limit_pos limit_le connection slots inactivityTimeoutMs
    let start := fresh slots datagramIngress transmitPacket
    let r := run cfg start calls
    (∃ engineCalls, r.engine = ReceiverEngine.run cfg.build engineCalls ∧ engineCalls.filterMap messageOf = r.handed) ∧
    (gathered cfg (accepted cfg) start calls).Perm (r.handed ++ (gathered cfg (discarded cfg) start calls ++ pending r)) ∧
    (∀ more : List Call, (∀ c ∈ more, c.receives = false) → kCompactWindowWidth ≤ more.countP Call.processes →
      pending (run cfg r more) = []) ∧
    (∀ segmentAnswers datagramAnswers nowMs, ∃ segments datagrams r₁ r₂,
      (process cfg segmentAnswers datagramAnswers nowMs r).1.handed = r.handed ++ (segments ++ datagrams) ∧
        (process cfg segmentAnswers datagramAnswers nowMs r).1.engine =
          fed cfg.build nowMs (segments.map (·,environment cfg segmentAnswers r₁) ++
            datagrams.map (·,environment cfg datagramAnswers r₂))
            (ReceiverEngine.poll cfg.build (environment cfg segmentAnswers r) nowMs r.engine).1 ∧
        segments.length ≤ 1 ∧ datagrams.length ≤ 1 ∧ (∀ message ∈ segments, hasType message .kSegment = true) ∧
        ∀ message ∈ datagrams, hasType message .kSegment = false) ∧
    (∀ packet, (receive cfg packet r).2 ≠ .kAccepted → (receive cfg packet r).1 = r) ∧
    (∀ j, r.segmentOccupiedMask.getLsbD j = true →
      j < kCompactWindowWidth ∧ ∃ slot, r.segmentIngress[j]? = some (some slot)) ∧
    ∀ a ∈ admissions r.engine.trace, ∀ packet, matchesConnection packet connection = true →
      hasType packet.payload .kSegment = true →
      packet.payload.length ≤ kSegmentHeaderSize + a.info.segmentSize.toNat → (receive cfg packet r).2 ≠ .kRejected := by
  intro cfg start r
  have sound : Sound cfg slots r := run_sound (sound_fresh cfg slots datagramIngress transmitPacket) calls
  refine ⟨sound.reached,?_,pending_drained cfg r,?_,?_,?_,?_⟩
  · have conserved := run_conserves cfg start calls
    have nothing : pending start = [] := pending_fresh slots datagramIngress transmitPacket
    rwa [nothing,List.append_nil] at conserved
  · intro segmentAnswers datagramAnswers nowMs
    by_cases expired : (ReceiverEngine.poll cfg.build (environment cfg segmentAnswers r) nowMs r.engine).2 = .kError
    · obtain ⟨handed,-,-,-,-,engine⟩ := process_expired segmentAnswers datagramAnswers nowMs expired
      exact ⟨[],[],r,r,by simpa using handed,engine,by simp⟩
    · obtain ⟨segments,datagrams,drains,-,-⟩ := process_drains (r := r) segmentAnswers datagramAnswers nowMs expired
      obtain ⟨r₁,r₂,engine⟩ := drains.engine
      rw [poll_alive expired]
      exact ⟨segments,datagrams,r₁,r₂,drains.handed,engine,drains.one_segment,drains.one_datagram,sound.drained_typed drains⟩
  · intro packet refused
    have offered := receive_offered cfg packet r
    generalize receive cfg packet r = result at offered refused
    cases offered with
    | refused other => rfl
    | datagram => exact absurd rfl refused
    | segment => exact absurd rfl refused
  · intro j set
    obtain ⟨slot,there,-⟩ := sound.named j set
    refine ⟨?_,slot,there⟩
    by_contra beyond
    rw [BitVec.getLsbD_of_ge _ j (by simpa [kCompactWindowWidth] using beyond)] at set
    cases set
  · intro a member packet matched typed size
    obtain ⟨engineCalls,reached,-⟩ := sound.reached
    rw [reached] at member
    obtain ⟨setup,admissible,delivers⟩ := Geometry.admission_admissible cfg.build engineCalls member
    refine receive_fits matched typed ?_
    intro j slot inside there
    obtain ⟨built,at_j,capacity⟩ := sound.slot_capacity there
    have room := slot_room admissible inside at_j
    rw [PacketBuffer.payload_length,delivers.info] at size
    rw [← capacity]
    exact size.trans room

/-- A null slot and two of different capacities. -/
def mixedSlots : Slots := [none,some (.define 8 PacketBuffer.eight_fits),some (.define 6 PacketBuffer.six_fits)]

def hostTwo : ConnectionAddress := ⟨⟨1⟩,⟨2⟩,⟨1⟩,⟨7⟩⟩

/-- A packet of the connection with one segment in it. -/
def segmentPacket (index payload : U8) : PacketBuffer :=
  ⟨5,0,⟨1,⟨1⟩,⟨1⟩,⟨2⟩,⟨7⟩⟩,[encodeControl .kSegment,9,index,0,payload],by simp,by simp⟩

def agreeing : Answers := answering (fun _ => true)

/-- A SETUP of three one-byte segments. -/
def setupPacket : PacketBuffer := ⟨10,0,⟨1,⟨1⟩,⟨1⟩,⟨2⟩,⟨7⟩⟩,setupBytes ⟨9,0,2,1,1⟩,by decide,by decide⟩

/-- Behind a SETUP two segments arrive, one is drained, and one more takes its slot. -/
def refilling : List Call :=
  [.receive setupPacket,.process agreeing agreeing 0,.receive (segmentPacket 0 0xAA),.receive (segmentPacket 1 0xBB),
    .process agreeing agreeing 0,.receive (segmentPacket 2 0xCC)]

theorem refilled_slot_loses_nothing :
    let cfg := configure 2 (by decide) (by decide) hostTwo mixedSlots 0
    let start := fresh mixedSlots (.define 16 (by decide)) (.define 8 (by decide))
    let r := run cfg start refilling
    (∃ engineCalls, r.engine = ReceiverEngine.run cfg.build engineCalls ∧
      engineCalls.filterMap messageOf = [setupPacket.payload,(segmentPacket 0 0xAA).payload]) ∧
    (gathered cfg (accepted cfg) start refilling).Perm
      (r.handed ++ (gathered cfg (discarded cfg) start refilling ++ pending r)) ∧
    r.engine.contiguousCount = 1 ∧
    pending r = [(segmentPacket 2 0xCC).payload,(segmentPacket 1 0xBB).payload] := by
  intro cfg start r
  obtain ⟨⟨engineCalls,engine,messages⟩,conserved,-⟩ := ingress_conserved 2 (by decide) (by decide) hostTwo mixedSlots
    (.define 16 (by decide)) (.define 8 (by decide)) 0 refilling
  have handed : r.handed = [setupPacket.payload,(segmentPacket 0 0xAA).payload] := by decide +kernel
  exact ⟨⟨engineCalls,engine,messages.trans handed⟩,conserved,by decide +kernel,by decide +kernel⟩

end WireSpaces.ReceiverIngress
