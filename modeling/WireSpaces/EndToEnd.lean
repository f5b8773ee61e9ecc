import WireSpaces.SessionTraffic

/-!
One transmitter and one receiver engine over a network that loses, duplicates,
reorders and delays. Whatever either side ever sent can arrive any number of
times; other traffic may arrive too as long as it does not name the session. An
ACK shows its count only modulo 256, and the transmitter reads the right count
out of it as long as the ACK is not too stale.
-/
namespace WireSpaces.EndToEnd
open WireSpaces.Words WireSpaces.Codec WireSpaces.Packet WireSpaces.SessionTraffic
open WireSpaces.ReceiverEngine (Build Engine Environment TransferState)
open WireSpaces.ReceiverLifecycle (Lifecycle Admission Delivers admissions lifecycle_init)
open WireSpaces.ReceiverSteps (general sinkWith)
open WireSpaces.ReceiverWindow (ackOf baseSequence_eq)
open WireSpaces.Transmitter WireSpaces.TransmitterSteps WireSpaces.TransmitterWindow

/-! ### The transmitter's side -/

/-- A transmitter of the object that has said only what its session allows. -/
structure Speaks (setup : Setup) (object : Bytes) (t : BitsTransmitter) : Prop where
  setup_is : t.session.setup = setup
  object_is : t.session.object = object
  outbound : ∀ packet result, .forward packet result ∈ t.trace → Outbound setup object t.session.grantedEnd packet.payload

section speaks
variable {setup : Setup} {object : Bytes}

/-- A step that adds one event to a session that stays or moves forward. -/
theorem Speaks.event {t u : BitsTransmitter} (speaks : Speaks setup object t) {event : Event} (trace : u.trace = t.trace ++ [event])
    (setupIs : u.session.setup = t.session.setup) (objectIs : u.session.object = t.session.object)
    (granted : t.session.grantedEnd ≤ u.session.grantedEnd)
    (new : ∀ packet result, event = .forward packet result → Outbound setup object t.session.grantedEnd packet.payload) :
    Speaks setup object u := by
  refine ⟨setupIs.trans speaks.setup_is,objectIs.trans speaks.object_is,?_⟩
  intro packet result member
  rw [trace] at member
  rcases List.mem_append.mp member with old | last
  · exact (speaks.outbound packet result old).mono granted
  · exact (new packet result (List.mem_singleton.mp last).symm).mono granted

/-- A step that adds no event. -/
theorem Speaks.keep {t u : BitsTransmitter} (speaks : Speaks setup object t) (trace : u.trace = t.trace)
    (setupIs : u.session.setup = t.session.setup) (objectIs : u.session.object = t.session.object)
    (granted : t.session.grantedEnd ≤ u.session.grantedEnd) : Speaks setup object u := by
  refine ⟨setupIs.trans speaks.setup_is,objectIs.trans speaks.object_is,?_⟩
  intro packet result member
  rw [trace] at member
  exact (speaks.outbound packet result member).mono granted

theorem speaks_step {c : Call} {t u : BitsTransmitter} (guarded : Guarded t) (speaks : Speaks setup object t) (step : Step c t u)
    (other : ∀ object segmentSize sessionId initialSequenceNumber,
      c ≠ .startTransfer object segmentSize sessionId initialSequenceNumber) : Speaks setup object u := by
  have inside {index : Nat} (active : t.session.state = .kActive) (granted : index < t.session.grantedEnd)
      {packet : PacketBuffer} (payload : packet.payload = segmentPdu t.session.setup t.session.object index) :
      Outbound setup object t.session.grantedEnd packet.payload := by
    have window := guarded (running_iff.mpr (.inr active))
    have count := window.count
    have below := window.granted
    rw [speaks.setup_is] at count
    refine .inr (.inl ⟨index,granted,by omega,?_⟩)
    rw [payload,speaks.setup_is,speaks.object_is]
  cases step with
  | note same =>
    simp only [core,windowFields,Prod.mk.injEq] at same
    obtain ⟨-,-,-,trace,-,objectIs,setupIs,-,-,granted,-,-⟩ := same
    exact speaks.keep trace setupIs objectIs granted.ge
  | aside beside =>
    exact speaks.event rfl rfl rfl (le_refl _) (fun packet result forward => .inr (.inr (aside_types beside forward)))
  | setup result starting payload =>
    refine speaks.event rfl rfl rfl (le_refl _) ?_
    intro packet' result' forward
    cases forward
    exact .inl (by rw [payload,speaks.setup_is])
  | take called copied => exact speaks.keep rfl rfl rfl (le_refl _)
  | drain => exact speaks.keep rfl rfl rfl (le_refl _)
  | start called startable => exact absurd called (other _ _ _ _)
  | refused active granted notAccepted payload =>
    refine speaks.event rfl rfl rfl (le_refl _) ?_
    intro packet' result' forward
    cases forward
    exact inside active granted payload
  | segment active granted lower payload =>
    refine speaks.event rfl rfl rfl (le_refl _) ?_
    intro packet' result' forward
    cases forward
    exact inside active granted payload
  | ack called typed decoded applies short => exact speaks.keep rfl (by simp) (by simp) (by simp)
  | complete called typed decoded applies full =>
    exact speaks.event rfl (by simp [emit]) (by simp [emit]) (by simp [emit]) (by simp)
  | close dead => exact speaks.keep rfl rfl rfl (le_refl _)

theorem speaks_steps {c : Call} {t u : BitsTransmitter} (guarded : Guarded t) (speaks : Speaks setup object t) (steps : Steps c t u)
    (other : ∀ object segmentSize sessionId initialSequenceNumber,
      c ≠ .startTransfer object segmentSize sessionId initialSequenceNumber) : Guarded u ∧ Speaks setup object u := by
  induction steps with
  | refl => exact ⟨guarded,speaks⟩
  | tail _ step ih => exact ⟨guarded_step ih.1 step,speaks_step ih.1 ih.2 step other⟩

end speaks

/-- Steps outside `process` report no completion, and keep or empty the slot. -/
theorem plain_steps {c : Call} {t u : BitsTransmitter} (steps : Steps c t u) (notProcess : ∀ nowMs, c ≠ .process nowMs)
    (notReceive : ∀ packet, c ≠ .receive packet) (notStart : ∀ object segmentSize sessionId initialSequenceNumber,
      c ≠ .startTransfer object segmentSize sessionId initialSequenceNumber) :
    (.callback .onTransferComplete ∈ u.trace → .callback .onTransferComplete ∈ t.trace) ∧
      u.datagramIngress = t.datagramIngress ∧ (u.datagramOccupied = true → t.datagramOccupied = true) := by
  induction steps with
  | refl => exact ⟨id,rfl,id⟩
  | @tail v w _ step ih =>
    have one : (.callback .onTransferComplete ∈ w.trace → .callback .onTransferComplete ∈ v.trace) ∧
        w.datagramIngress = v.datagramIngress ∧ (w.datagramOccupied = true → v.datagramOccupied = true) := by
      cases step with
      | note same =>
        simp only [core,Prod.mk.injEq] at same
        obtain ⟨ingress,occupied,-,trace,-⟩ := same
        exact ⟨by rw [trace]; exact id,ingress,by rw [occupied]; exact id⟩
      | aside beside =>
        refine ⟨?_,rfl,id⟩
        intro member
        rcases List.mem_append.mp member with old | last
        · exact old
        · exact absurd (List.mem_singleton.mp last).symm (aside_other beside).2
      | setup result starting payload => exact ⟨by simp [emit],rfl,id⟩
      | take called copied => exact absurd called (notReceive _)
      | drain => exact ⟨id,rfl,by simp⟩
      | start called startable => exact absurd called (notStart _ _ _ _)
      | refused active granted notAccepted payload => exact ⟨by simp [emit],rfl,id⟩
      | segment active granted lower payload => exact ⟨by simp [emit],rfl,id⟩
      | ack called typed decoded applies short => exact absurd called (notProcess _)
      | complete called typed decoded applies full => exact absurd called (notProcess _)
      | close dead => exact ⟨id,rfl,id⟩
    exact ⟨fun member => ih.1 (one.1 member),one.2.1.trans ih.2.1,fun occupied => ih.2.2 (one.2.2 occupied)⟩

/-- A transmitter that has started no transfer: it says neither SETUP nor SEGMENT
    and completes nothing. -/
structure Unstarted (t : BitsTransmitter) : Prop where
  rests : running t.session = false
  silent : ∀ packet result, .forward packet result ∈ t.trace →
    hasType packet.payload .kSetup = false ∧ hasType packet.payload .kSegment = false
  open_ended : .callback .onTransferComplete ∉ t.trace

theorem unstarted_step {c : Call} {t u : BitsTransmitter} (unstarted : Unstarted t) (step : Step c t u)
    (other : ∀ object segmentSize sessionId initialSequenceNumber,
      c ≠ .startTransfer object segmentSize sessionId initialSequenceNumber) : Unstarted u := by
  have still {state : TransferState} (runs : state = .kStarting ∨ state = .kActive) (is : t.session.state = state) : False := by
    have running := running_iff.mpr (is ▸ runs)
    rw [unstarted.rests] at running
    exact absurd running (by decide)
  cases step with
  | note same =>
    simp only [core,windowFields,Prod.mk.injEq] at same
    obtain ⟨-,-,state,trace,-⟩ := same
    refine ⟨?_,?_,?_⟩
    · rw [← unstarted.rests,running,running,state]
    · rw [trace]; exact unstarted.silent
    · rw [trace]; exact unstarted.open_ended
  | aside beside =>
    refine ⟨unstarted.rests,?_,?_⟩
    · intro packet result member
      rcases List.mem_append.mp member with old | last
      · exact unstarted.silent packet result old
      · exact aside_types beside (List.mem_singleton.mp last).symm
    · intro member
      rcases List.mem_append.mp member with old | last
      · exact unstarted.open_ended old
      · exact (aside_other beside).2 (List.mem_singleton.mp last).symm
  | setup result starting payload => exact (still (.inl rfl) starting).elim
  | take called copied => exact ⟨unstarted.rests,unstarted.silent,unstarted.open_ended⟩
  | drain => exact ⟨unstarted.rests,unstarted.silent,unstarted.open_ended⟩
  | start called startable => exact absurd called (other _ _ _ _)
  | refused active granted notAccepted payload => exact (still (.inr rfl) active).elim
  | segment active granted lower payload => exact (still (.inr rfl) active).elim
  | ack called typed decoded applies short =>
    have runs := (ackApplies_iff.mp applies).running
    rw [unstarted.rests] at runs
    exact absurd runs (by decide)
  | complete called typed decoded applies full =>
    have runs := (ackApplies_iff.mp applies).running
    rw [unstarted.rests] at runs
    exact absurd runs (by decide)
  | close dead =>
    refine ⟨?_,unstarted.silent,unstarted.open_ended⟩
    rcases dead with rfl | rfl | rfl <;> rfl

theorem unstarted_steps {c : Call} {t u : BitsTransmitter} (unstarted : Unstarted t) (steps : Steps c t u)
    (other : ∀ object segmentSize sessionId initialSequenceNumber,
      c ≠ .startTransfer object segmentSize sessionId initialSequenceNumber) : Unstarted u := by
  induction steps with
  | refl => exact unstarted
  | tail _ step ih => exact unstarted_step ih step other

/-- As long as no transfer started, nothing of one was said. -/
theorem unstarted_run (cfg : Config) (datagramIngress transmitPacket : PacketBuffer)
    (calls : List (Call × (PacketBuffer → RouteResult)))
    (none : ∀ object setup, .started object setup ∉ (run cfg datagramIngress transmitPacket calls).trace) :
    Unstarted (run cfg datagramIngress transmitPacket calls) := by
  induction calls using List.reverseRecOn with
  | nil => exact ⟨rfl,by simp [run],by simp [run]⟩
  | append_singleton calls c ih =>
    obtain ⟨c,router⟩ := c
    have guarded := (run_history cfg datagramIngress transmitPacket calls).1
    rw [run_append] at none ⊢
    by_cases starts : ∃ object segmentSize sessionId initialSequenceNumber,
        c = .startTransfer object segmentSize sessionId initialSequenceNumber
    · obtain ⟨object,segmentSize,sessionId,initialSequenceNumber,rfl⟩ := starts
      simp only [List.foldl_cons,List.foldl_nil,call] at none ⊢
      rcases startTransfer_cases object segmentSize sessionId initialSequenceNumber
        (run cfg datagramIngress transmitPacket calls) with startable | ⟨same,-⟩
      · rw [startTransfer_eq sessionId initialSequenceNumber startable] at none
        exact absurd (by simp [emit]) (none object (setupOf object segmentSize sessionId initialSequenceNumber))
      · rw [same] at none ⊢
        exact ih none
    · have other : ∀ object segmentSize sessionId initialSequenceNumber,
          c ≠ .startTransfer object segmentSize sessionId initialSequenceNumber :=
        fun object segmentSize sessionId initialSequenceNumber same =>
          starts ⟨object,segmentSize,sessionId,initialSequenceNumber,same⟩
      have steps := call_steps cfg guarded (c,router)
      obtain ⟨more,trace,-⟩ := (within_steps steps other).segments
      simp only [List.foldl_cons,List.foldl_nil] at none ⊢
      rw [trace] at none
      exact unstarted_steps (ih fun object setup member => none object setup (List.mem_append_left _ member)) steps other

/-- The slot holds an ACK that acknowledges everything that is left. -/
def FinalAck (t : BitsTransmitter) : Prop :=
  t.datagramOccupied = true ∧ hasType t.datagramIngress.payload .kAck = true ∧
    ∃ ack, decodeAckKnownType t.datagramIngress.payload = some ack ∧ Applies t.session ack ∧
      t.session.acknowledgedCount + ackAdvance t.session ack = t.session.segmentCount

/-- `process` reports completion only on a final ACK, and leaves the slot empty. -/
theorem process_completes (cfg : Config) (router : PacketBuffer → RouteResult) {t : BitsTransmitter} (guarded : Guarded t)
    (nowMs : U32) :
    (.callback .onTransferComplete ∈ (process cfg router nowMs t).1.trace →
      .callback .onTransferComplete ∈ t.trace ∨ FinalAck t) ∧
      (process cfg router nowMs t).1.datagramIngress = t.datagramIngress ∧
      ((process cfg router nowMs t).1.datagramOccupied = true → t.datagramOccupied = true) := by
  -- Whatever is no ACK in the slot takes steps that any call could take, so `abort` stands for them.
  have plain {u v : BitsTransmitter} (steps : Steps .abort u v) :=
    plain_steps steps (by simp) (by simp) (by simp)
  by_cases occupied : t.datagramOccupied = true
  · have handled : Guarded (handleDatagram t).1 := guarded_steps guarded (handleDatagram_steps (c := .process nowMs) rfl t)
    obtain ⟨complete,ingress,-⟩ := plain (process_rest cfg router occupied nowMs handled .abort)
    rcases handleDatagram_cases t with ⟨typed,same⟩ | steps
    · have acked : (.callback .onTransferComplete ∈ (handleDatagram t).1.trace →
          .callback .onTransferComplete ∈ t.trace ∨ FinalAck t) ∧ (handleDatagram t).1.datagramIngress = t.datagramIngress := by
        rw [same]
        unfold handleAck
        cases decoded : decodeAckKnownType t.datagramIngress.payload with
        | none => exact ⟨.inl,rfl⟩
        | some ack =>
          dsimp only
          by_cases applies : ackApplies t.session ack = true
          · rw [if_pos applies]
            by_cases full : (acknowledge t.session ack).acknowledgedCount = (acknowledge t.session ack).segmentCount
            · rw [if_pos full]
              refine ⟨fun _ => .inr ⟨occupied,typed,ack,decoded,ackApplies_iff.mp applies,?_⟩,rfl⟩
              simpa using full
            · rw [if_neg full]
              exact ⟨.inl,rfl⟩
          · rw [if_neg applies]
            exact ⟨.inl,rfl⟩
      exact ⟨fun member => acked.1 (complete member),ingress.trans acked.2,fun _ => occupied⟩
    · obtain ⟨complete',ingress',-⟩ := plain (steps .abort)
      exact ⟨fun member => .inl (complete' (complete member)),ingress.trans ingress',fun _ => occupied⟩
  · rw [process,if_neg occupied]
    obtain ⟨complete,ingress,kept⟩ := plain (processSession_steps cfg router guarded false nowMs)
    exact ⟨fun member => .inl (complete member),ingress,kept⟩

/-! ### The system -/

/-- Both ends, every PDU the engine ever handed to its sender with the contiguous
    count of the call that sent it, and the count of the one in the transmitter's
    slot. -/
structure System where
  tx : BitsTransmitter
  rx : Engine
  replies : List (Bytes × Nat)
  pending : Option Nat

/-- One call on either side: on the transmitter any but `receive`, the arrival of a
    reply or of another packet there, and any call on the engine. -/
inductive Action where
  | transmit (c : Call) (router : PacketBuffer → RouteResult)
  | hear (reply : Nat) (packet : PacketBuffer)
  | hearOther (packet : PacketBuffer)
  | engine (c : ReceiverEngine.Call) (env : Environment)

/-- The PDUs an engine call sent, with the count it left. A call sends its ACK
    last, so this is the count the ACK was generated at. -/
def repliesOf (before after : Engine) : List (Bytes × Nat) :=
  (after.trace.drop before.trace.length).filterMap fun event =>
    match event with
    | .send pdu _ => some (pdu,after.contiguousCount)
    | .callback _ => none

/-- The payloads the transmitter handed to its router. -/
def forwarded (events : List Event) : List Bytes :=
  events.filterMap fun event =>
    match event with
    | .forward packet _ => some packet.payload
    | _ => none

section system
variable (b : Build) (cfg : Config)

def perform (sys : System) : Action → System
  | .transmit c router => { sys with tx := (call cfg sys.tx (c,router)).1 }
  | .hear reply packet =>
    let heard := receive cfg packet sys.tx
    let pending := if heard.2 = .kAccepted then (sys.replies[reply]?).map (·.2) else sys.pending
    { sys with tx := heard.1, pending := pending }
  | .hearOther packet =>
    let heard := receive cfg packet sys.tx
    { sys with tx := heard.1, pending := if heard.2 = .kAccepted then none else sys.pending }
  | .engine c env =>
    let rx := (ReceiverEngine.call b sys.rx (c,env)).1
    { sys with rx := rx, replies := sys.replies ++ repliesOf sys.rx rx }

/-- The ACK in the slot, if it holds one of the replies, was generated at a count
    at most 239 below the acknowledged count. -/
def timely (sys : System) : Bool :=
  match sys.pending with
  | none => true
  | some count =>
    ! (sys.tx.datagramOccupied && hasType sys.tx.datagramIngress.payload .kAck) ||
      decide (sys.tx.session.acknowledgedCount ≤ count + 239)

/-- What the network and the callers may do: no second transfer starts, a reply
    arrives unchanged, the engine hears what was forwarded to it, everything else
    does not name the session, and past 255 segments no ACK is too stale. -/
def permitted (sessionId : U8) (segments : Nat) (sys : System) : Action → Bool
  | .transmit (.receive _) _ => false
  | .transmit (.process _) _ => decide (segments ≤ 255) || timely sys
  | .transmit c router => (call cfg sys.tx (c,router)).2 != .started .kStarted
  | .hear reply packet => (sys.replies[reply]?).any (fun found => found.1 == packet.payload)
  | .hearOther packet => ! carries sessionId packet.payload
  | .engine (.process message _) _ => (forwarded sys.tx.trace).contains message || ! carries sessionId message
  | .engine _ _ => true

def permittedAll (sessionId : U8) (segments : Nat) : System → List Action → Bool
  | _, [] => true
  | sys, action :: rest =>
    permitted cfg sessionId segments sys action && permittedAll sessionId segments (perform b cfg sys action) rest

def performAll (sys : System) (actions : List Action) : System := actions.foldl (perform b cfg) sys

/-- A transmitter that just started its transfer and a fresh engine. -/
def begun (object : Bytes) (segmentSize : U16) (sessionId initialSequenceNumber : U8) (t : BitsTransmitter) : System where
  tx := (startTransfer object segmentSize sessionId initialSequenceNumber t).1
  rx := {}
  replies := []
  pending := none

end system

/-! ### The invariant -/

/-- What ties the two ends and everything in flight together. -/
structure Safe (b : Build) (setup : Setup) (object : Bytes) (sys : System) : Prop where
  guarded : Guarded sys.tx
  speaks : Speaks setup object sys.tx
  life : Lifecycle b sys.rx
  heard : Heard setup object sys.tx.session.grantedEnd sys.rx
  replies : ∀ reply ∈ sys.replies, hasType reply.1 .kAck = true →
    Truthful setup sys.tx.session.grantedEnd sys.rx.trace reply.1 reply.2
  slot : sys.tx.datagramOccupied = true →
    (∃ count, sys.pending = some count ∧ (sys.tx.datagramIngress.payload,count) ∈ sys.replies) ∨
      sys.pending = none ∧ carries setup.sessionId sys.tx.datagramIngress.payload = false
  done : .callback .onTransferComplete ∈ sys.tx.trace → Finished setup.sessionId sys.rx.trace

theorem truthful_mono {setup : Setup} {granted granted' : Nat} {events : List ReceiverEngine.Event} {pdu : Bytes} {count : Nat}
    (truthful : Truthful setup granted events pdu count) (le : granted ≤ granted') (more : List ReceiverEngine.Event) :
    Truthful setup granted' (events ++ more) pdu count := by
  intro ack decoded session
  obtain ⟨shown,within,finished⟩ := truthful ack decoded session
  exact ⟨shown,within.trans le,fun whole => (finished whole).append more⟩

/-- The advance a transmitter reads out of an ACK is right modulo 256. -/
theorem advance_mod {s : TransferSession} {ack : Ack} {count g : Nat} {bitmap : U16} {pdu : Bytes}
    (decoded : decodeAckKnownType pdu = some ack) (shown : pdu = ackOf s.setup count g bitmap) :
    (s.acknowledgedCount + ackAdvance s ack) % 256 = count % 256 := by
  rw [shown,ackOf,decodeAck_ackBytes] at decoded
  obtain rfl := Option.some.inj decoded
  have cancel : s.setup.initialSequenceNumber + BitVec.ofNat 8 count - 1 -
      (s.setup.initialSequenceNumber + BitVec.ofNat 8 s.acknowledgedCount - 1) =
      BitVec.ofNat 8 count - BitVec.ofNat 8 s.acknowledgedCount := by
    bv_omega
  rw [ackAdvance,baseSequence_eq,cancel,BitVec.toNat_sub,BitVec.toNat_ofNat,BitVec.toNat_ofNat]
  omega

/-- A final ACK that is not too stale was sent after completion. -/
theorem Safe.final {b : Build} {setup : Setup} {object : Bytes} {sys : System} (safe : Safe b setup object sys)
    (final : FinalAck sys.tx) {segments : Nat} (whole : segments = setup.finalSegmentIndex.toNat + 1)
    (fresh : (decide (segments ≤ 255) || timely sys) = true) : Finished setup.sessionId sys.rx.trace := by
  obtain ⟨occupied,typed,ack,decoded,applies,all⟩ := final
  have session : ack.sessionId = setup.sessionId := applies.session.trans (congrArg Setup.sessionId safe.speaks.setup_is)
  rcases safe.slot occupied with ⟨count,pending,found⟩ | ⟨-,foreign⟩
  · obtain ⟨⟨g,bitmap,shown⟩,within,finished⟩ := safe.replies _ found typed ack decoded session
    have window := safe.guarded applies.running
    have span := window.span
    have segmentCount := window.count
    have modulo := advance_mod decoded (safe.speaks.setup_is ▸ shown)
    have advance := applies.advance
    have width : kCompactWindowWidth = 16 := rfl
    rw [safe.speaks.setup_is] at segmentCount
    simp only [timely,pending,occupied,typed,Bool.and_self,Bool.not_true,Bool.false_or,Bool.or_eq_true,
      decide_eq_true_eq] at fresh
    exact finished (by omega)
  · have shape : sys.tx.datagramIngress.payload.length = kAckSize ∧
        sys.tx.datagramIngress.payload.getD 1 0 = ack.sessionId := by
      unfold decodeAckKnownType at decoded
      split at decoded
      · cases decoded
      · rename_i size
        obtain rfl := Option.some.inj decoded
        exact ⟨not_not.mp size,rfl⟩
    have named := carries_of_getD typed (by decide) (by rw [shape.1]; decide) (shape.2.trans session)
    rw [foreign] at named
    exact absurd named (by decide)

section step
variable {b : Build} {cfg : Config} {setup : Setup} {object : Bytes} {sys : System}

/-- A transmitter call within the transfer that keeps or empties the slot. -/
theorem Safe.transmit (safe : Safe b setup object sys) {tx : BitsTransmitter} (guarded : Guarded tx)
    (speaks : Speaks setup object tx) (granted : sys.tx.session.grantedEnd ≤ tx.session.grantedEnd)
    (slot : tx.datagramOccupied = true → sys.tx.datagramOccupied = true) (ingress : tx.datagramIngress = sys.tx.datagramIngress)
    (done : .callback .onTransferComplete ∈ tx.trace → Finished setup.sessionId sys.rx.trace) :
    Safe b setup object { sys with tx := tx } := by
  refine ⟨guarded,speaks,safe.life,safe.heard.mono granted,?_,?_,done⟩
  · intro reply member typed
    simpa using truthful_mono (safe.replies reply member typed) granted []
  · intro occupied
    simp only [ingress]
    exact safe.slot (slot occupied)

theorem safe_transmit (safe : Safe b setup object sys) {segments : Nat} (whole : segments = setup.finalSegmentIndex.toNat + 1)
    (c : Call) (router : PacketBuffer → RouteResult)
    (allowed : permitted cfg setup.sessionId segments sys (.transmit c router) = true) :
    Safe b setup object (perform b cfg sys (.transmit c router)) := by
  have steps := call_steps cfg safe.guarded (c,router)
  have still (other : ∀ object segmentSize sessionId initialSequenceNumber,
      c ≠ .startTransfer object segmentSize sessionId initialSequenceNumber) :=
    And.intro (speaks_steps safe.guarded safe.speaks steps other) (within_steps steps other).granted
  cases c with
  | startTransfer object' segmentSize sessionId initialSequenceNumber =>
    rcases startTransfer_cases object' segmentSize sessionId initialSequenceNumber sys.tx with startable | ⟨same,-⟩
    · simp [permitted,call,startTransfer_eq sessionId initialSequenceNumber startable] at allowed
    · have unchanged : perform b cfg sys (.transmit (.startTransfer object' segmentSize sessionId initialSequenceNumber) router) =
          sys := by
        simp only [perform,call,same]
      rw [unchanged]
      exact safe
  | receive packet => simp [permitted] at allowed
  | process nowMs =>
    obtain ⟨⟨guarded,speaks⟩,granted⟩ := still (by simp)
    obtain ⟨completes,ingress,slot⟩ := process_completes cfg router safe.guarded nowMs
    refine safe.transmit guarded speaks granted slot ingress ?_
    intro member
    rcases completes member with old | final
    · exact safe.done old
    · exact safe.final final whole allowed
  | sendDatagram payload =>
    obtain ⟨⟨guarded,speaks⟩,granted⟩ := still (by simp)
    obtain ⟨completes,ingress,slot⟩ := plain_steps steps (by simp) (by simp) (by simp)
    exact safe.transmit guarded speaks granted slot ingress (fun member => safe.done (completes member))
  | abort =>
    obtain ⟨⟨guarded,speaks⟩,granted⟩ := still (by simp)
    obtain ⟨completes,ingress,slot⟩ := plain_steps steps (by simp) (by simp) (by simp)
    exact safe.transmit guarded speaks granted slot ingress (fun member => safe.done (completes member))

/-- A packet at the transmitter whose origin is known. -/
theorem Safe.hear (safe : Safe b setup object sys) (packet : PacketBuffer) (pending : Option Nat)
    (origin : (∃ count, pending = some count ∧ (packet.payload,count) ∈ sys.replies) ∨
      pending = none ∧ carries setup.sessionId packet.payload = false) :
    Safe b setup object { sys with
      tx := (receive cfg packet sys.tx).1
      pending := if (receive cfg packet sys.tx).2 = .kAccepted then pending else sys.pending } := by
  rcases receive_cases cfg packet sys.tx with ⟨taken,-,copy,copied,result⟩ | ⟨refused,same⟩
  · rw [result,if_pos taken]
    refine ⟨safe.guarded.congr rfl rfl,safe.speaks.keep rfl rfl rfl (le_refl _),safe.life,safe.heard,safe.replies,?_,
      safe.done⟩
    intro _
    simp only [copied]
    exact origin
  · rw [same,if_neg refused]
    exact safe

theorem mem_repliesOf {before after : Engine} {more : List ReceiverEngine.Event} (trace : after.trace = before.trace ++ more)
    {reply : Bytes × Nat} (member : reply ∈ repliesOf before after) :
    ∃ result, .send reply.1 result ∈ more ∧ reply.2 = after.contiguousCount := by
  rw [repliesOf,trace,List.drop_left] at member
  obtain ⟨event,found,isSend⟩ := List.mem_filterMap.mp member
  cases event with
  | send pdu result =>
    cases isSend
    exact ⟨result,found,rfl⟩
  | callback call => cases isSend

theorem safe_engine (safe : Safe b setup object sys) {segments : Nat} (c : ReceiverEngine.Call) (env : Environment)
    (allowed : permitted cfg setup.sessionId segments sys (.engine c env) = true) :
    Safe b setup object (perform b cfg sys (.engine c env)) := by
  have hears : Hears setup object sys.tx.session.grantedEnd c := by
    rintro message nowMs rfl
    simp only [permitted,Bool.or_eq_true,List.contains_iff_mem,Bool.not_eq_true'] at allowed
    rcases allowed with known | foreign
    · obtain ⟨event,member,isForward⟩ := List.mem_filterMap.mp known
      cases event with
      | forward packet result =>
        cases isForward
        exact .inl (safe.speaks.outbound packet result member)
      | started | callback => cases isForward
    · exact .inr foreign
  obtain ⟨life,heard⟩ := heard_steps hears safe.life safe.heard (ReceiverSteps.call_steps sys.rx (c,env))
  obtain ⟨more,trace,truthful⟩ := call_replies (c := (c,env)) hears safe.life safe.heard
  refine ⟨safe.guarded,safe.speaks,life,heard,?_,?_,?_⟩
  · intro reply member typed
    rcases List.mem_append.mp member with old | new
    · have kept := truthful_mono (safe.replies reply old typed) (le_refl _) more
      rwa [← trace] at kept
    · obtain ⟨result,sent,count⟩ := mem_repliesOf trace new
      rw [count]
      exact truthful reply.1 result sent typed
  · intro occupied
    rcases safe.slot occupied with ⟨count,pending,found⟩ | foreign
    · exact .inl ⟨count,pending,List.mem_append_left _ found⟩
    · exact .inr foreign
  · intro member
    have finished := (safe.done member).append more
    rwa [← trace] at finished

theorem safe_perform (safe : Safe b setup object sys) {segments : Nat} (whole : segments = setup.finalSegmentIndex.toNat + 1)
    (action : Action) (allowed : permitted cfg setup.sessionId segments sys action = true) :
    Safe b setup object (perform b cfg sys action) := by
  cases action with
  | transmit c router => exact safe_transmit safe whole c router allowed
  | hear reply packet =>
    refine safe.hear packet _ (.inl ?_)
    simp only [permitted,Option.any_eq_true,beq_iff_eq] at allowed
    obtain ⟨found,at_reply,same⟩ := allowed
    exact ⟨found.2,by rw [at_reply]; rfl,by rw [← same]; exact List.mem_of_getElem? at_reply⟩
  | hearOther packet =>
    refine safe.hear packet none (.inr ⟨rfl,?_⟩)
    simpa [permitted] using allowed
  | engine c env => exact safe_engine safe c env allowed

theorem safe_performAll (safe : Safe b setup object sys) {segments : Nat} (whole : segments = setup.finalSegmentIndex.toNat + 1)
    {actions : List Action} (allowed : permittedAll b cfg setup.sessionId segments sys actions = true) :
    Safe b setup object (performAll b cfg sys actions) := by
  induction actions generalizing sys with
  | nil => exact safe
  | cons action rest ih =>
    simp only [permittedAll,Bool.and_eq_true] at allowed
    exact ih (safe_perform safe whole action allowed.1) allowed.2

end step

/-! ### Delivery -/

/-- The announced sizes determine how many segments there are. -/
theorem finalSegmentIndex_of_info {left right : Setup} (same : ReceiverEngine.transferInfo left = ReceiverEngine.transferInfo right)
    (leftFinal : 0 < left.finalSegmentSize.toNat ∧ left.finalSegmentSize.toNat ≤ left.segmentSize.toNat)
    (rightFinal : 0 < right.finalSegmentSize.toNat ∧ right.finalSegmentSize.toNat ≤ right.segmentSize.toNat) :
    left.finalSegmentIndex.toNat = right.finalSegmentIndex.toNat ∧ left.segmentSize = right.segmentSize := by
  simp only [ReceiverEngine.transferInfo,ReceiverEngine.TransferInfo.mk.injEq] at same
  obtain ⟨-,total,size⟩ := same
  refine ⟨?_,size⟩
  have fits (setup : Setup) : setup.finalSegmentIndex.toNat * setup.segmentSize.toNat + setup.finalSegmentSize.toNat < 2 ^ 32 := by
    have := setup.finalSegmentSize.isLt
    have product : setup.finalSegmentIndex.toNat * setup.segmentSize.toNat ≤ 65535 * 65535 :=
      Nat.mul_le_mul (by have := setup.finalSegmentIndex.isLt; omega) (by have := setup.segmentSize.isLt; omega)
    omega
  rw [setupTotalSize,setupTotalSize,Nat.mod_eq_of_lt (fits left),Nat.mod_eq_of_lt (fits right),size] at total
  have quotient (index size rest : Nat) (bounds : 0 < rest ∧ rest ≤ size) : (index * size + (rest - 1)) / size = index := by
    rw [Nat.mul_comm,Nat.mul_add_div (by omega),Nat.div_eq_of_lt (by omega),Nat.add_zero]
  rw [size] at leftFinal
  rw [← quotient left.finalSegmentIndex.toNat right.segmentSize.toNat left.finalSegmentSize.toNat leftFinal,
    ← quotient right.finalSegmentIndex.toNat right.segmentSize.toNat right.finalSegmentSize.toNat rightFinal]
  congr 1
  omega

/-- Among entries with distinct keys, a key that occurs selects one entry. -/
theorem filter_key {α : Type} {key : α → Nat} {entries : List α} (distinct : (entries.map key).Nodup) {k : Nat}
    (member : k ∈ entries.map key) : ∃ entry ∈ entries, key entry = k ∧ entries.filter (fun e => key e = k) = [entry] := by
  obtain ⟨entry,found,keyIs⟩ := List.mem_map.mp member
  refine ⟨entry,found,keyIs,?_⟩
  have among : entry ∈ entries.filter (fun e => key e = k) := List.mem_filter.mpr ⟨found,by simpa using keyIs⟩
  have only : ∀ e ∈ entries.filter (fun e => key e = k), e = entry := by
    intro e inside
    obtain ⟨there,same⟩ := List.mem_filter.mp inside
    exact List.inj_on_of_nodup_map distinct there found ((of_decide_eq_true same).trans keyIs.symm)
  have nodup : (entries.filter (fun e => key e = k)).Nodup := (List.Nodup.of_map key distinct).filter _
  exact List.perm_singleton.mp ((List.perm_ext_iff_of_nodup nodup (List.nodup_singleton entry)).mpr fun e => by
    rw [List.mem_singleton]
    exact ⟨only e,fun same => same ▸ among⟩)

/-- An engine that finished the session took every slice once, at its place. -/
theorem delivered_of_finished {b : Build} {setup : Setup} {object : Bytes} {granted : Nat} {rx : Engine} (life : Lifecycle b rx)
    (heard : Heard setup object granted rx)
    (final : 0 < setup.finalSegmentSize.toNat ∧ setup.finalSegmentSize.toNat ≤ setup.segmentSize.toNat)
    (finished : Finished setup.sessionId rx.trace) :
    ∃ a ∈ admissions rx.trace, a.info.sessionId = setup.sessionId ∧ .completed ∈ a.endings ∧
      ∀ i ≤ setup.finalSegmentIndex.toNat,
        a.accepted.filter (fun call => call.objectOffset = i * setup.segmentSize.toNat) =
          [⟨i * setup.segmentSize.toNat,slice object setup.segmentSize.toNat i,true⟩] := by
  obtain ⟨a,member,session,completed⟩ := finished
  obtain ⟨setup',delivers⟩ := life.delivers a member
  obtain ⟨info,slices⟩ := heard.placed a member session
  obtain ⟨index,size⟩ := finalSegmentIndex_of_info (delivers.info.symm.trans info) delivers.final final
  refine ⟨a,member,session,completed,?_⟩
  intro i known
  have inside := delivers.complete.mp completed i (by omega)
  rw [size] at inside
  obtain ⟨call,found,offset,only⟩ := filter_key delivers.once inside
  obtain ⟨inSegments,taken⟩ := List.mem_filter.mp found
  obtain ⟨j,-,place,payload⟩ := slices call inSegments taken
  have positive : 0 < setup.segmentSize.toNat := by omega
  have same : j = i := Nat.eq_of_mul_eq_mul_right positive (place.symm.trans offset)
  rw [only,← same]
  obtain ⟨callOffset,callPayload,callAccepted⟩ := call
  simp only at place payload taken
  rw [place,payload,taken]

theorem Safe.delivered {b : Build} {setup : Setup} {object : Bytes} {sys : System} (safe : Safe b setup object sys)
    (final : 0 < setup.finalSegmentSize.toNat ∧ setup.finalSegmentSize.toNat ≤ setup.segmentSize.toNat)
    (finished : Finished setup.sessionId sys.rx.trace) :
    ∃ a ∈ admissions sys.rx.trace, a.info.sessionId = setup.sessionId ∧ .completed ∈ a.endings ∧
      ∀ i ≤ setup.finalSegmentIndex.toNat,
        a.accepted.filter (fun call => call.objectOffset = i * setup.segmentSize.toNat) =
          [⟨i * setup.segmentSize.toNat,slice object setup.segmentSize.toNat i,true⟩] :=
  delivered_of_finished safe.life safe.heard final finished

/-- Whenever the transmitter reports completion, the engine has reported it for an
    admission of the session in which its sink accepted every slice of the object
    exactly once: over a network that loses, duplicates, reorders and delays, with
    at most 255 segments or with no ACK processed more than 239 counts late. -/
theorem transmitter_completion_implies_delivery (b : Build) (cfg : Config) (datagramIngress transmitPacket : PacketBuffer)
    (earlier : List (Call × (PacketBuffer → RouteResult)))
    (once : ∀ object setup, .started object setup ∉ (run cfg datagramIngress transmitPacket earlier).trace)
    (object : Bytes) (segmentSize : U16) (sessionId initialSequenceNumber : U8) (actions : List Action)
    (started : (startTransfer object segmentSize sessionId initialSequenceNumber
      (run cfg datagramIngress transmitPacket earlier)).2 = .kStarted)
    (foreign : (run cfg datagramIngress transmitPacket earlier).datagramOccupied = true →
      carries sessionId (run cfg datagramIngress transmitPacket earlier).datagramIngress.payload = false) :
    let segments := segmentCount object.length segmentSize.toNat
    let start := begun object segmentSize sessionId initialSequenceNumber (run cfg datagramIngress transmitPacket earlier)
    permittedAll b cfg sessionId segments start actions = true →
    let sys := performAll b cfg start actions
    .callback .onTransferComplete ∈ sys.tx.trace →
    ∃ a ∈ admissions sys.rx.trace, a.info.sessionId = sessionId ∧ .completed ∈ a.endings ∧
      ∀ i < segments, a.accepted.filter (fun call => call.objectOffset = i * segmentSize.toNat) =
        [⟨i * segmentSize.toNat,slice object segmentSize.toNat i,true⟩] := by
  intro segments start allowed sys completed
  have unstarted := unstarted_run cfg datagramIngress transmitPacket earlier once
  have startable : Startable (run cfg datagramIngress transmitPacket earlier) object segmentSize := by
    rcases startTransfer_cases object segmentSize sessionId initialSequenceNumber
      (run cfg datagramIngress transmitPacket earlier) with startable | ⟨-,refused⟩
    · exact startable
    · exact absurd started refused
  have first := startTransfer_eq sessionId initialSequenceNumber startable
  have window := start_window sessionId initialSequenceNumber startable
  set setup := setupOf object segmentSize sessionId initialSequenceNumber with setupIs
  have tx : start.tx = _ := congrArg Prod.fst first
  have count : segments = setup.finalSegmentIndex.toNat + 1 := by
    have := window.count
    rw [first] at this
    exact this
  have final : 0 < setup.finalSegmentSize.toNat ∧ setup.finalSegmentSize.toNat ≤ setup.segmentSize.toNat := by
    have positive := window.final
    have le := window.final_le
    rw [first] at positive le
    exact ⟨positive,le⟩
  have safe : Safe b setup object start := by
    refine ⟨fun _ => window,?_,lifecycle_init b,?_,by simp [start,begun],?_,?_⟩
    · rw [tx]
      refine ⟨rfl,rfl,?_⟩
      intro packet result member
      exact .inr (.inr (unstarted.silent packet result (by simpa [emit] using member)))
    · rw [tx]
      exact heard_init setup object
    · rw [tx]
      exact fun occupied => .inr ⟨rfl,foreign occupied⟩
    · rw [tx]
      intro member
      exact absurd (by simpa [emit] using member) unstarted.open_ended
  have reached : Safe b setup object sys := safe_performAll safe count allowed
  obtain ⟨a,member,session,ended,slices⟩ := reached.delivered final (reached.done completed)
  exact ⟨a,member,session,ended,fun i known => slices i (by omega)⟩

/-- A transfer of two segments whose SETUP arrives twice; the segments arrive in the wrong order, the first ACK comes late
    once more, and the one for the second segment is lost. -/
def shortTransfer : List Action :=
  [.transmit (.process 0) fun _ => .kAccepted,
    .engine (.process (setupBytes ⟨9,0,1,1,1⟩) 0) (sinkWith .kSent),
    .engine (.process (setupBytes ⟨9,0,1,1,1⟩) 1) (sinkWith .kSent),
    .hear 0 (ackFromPeer ⟨9,0,1,255⟩),
    .transmit (.process 1) fun _ => .kAccepted,
    .transmit (.process 2) fun _ => .kAccepted,
    .engine (.process (segmentPdu ⟨9,0,1,1,1⟩ [0xAA,0xBB] 1) 2) (sinkWith .kSent),
    .engine (.process (segmentPdu ⟨9,0,1,1,1⟩ [0xAA,0xBB] 0) 3) (sinkWith .kSent),
    .hear 1 (ackFromPeer ⟨9,0,1,255⟩),
    .transmit (.process 3) fun _ => .kAccepted,
    .hear 3 (ackFromPeer ⟨9,0,1,1⟩),
    .transmit (.process 4) fun _ => .kAccepted]

def shortStart : System :=
  begun [0xAA,0xBB] 1 9 0 (run pointToPoint (.define 16 PacketBuffer.sixteen_fits) (.define 16 PacketBuffer.sixteen_fits) [])

theorem short_transfer_delivered :
    ∃ a ∈ admissions (performAll general pointToPoint shortStart shortTransfer).rx.trace, a.info.sessionId = 9 ∧
      .completed ∈ a.endings ∧
      ∀ i < 2, a.accepted.filter (fun call => call.objectOffset = i * 1) = [⟨i * 1,slice [0xAA,0xBB] 1 i,true⟩] :=
  transmitter_completion_implies_delivery general pointToPoint (.define 16 (by decide)) (.define 16 (by decide)) []
    (by simp [run]) [0xAA,0xBB] 1 9 0 shortTransfer (by decide) (by decide) (by decide) (by decide)

end WireSpaces.EndToEnd
