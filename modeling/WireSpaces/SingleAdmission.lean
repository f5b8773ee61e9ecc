import WireSpaces.ReceiverEffects
import WireSpaces.EndToEnd

/-!
One transfer over two FIFO links that may lose packets. The transmitter sends every
SETUP before anything that can complete or abort the transfer, so the receiver
hears them in that order; but it drains a queued segment before a queued SETUP, and
for an object of one segment the SETUP then meets a completed transfer.
-/
namespace WireSpaces.SingleAdmission
open WireSpaces.Words WireSpaces.Codec WireSpaces.Packet
open WireSpaces.Transmitter WireSpaces.TransmitterSteps WireSpaces.TransmitterWindow
open WireSpaces.Receiver (BitsReceiver Slots)
open WireSpaces.ReceiverEngine (TransferState)
open WireSpaces.ReceiverEffects

/-! ### What a transmitter sends while it starts and afterwards -/

/-- A message that can complete or abort a transfer. -/
def late (message : Bytes) : Bool := hasType message .kSegment || hasType message .kAbort

/-- The router of a link that takes or defers every packet. -/
def route (link : PacketBuffer → Bool) (packet : PacketBuffer) : RouteResult := if link packet then .kAccepted else .kFull

/-- What a call adds to the trace of a transfer that started: no SETUP once the
    transfer left its starting state, and nothing else before. -/
structure Sends (t u : BitsTransmitter) (more : List Event) : Prop where
  trace : u.trace = t.trace ++ more
  setup : u.session.setup = t.session.setup
  count : u.session.segmentCount = t.session.segmentCount
  starting : u.session.state = .kStarting → t.session.state = .kStarting ∧
    ∀ packet result, .forward packet result ∈ more → packet.payload = setupBytes t.session.setup
  beyond : u.session.state ≠ .kStarting → ∀ packet result, .forward packet result ∈ more →
    hasType packet.payload .kSetup = false

theorem Sends.refl (t : BitsTransmitter) : Sends t t [] :=
  ⟨by simp,rfl,rfl,fun starting => ⟨starting,by simp⟩,by simp⟩

/-- A call that adds nothing to the trace but callbacks. -/
theorem Sends.silent {t u : BitsTransmitter} {more : List Event} (trace : u.trace = t.trace ++ more)
    (setup : u.session.setup = t.session.setup) (count : u.session.segmentCount = t.session.segmentCount)
    (starting : u.session.state = .kStarting → t.session.state = .kStarting)
    (none : ∀ packet result, .forward packet result ∉ more) : Sends t u more :=
  ⟨trace,setup,count,fun still => ⟨starting still,fun packet result member => absurd member (none packet result)⟩,
    fun _ packet result member => absurd member (none packet result)⟩

/-- Outside the starting state no step sends a SETUP or returns to it. -/
theorem calm_step {c : Call} {t u : BitsTransmitter} (calm : t.session.state ≠ .kStarting) (step : Step c t u)
    (other : ∀ object segmentSize sessionId initialSequenceNumber,
      c ≠ .startTransfer object segmentSize sessionId initialSequenceNumber) :
    u.session.state ≠ .kStarting ∧ ∃ more, Sends t u more := by
  -- A step that stays out of the starting state only has to say what it forwards.
  have quiet {u : BitsTransmitter} {more : List Event} (trace : u.trace = t.trace ++ more)
      (setup : u.session.setup = t.session.setup) (count : u.session.segmentCount = t.session.segmentCount)
      (state : u.session.state ≠ .kStarting)
      (plain : ∀ packet result, .forward packet result ∈ more → hasType packet.payload .kSetup = false) :
      u.session.state ≠ .kStarting ∧ ∃ more, Sends t u more :=
    ⟨state,more,trace,setup,count,fun starting => absurd starting state,fun _ => plain⟩
  cases step with
  | note same =>
    simp only [core,windowFields,Prod.mk.injEq] at same
    obtain ⟨-,-,state,trace,-,-,setup,count,-⟩ := same
    exact quiet (by rw [trace,List.append_nil]) setup count (state ▸ calm) (by simp)
  | aside beside =>
    refine quiet rfl rfl rfl calm ?_
    intro packet result member
    exact (TransmitterWindow.aside_types beside (List.mem_singleton.mp member).symm).1
  | setup result starting payload => exact absurd starting calm
  | take called copied => exact quiet (List.append_nil _).symm rfl rfl calm (by simp)
  | drain => exact quiet (List.append_nil _).symm rfl rfl calm (by simp)
  | start called startable => exact absurd called (other _ _ _ _)
  | refused active granted notAccepted payload =>
    refine quiet rfl rfl rfl calm ?_
    intro packet result member
    cases List.mem_singleton.mp member
    rw [payload]
    simp [segmentPdu,segmentHeaderBytes,hasType_encodeControl]
  | segment active granted lower payload =>
    refine quiet rfl rfl rfl calm ?_
    intro packet result member
    cases List.mem_singleton.mp member
    rw [payload]
    simp [segmentPdu,segmentHeaderBytes,hasType_encodeControl]
  | ack called typed decoded applies short => exact quiet (List.append_nil _).symm (by simp) (by simp) (by simp) (by simp)
  | complete called typed decoded applies full => exact quiet rfl (by simp [emit]) (by simp [emit]) (by simp [emit]) (by simp)
  | close dead =>
    refine quiet (List.append_nil _).symm rfl rfl ?_ (by simp)
    rcases dead with rfl | rfl | rfl <;> simp [BitsTransmitter.withState]

theorem Sends.trans_calm {t u v : BitsTransmitter} {more after : List Event} (first : Sends t u more) (second : Sends u v after)
    (calm : v.session.state ≠ .kStarting) (plain : ∀ packet result, .forward packet result ∈ more →
      hasType packet.payload .kSetup = false) : Sends t v (more ++ after) := by
  refine ⟨by rw [second.trace,first.trace,List.append_assoc],second.setup.trans first.setup,second.count.trans first.count,
    fun starting => absurd starting calm,?_⟩
  intro _ packet result member
  rcases List.mem_append.mp member with old | new
  · exact plain packet result old
  · exact second.beyond calm packet result new

theorem calm_steps {c : Call} {t u : BitsTransmitter} (calm : t.session.state ≠ .kStarting) (steps : Steps c t u)
    (other : ∀ object segmentSize sessionId initialSequenceNumber,
      c ≠ .startTransfer object segmentSize sessionId initialSequenceNumber) :
    u.session.state ≠ .kStarting ∧ ∃ more, Sends t u more := by
  induction steps with
  | refl => exact ⟨calm,[],.refl t⟩
  | tail _ step ih =>
    obtain ⟨middle,more,first⟩ := ih
    obtain ⟨last,after,second⟩ := calm_step middle step other
    exact ⟨last,more ++ after,first.trans_calm second last (first.beyond middle)⟩

section sends
variable (cfg : Config) (link : PacketBuffer → Bool)

theorem sendSetup_sends {t : BitsTransmitter} (window : SendWindow t) (starting : t.session.state = .kStarting) (nowMs : U32)
    (retransmission : Bool) : ∃ more, Sends t (conclude (sendSetup cfg (route link) nowMs retransmission t)).1 more := by
  have encoded : ∀ output : Bytes, output.length = kSetupSize →
      encodeSetup t.session.setup output = some (setupBytes t.session.setup) := fun _ size => encodeSetup_exact size
  obtain ⟨packet,-,payload,-,sent⟩ := sendEncoded_eq cfg (route link) .kNormal encoded
    (by simp [setupBytes,writeU16,kSetupSize]) window.setup_fits
  refine ⟨[.forward packet (route link packet)],?_⟩
  have only : ∀ packet' result', Event.forward packet' result' ∈ [Event.forward packet (route link packet)] →
      packet'.payload = setupBytes t.session.setup := by
    intro packet' result' member
    cases List.mem_singleton.mp member
    exact payload
  have answer : route link packet = .kAccepted ∨ route link packet = .kFull := by
    unfold route
    split
    · exact .inl rfl
    · exact .inr rfl
  rcases answer with taken | full
  · rw [sendSetup,sent,taken]
    exact ⟨rfl,rfl,rfl,fun _ => ⟨starting,taken ▸ only⟩,fun left => absurd starting left⟩
  · rw [sendSetup,sent,full]
    exact ⟨rfl,rfl,rfl,fun _ => ⟨starting,full ▸ only⟩,fun left => absurd starting left⟩

theorem giveUp_sends {t : BitsTransmitter} (window : SendWindow t) :
    ∃ more, Sends t (giveUp cfg (route link) t).1 more := by
  have encoded : ∀ output : Bytes, output.length = kAbortSize →
      encodeAbort ⟨t.session.setup.sessionId⟩ output = some (abortBytes ⟨t.session.setup.sessionId⟩) :=
    fun _ size => encodeAbort_exact size
  have fits : kAbortSize ≤ t.transmitPacket.capacity := le_trans (by decide) window.setup_fits
  obtain ⟨packet,-,payload,-,sent⟩ := sendEncoded_eq cfg (route link) .kNormal encoded (by simp [abortBytes,kAbortSize]) fits
  -- The ABORT comes first, then the state and the callback, which say nothing more.
  have aborted : ∀ u : BitsTransmitter, u.session = t.session → u.trace = t.trace ++ [.forward packet (route link packet)] →
      ∃ more, Sends t (transitionToAborted u) more := by
    intro u session trace
    have plain (rest : List Event) (none : ∀ packet result, .forward packet result ∉ rest) : ∀ packet' result',
        Event.forward packet' result' ∈ [Event.forward packet (route link packet)] ++ rest →
        hasType packet'.payload .kSetup = false := by
      intro packet' result' member
      rcases List.mem_append.mp member with abort | callback
      · cases List.mem_singleton.mp abort
        rw [payload]
        simp [abortBytes,hasType_encodeControl]
      · exact absurd callback (none packet' result')
    unfold transitionToAborted
    split
    · rename_i already
      refine ⟨[.forward packet (route link packet)] ++ [],by rw [trace,List.append_nil],by rw [session],by rw [session],?_,
        fun _ => plain [] (by simp)⟩
      intro starting
      rw [already] at starting
      cases starting
    · refine ⟨[.forward packet (route link packet)] ++ [.callback .onTransferAborted],?_,?_,?_,?_,fun _ => plain _ (by simp)⟩
      · simp [emit,BitsTransmitter.withState,trace]
      · simp [emit,BitsTransmitter.withState,session]
      · simp [emit,BitsTransmitter.withState,session]
      · intro starting
        cases starting
  rw [giveUp,sendAbort,sent]
  exact aborted _ rfl rfl

theorem processSession_sends {t : BitsTransmitter} (guarded : Guarded t) (progressed : Bool) (nowMs : U32) :
    ∃ more, Sends t (processSession cfg (route link) progressed nowMs t).1 more := by
  by_cases starting : t.session.state = .kStarting
  · have window := guarded (running_iff.mpr (.inl starting))
    simp only [processSession,starting,processStarting]
    split
    · exact sendSetup_sends cfg link window starting nowMs false
    split
    · split
      · exact giveUp_sends cfg link window
      · exact sendSetup_sends cfg link window starting nowMs true
    · exact ⟨[],.refl t⟩
  · have steps : Steps .abort t _ := processSession_steps cfg (route link) guarded progressed nowMs
    exact (calm_steps starting steps (by simp)).2

/-- Handling the slot forwards nothing. -/
theorem handleDatagram_sends (t : BitsTransmitter) : ∃ more, Sends t (handleDatagram t).1 more ∧
    ∀ packet result, .forward packet result ∉ more := by
  have none : ∃ more, Sends t t more ∧ ∀ packet result, .forward packet result ∉ more := ⟨[],.refl t,by simp⟩
  have ended (callback : Callback) (state : TransferState) (other : state ≠ .kStarting) :
      ∃ more, Sends t (emit (.callback callback) (t.withState state)) more ∧ ∀ packet result, .forward packet result ∉ more :=
    ⟨[.callback callback],.silent rfl rfl rfl (fun starting => absurd starting other) (by simp),by simp⟩
  unfold handleDatagram
  dsimp only
  split
  · exact none
  · split
    · exact none
    · split
      · unfold handleAck
        split
        · exact none
        · dsimp only
          split
          · split
            · refine ⟨[.callback .onTransferComplete],.silent rfl ?_ ?_ ?_ (by simp),by simp⟩
              · simp [emit]
              · simp [emit]
              · intro starting
                cases starting
            · refine ⟨[],.silent (by simp) ?_ ?_ ?_ (by simp),by simp⟩
              · simp
              · simp
              · intro starting
                cases starting
          · exact none
      · unfold handleReject
        split
        · exact none
        · split
          · exact ended _ .kRejected (by simp)
          · exact none
      · unfold handleAbort
        split
        · exact none
        · split
          · unfold transitionToAborted
            split
            · exact none
            · exact ended _ .kAborted (by simp)
          · exact none
      · split
        · exact none
        · exact ⟨[.callback (.onDatagram _)],.silent rfl rfl rfl id (by simp),by simp⟩
      · exact none
      · exact none
      · exact none

/-- What `process` sends. -/
theorem process_sends {t : BitsTransmitter} (guarded : Guarded t) (nowMs : U32) :
    ∃ more, Sends t (process cfg (route link) nowMs t).1 more := by
  unfold process
  by_cases occupied : t.datagramOccupied = true
  · rw [if_pos occupied]
    obtain ⟨more,first,none⟩ := handleDatagram_sends t
    have kept : Guarded (handleDatagram t).1 := guarded_steps guarded (handleDatagram_steps (c := .process nowMs) rfl t)
    dsimp only
    split
    · have emptied : Guarded { (handleDatagram t).1 with datagramOccupied := false } := kept.congr rfl rfl
      obtain ⟨after,second⟩ := processSession_sends cfg link emptied true nowMs
      refine ⟨more ++ after,?_,second.setup.trans first.setup,second.count.trans first.count,?_,?_⟩
      · rw [second.trace,← List.append_assoc]
        exact congrArg (· ++ after) first.trace
      · intro starting
        obtain ⟨middle,setups⟩ := second.starting starting
        refine ⟨(first.starting middle).1,?_⟩
        intro packet result member
        rcases List.mem_append.mp member with old | new
        · exact absurd old (none packet result)
        · exact (setups packet result new).trans (congrArg setupBytes first.setup)
      · intro calm packet result member
        rcases List.mem_append.mp member with old | new
        · exact absurd old (none packet result)
        · exact second.beyond calm packet result new
    · refine ⟨more,.silent first.trace first.setup first.count ?_ none⟩
      intro starting
      cases starting
  · rw [if_neg occupied]
    exact processSession_sends cfg link guarded false nowMs

end sends

/-! ### The system -/

/-- Both endpoints, the packets on the way, and those the receiver was offered so far. -/
structure System where
  tx : BitsTransmitter
  rx : BitsReceiver
  toReceiver : List PacketBuffer
  toTransmitter : List PacketBuffer
  delivered : List PacketBuffer

inductive Action where
  | startTransfer (object : Bytes) (segmentSize : U16) (sessionId initialSequenceNumber : U8)
  | processTransmitter (nowMs : U32) (link : PacketBuffer → Bool)
  | processReceiver (nowMs : U32) (segmentLink datagramLink : PacketBuffer → Bool)
  | carryToReceiver
  | carryToTransmitter
  | loseToReceiver (position : Nat)
  | loseToTransmitter (position : Nat)

/-- The packets the transmitter's link took. -/
def taken (events : List Event) : List PacketBuffer :=
  events.filterMap fun event =>
    match event with
    | .forward packet .kAccepted => some packet
    | _ => none

section system
variable (txConfig : Config) (rxConfig : Receiver.Config)

def perform (sys : System) : Action → System
  | .startTransfer object segmentSize sessionId initialSequenceNumber =>
    { sys with tx := (startTransfer object segmentSize sessionId initialSequenceNumber sys.tx).1 }
  | .processTransmitter nowMs link =>
    let tx := (process txConfig (route link) nowMs sys.tx).1
    { sys with tx := tx, toReceiver := sys.toReceiver ++ taken (tx.trace.drop sys.tx.trace.length) }
  | .processReceiver nowMs segmentLink datagramLink =>
    let rx := (Receiver.process rxConfig (answering segmentLink) (answering datagramLink) nowMs sys.rx).1
    let accepted := (rx.forwarded.drop sys.rx.forwarded.length).filter (fun sent => sent.2 = .kAccepted)
    { sys with rx := rx, toTransmitter := sys.toTransmitter ++ accepted.map Prod.fst }
  | .carryToReceiver =>
    match sys.toReceiver with
    | [] => sys
    | packet :: rest =>
      { sys with rx := (Receiver.receive rxConfig packet sys.rx).1, toReceiver := rest, delivered := sys.delivered ++ [packet] }
  | .carryToTransmitter =>
    match sys.toTransmitter with
    | [] => sys
    | packet :: rest => { sys with tx := (receive txConfig packet sys.tx).1, toTransmitter := rest }
  | .loseToReceiver position => { sys with toReceiver := sys.toReceiver.eraseIdx position }
  | .loseToTransmitter position => { sys with toTransmitter := sys.toTransmitter.eraseIdx position }

/-- A SETUP waits in the datagram slot while a segment waits in a segment slot. -/
def crossed (r : BitsReceiver) : Bool :=
  r.datagramOccupied && hasType r.datagramIngress.payload .kSetup && r.segmentOccupiedMask != 0

/-- One transfer starts at most, and an object of one segment is never drained
    together with a SETUP. -/
def permitted (sys : System) : Action → Bool
  | .startTransfer _ _ _ _ => sys.tx.trace.all (fun event => match event with | .started _ _ => false | _ => true)
  | .processReceiver _ _ _ => ! crossed sys.rx || decide (2 ≤ sys.tx.session.segmentCount)
  | _ => true

def permittedAll : System → List Action → Bool
  | _, [] => true
  | sys, action :: rest => permitted sys action && permittedAll (perform txConfig rxConfig sys action) rest

def performAll (sys : System) (actions : List Action) : System := actions.foldl (perform txConfig rxConfig) sys

end system

/-- Two idle endpoints with their storage, and empty links. -/
def idle (txIngress txPacket : PacketBuffer) (slots : Slots) (rxIngress rxPacket : PacketBuffer) : System where
  tx := ⟨txIngress,txPacket,false,{},.kSent,[]⟩
  rx := { segmentIngress := slots, datagramIngress := rxIngress, transmitPacket := rxPacket }
  toReceiver := []
  toTransmitter := []
  delivered := []

/-! ### The receiver's phases -/

/-- How far the receiver's engine got with the transfer: whether it heard a message
    that can complete or abort one decides what is still possible. -/
inductive Phase (setup : Setup) (heard : Prop) (e : ReceiverEngine.Engine) : Prop where
  | idle (state : e.state = .kIdle) (none : tally e = (0,0))
  | active (state : e.state = .kActive) (setupIs : e.setup = setup) (count : e.segmentCount = setupSegmentCount setup)
      (one : tally e = (1,0)) (touched : Untouched e ∨ heard)
  | past (state : e.state = .kCompleted ∨ e.state = .kAborted) (one : (tally e).1 = 1) (most : (tally e).2 ≤ 1) (late : heard)

theorem Phase.mono {setup : Setup} {heard heard' : Prop} {e : ReceiverEngine.Engine} (phase : Phase setup heard e)
    (grows : heard → heard') : Phase setup heard' e := by
  cases phase with
  | idle state none => exact .idle state none
  | active state setupIs count one touched => exact .active state setupIs count one (touched.imp_right grows)
  | past state one most late => exact .past state one most (grows late)

/-- The engine can still take a SETUP for the same transfer. -/
def Open (e : ReceiverEngine.Engine) : Prop := e.state = .kIdle ∨ e.state = .kActive ∧ Untouched e

/-- A message moves the phase forward, as long as a SETUP finds no transfer that is past. -/
theorem Phase.effect {setup : Setup} {heard : Prop} {message : Bytes} {e u : ReceiverEngine.Engine} (phase : Phase setup heard e)
    (effect : Effect message e u) (own : hasType message .kSetup = true → message = setupBytes setup)
    (room : hasType message .kSetup = true → e.state = .kIdle ∨ e.state = .kActive)
    (lateHeard : late message = true → heard) : Phase setup heard u := by
  cases effect with
  | none same quiet =>
    simp only [transfer,Prod.mk.injEq] at same
    obtain ⟨state,setupIs,count,contiguous,bitmap⟩ := same
    cases phase with
    | idle was none => exact .idle (state.trans was) (quiet.trans none)
    | active was setupWas countWas one touched =>
      refine .active (state.trans was) (setupIs.trans setupWas) (count.trans countWas) (quiet.trans one) ?_
      exact touched.imp_left fun untouched => ⟨contiguous.trans untouched.1,bitmap.trans untouched.2⟩
    | past was one most lateWas => exact .past (by rw [state]; exact was) (by rw [quiet]; exact one) (by rw [quiet]; exact most) lateWas
  | @began requested typed decoded inactive started one =>
    rcases room typed with idle | active
    · rw [own typed,decodeSetup_setupBytes] at decoded
      obtain rfl := Option.some.inj decoded
      simp only [transfer,Prod.mk.injEq] at started
      obtain ⟨state,setupIs,count,contiguous,bitmap⟩ := started
      cases phase with
      | idle was none => exact .active state setupIs count (by rw [one,none]) (.inl ⟨contiguous,bitmap⟩)
      | active was => rw [was] at idle; cases idle
      | past was => rw [idle] at was; rcases was with was | was <;> cases was
    · exact absurd active inactive
  | took typed active still setupIs count quiet =>
    have heardNow : heard := lateHeard (by simp [late,typed])
    cases phase with
    | idle was => rw [was] at active; cases active
    | active was setupWas countWas one touched =>
      exact .active still (setupIs.trans setupWas) (count.trans countWas) (quiet.trans one) (.inr heardNow)
    | past was => rw [active] at was; rcases was with was | was <;> cases was
  | finished typed active done one first =>
    have heardNow : heard := lateHeard (by simp [late,typed])
    cases phase with
    | idle was => rw [was] at active; cases active
    | active was setupWas countWas before touched => exact .past (.inl done) (by rw [one,before]) (by rw [one,before]) heardNow
    | past was => rw [active] at was; rcases was with was | was <;> cases was
  | ended typed active aborted quiet =>
    have heardNow : heard := lateHeard (by simp [late,typed])
    cases phase with
    | idle was => rw [was] at active; cases active
    | active was setupWas countWas before touched => exact .past (.inr aborted) (by rw [quiet,before]) (by rw [quiet,before]; simp) heardNow
    | past was => rw [active] at was; rcases was with was | was <;> cases was

/-- One segment of several leaves an open engine open to a SETUP. -/
theorem Open.segment {message : Bytes} {e u : ReceiverEngine.Engine} (opened : Open e) (effect : Effect message e u)
    (typed : hasType message .kSegment = true) (several : e.state = .kActive → 2 ≤ e.segmentCount) :
    u.state = .kIdle ∨ u.state = .kActive := by
  cases effect with
  | none same quiet =>
    simp only [transfer,Prod.mk.injEq] at same
    rw [same.1]
    exact opened.imp_right And.left
  | began typedSetup => cases hasType_unique typed typedSetup
  | took _ _ still => exact .inr still
  | finished _ active _ _ first =>
    have untouched : Untouched e := by
      rcases opened with idle | ⟨-,untouched⟩
      · rw [idle] at active
        cases active
      · exact untouched
    have := first untouched
    have := several active
    omega
  | ended typedAbort => cases hasType_unique typed typedAbort

/-! ### The invariant -/

/-- Earlier messages of the transfer than `later` allow it to be a SETUP. -/
def Precedes (earlier later : PacketBuffer) : Prop := late earlier.payload = true → hasType later.payload .kSetup = false

/-- What holds from the start of the transfer on. -/
structure Once (setup : Setup) (sys : System) : Prop where
  guarded : Guarded sys.tx
  begun : ∃ object setup', .started object setup' ∈ sys.tx.trace
  setup_is : sys.tx.session.setup = setup
  count : sys.tx.session.segmentCount = setupSegmentCount setup
  setups : ∀ p ∈ sys.delivered ++ sys.toReceiver, hasType p.payload .kSetup = true → p.payload = setupBytes setup
  ordered : (sys.delivered ++ sys.toReceiver).Pairwise Precedes
  starting : sys.tx.session.state = .kStarting → ∀ p ∈ sys.delivered ++ sys.toReceiver, late p.payload = false
  room : kAckSize ≤ sys.rx.transmitPacket.capacity
  held : ∀ i, sys.rx.segmentOccupiedMask.getLsbD i = true →
    ∃ p, sys.rx.segmentIngress[i]? = some (some p) ∧ hasType p.payload .kSegment = true
  queued : sys.rx.segmentOccupiedMask ≠ 0 → ∃ p ∈ sys.delivered, late p.payload = true
  slot : sys.rx.datagramOccupied = true → ∃ p ∈ sys.delivered, p.payload = sys.rx.datagramIngress.payload
  phase : Phase setup (∃ p ∈ sys.delivered, late p.payload = true) sys.rx.engine
  waiting : sys.rx.datagramOccupied = true → hasType sys.rx.datagramIngress.payload .kSetup = true → Open sys.rx.engine

section invariant
variable {txConfig : Config} {rxConfig : Receiver.Config} {setup : Setup} {sys : System}

theorem Once.processTransmitter (once : Once setup sys) (nowMs : U32) (link : PacketBuffer → Bool) :
    Once setup (perform txConfig rxConfig sys (.processTransmitter nowMs link)) := by
  obtain ⟨more,sends⟩ := process_sends txConfig link once.guarded nowMs
  have guarded : Guarded (process txConfig (route link) nowMs sys.tx).1 :=
    guarded_steps once.guarded (process_steps txConfig (route link) once.guarded (c := .process nowMs) rfl)
  have added : (process txConfig (route link) nowMs sys.tx).1.trace.drop sys.tx.trace.length = more := by
    rw [sends.trace,List.drop_left]
  have from_more : ∀ p ∈ taken more, .forward p .kAccepted ∈ more := by
    intro p member
    obtain ⟨event,found,made⟩ := List.mem_filterMap.mp member
    split at made
    · cases made
      exact found
    · cases made
  obtain ⟨object,setup',began⟩ := once.begun
  have starts := sends.starting
  have calm := sends.beyond
  simp only [perform,added]
  refine ⟨guarded,⟨object,setup',by rw [sends.trace]; exact List.mem_append_left _ began⟩,sends.setup.trans once.setup_is,
    sends.count.trans once.count,?_,?_,?_,once.room,once.held,once.queued,once.slot,once.phase,once.waiting⟩
  · intro p member typed
    rw [← List.append_assoc] at member
    rcases List.mem_append.mp member with old | new
    · exact once.setups p old typed
    · by_cases still : (process txConfig (route link) nowMs sys.tx).1.session.state = .kStarting
      · rw [(starts still).2 p .kAccepted (from_more p new),once.setup_is]
      · rw [calm still p .kAccepted (from_more p new)] at typed
        cases typed
  · rw [← List.append_assoc]
    refine List.pairwise_append.mpr ⟨once.ordered,?_,?_⟩
    · by_cases still : (process txConfig (route link) nowMs sys.tx).1.session.state = .kStarting
      · refine List.pairwise_of_forall_mem_list ?_
        intro a inside b _ isLate
        rw [(starts still).2 a .kAccepted (from_more a inside)] at isLate
        simp [late,setupBytes,hasType_encodeControl] at isLate
      · exact List.pairwise_of_forall_mem_list fun a _ b inside _ => calm still b .kAccepted (from_more b inside)
    · intro a old b new isLate
      by_cases still : (process txConfig (route link) nowMs sys.tx).1.session.state = .kStarting
      · rw [once.starting (starts still).1 a old] at isLate
        cases isLate
      · exact calm still b .kAccepted (from_more b new)
  · intro still p member
    rw [← List.append_assoc] at member
    rcases List.mem_append.mp member with old | new
    · exact once.starting (starts still).1 p old
    · rw [(starts still).2 p .kAccepted (from_more p new)]
      simp [late,setupBytes,hasType_encodeControl]

theorem Once.carryToReceiver (once : Once setup sys) : Once setup (perform txConfig rxConfig sys .carryToReceiver) := by
  cases inFlight : sys.toReceiver with
  | nil => simpa only [perform,inFlight] using once
  | cons packet rest =>
    simp only [perform,inFlight]
    have received := receive_received rxConfig packet sys.rx
    have same : (sys.delivered ++ [packet]) ++ rest = sys.delivered ++ sys.toReceiver := by rw [inFlight]; simp
    have more {p : PacketBuffer} (member : p ∈ sys.delivered) : p ∈ sys.delivered ++ [packet] := List.mem_append_left _ member
    have grows (heard : ∃ p ∈ sys.delivered, late p.payload = true) : ∃ p ∈ sys.delivered ++ [packet], late p.payload = true := by
      obtain ⟨p,member,isLate⟩ := heard
      exact ⟨p,more member,isLate⟩
    have first : packet ∈ sys.delivered ++ [packet] := by simp
    generalize (Receiver.receive rxConfig packet sys.rx).1 = rx at received
    have channel : ∀ rx, kAckSize ≤ rx.transmitPacket.capacity →
        (∀ i, rx.segmentOccupiedMask.getLsbD i = true →
          ∃ p, rx.segmentIngress[i]? = some (some p) ∧ hasType p.payload .kSegment = true) →
        (rx.segmentOccupiedMask ≠ 0 → ∃ p ∈ sys.delivered ++ [packet], late p.payload = true) →
        (rx.datagramOccupied = true → ∃ p ∈ sys.delivered ++ [packet], p.payload = rx.datagramIngress.payload) →
        rx.engine = sys.rx.engine →
        (rx.datagramOccupied = true → hasType rx.datagramIngress.payload .kSetup = true → Open rx.engine) →
        Once setup ⟨sys.tx,rx,rest,sys.toTransmitter,sys.delivered ++ [packet]⟩ := by
      intro rx room held queued slot engine waiting
      refine ⟨once.guarded,once.begun,once.setup_is,once.count,?_,?_,?_,room,held,queued,slot,?_,waiting⟩
      · rw [same]; exact once.setups
      · rw [same]; exact once.ordered
      · rw [same]; exact once.starting
      · rw [engine]; exact once.phase.mono grows
    have oldSlot (occupied : sys.rx.datagramOccupied = true) : ∃ p ∈ sys.delivered ++ [packet],
        p.payload = sys.rx.datagramIngress.payload := by
      obtain ⟨p,member,payload⟩ := once.slot occupied
      exact ⟨p,more member,payload⟩
    cases received with
    | unchanged => exact channel sys.rx once.room once.held (fun some => grows (once.queued some)) oldSlot rfl once.waiting
    | @datagram copy free payload =>
      refine channel _ once.room once.held (fun some => grows (once.queued some)) (fun _ => ⟨packet,first,payload.symm⟩) rfl ?_
      intro _ typed
      -- Before the SETUP nothing arrived that could have moved the transfer.
      have typedPacket : hasType packet.payload .kSetup = true := payload ▸ typed
      have unheard : ¬ ∃ p ∈ sys.delivered, late p.payload = true := by
        rintro ⟨p,member,isLate⟩
        have order : Precedes p packet := (List.pairwise_append.mp once.ordered).2.2 p member packet (by simp [inFlight])
        rw [order isLate] at typedPacket
        cases typedPacket
      cases once.phase with
      | idle state none => exact .inl state
      | active state _ _ _ touched => exact .inr ⟨state,touched.resolve_right unheard⟩
      | past _ _ _ heard => exact absurd heard unheard
    | @segment index copy typed inside payload =>
      refine channel _ once.room ?_ (fun _ => ⟨packet,first,by simp [late,typed]⟩) oldSlot rfl once.waiting
      intro i occupied
      by_cases here : i = index
      · subst here
        refine ⟨copy,?_,payload ▸ typed⟩
        rw [List.getElem?_set_self inside]
      · rw [BitVec.getLsbD_or,BitVec.getLsbD_shiftLeft] at occupied
        rw [List.getElem?_set_ne (Ne.symm here)]
        refine once.held i ?_
        by_cases below : i < index
        · simpa [below] using occupied
        · have apart : i - index ≠ 0 := by omega
          simpa [apart] using occupied

/-- Draining the segment side: the engine sees one queued segment, or nothing happens. -/
theorem processSegment_effect (lasting : rxConfig.build.config.inactivityTimeoutMs = 0) (link : PacketBuffer → Bool) (nowMs : U32)
    {r : BitsReceiver} (room : kAckSize ≤ r.transmitPacket.capacity) (held : ∀ i, r.segmentOccupiedMask.getLsbD i = true →
      ∃ p, r.segmentIngress[i]? = some (some p) ∧ hasType p.payload .kSegment = true) :
    (Receiver.processSegment rxConfig (answering link) nowMs r).1 = r ∨
      ∃ (message : Bytes) (index : Nat), hasType message .kSegment = true ∧ r.segmentOccupiedMask ≠ 0 ∧
        Effect message r.engine (Receiver.processSegment rxConfig (answering link) nowMs r).1.engine ∧
        ingress (Receiver.processSegment rxConfig (answering link) nowMs r).1 =
          (r.segmentIngress,r.segmentOccupiedMask &&& ~~~(1#16 <<< index),r.datagramIngress,r.datagramOccupied,
            r.transmitPacket.capacity) := by
  unfold Receiver.processSegment
  cases lowest : Receiver.lowestOccupied r.segmentOccupiedMask with
  | none => exact .inl rfl
  | some index =>
    refine .inr ⟨((r.segmentIngress.getD index none).map PacketBuffer.payload).getD [],index,?_,?_,?_⟩
    · obtain ⟨p,found,typed⟩ := held index (by
        have set := List.find?_some lowest
        have inside : index < 16 := List.mem_range.mp (List.mem_of_find?_eq_some lowest)
        by_contra clear
        rw [bne_iff_ne] at set
        exact set ((and_bit_eq_zero r.segmentOccupiedMask inside).mpr (by simpa using clear)))
      rw [List.getD_eq_getElem?_getD,found]
      exact typed
    · intro zero
      rw [zero] at lowest
      revert lowest
      decide +revert
    · exact deliver_effect (r := { r with segmentOccupiedMask := r.segmentOccupiedMask &&& ~~~(1#16 <<< index) }) lasting link
        room _ nowMs

/-- The receiver between its two drains: the phase moved on, no slot was filled, and
    a waiting SETUP still finds a transfer it belongs to. -/
structure Between (setup : Setup) (heard : Prop) (r drained : BitsReceiver) : Prop where
  phase : Phase setup heard drained.engine
  room : kAckSize ≤ drained.transmitPacket.capacity
  held : ∀ i, drained.segmentOccupiedMask.getLsbD i = true →
    ∃ p, drained.segmentIngress[i]? = some (some p) ∧ hasType p.payload .kSegment = true
  queued : drained.segmentOccupiedMask ≠ 0 → r.segmentOccupiedMask ≠ 0
  ingress_is : drained.datagramIngress = r.datagramIngress
  occupied_is : drained.datagramOccupied = r.datagramOccupied
  open_setup : r.datagramOccupied = true → hasType r.datagramIngress.payload .kSetup = true →
    drained.engine.state = .kIdle ∨ drained.engine.state = .kActive

theorem Once.between (lasting : rxConfig.build.config.inactivityTimeoutMs = 0) (once : Once setup sys) (nowMs : U32)
    (link : PacketBuffer → Bool) (allowed : (! crossed sys.rx || decide (2 ≤ sys.tx.session.segmentCount)) = true) :
    Between setup (∃ p ∈ sys.delivered, late p.payload = true) sys.rx
      (Receiver.processSegment rxConfig (answering link) nowMs sys.rx).1 := by
  rcases processSegment_effect lasting link nowMs once.room once.held with same | ⟨message,index,typed,queued,effect,kept⟩
  · rw [same]
    exact ⟨once.phase,once.room,once.held,id,rfl,rfl,fun occupied setup => (once.waiting occupied setup).imp_right And.left⟩
  · simp only [ingress,Prod.mk.injEq] at kept
    obtain ⟨slots,mask,datagram,occupied,capacity⟩ := kept
    have notSetup : hasType message .kSetup = true → False := by
      intro setupTyped
      cases hasType_unique typed setupTyped
    refine ⟨?_,by rw [capacity]; exact once.room,?_,fun _ => queued,datagram,occupied,?_⟩
    · exact once.phase.effect effect (fun other => (notSetup other).elim) (fun other => (notSetup other).elim)
        (fun _ => once.queued queued)
    · intro i set
      rw [mask,BitVec.getLsbD_and,Bool.and_eq_true] at set
      rw [slots]
      exact once.held i set.1
    · intro waits setupTyped
      have both : crossed sys.rx = true := by
        simp only [crossed,waits,setupTyped,Bool.and_self,Bool.true_and,bne_iff_ne]
        exact queued
      have several : 2 ≤ sys.tx.session.segmentCount := by simpa [both] using allowed
      refine (once.waiting waits setupTyped).segment effect typed ?_
      intro active
      cases once.phase with
      | idle state => rw [active] at state; cases state
      | active _ _ count => rw [count,← once.count]; exact several
      | past state => rw [active] at state; rcases state with state | state <;> cases state

theorem Once.processReceiver (lasting : rxConfig.build.config.inactivityTimeoutMs = 0) (once : Once setup sys) (nowMs : U32)
    (segmentLink datagramLink : PacketBuffer → Bool)
    (allowed : permitted sys (.processReceiver nowMs segmentLink datagramLink) = true) :
    Once setup (perform txConfig rxConfig sys (.processReceiver nowMs segmentLink datagramLink)) := by
  have between := once.between lasting nowMs segmentLink allowed
  simp only [perform,process_drains lasting]
  generalize (Receiver.processSegment rxConfig (answering segmentLink) nowMs sys.rx).2 = result
  generalize (Receiver.processSegment rxConfig (answering segmentLink) nowMs sys.rx).1 = middle at between
  have close (r : BitsReceiver) (toTransmitter : List PacketBuffer) (phase : Phase setup (∃ p ∈ sys.delivered, late p.payload = true) r.engine)
      (room : kAckSize ≤ r.transmitPacket.capacity) (slots : r.segmentIngress = middle.segmentIngress)
      (mask : r.segmentOccupiedMask = middle.segmentOccupiedMask) (free : r.datagramOccupied = false) :
      Once setup ⟨sys.tx,r,sys.toReceiver,toTransmitter,sys.delivered⟩ := by
    refine ⟨once.guarded,once.begun,once.setup_is,once.count,once.setups,once.ordered,once.starting,room,?_,?_,?_,phase,?_⟩
    · rw [slots,mask]; exact between.held
    · rw [mask]; exact fun some => once.queued (between.queued some)
    · rw [free]; exact fun occupied => absurd occupied (by decide)
    · rw [free]; exact fun occupied => absurd occupied (by decide)
  unfold Receiver.processDatagram
  by_cases occupied : middle.datagramOccupied = true
  · rw [if_pos occupied]
    obtain ⟨effect,kept⟩ := deliver_effect lasting datagramLink between.room middle.datagramIngress.payload nowMs
    simp only [ingress,Prod.mk.injEq] at kept
    obtain ⟨slots,mask,-,-,capacity⟩ := kept
    have waits : sys.rx.datagramOccupied = true := between.occupied_is ▸ occupied
    obtain ⟨p,member,payload⟩ := once.slot waits
    have same : middle.datagramIngress.payload = p.payload := by rw [between.ingress_is,payload]
    have phase : Phase setup (∃ p ∈ sys.delivered, late p.payload = true)
        (Receiver.deliver rxConfig (answering datagramLink) middle.datagramIngress.payload nowMs middle).1.engine := by
      refine between.phase.effect effect ?_ ?_ ?_
      · intro typed
        rw [same] at typed ⊢
        exact once.setups p (List.mem_append_left _ member) typed
      · intro typed
        exact between.open_setup waits (between.ingress_is ▸ typed)
      · intro isLate
        exact ⟨p,member,same ▸ isLate⟩
    dsimp only
    split
    · exact close _ _ phase (capacity ▸ between.room) slots mask rfl
    · exact close _ _ phase (capacity ▸ between.room) slots mask rfl
  · rw [if_neg occupied]
    exact close _ _ between.phase between.room rfl rfl (by simpa using occupied)

theorem Once.perform (lasting : rxConfig.build.config.inactivityTimeoutMs = 0) (once : Once setup sys) (action : Action)
    (allowed : permitted sys action = true) : Once setup (perform txConfig rxConfig sys action) := by
  have erased (position : Nat) : (sys.delivered ++ sys.toReceiver.eraseIdx position).Sublist (sys.delivered ++ sys.toReceiver) :=
    (List.Sublist.refl _).append (List.eraseIdx_sublist _ _)
  cases action with
  | startTransfer object segmentSize sessionId initialSequenceNumber =>
    obtain ⟨object',setup',began⟩ := once.begun
    have := List.all_eq_true.mp allowed _ began
    cases this
  | processTransmitter nowMs link => exact once.processTransmitter nowMs link
  | processReceiver nowMs segmentLink datagramLink => exact once.processReceiver lasting nowMs segmentLink datagramLink allowed
  | carryToReceiver => exact once.carryToReceiver
  | carryToTransmitter =>
    cases inFlight : sys.toTransmitter with
    | nil => simpa only [SingleAdmission.perform,inFlight] using once
    | cons packet rest =>
      simp only [SingleAdmission.perform,inFlight]
      have guarded := guarded_steps once.guarded (receive_steps txConfig (c := .receive packet) rfl sys.tx)
      rcases receive_cases txConfig packet sys.tx with ⟨-,-,copy,-,heard⟩ | ⟨-,same⟩
      · rw [heard] at guarded ⊢
        exact ⟨guarded,once.begun,once.setup_is,once.count,once.setups,once.ordered,once.starting,once.room,once.held,
          once.queued,once.slot,once.phase,once.waiting⟩
      · rw [same]
        exact ⟨once.guarded,once.begun,once.setup_is,once.count,once.setups,once.ordered,once.starting,once.room,once.held,
          once.queued,once.slot,once.phase,once.waiting⟩
  | loseToReceiver position =>
    exact ⟨once.guarded,once.begun,once.setup_is,once.count,fun p member => once.setups p ((erased position).subset member),
      once.ordered.sublist (erased position),
      fun starting p member => once.starting starting p ((erased position).subset member),once.room,once.held,
      once.queued,once.slot,once.phase,once.waiting⟩
  | loseToTransmitter position =>
    exact ⟨once.guarded,once.begun,once.setup_is,once.count,once.setups,once.ordered,once.starting,once.room,once.held,
      once.queued,once.slot,once.phase,once.waiting⟩

/-- The transfer's first state. -/
theorem once_start {txIngress txPacket rxIngress rxPacket : PacketBuffer} {slots : Slots} (room : kAckSize ≤ rxPacket.capacity)
    {object : Bytes} {segmentSize : U16} (sessionId initialSequenceNumber : U8)
    (startable : Startable (idle txIngress txPacket slots rxIngress rxPacket).tx object segmentSize) :
    Once (setupOf object segmentSize sessionId initialSequenceNumber)
      (SingleAdmission.perform txConfig rxConfig (idle txIngress txPacket slots rxIngress rxPacket)
        (.startTransfer object segmentSize sessionId initialSequenceNumber)) := by
  have first := startTransfer_eq sessionId initialSequenceNumber startable
  have window := start_window sessionId initialSequenceNumber startable
  have count := window.count
  rw [first] at count
  simp only [SingleAdmission.perform]
  refine ⟨fun _ => window,?_,?_,?_,by simp [idle],by simp [idle],by simp [idle],room,by simp [idle],?_,by simp [idle],
    .idle rfl rfl,by simp [idle]⟩
  · rw [first]
    exact ⟨object,setupOf object segmentSize sessionId initialSequenceNumber,by simp [emit]⟩
  · rw [first]
    rfl
  · rw [first,setupSegmentCount]
    have small := (setupOf object segmentSize sessionId initialSequenceNumber).finalSegmentIndex.isLt
    rw [Nat.mod_eq_of_lt (by omega)]
    exact count
  · exact fun some => absurd rfl some

/-- Two idle endpoints stay as they are until a transfer starts. -/
theorem perform_idle (txConfig : Config) (lasting : rxConfig.build.config.inactivityTimeoutMs = 0)
    {txIngress txPacket rxIngress rxPacket : PacketBuffer} {slots : Slots} (action : Action) :
    SingleAdmission.perform txConfig rxConfig (idle txIngress txPacket slots rxIngress rxPacket) action =
        idle txIngress txPacket slots rxIngress rxPacket ∨
      ∃ object segmentSize sessionId initialSequenceNumber,
        action = .startTransfer object segmentSize sessionId initialSequenceNumber ∧
        Startable (idle txIngress txPacket slots rxIngress rxPacket).tx object segmentSize := by
  cases action with
  | startTransfer object segmentSize sessionId initialSequenceNumber =>
    rcases startTransfer_cases object segmentSize sessionId initialSequenceNumber
      (idle txIngress txPacket slots rxIngress rxPacket).tx with startable | ⟨same,-⟩
    · exact .inr ⟨object,segmentSize,sessionId,initialSequenceNumber,rfl,startable⟩
    · exact .inl (by simp only [SingleAdmission.perform,same])
  | processTransmitter nowMs link => exact .inl rfl
  | processReceiver nowMs segmentLink datagramLink =>
    refine .inl ?_
    have same := process_empty (r := (idle txIngress txPacket slots rxIngress rxPacket).rx) lasting (answering segmentLink)
      (answering datagramLink) nowMs rfl rfl
    simp only [SingleAdmission.perform,same]
    rfl
  | carryToReceiver => exact .inl rfl
  | carryToTransmitter => exact .inl rfl
  | loseToReceiver position => exact .inl rfl
  | loseToTransmitter position => exact .inl rfl

theorem Once.performAll (lasting : rxConfig.build.config.inactivityTimeoutMs = 0) (once : Once setup sys) {actions : List Action}
    (allowed : permittedAll txConfig rxConfig sys actions = true) :
    Once setup (performAll txConfig rxConfig sys actions) := by
  induction actions generalizing sys with
  | nil => exact once
  | cons action rest ih =>
    rw [permittedAll,Bool.and_eq_true] at allowed
    exact ih (once.perform lasting action allowed.1) allowed.2

theorem Phase.bounded {heard : Prop} {e : ReceiverEngine.Engine} (phase : Phase setup heard e) :
    (tally e).1 ≤ 1 ∧ (tally e).2 ≤ 1 := by
  cases phase with
  | idle _ none => simp [none]
  | active _ _ _ one _ => simp [one]
  | past _ one most _ => exact ⟨one.le,most⟩

end invariant

/-- One transfer is admitted and completed at most once, in every run in which the
    receiver never drains the only segment of an object together with a SETUP. -/
theorem one_start_admits_once (txConfig : Config) (windowLimit : Nat) (limit_pos : 1 ≤ windowLimit)
    (limit_le : windowLimit ≤ kCompactWindowWidth) (connection : ConnectionAddress) (slots : Slots)
    (txIngress txPacket rxIngress rxPacket : PacketBuffer) (room : kAckSize ≤ rxPacket.capacity) (actions : List Action) :
    let rxConfig := Receiver.configure windowLimit limit_pos limit_le connection slots 0
    let start := idle txIngress txPacket slots rxIngress rxPacket
    permittedAll txConfig rxConfig start actions = true →
      (tally (performAll txConfig rxConfig start actions).rx.engine).1 ≤ 1 ∧
        (tally (performAll txConfig rxConfig start actions).rx.engine).2 ≤ 1 := by
  intro rxConfig start allowed
  have lasting : rxConfig.build.config.inactivityTimeoutMs = 0 := by
    simp only [rxConfig,Receiver.configure,ReceiverEngine.construct]
    split <;> rfl
  induction actions with
  | nil => exact ⟨Nat.zero_le _,Nat.zero_le _⟩
  | cons action rest ih =>
    rw [permittedAll,Bool.and_eq_true] at allowed
    rcases perform_idle txConfig lasting action with same | ⟨object,segmentSize,sessionId,isn,rfl,startable⟩
    · rw [same] at allowed
      have stays : performAll txConfig rxConfig start (action :: rest) = performAll txConfig rxConfig start rest := by
        rw [performAll,List.foldl_cons,same,← performAll]
      rw [stays]
      exact ih allowed.2
    · exact ((once_start room sessionId isn startable).performAll lasting allowed.2).phase.bounded

/-- Host 2's side of the connection. -/
def peerAddress : ConnectionAddress := ⟨⟨1⟩,⟨2⟩,⟨1⟩,⟨7⟩⟩

def oneSlot : Slots := [some (.define 16 PacketBuffer.sixteen_fits)]

def peer : Receiver.Config := Receiver.configure 16 ReceiverEngine.sixteen_pos ReceiverEngine.sixteen_le peerAddress oneSlot 0

def idlePair : System :=
  idle (.define 16 PacketBuffer.sixteen_fits) (.define 16 PacketBuffer.sixteen_fits) oneSlot
    (.define 16 PacketBuffer.sixteen_fits) (.define 16 PacketBuffer.sixteen_fits)

/-- A link that takes every packet. -/
def clear : PacketBuffer → Bool := fun _ => true

/-- The SETUP goes out again before its ACK arrives, and waits at the receiver
    together with the first segment. -/
def crossingRun (object : Bytes) : List Action :=
  [.startTransfer object 1 9 0,.processTransmitter 0 clear,.carryToReceiver,.processReceiver 0 clear clear,
    .processTransmitter 100 clear,.carryToTransmitter,.processTransmitter 101 clear,.carryToReceiver,.carryToReceiver,
    .processReceiver 102 clear clear]

theorem two_segments_admitted_once :
    (tally (performAll TransmitterSteps.pointToPoint peer idlePair (crossingRun [0xAA,0xBB])).rx.engine).1 ≤ 1 ∧
      (tally (performAll TransmitterSteps.pointToPoint peer idlePair (crossingRun [0xAA,0xBB])).rx.engine).2 ≤ 1 :=
  one_start_admits_once TransmitterSteps.pointToPoint 16 (by decide) (by decide) peerAddress oneSlot (.define 16 (by decide))
    (.define 16 (by decide)) (.define 16 (by decide)) (.define 16 (by decide)) (by decide) (crossingRun [0xAA,0xBB]) (by decide)

/-- With one segment the SETUP is admitted again behind the completion, and the
    segment's retransmission completes the object a second time. -/
theorem one_segment_admitted_twice :
    tally (performAll TransmitterSteps.pointToPoint peer idlePair (crossingRun [0xAA] ++
      [.loseToTransmitter 0,.processTransmitter 201 clear,.carryToReceiver,.processReceiver 202 clear clear])).rx.engine =
        (2,2) := by
  decide

end WireSpaces.SingleAdmission
