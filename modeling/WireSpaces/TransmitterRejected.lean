import WireSpaces.TransmitterEnding
import WireSpaces.TransmitterMalformed

/-!
A REJECT ends a transfer in any running state. A run rejects no transfer that was already
active, and no REJECT disturbs one, exactly when no `process` call finds in the slot of an
active session a REJECT that names it or does not decode.
-/
namespace WireSpaces.TransmitterRejected
open WireSpaces.Codec WireSpaces.Packet WireSpaces.Transmitter WireSpaces.TransmitterSteps WireSpaces.Emissions
open WireSpaces.TransmitterEnding
open WireSpaces.TransmitterWindow (run_history)
open WireSpaces.TransmitterMalformed (malformed handleDatagram_malformed giveUp_state)
open WireSpaces.ReceiverEngine (TransferState)

/-- The events a call adds. -/
def added (cfg : Config) (t : BitsTransmitter) (c : Call × (PacketBuffer → RouteResult)) : List Event :=
  (call cfg t c).1.trace.drop t.trace.length

/-- No transfer is rejected that was active since it started, and a `process` call that finds
    a REJECT in the slot of an active session works as if the REJECT were dropped. -/
structure SparesActive (cfg : Config) (datagramIngress transmitPacket : PacketBuffer)
    (calls : List (Call × (PacketBuffer → RouteResult))) : Prop where
  callbacks : ∀ before since c after, calls = before ++ since ++ c :: after →
    let active := run cfg datagramIngress transmitPacket before
    let t := run cfg datagramIngress transmitPacket (before ++ since)
    active.session.state = .kActive → (∀ e ∈ t.trace.drop active.trace.length, ¬Started e) →
    ∀ reason, .callback (.onTransferRejected reason) ∉ added cfg t c
  session : ∀ before nowMs router after, calls = before ++ (.process nowMs,router) :: after →
    let t := run cfg datagramIngress transmitPacket before
    t.session.state = .kActive → t.datagramOccupied = true → hasType t.datagramIngress.payload .kReject = true →
    process cfg router nowMs t = processSession cfg router true nowMs { t with datagramOccupied := false }

/-- The REJECT in the slot names the running session, or does not decode. -/
def RejectHeeded (t : BitsTransmitter) : Prop :=
  RejectWaiting t ∨
    t.datagramOccupied = true ∧ hasType t.datagramIngress.payload .kReject = true ∧ decodeReject t.datagramIngress.payload = none

section
variable {cfg : Config} {t : BitsTransmitter}

def Rejection (event : Event) : Prop := ∃ reason, event = .callback (.onTransferRejected reason)

theorem unnamed_move (s : TransferState) (label : Option Event) (u : TransferState) (move : Move False s label u)
    (_ : True) (_ : ∀ e ∈ label, ¬False) : True ∧ ∀ e ∈ label, ¬Rejection e := by
  refine ⟨trivial,?_⟩
  rintro e member ⟨reason,rfl⟩
  cases member
  cases move with
  | finish runs ends =>
    cases ends with
    | rejected _ named => exact named

/-- Without a REJECT of the session no call rejects the transfer. -/
theorem not_rejected {c : Call × (PacketBuffer → RouteResult)}
    (none : ¬((∃ nowMs, c.1 = .process nowMs) ∧ RejectWaiting t)) (reason : RejectReason) :
    Event.callback (.onTransferRejected reason) ∉ added cfg t c := by
  obtain ⟨events,whole,moves⟩ := call_lives cfg t c fun processed waiting => none ⟨processed,waiting⟩
  rw [added,whole,List.drop_left]
  intro member
  exact (moves.kept (fun _ => True) Rejection (fun _ => False) unnamed_move trivial (fun _ _ => id)).2 _ member ⟨reason,rfl⟩

theorem handleDatagram_reject {reject : Reject} (decoded : decodeReject t.datagramIngress.payload = some reject) :
    handleDatagram t = handleReject t.datagramIngress.payload t ∧
      decodeRejectKnownType t.datagramIngress.payload = some reject := by
  have typed : hasType t.datagramIngress.payload .kReject = true := by
    by_contra untyped
    rw [decodeReject,if_neg untyped] at decoded
    cases decoded
  rw [decodeReject,if_pos typed] at decoded
  refine ⟨?_,decoded⟩
  unfold handleDatagram
  dsimp only
  generalize t.datagramIngress.payload = message at typed
  cases message with
  | nil => simp [hasType] at typed
  | cons first rest =>
    obtain rfl := hasType_cons.mp typed
    dsimp only
    rw [decodeControl_encodeControl]

/-- A REJECT that waits ends the transfer in the next `process` call. -/
theorem process_rejects (cfg : Config) (waiting : RejectWaiting t) (router : PacketBuffer → RouteResult) (nowMs : U32) :
    (handleDatagram t).1.session.state = .kRejected ∧
      ∃ reason, .callback (.onTransferRejected reason) ∈ added cfg t (.process nowMs,router) := by
  obtain ⟨occupied,runs,reject,decoded,named⟩ := waiting
  obtain ⟨handled,known⟩ := handleDatagram_reject decoded
  have rejected : handleReject t.datagramIngress.payload t =
      (emit (.callback (.onTransferRejected reject.reason)) (t.withState .kRejected),true) := by
    simp only [handleReject,known]
    rw [if_pos (by rw [runs,named,beq_self_eq_true]; rfl)]
  rw [rejected] at handled
  refine ⟨by rw [handled]; rfl,reject.reason,?_⟩
  have after : (process cfg router nowMs t).1.trace = t.trace ++ [.callback (.onTransferRejected reject.reason)] := by
    rw [process,if_pos occupied,handled]
    rfl
  simp only [added,call,after,List.drop_left,List.mem_singleton]

/-- A REJECT of another session is dropped. -/
theorem process_dropped (cfg : Config) (unheeded : ¬RejectHeeded t) (active : t.session.state = .kActive)
    (occupied : t.datagramOccupied = true) (typed : hasType t.datagramIngress.payload .kReject = true)
    (router : PacketBuffer → RouteResult) (nowMs : U32) :
    process cfg router nowMs t = processSession cfg router true nowMs { t with datagramOccupied := false } := by
  cases decoded : decodeReject t.datagramIngress.payload with
  | none => exact absurd (.inr ⟨occupied,typed,decoded⟩) unheeded
  | some reject =>
    obtain ⟨handled,known⟩ := handleDatagram_reject decoded
    have other : reject.sessionId ≠ t.session.setup.sessionId := fun same =>
      unheeded (.inl ⟨occupied,running_iff.mpr (.inr active),reject,decoded,same⟩)
    have untouched : handleDatagram t = (t,true) := by
      rw [handled]
      simp only [handleReject,known]
      rw [if_neg (by simp [other])]
    rw [process,if_pos occupied,untouched]
    rfl

/-- A REJECT that does not decode is the error state. -/
theorem process_undecoded (cfg : Config) (occupied : t.datagramOccupied = true)
    (typed : hasType t.datagramIngress.payload .kReject = true) (undecoded : decodeReject t.datagramIngress.payload = none)
    (router : PacketBuffer → RouteResult) (nowMs : U32) :
    process cfg router nowMs t = (({ t with datagramOccupied := false } : BitsTransmitter).withState .kError,.kError) := by
  rw [decodeReject,if_pos typed] at undecoded
  have bad : malformed t.datagramIngress.payload = true := by simp [malformed,typed,undecoded]
  rw [process,if_pos occupied,handleDatagram_malformed bad]
  rfl

/-! ### The session's own work fails only at a send -/

theorem conclude_trace (sent : BitsTransmitter × Bool) : (conclude sent).1.trace = sent.1.trace := by
  unfold conclude
  split
  · rfl
  · split <;> rfl

theorem conclude_sends {router : PacketBuffer → RouteResult} {nowMs : U32} (window : SendWindow t) {offset : Nat}
    (known : t.session.acknowledgedCount + offset < t.session.segmentCount) (retransmission : Bool) :
    (conclude (sendSegment cfg router offset nowMs retransmission t)).1.trace ≠ t.trace := by
  obtain ⟨packet,-,-,-,result⟩ := window.sendSegment_eq cfg router known nowMs retransmission
  rw [conclude_trace,result]
  dsimp only
  split <;> simp [BitsTransmitter.withSession]

theorem conclude_probes {router : PacketBuffer → RouteResult} {nowMs : U32} (window : SendWindow t) :
    (conclude (sendProbe cfg router nowMs t)).1.trace ≠ t.trace := by
  obtain ⟨packet,-,-,-,result⟩ := sendEncoded_eq cfg router .kNormal (t := t) (fun _ size => encodeProbe_exact size)
    (show (probeBytes ⟨t.session.setup.sessionId⟩).length = kProbeSize from rfl) (le_trans (by decide) window.setup_fits)
  rw [conclude_trace,sendProbe,result]
  dsimp only
  split <;> simp [BitsTransmitter.withSession]

/-- An active session comes to the error state only through a packet the router refused. -/
theorem processActive_fails (cfg : Config) (router : PacketBuffer → RouteResult) (nowMs : U32) (window : SendWindow t)
    (active : t.session.state = .kActive) (progressed : Bool)
    (failed : (processActive cfg router progressed nowMs t).1.session.state = .kError) :
    (processActive cfg router progressed nowMs t).1.trace ≠ t.trace := by
  have granted := window.granted
  have gaveUp : (giveUp cfg router t).1.session.state ≠ .kError := by rw [giveUp_state]; decide
  unfold processActive at failed ⊢
  cases unsent : unsentOffset t.session with
  | some offset =>
    have inside := (window.unsentOffset_some unsent).1
    exact conclude_sends window (by omega) false
  | none =>
    cases expired : expiredOffset cfg nowMs t.session with
    | some offset =>
      obtain ⟨-,inside,-⟩ := List.find?_range_eq_some.mp expired
      rw [List.mem_range,window.windowSpan_eq] at inside
      simp only [unsent,expired] at failed ⊢
      split at failed
      · exact absurd failed gaveUp
      · rename_i under
        rw [if_neg under]
        exact conclude_sends window (by omega) true
    | none =>
      simp only [unsent,expired,processProbe] at failed ⊢
      have still {state : TransferState} (same : state = t.session.state) : state ≠ .kError := by
        rw [same,active]
        decide
      split at failed
      · split at failed
        · exact absurd failed (still rfl)
        · split at failed
          · split at failed
            · exact absurd failed gaveUp
            · rename_i waiting on late under
              rw [if_pos waiting,if_neg on,if_pos late,if_neg under]
              exact conclude_probes window
          · exact absurd failed (still rfl)
      · exact absurd failed (still rfl)

theorem active_move (s : TransferState) (label : Option Event) (u : TransferState) (move : Move True s label u)
    (later : s ≠ .kStarting) (none : ∀ e ∈ label, ¬Started e) : u ≠ .kStarting ∧ ∀ e ∈ label, ¬False := by
  refine ⟨?_,fun _ _ => id⟩
  cases move with
  | start idle object setup => exact absurd ⟨object,setup,rfl⟩ (none _ rfl)
  | work => exact later
  | aside => exact later
  | heard => exact later
  | activate => simp
  | finish runs ends =>
    rintro rfl
    exact (ends_terminal ends).2 (.inl rfl)
  | «break» => simp

end

/-- A run spares its active transfers iff no `process` call of it finds, in the slot of an
    active session, a REJECT that names it or does not decode. -/
theorem active_spared_iff (cfg : Config) (datagramIngress transmitPacket : PacketBuffer)
    (calls : List (Call × (PacketBuffer → RouteResult))) :
    SparesActive cfg datagramIngress transmitPacket calls ↔
      ∀ before nowMs router after, calls = before ++ (.process nowMs,router) :: after →
        let t := run cfg datagramIngress transmitPacket before
        ¬(t.session.state = .kActive ∧ RejectHeeded t) := by
  constructor
  · rintro spares before nowMs router after rfl t ⟨active,waiting | ⟨occupied,typed,undecoded⟩⟩
    · obtain ⟨-,reason,rejected⟩ := process_rejects cfg waiting router nowMs
      refine spares.callbacks before [] (.process nowMs,router) after (by simp) active ?_ reason ?_
      · simp
      · rwa [List.append_nil]
    · have guarded : Guarded t := (run_history cfg datagramIngress transmitPacket before).1
      have kept : windowFields { t with datagramOccupied := false } = windowFields t := rfl
      have window := window_congr kept (guarded (running_iff.mpr (.inr active)))
      have same := spares.session before nowMs router after rfl active occupied typed
      rw [process_undecoded cfg occupied typed undecoded,
        show processSession cfg router true nowMs { t with datagramOccupied := false } =
          processActive cfg router true nowMs { t with datagramOccupied := false } by simp only [processSession,active]] at same
      refine processActive_fails cfg router nowMs window active true ?_ ?_
      · rw [← same]
        rfl
      · rw [← same]
        rfl
  · intro clear
    refine ⟨?_,?_⟩
    · rintro before since c after rfl first t active none reason
      refine not_rejected ?_ reason
      rintro ⟨⟨nowMs,processed⟩,waiting⟩
      obtain ⟨c,router⟩ := c
      obtain rfl : c = .process nowMs := processed
      refine clear (before ++ since) nowMs router after rfl ⟨?_,.inl waiting⟩
      obtain ⟨events,whole,moves⟩ := calls_live cfg first since
      have same : t = since.foldl (fun t c => (call cfg t c).1) first := run_append _ _ _ _ _
      rw [← same] at whole moves
      rw [whole,List.drop_left] at none
      have later := (moves.kept (· ≠ .kStarting) (fun _ => False) Started active_move (by simp [active]) none).1
      exact (running_iff.mp waiting.2.1).resolve_left later
    · rintro before nowMs router after rfl t active occupied typed
      exact process_dropped cfg (fun heeded => clear before nowMs router after rfl ⟨active,heeded⟩) active occupied typed
        router nowMs

/-- A transfer of two bytes whose SETUP was acknowledged, and then a REJECT in the slot. -/
def untilActive : List (Call × (PacketBuffer → RouteResult)) :=
  [(.startTransfer [0xAA,0xBB] 1 9 0,fun _ => .kAccepted),(.process 0,fun _ => .kAccepted),
    (.receive (ackFromPeer ⟨9,0,0,255⟩),fun _ => .kAccepted),(.process 1,fun _ => .kAccepted)]

def lateReject : List (Call × (PacketBuffer → RouteResult)) :=
  [(.receive (fromPeer (rejectBytes ⟨9,.kBusy⟩) (by decide)),fun _ => .kAccepted)]

theorem late_reject_ends_active_transfer :
    ¬SparesActive pointToPoint (.define 16 (by decide)) (.define 16 (by decide))
      (untilActive ++ lateReject ++ [(.process 2,fun _ => .kAccepted)]) := by
  intro spares
  have active : (run pointToPoint (.define 16 (by decide)) (.define 16 (by decide)) untilActive).session.state = .kActive := by
    decide
  have nothing : (run pointToPoint (.define 16 (by decide)) (.define 16 (by decide)) (untilActive ++ lateReject)).trace.drop
      (run pointToPoint (.define 16 (by decide)) (.define 16 (by decide)) untilActive).trace.length = [] := by
    decide
  refine spares.callbacks untilActive lateReject (.process 2,fun _ => .kAccepted) [] rfl active ?_ .kBusy ?_
  · rw [nothing]
    exact fun _ member => absurd member List.not_mem_nil
  · decide

end WireSpaces.TransmitterRejected
