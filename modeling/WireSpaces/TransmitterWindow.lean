import WireSpaces.TransmitterSteps

/-!
The transmitter over whole runs: the send window holds against any input, every
SEGMENT is a granted slice of the object, the counters only grow, and completion
follows the link's acceptance of every segment.
-/
namespace WireSpaces.TransmitterWindow
open WireSpaces.Words WireSpaces.Codec WireSpaces.Packet WireSpaces.Transmitter WireSpaces.TransmitterSteps
open WireSpaces.ReceiverEngine (TransferState)

/-- The link accepted the SEGMENT of an index. -/
def Linked (setup : Setup) (object : Bytes) (events : List Event) (index : Nat) : Prop :=
  ∃ packet, .forward packet .kAccepted ∈ events ∧ packet.payload = segmentPdu setup object index

/-- The trace since its last started transfer, which carries the object and the SETUP. -/
def Since (trace : List Event) (object : Bytes) (setup : Setup) (after : List Event) : Prop :=
  (∃ before, trace = before ++ .started object setup :: after) ∧ ∀ o s, .started o s ∉ after

/-- At a completion every segment of the transfer's object had been accepted by the link. -/
def CompletesAt (trace : List Event) (k : Nat) : Prop :=
  ∃ object setup after, Since (trace.take k) object setup after ∧
    ∀ index ≤ setup.finalSegmentIndex.toNat, Linked setup object after index

/-- The segments the window counts as sent were accepted by the link in this
    transfer, and every completion so far came after all of them. -/
structure History (t : BitsTransmitter) : Prop where
  sent : running t.session = true → ∃ after, Since t.trace t.session.object t.session.setup after ∧
    ∀ index, (index < t.session.acknowledgedCount ∨
        ∃ j, index = t.session.acknowledgedCount + j ∧ t.session.sentBitmap.getLsbD j = true) →
      Linked t.session.setup t.session.object after index
  completed : ∀ k, t.trace[k]? = some (.callback .onTransferComplete) → CompletesAt t.trace k

theorem Since.append {trace : List Event} {object : Bytes} {setup : Setup} {after : List Event}
    (since : Since trace object setup after) {event : Event} (other : ∀ o s, event ≠ .started o s) :
    Since (trace ++ [event]) object setup (after ++ [event]) := by
  obtain ⟨⟨before,rfl⟩,none⟩ := since
  refine ⟨⟨before,by simp⟩,?_⟩
  intro o s member
  rcases List.mem_append.mp member with old | new
  · exact none o s old
  · exact other o s (List.mem_singleton.mp new).symm

theorem Linked.append {setup : Setup} {object : Bytes} {events : List Event} {index : Nat}
    (linked : Linked setup object events index) (more : List Event) : Linked setup object (events ++ more) index := by
  obtain ⟨packet,member,payload⟩ := linked
  exact ⟨packet,List.mem_append_left _ member,payload⟩

theorem completed_append {events : List Event}
    (completed : ∀ k, events[k]? = some (.callback .onTransferComplete) → CompletesAt events k) {event : Event}
    (last : event = .callback .onTransferComplete → CompletesAt (events ++ [event]) events.length) :
    ∀ k, (events ++ [event])[k]? = some (.callback .onTransferComplete) → CompletesAt (events ++ [event]) k := by
  intro k found
  by_cases below : k < events.length
  · rw [List.getElem?_append_left below] at found
    obtain ⟨object,setup,after,since,linked⟩ := completed k found
    exact ⟨object,setup,after,by rwa [List.take_append_of_le_length below.le],linked⟩
  · have inside := (List.getElem?_eq_some_iff.mp found).1
    simp only [List.length_append,List.length_singleton] at inside
    obtain rfl : k = events.length := by omega
    exact last (by simpa using found)

/-- A step that adds one event, neither a start nor a completion, and keeps the session. -/
theorem History.append {t u : BitsTransmitter} (history : History t) {event : Event} (trace : u.trace = t.trace ++ [event])
    (other : ∀ o s, event ≠ .started o s) (unfinished : event ≠ .callback .onTransferComplete)
    (session : u.session = t.session) : History u := by
  refine ⟨?_,?_⟩
  · rw [session]
    intro runs
    obtain ⟨after,since,linked⟩ := history.sent runs
    exact ⟨after ++ [event],trace ▸ since.append other,fun index told => (linked index told).append _⟩
  · rw [trace]
    exact completed_append history.completed (fun same => absurd same unfinished)

theorem aside_other {event : Event} (beside : Aside event) :
    (∀ o s, event ≠ .started o s) ∧ event ≠ .callback .onTransferComplete := by
  cases beside <;> simp

/-- The segments counted after an ACK were counted before it. -/
theorem counted_acknowledge {s : TransferSession} {ack : Ack} (applies : Applies s ack) {index : Nat}
    (told : index < (acknowledge s ack).acknowledgedCount ∨
      ∃ j, index = (acknowledge s ack).acknowledgedCount + j ∧ (acknowledge s ack).sentBitmap.getLsbD j = true) :
    index < s.acknowledgedCount ∨ ∃ j, index = s.acknowledgedCount + j ∧ s.sentBitmap.getLsbD j = true := by
  rw [acknowledge_acknowledgedCount,acknowledge_sentBitmap] at told
  rcases told with below | ⟨j,rfl,set⟩
  · by_cases old : index < s.acknowledgedCount
    · exact .inl old
    · exact .inr ⟨index - s.acknowledgedCount,by omega,applies.sent _ (by omega)⟩
  · rw [BitVec.getLsbD_ushiftRight] at set
    exact .inr ⟨ackAdvance s ack + j,by omega,set⟩

theorem history_step {c : Call} {t u : BitsTransmitter} (guarded : Guarded t) (history : History t) (step : Step c t u) :
    History u := by
  cases step with
  | note same =>
    simp only [core,windowFields,Prod.mk.injEq] at same
    obtain ⟨-,-,state,trace,-,object,setup,count,acknowledged,granted,sent,-⟩ := same
    refine ⟨?_,by rw [trace]; exact history.completed⟩
    intro runs
    rw [running,state] at runs
    rw [object,setup,acknowledged,sent,trace]
    exact history.sent runs
  | aside beside => exact history.append rfl (aside_other beside).1 (aside_other beside).2 rfl
  | setup result starting payload => exact history.append rfl (by simp) (by simp) rfl
  | take called copied => exact ⟨history.sent,history.completed⟩
  | drain => exact ⟨history.sent,history.completed⟩
  | @start object segmentSize sessionId initialSequenceNumber called startable =>
    rw [startTransfer_eq sessionId initialSequenceNumber startable]
    refine ⟨?_,?_⟩
    · intro _
      refine ⟨[],⟨⟨t.trace,rfl⟩,by simp⟩,?_⟩
      rintro index (below | ⟨j,-,set⟩)
      · exact absurd below (Nat.not_lt_zero _)
      · simp [emit] at set
    · exact completed_append history.completed (by simp)
  | refused active granted other payload => exact history.append rfl (by simp) (by simp) rfl
  | @segment packet offset active granted lower payload =>
    obtain ⟨after,since,linked⟩ := history.sent (running_iff.mpr (.inr active))
    have longer : Since (t.trace ++ [.forward packet .kAccepted]) t.session.object t.session.setup
        (after ++ [.forward packet .kAccepted]) := since.append (by simp)
    refine ⟨?_,completed_append history.completed (by simp)⟩
    intro _
    refine ⟨_,longer,?_⟩
    rintro index (below | ⟨j,rfl,set⟩)
    · exact (linked index (.inl below)).append _
    · simp only [BitsTransmitter.withSession_session,withSent_sentBitmap,BitVec.getLsbD_or,testBit_shiftLeft_one,Bool.or_eq_true,
        decide_eq_true_eq] at set
      rcases set with old | ⟨rfl,-⟩
      · exact (linked _ (.inr ⟨j,rfl,old⟩)).append _
      · exact ⟨packet,by simp,payload⟩
  | ack called typed decoded applies short =>
    have checks := ackApplies_iff.mp applies
    obtain ⟨after,since,linked⟩ := history.sent checks.running
    refine ⟨?_,history.completed⟩
    intro _
    refine ⟨after,by simpa using since,?_⟩
    intro index told
    simpa using linked index (counted_acknowledge checks told)
  | complete called typed decoded applies full =>
    have checks := ackApplies_iff.mp applies
    obtain ⟨after,since,linked⟩ := history.sent checks.running
    refine ⟨fun runs => absurd runs (by simp [running,emit]),completed_append history.completed ?_⟩
    intro _
    refine ⟨_,_,after,by simpa using since,?_⟩
    intro index known
    have count := (guarded checks.running).count
    exact linked index (counted_acknowledge checks (.inl (by omega)))
  | close dead =>
    refine ⟨fun runs => absurd runs ?_,history.completed⟩
    rcases dead with rfl | rfl | rfl <;> simp [running,BitsTransmitter.withState]

/-! ### Within one transfer -/

/-- From one state to a later one of the same transfer. -/
structure Within (t u : BitsTransmitter) : Prop where
  object : u.session.object = t.session.object
  setup : u.session.setup = t.session.setup
  acknowledged : t.session.acknowledgedCount ≤ u.session.acknowledgedCount
  granted : t.session.grantedEnd ≤ u.session.grantedEnd
  segments : ∃ more, u.trace = t.trace ++ more ∧
    ∀ packet result, .forward packet result ∈ more → hasType packet.payload .kSegment = true →
      ∃ index < u.session.grantedEnd, packet.payload = segmentPdu u.session.setup u.session.object index

theorem Within.refl (t : BitsTransmitter) : Within t t := ⟨rfl,rfl,le_refl _,le_refl _,[],by simp,by simp⟩

theorem Within.trans {t u v : BitsTransmitter} (first : Within t u) (second : Within u v) : Within t v := by
  obtain ⟨more₁,trace₁,granted₁⟩ := first.segments
  obtain ⟨more₂,trace₂,granted₂⟩ := second.segments
  refine ⟨second.object.trans first.object,second.setup.trans first.setup,first.acknowledged.trans second.acknowledged,
    first.granted.trans second.granted,more₁ ++ more₂,by rw [trace₂,trace₁,List.append_assoc],?_⟩
  intro packet result member typed
  rcases List.mem_append.mp member with early | late
  · obtain ⟨index,below,payload⟩ := granted₁ packet result early typed
    exact ⟨index,below.trans_le second.granted,by rw [second.setup,second.object]; exact payload⟩
  · exact granted₂ packet result late typed

/-- A step that adds one event and keeps the session. -/
theorem Within.event {t u : BitsTransmitter} {event : Event} (trace : u.trace = t.trace ++ [event])
    (session : u.session = t.session)
    (segment : ∀ packet result, event = .forward packet result → hasType packet.payload .kSegment = true →
      ∃ index < t.session.grantedEnd, packet.payload = segmentPdu t.session.setup t.session.object index) : Within t u := by
  refine ⟨by rw [session],by rw [session],by rw [session],by rw [session],[event],trace,?_⟩
  rw [session]
  intro packet result member typed
  exact segment packet result (List.mem_singleton.mp member).symm typed

theorem aside_types {event : Event} (beside : Aside event) {packet : PacketBuffer} {result : RouteResult}
    (forward : event = .forward packet result) :
    hasType packet.payload .kSetup = false ∧ hasType packet.payload .kSegment = false := by
  cases beside with
  | probe probe result payload => cases forward; rw [payload]; simp [probeBytes,hasType_encodeControl]
  | abort abort result payload => cases forward; rw [payload]; simp [abortBytes,hasType_encodeControl]
  | datagram bytes result payload => cases forward; rw [payload]; simp [userDatagramBytes,hasType_encodeControl]
  | onDatagram | onTransferRejected | onTransferAborted => cases forward

theorem within_step {c : Call} {t u : BitsTransmitter} (step : Step c t u)
    (other : ∀ object segmentSize sessionId initialSequenceNumber,
      c ≠ .startTransfer object segmentSize sessionId initialSequenceNumber) : Within t u := by
  cases step with
  | note same =>
    simp only [core,windowFields,Prod.mk.injEq] at same
    obtain ⟨-,-,-,trace,-,object,setup,-,acknowledged,granted,-,-⟩ := same
    exact ⟨object,setup,acknowledged.ge,granted.ge,[],by simpa using trace,by simp⟩
  | aside beside =>
    refine .event rfl rfl ?_
    intro packet result forward typed
    rw [(aside_types beside forward).2] at typed
    exact absurd typed (by decide)
  | @setup packet result starting payload =>
    refine .event rfl rfl ?_
    intro packet' result' forward typed
    cases forward
    rw [payload] at typed
    simp [setupBytes,hasType_encodeControl] at typed
  | take called copied => exact ⟨rfl,rfl,le_refl _,le_refl _,[],by simp,by simp⟩
  | drain => exact ⟨rfl,rfl,le_refl _,le_refl _,[],by simp,by simp⟩
  | start called startable => exact absurd called (other _ _ _ _)
  | @refused packet index result active granted notAccepted payload =>
    refine .event rfl rfl ?_
    intro packet' result' forward _
    cases forward
    exact ⟨index,granted,payload⟩
  | @segment packet offset active granted lower payload =>
    refine ⟨rfl,rfl,le_refl _,le_refl _,[.forward packet .kAccepted],rfl,?_⟩
    intro packet' result' member _
    cases List.mem_singleton.mp member
    exact ⟨_,granted,payload⟩
  | ack called typed decoded applies short =>
    exact ⟨by simp,by simp,by simp,by simp,[],by simp,by simp⟩
  | complete called typed decoded applies full =>
    exact ⟨by simp [emit],by simp [emit],by simp [emit],by simp [emit],[_],rfl,by simp⟩
  | close dead => exact ⟨rfl,rfl,le_refl _,le_refl _,[],by simp [BitsTransmitter.withState],by simp⟩

theorem within_steps {c : Call} {t u : BitsTransmitter} (steps : Steps c t u)
    (other : ∀ object segmentSize sessionId initialSequenceNumber,
      c ≠ .startTransfer object segmentSize sessionId initialSequenceNumber) : Within t u := by
  induction steps with
  | refl => exact .refl t
  | tail _ step ih => exact ih.trans (within_step step other)

theorem history_steps {c : Call} {t u : BitsTransmitter} (steps : Steps c t u) (guarded : Guarded t) (history : History t) :
    Guarded u ∧ History u := by
  induction steps with
  | refl => exact ⟨guarded,history⟩
  | tail _ step ih => exact ⟨guarded_step ih.1 step,history_step ih.1 ih.2 step⟩

/-- A call that starts no transfer stays within the current one. -/
theorem within_call (cfg : Config) {t : BitsTransmitter} (guarded : Guarded t) (c : Call × (PacketBuffer → RouteResult)) :
    Within t (call cfg t c).1 ∨ ∃ object setup, (call cfg t c).1.trace = t.trace ++ [.started object setup] := by
  obtain ⟨c,router⟩ := c
  by_cases starts : ∃ object segmentSize sessionId initialSequenceNumber,
      c = .startTransfer object segmentSize sessionId initialSequenceNumber
  · obtain ⟨object,segmentSize,sessionId,initialSequenceNumber,rfl⟩ := starts
    rcases startTransfer_cases object segmentSize sessionId initialSequenceNumber t with startable | ⟨same,-⟩
    · refine .inr ⟨object,setupOf object segmentSize sessionId initialSequenceNumber,?_⟩
      show (startTransfer object segmentSize sessionId initialSequenceNumber t).1.trace = _
      rw [startTransfer_eq sessionId initialSequenceNumber startable]
      rfl
    · refine .inl ?_
      show Within t (startTransfer object segmentSize sessionId initialSequenceNumber t).1
      rw [same]
      exact .refl t
  · refine .inl (within_steps (call_steps cfg guarded (c,router)) ?_)
    intro object segmentSize sessionId initialSequenceNumber same
    exact starts ⟨object,segmentSize,sessionId,initialSequenceNumber,same⟩

/-! ### Runs -/

section runs
variable (cfg : Config) (datagramIngress transmitPacket : PacketBuffer)

theorem run_history (calls : List (Call × (PacketBuffer → RouteResult))) :
    Guarded (run cfg datagramIngress transmitPacket calls) ∧ History (run cfg datagramIngress transmitPacket calls) := by
  induction calls using List.reverseRecOn with
  | nil => exact ⟨fun runs => absurd runs (by simp [run,running]),⟨fun runs => absurd runs (by simp [run,running]),by simp [run]⟩⟩
  | append_singleton calls c ih =>
    rw [run_append]
    exact history_steps (call_steps cfg ih.1 c) ih.1 ih.2

theorem guarded_calls {t : BitsTransmitter} (guarded : Guarded t) (more : List (Call × (PacketBuffer → RouteResult))) :
    Guarded (more.foldl (fun t c => (call cfg t c).1) t) := by
  induction more generalizing t with
  | nil => exact guarded
  | cons c more ih => exact ih (guarded_steps guarded (call_steps cfg guarded c))

/-- A run that starts no transfer stays within the current one. -/
theorem within_run {t : BitsTransmitter} (guarded : Guarded t) (more : List (Call × (PacketBuffer → RouteResult)))
    (none : ∀ events, (more.foldl (fun t c => (call cfg t c).1) t).trace = t.trace ++ events →
      ∀ object setup, .started object setup ∉ events) : Within t (more.foldl (fun t c => (call cfg t c).1) t) := by
  suffices either : Within t (more.foldl (fun t c => (call cfg t c).1) t) ∨
      ∃ events object setup, (more.foldl (fun t c => (call cfg t c).1) t).trace = t.trace ++ events ∧
        .started object setup ∈ events by
    rcases either with within | ⟨events,object,setup,trace,member⟩
    · exact within
    · exact absurd member (none events trace object setup)
  clear none
  induction more using List.reverseRecOn with
  | nil => exact .inl (.refl t)
  | append_singleton more c ih =>
    rw [List.foldl_append]
    rcases within_call cfg (guarded_calls cfg guarded more) c with within | ⟨object,setup,started⟩
    · rcases ih with before | ⟨events,object,setup,trace,member⟩
      · exact .inl (before.trans within)
      · obtain ⟨more',trace',-⟩ := within.segments
        exact .inr ⟨events ++ more',object,setup,by rw [← List.append_assoc,← trace]; exact trace',
          List.mem_append_left _ member⟩
    · have longer : ∃ events, (more.foldl (fun t c => (call cfg t c).1) t).trace = t.trace ++ events := by
        rcases ih with before | ⟨events,_,_,trace,_⟩
        · obtain ⟨events,trace,-⟩ := before.segments
          exact ⟨events,trace⟩
        · exact ⟨events,trace⟩
      obtain ⟨events,trace⟩ := longer
      exact .inr ⟨events ++ [.started object setup],object,setup,by rw [← List.append_assoc,← trace]; exact started,by simp⟩

/-- Against any calls, any packets and any router: the window of a running
    transfer is in order, every SEGMENT a call emits is a granted slice of the
    object, the counters never fall within a transfer, and completion is reported
    only after the link accepted every segment. -/
theorem window_holds_against_any_input (calls : List (Call × (PacketBuffer → RouteResult))) :
    let t := run cfg datagramIngress transmitPacket calls
    (t.session.state = .kStarting ∨ t.session.state = .kActive →
      t.session.acknowledgedCount ≤ t.session.grantedEnd ∧ t.session.grantedEnd ≤ t.session.segmentCount ∧
      t.session.grantedEnd - t.session.acknowledgedCount ≤ 16 ∧
      (∃ length ≤ t.session.grantedEnd - t.session.acknowledgedCount, LowRun t.session.sentBitmap length) ∧
      ∀ j, t.session.acknowledgedBitmap.getLsbD j = true → t.session.sentBitmap.getLsbD j = true) ∧
    (∀ c packet result, .forward packet result ∈ (call cfg t c).1.trace.drop t.trace.length →
      hasType packet.payload .kSegment = true →
      ∃ index < (call cfg t c).1.session.grantedEnd,
        packet.payload = segmentPdu (call cfg t c).1.session.setup (call cfg t c).1.session.object index) ∧
    (∀ more, let u := run cfg datagramIngress transmitPacket (calls ++ more)
      (∀ object setup, .started object setup ∉ u.trace.drop t.trace.length) →
      t.session.acknowledgedCount ≤ u.session.acknowledgedCount ∧ t.session.grantedEnd ≤ u.session.grantedEnd) ∧
    ∀ k, t.trace[k]? = some (.callback .onTransferComplete) → CompletesAt t.trace k := by
  intro t
  obtain ⟨guarded,history⟩ : Guarded t ∧ History t := run_history cfg datagramIngress transmitPacket calls
  refine ⟨?_,?_,?_,history.completed⟩
  · intro runs
    have window := guarded (running_iff.mpr runs)
    have span := window.span
    have width : kCompactWindowWidth = 16 := rfl
    exact ⟨window.base,window.granted,by omega,window.sent,window.acknowledged⟩
  · intro c packet result member typed
    rcases within_call cfg guarded c with within | ⟨object,setup,started⟩
    · obtain ⟨more,trace,segments⟩ := within.segments
      rw [trace,List.drop_left] at member
      exact segments packet result member typed
    · rw [started,List.drop_left] at member
      simp at member
  · intro more u none
    have same : u = more.foldl (fun t c => (call cfg t c).1) t := run_append cfg datagramIngress transmitPacket calls more
    have within : Within t u := by
      rw [same]
      refine within_run cfg guarded more ?_
      intro events trace
      rw [same,trace,List.drop_left] at none
      exact none
    exact ⟨within.acknowledged,within.granted⟩

end runs
end WireSpaces.TransmitterWindow
