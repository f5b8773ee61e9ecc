import WireSpaces.TransmitterStutter

/-!
The log of a transmitter: the transfers it started, the ACKs that passed validation
and the items the link accepted, with their times, newest first. The retransmission
discipline says of each entry what the older log allows.
-/
namespace WireSpaces.TransmitterLog
open WireSpaces.Codec WireSpaces.Packet WireSpaces.Transmitter WireSpaces.TransmitterSteps WireSpaces.TransmitterStutter
open WireSpaces.ReceiverEngine (ProcessResult TransferState SendResult)

/-- What the transmitter retries. -/
inductive Item where
  | setup
  | segment (index : Nat)
  | probe
  deriving Repr, DecidableEq

/-- The item a PDU carries. -/
def itemOf (payload : Bytes) : Option Item :=
  match decodeSetup payload, decodeSegmentHeader payload, decodeProbe payload with
  | some _, _, _ => some .setup
  | none, some header, _ => some (.segment header.segmentIndex.toNat)
  | none, none, some _ => some .probe
  | none, none, none => none

inductive Entry where
  | started
  /-- An ACK that passed validation, and the acknowledged count it leaves. -/
  | acked (ack : Ack) (base : Nat)
  | sent (item : Item) (nowMs : U32)
  /-- The probe timer started. -/
  | armed (nowMs : U32)
  /-- The transfer was aborted because a retry limit was reached. -/
  | exhausted (nowMs : U32)
  deriving Repr, DecidableEq

abbrev Log := List Entry

def Entry.isStart : Entry → Bool
  | .started => true
  | _ => false

def Entry.isAck : Entry → Bool
  | .acked _ _ => true
  | _ => false

/-- The entry is an accepted transmission of the item, at a time. -/
def Entry.timeOf (item : Item) : Entry → Option U32
  | .sent other nowMs => if other = item then some nowMs else none
  | _ => none

/-- The entries of the latest transfer. -/
def current (log : Log) : Log := log.takeWhile (! ·.isStart)

/-- The entries since the latest validated ACK. -/
def sinceAck (log : Log) : Log := log.takeWhile (! ·.isAck)

/-- The times at which the link accepted an item of the latest transfer. -/
def times (item : Item) (log : Log) : List U32 := (current log).filterMap (Entry.timeOf item)

/-- The times of the PROBEs accepted since the latest validated ACK. -/
def probes (log : Log) : List U32 := (sinceAck log).filterMap (Entry.timeOf .probe)

/-- The entry started the probe timer anew, at a time. -/
def Entry.waitOf : Entry → Option U32
  | .armed nowMs => some nowMs
  | .sent .probe nowMs => some nowMs
  | _ => none

/-- The starts of the probe timer since the latest validated ACK. -/
def waits (log : Log) : List U32 := (sinceAck log).filterMap Entry.waitOf

/-- An ACK of the latest transfer passed validation. -/
def Answered (log : Log) : Prop := ∃ entry ∈ current log, entry.isAck = true

/-- The ACK covers the index, cumulatively or in its bitmap. -/
def Covers (ack : Ack) (base index : Nat) : Prop := index < base ∨ ack.windowBitmap.getLsbD (index - base) = true

/-- A validated ACK of the latest transfer, behind a transmission of the index, covers it. -/
def Covered (index : Nat) : Log → Prop
  | [] => False
  | .started :: _ => False
  | .acked ack base :: older => (times (.segment index) older ≠ [] ∧ Covers ack base index) ∨ Covered index older
  | .sent _ _ :: older => Covered index older
  | .armed _ :: older => Covered index older
  | .exhausted _ :: older => Covered index older

/-- The link accepted the index, and no validated ACK behind that covers it. -/
def InFlight (index : Nat) (log : Log) : Prop := times (.segment index) log ≠ [] ∧ ¬ Covered index log

/-- At least the duration, modulo 2^32, since the latest of the times. -/
def Due (duration nowMs : U32) (times : List U32) : Prop := ∃ last ∈ times.head?, duration ≤ nowMs - last

section discipline
variable (cfg : Config)

/-- The item whose timer ran out has spent all its retries: the SETUP while nothing
    answered it, the first segment in flight that is due, or with nothing in flight the PROBE. -/
inductive Exhausted (nowMs : U32) (log : Log) : Prop where
  | setup (pending : ¬ Answered log) (spent : (times .setup log).length = 1 + cfg.timing.maxRetries.toNat)
      (due : Due cfg.timing.retransmissionTimeoutMs nowMs (times .setup log))
  | segment (index : Nat) (answered : Answered log) (inFlight : InFlight index log)
      (first : ∀ lower < index, InFlight lower log →
        ¬ Due cfg.timing.retransmissionTimeoutMs nowMs (times (.segment lower) log))
      (spent : (times (.segment index) log).length = 1 + cfg.timing.maxRetries.toNat)
      (due : Due cfg.timing.retransmissionTimeoutMs nowMs (times (.segment index) log))
  | probe (answered : Answered log) (settled : ∀ index, ¬ InFlight index log)
      (spent : (probes log).length = cfg.timing.maxRetries.toNat) (due : Due cfg.timing.probeTimeoutMs nowMs (waits log))

/-- What the older log allows. -/
def Allowed (log : Log) : Entry → Prop
  | .sent .setup _ => (times .setup log).length ≤ cfg.timing.maxRetries.toNat
  | .sent (.segment index) nowMs => (times (.segment index) log).length ≤ cfg.timing.maxRetries.toNat ∧
    (times (.segment index) log ≠ [] →
      ¬ Covered index log ∧ Due cfg.timing.retransmissionTimeoutMs nowMs (times (.segment index) log))
  | .sent .probe _ => (probes log).length < cfg.timing.maxRetries.toNat
  | .exhausted nowMs => Exhausted cfg nowMs log
  | .started => True
  | .acked _ _ => True
  | .armed _ => True

def Disciplined : Log → Prop
  | [] => True
  | entry :: older => Allowed cfg older entry ∧ Disciplined older

end discipline

/-! ### Longer logs -/

section longer
variable (log : Log) (item : Item) (index : Nat) (nowMs : U32)

@[simp] theorem times_started : times item (.started :: log) = [] := rfl
@[simp] theorem times_acked (ack : Ack) (base : Nat) : times item (.acked ack base :: log) = times item log := rfl
@[simp] theorem times_armed : times item (.armed nowMs :: log) = times item log := rfl
@[simp] theorem times_exhausted : times item (.exhausted nowMs :: log) = times item log := rfl
@[simp] theorem times_sent (other : Item) :
    times item (.sent other nowMs :: log) = if other = item then nowMs :: times item log else times item log := by
  unfold times current
  rw [List.takeWhile_cons_of_pos rfl,List.filterMap_cons,Entry.timeOf]
  by_cases same : other = item
  · simp [same]
  · simp [same]

@[simp] theorem probes_acked (ack : Ack) (base : Nat) : probes (.acked ack base :: log) = [] := rfl
@[simp] theorem probes_started : probes (.started :: log) = probes log := rfl
@[simp] theorem probes_armed : probes (.armed nowMs :: log) = probes log := rfl
@[simp] theorem probes_exhausted : probes (.exhausted nowMs :: log) = probes log := rfl
@[simp] theorem probes_sent (other : Item) :
    probes (.sent other nowMs :: log) = if other = .probe then nowMs :: probes log else probes log := by
  unfold probes sinceAck
  rw [List.takeWhile_cons_of_pos rfl,List.filterMap_cons,Entry.timeOf]
  by_cases same : other = .probe
  · simp [same]
  · simp [same]

@[simp] theorem waits_acked (ack : Ack) (base : Nat) : waits (.acked ack base :: log) = [] := rfl
@[simp] theorem waits_armed : waits (.armed nowMs :: log) = nowMs :: waits log := rfl
@[simp] theorem waits_probe : waits (.sent .probe nowMs :: log) = nowMs :: waits log := rfl

@[simp] theorem covered_sent : Covered index (.sent item nowMs :: log) ↔ Covered index log := Iff.rfl
@[simp] theorem covered_armed : Covered index (.armed nowMs :: log) ↔ Covered index log := Iff.rfl

@[simp] theorem not_answered_started : ¬ Answered (.started :: log) := by
  simp [Answered,current,Entry.isStart]

/-- Behind the start of a transfer every entry counts. -/
theorem answered_cons {entry : Entry} (later : entry.isStart = false) :
    Answered (entry :: log) ↔ entry.isAck = true ∨ Answered log := by
  rw [Answered,current,List.takeWhile_cons_of_pos (by simp [later])]
  simp [Answered,current]

@[simp] theorem answered_acked (ack : Ack) (base : Nat) : Answered (.acked ack base :: log) := by
  rw [answered_cons _ rfl]
  exact .inl rfl

@[simp] theorem answered_sent : Answered (.sent item nowMs :: log) ↔ Answered log :=
  (answered_cons log rfl).trans (by simp [Entry.isAck])

@[simp] theorem answered_armed : Answered (.armed nowMs :: log) ↔ Answered log :=
  (answered_cons log rfl).trans (by simp [Entry.isAck])

end longer

section bounds
variable {cfg : Config} {log : Log}

theorem Disciplined.older {recent older : Log} (disciplined : Disciplined cfg (recent ++ older)) : Disciplined cfg older := by
  induction recent with
  | nil => exact disciplined
  | cons entry recent ih => exact ih disciplined.2

/-- No item is accepted more than once beyond its retries. -/
theorem Disciplined.times_le (disciplined : Disciplined cfg log) {item : Item} (other : item ≠ .probe) :
    (times item log).length ≤ 1 + cfg.timing.maxRetries.toNat := by
  induction log with
  | nil => simp [times,current]
  | cons entry older ih =>
    obtain ⟨allowed,before⟩ := disciplined
    have bound := ih before
    cases entry with
    | started => simp
    | acked ack base => simpa using bound
    | armed nowMs => simpa using bound
    | exhausted nowMs => simpa using bound
    | sent sent nowMs =>
      rw [times_sent]
      split
      · rename_i same
        subst same
        cases sent with
        | setup => simp only [Allowed] at allowed; simp only [List.length_cons]; omega
        | segment index => have limit := allowed.1; simp only [List.length_cons]; omega
        | probe => exact absurd rfl other
      · exact bound

theorem Disciplined.probes_le (disciplined : Disciplined cfg log) :
    (probes log).length ≤ cfg.timing.maxRetries.toNat := by
  induction log with
  | nil => simp [probes,sinceAck]
  | cons entry older ih =>
    obtain ⟨allowed,before⟩ := disciplined
    have bound := ih before
    cases entry with
    | started => simpa using bound
    | acked ack base => simp
    | armed nowMs => simpa using bound
    | exhausted nowMs => simpa using bound
    | sent sent nowMs =>
      rw [probes_sent]
      split
      · rename_i same
        subst same
        simp only [Allowed] at allowed
        simp only [List.length_cons]
        omega
      · exact bound

/-- Between two validated ACKs there are no more PROBEs than retries. -/
theorem Disciplined.between {between older : Log} (disciplined : Disciplined cfg (between ++ older))
    (none : ∀ entry ∈ between, entry.isAck = false) :
    (between.filterMap (Entry.timeOf .probe)).length ≤ cfg.timing.maxRetries.toNat := by
  have bound := disciplined.probes_le
  rw [probes,sinceAck,List.takeWhile_append_of_pos (fun entry member => by simp [none entry member]),
    List.filterMap_append,List.length_append] at bound
  omega

end bounds
end WireSpaces.TransmitterLog
