import WireSpaces.Codec

/-!
The host simulator: the command line of a simulated ECU, and the superloop that polls its
network and runs its application. The loop keeps its rhythm without bursts, whatever the
clock does between the calls, as long as the times fit 64 bits of nanoseconds.
-/
namespace WireSpaces.Simulator

/-- The name of the ECU, and the period of its loop in microseconds. -/
structure EcuProcessConfig where
  ecuName : String := ""
  loopPeriod : Int := 1000
  deriving Repr, DecidableEq

def EcuProcessConfig.isValid (config : EcuProcessConfig) : Bool := config.ecuName ≠ "" && 0 < config.loopPeriod

/-! ### The command line -/

inductive CommandLineStatus where
  | kOk
  | kHelpRequested
  | kError
  deriving Repr, DecidableEq

structure CommandLineResult where
  status : CommandLineStatus := .kError
  config : EcuProcessConfig := {}
  diagnostic : String := ""
  deriving Repr, DecidableEq

def errorResult (diagnostic : String) : CommandLineResult := { diagnostic }

def isDigit (character : Char) : Bool := '0' ≤ character && character ≤ '9'

def number (digits : List Char) : Nat := digits.foldl (fun value digit => 10 * value + (digit.toNat - '0'.toNat)) 0

/-- `std::from_chars` for 64 bits: the value, if there is one in range, and the characters behind the number. -/
def fromChars (text : List Char) : Option Nat × List Char :=
  let digits := text.takeWhile isDigit
  if digits = [] then (none,text)
  else (if number digits < 2 ^ 64 then some (number digits) else none,text.dropWhile isDigit)

def kMaximumPeriod : Nat := 2 ^ 63 - 1

def parseLoopPeriod (text : String) : Option Int :=
  match fromChars text.toList with
  | (some value,[]) => if value = 0 ∨ value > kMaximumPeriod then none else some value
  | _ => none

/-- The loop over the arguments, with the two flags of what was supplied. -/
def parseArguments (config : EcuProcessConfig) (nameSupplied loopPeriodSupplied : Bool) : List (Option String) → CommandLineResult
  | [] => if nameSupplied then ⟨.kOk,config,""⟩ else errorResult "missing required option: --name <ecu-name>"
  | none :: _ => errorResult "encountered a null command-line argument"
  | some argument :: rest =>
    if argument = "--help" ∨ argument = "-h" then ⟨.kHelpRequested,config,""⟩
    else if argument = "--name" then
      if nameSupplied then errorResult "--name may be supplied only once"
      else
        match rest with
        | [] => errorResult "--name requires a non-empty value"
        | value :: rest =>
          match value with
          | none => errorResult "--name requires a non-empty value"
          | some name =>
            if name = "" then errorResult "--name requires a non-empty value"
            else parseArguments { config with ecuName := name } true loopPeriodSupplied rest
    else if argument = "--loop-period-us" then
      if loopPeriodSupplied then errorResult "--loop-period-us may be supplied only once"
      else
        match rest with
        | [] => errorResult "--loop-period-us requires a positive integer"
        | value :: rest =>
          match value.bind parseLoopPeriod with
          | none => errorResult "--loop-period-us must be a positive integer in range"
          | some period => parseArguments { config with loopPeriod := period } nameSupplied true rest
    else errorResult ("unknown option: " ++ argument)

/-- `argv` is null, or as long as `argc` says, with pointers that may be null. -/
def parseCommandLine (argv : Option (List (Option String))) : CommandLineResult :=
  match argv with
  | none | some [] => errorResult "invalid process argument array"
  | some (_ :: arguments) => parseArguments {} false false arguments

/-- A command line is accepted with a configuration. -/
def CommandLineResult.Accepts (result : CommandLineResult) (config : EcuProcessConfig) : Prop :=
  result.status = .kOk ∧ result.config = config

theorem errorResult_rejects (diagnostic : String) (config : EcuProcessConfig) : ¬ (errorResult diagnostic).Accepts config := by
  rintro ⟨accepted,-⟩
  cases accepted

/-- What the next arguments can be when the line is accepted. -/
theorem parseArguments_accepts (config final : EcuProcessConfig) (named timed : Bool) (arguments : List (Option String)) :
    (parseArguments config named timed arguments).Accepts final ↔
      (arguments = [] ∧ named = true ∧ final = config) ∨
      (∃ name rest, arguments = some "--name" :: some name :: rest ∧ named = false ∧ name ≠ "" ∧
        (parseArguments { config with ecuName := name } true timed rest).Accepts final) ∨
      (∃ text period rest, arguments = some "--loop-period-us" :: some text :: rest ∧ timed = false ∧
        parseLoopPeriod text = some period ∧ (parseArguments { config with loopPeriod := period } named true rest).Accepts final) := by
  constructor
  · intro accepted
    match arguments with
    | [] =>
      cases named with
      | false => exact absurd accepted (errorResult_rejects _ _)
      | true => exact Or.inl ⟨rfl,rfl,accepted.2.symm⟩
    | none :: rest => exact absurd accepted (errorResult_rejects _ _)
    | some argument :: rest =>
      rw [parseArguments.eq_def] at accepted
      dsimp only at accepted
      split_ifs at accepted with help name supplied period supplied
      · cases accepted.1
      · exact absurd accepted (errorResult_rejects _ _)
      · subst name
        match rest with
        | [] => exact absurd accepted (errorResult_rejects _ _)
        | none :: rest => exact absurd accepted (errorResult_rejects _ _)
        | some value :: rest =>
          dsimp only at accepted
          split_ifs at accepted with empty
          · exact absurd accepted (errorResult_rejects _ _)
          · exact Or.inr (Or.inl ⟨value,rest,rfl,Bool.eq_false_iff.mpr supplied,empty,accepted⟩)
      · exact absurd accepted (errorResult_rejects _ _)
      · subst period
        match rest with
        | [] => exact absurd accepted (errorResult_rejects _ _)
        | none :: rest => exact absurd accepted (errorResult_rejects _ _)
        | some text :: rest =>
          dsimp only [Option.bind_some] at accepted
          cases value : parseLoopPeriod text with
          | none =>
            rw [value] at accepted
            exact absurd accepted (errorResult_rejects _ _)
          | some period =>
            rw [value] at accepted
            exact Or.inr (Or.inr ⟨text,period,rest,rfl,Bool.eq_false_iff.mpr supplied,value,accepted⟩)
      · exact absurd accepted (errorResult_rejects _ _)
  · rintro (⟨rfl,rfl,rfl⟩ | ⟨name,rest,rfl,rfl,filled,accepted⟩ | ⟨text,period,rest,rfl,rfl,value,accepted⟩)
    · exact ⟨rfl,rfl⟩
    · simpa [parseArguments,filled] using accepted
    · simpa [parseArguments,value] using accepted

theorem accepts_complete (config final : EcuProcessConfig) (arguments : List (Option String)) :
    (parseArguments config true true arguments).Accepts final ↔ arguments = [] ∧ final = config := by
  rw [parseArguments_accepts]
  simp

theorem accepts_named (config final : EcuProcessConfig) (arguments : List (Option String)) :
    (parseArguments config true false arguments).Accepts final ↔ (arguments = [] ∧ final = config) ∨
      ∃ text period, arguments = [some "--loop-period-us",some text] ∧ parseLoopPeriod text = some period ∧
        final = { config with loopPeriod := period } := by
  rw [parseArguments_accepts]
  simp only [accepts_complete]
  constructor
  · rintro (⟨rfl,-,rfl⟩ | ⟨_,_,_,other,_⟩ | ⟨text,period,_,rfl,-,value,rfl,rfl⟩)
    · exact Or.inl ⟨rfl,rfl⟩
    · cases other
    · exact Or.inr ⟨text,period,rfl,value,rfl⟩
  · rintro (⟨rfl,rfl⟩ | ⟨text,period,rfl,value,rfl⟩)
    · exact Or.inl ⟨rfl,trivial,rfl⟩
    · exact Or.inr (Or.inr ⟨text,period,[],rfl,trivial,value,rfl,rfl⟩)

theorem accepts_timed (config final : EcuProcessConfig) (arguments : List (Option String)) :
    (parseArguments config false true arguments).Accepts final ↔
      ∃ name, arguments = [some "--name",some name] ∧ name ≠ "" ∧ final = { config with ecuName := name } := by
  rw [parseArguments_accepts]
  simp only [accepts_complete]
  constructor
  · rintro (⟨_,other,_⟩ | ⟨name,_,rfl,-,filled,rfl,rfl⟩ | ⟨_,_,_,_,other,_⟩)
    · cases other
    · exact ⟨name,rfl,filled,rfl⟩
    · cases other
  · rintro ⟨name,rfl,filled,rfl⟩
    exact Or.inr (Or.inl ⟨name,[],rfl,trivial,filled,rfl,rfl⟩)

/-- The whole number that a period is written as. -/
def Writes (text : String) (period : Int) : Prop :=
  text.toList ≠ [] ∧ (∀ character ∈ text.toList, isDigit character = true) ∧ period = number text.toList ∧ 0 < period ∧
    period < 2 ^ 63

theorem parseLoopPeriod_iff (text : String) (period : Int) : parseLoopPeriod text = some period ↔ Writes text period := by
  unfold parseLoopPeriod fromChars Writes
  generalize text.toList = characters
  by_cases digits : ∀ character ∈ characters, isDigit character = true
  · rw [List.takeWhile_eq_self_iff.mpr digits,List.dropWhile_eq_nil_iff.mpr digits]
    by_cases empty : characters = []
    · simp [empty]
    rw [if_neg empty]
    by_cases range : number characters < 2 ^ 64
    · rw [if_pos range]
      by_cases out : number characters = 0 ∨ number characters > kMaximumPeriod
      · have refused :
            (if number characters = 0 ∨ number characters > kMaximumPeriod then none else some (number characters : Int)) = none :=
          if_pos out
        rw [kMaximumPeriod] at out
        refine ⟨fun parsed => absurd (refused.symm.trans parsed) (Option.some_ne_none _).symm,fun ⟨_,_,same,positive,small⟩ => ?_⟩
        omega
      · have taken : (if number characters = 0 ∨ number characters > kMaximumPeriod then none else some (number characters : Int)) =
            some (number characters : Int) := if_neg out
        rw [kMaximumPeriod] at out
        refine ⟨fun parsed => ?_,fun ⟨_,_,same,_,_⟩ => taken.trans (congrArg some same.symm)⟩
        have same := Option.some.inj (taken.symm.trans parsed)
        exact ⟨empty,digits,same.symm,by omega,by omega⟩
    · rw [if_neg range]
      refine ⟨fun parsed => absurd parsed (Option.some_ne_none _).symm,fun ⟨_,_,same,_,small⟩ => ?_⟩
      omega
  · have behind : characters.dropWhile isDigit ≠ [] := fun nothing => digits (List.dropWhile_eq_nil_iff.mp nothing)
    obtain ⟨first,others,same⟩ := List.exists_cons_of_ne_nil behind
    refine ⟨fun parsed => ?_,fun ⟨_,all,_⟩ => absurd all digits⟩
    rw [same] at parsed
    dsimp only at parsed
    by_cases empty : characters.takeWhile isDigit = []
    · rw [if_pos empty] at parsed
      cases parsed
    · rw [if_neg empty] at parsed
      by_cases range : number (characters.takeWhile isDigit) < 2 ^ 64
      · rw [if_pos range] at parsed
        cases parsed
      · rw [if_neg range] at parsed
        cases parsed

theorem accepts_valid {config : EcuProcessConfig} {name : String} (filled : name ≠ "") {period : Int} (positive : 0 < period)
    (same : config = ⟨name,period⟩) : config.isValid = true := by
  subst same
  simp [EcuProcessConfig.isValid,filled,positive]

theorem errorResult_explains {diagnostic : String} (explains : diagnostic ≠ "") :
    (errorResult diagnostic).status = .kError ↔ (errorResult diagnostic).diagnostic ≠ "" :=
  ⟨fun _ => explains,fun _ => rfl⟩

/-- Every refusal says why, and nothing else does. -/
theorem parseArguments_explains (config : EcuProcessConfig) (named timed : Bool) (arguments : List (Option String)) :
    (parseArguments config named timed arguments).status = .kError ↔
      (parseArguments config named timed arguments).diagnostic ≠ "" := by
  fun_induction parseArguments config named timed arguments <;>
    first
    | assumption
    | exact errorResult_explains (by simp)
    | simp

theorem accepted_forms (config : EcuProcessConfig) (arguments : List (Option String)) :
    (parseArguments {} false false arguments).Accepts config ↔ ∃ name, name ≠ "" ∧
      ((arguments = [some "--name",some name] ∧ config = ⟨name,1000⟩) ∨
        ∃ text period, Writes text period ∧ config = ⟨name,period⟩ ∧
          (arguments = [some "--name",some name,some "--loop-period-us",some text] ∨
            arguments = [some "--loop-period-us",some text,some "--name",some name])) := by
  rw [parseArguments_accepts]
  simp only [accepts_named,accepts_timed,parseLoopPeriod_iff]
  constructor
  · rintro (⟨-,other,-⟩ | ⟨name,rest,rfl,-,filled,⟨rfl,rfl⟩ | ⟨text,period,rfl,value,rfl⟩⟩ |
      ⟨text,period,rest,rfl,-,value,name,rfl,filled,rfl⟩)
    · cases other
    · exact ⟨name,filled,Or.inl ⟨rfl,rfl⟩⟩
    · exact ⟨name,filled,Or.inr ⟨text,period,value,rfl,Or.inl rfl⟩⟩
    · exact ⟨name,filled,Or.inr ⟨text,period,value,rfl,Or.inr rfl⟩⟩
  · rintro ⟨name,filled,⟨rfl,rfl⟩ | ⟨text,period,value,rfl,rfl | rfl⟩⟩
    · exact Or.inr (Or.inl ⟨name,[],rfl,trivial,filled,Or.inl ⟨rfl,rfl⟩⟩)
    · exact Or.inr (Or.inl ⟨name,_,rfl,trivial,filled,Or.inr ⟨text,period,rfl,value,rfl⟩⟩)
    · exact Or.inr (Or.inr ⟨text,period,_,rfl,trivial,value,name,rfl,filled,rfl⟩)

/-- A command line is accepted exactly when it is the name, alone or with the period before or behind it, and then with a valid
configuration; it is refused exactly when there is a diagnostic. -/
theorem command_line_exact (argv : Option (List (Option String))) :
    (∀ config, (parseCommandLine argv).Accepts config ↔ ∃ executable name, name ≠ "" ∧
      ((argv = some [executable,some "--name",some name] ∧ config = ⟨name,1000⟩) ∨
        ∃ text period, Writes text period ∧ config = ⟨name,period⟩ ∧
          (argv = some [executable,some "--name",some name,some "--loop-period-us",some text] ∨
            argv = some [executable,some "--loop-period-us",some text,some "--name",some name]))) ∧
    (∀ config, (parseCommandLine argv).Accepts config → config.isValid = true) ∧
    ((parseCommandLine argv).status = .kError ↔ (parseCommandLine argv).diagnostic ≠ "") := by
  match argv with
  | none | some [] =>
    refine ⟨fun config => ⟨fun accepted => absurd accepted (errorResult_rejects _ _),?_⟩,
      fun config accepted => absurd accepted (errorResult_rejects _ _),errorResult_explains (by decide)⟩
    rintro ⟨_,_,_,⟨other,_⟩ | ⟨_,_,_,_,other | other⟩⟩ <;> cases other
  | some (executable :: arguments) =>
    change (∀ config, (parseArguments {} false false arguments).Accepts config ↔ _) ∧
      (∀ config, (parseArguments {} false false arguments).Accepts config → _) ∧ _
    refine ⟨fun config => ?_,fun config accepted => ?_,parseArguments_explains _ _ _ _⟩
    · rw [accepted_forms]
      constructor
      · rintro ⟨name,filled,⟨rfl,same⟩ | ⟨text,period,value,same,rfl | rfl⟩⟩
        · exact ⟨executable,name,filled,Or.inl ⟨rfl,same⟩⟩
        · exact ⟨executable,name,filled,Or.inr ⟨text,period,value,same,Or.inl rfl⟩⟩
        · exact ⟨executable,name,filled,Or.inr ⟨text,period,value,same,Or.inr rfl⟩⟩
      · rintro ⟨_,name,filled,⟨⟨⟩,same⟩ | ⟨text,period,value,same,⟨⟨⟩⟩ | ⟨⟨⟩⟩⟩⟩
        · exact ⟨name,filled,Or.inl ⟨rfl,same⟩⟩
        · exact ⟨name,filled,Or.inr ⟨text,period,value,same,Or.inl rfl⟩⟩
        · exact ⟨name,filled,Or.inr ⟨text,period,value,same,Or.inr rfl⟩⟩
    · obtain ⟨name,filled,⟨-,same⟩ | ⟨text,period,value,same,-⟩⟩ := (accepted_forms config arguments).mp accepted
      · exact accepts_valid filled (by decide) same
      · exact accepts_valid filled value.2.2.2.1 same

example : parseCommandLine (some [some "ecu",some "--loop-period-us",some "0250",some "--name",some "counter"]) =
    ⟨.kOk,⟨"counter",250⟩,""⟩ := by decide

/-! ### The superloop -/

inductive EcuProcessExitCode where
  | kSuccess
  | kInvalidConfiguration
  | kNetworkInitializationFailed
  | kNetworkPollFailed
  deriving Repr, DecidableEq

/-- The network, the application, the clock and the request to shut down, on one outside state. -/
structure World (ω : Type) where
  networkInit : ω → Bool × ω
  networkPoll : ω → Bool × ω
  applicationInit : ω → ω
  applicationPeriodic : ω → ω
  isShutdownRequested : ω → Bool × ω
  now : ω → Int × ω
  sleepUntil : Int → ω → ω

/-- What the process does, with the answers it gets; times in nanoseconds. -/
inductive Event where
  | info (text : String)
  | error (text : String)
  | networkInit (done : Bool)
  | applicationInit
  | shutdown (requested : Bool)
  | networkPoll (done : Bool)
  | applicationPeriodic
  | now (time : Int)
  | sleepUntil (deadline : Int)
  deriving Repr, DecidableEq

/-- The exit code is missing while the loop goes on. -/
structure Run (ω : Type) where
  events : List Event
  exit : Option EcuProcessExitCode
  state : ω

/-- The count of a `std::chrono` duration or time point. -/
def int64 (value : Int) : Int := value.bmod (2 ^ 64)

theorem int64_of_fits {value : Int} (low : -2 ^ 63 ≤ value) (high : value < 2 ^ 63) : int64 value = value :=
  Int.bmod_eq_of_le (by simpa using low) (by simpa using high)

/-- Nanoseconds of the loop period. -/
def EcuProcessConfig.period (config : EcuProcessConfig) : Int := int64 (1000 * config.loopPeriod)

theorem EcuProcessConfig.period_eq {config : EcuProcessConfig} (valid : config.isValid = true)
    (fits : 1000 * config.loopPeriod < 2 ^ 63) : config.period = 1000 * config.loopPeriod ∧ 0 < config.period := by
  have positive : 0 < config.loopPeriod := by
    simp only [EcuProcessConfig.isValid,Bool.and_eq_true,decide_eq_true_eq] at valid
    exact valid.2
  have same : config.period = 1000 * config.loopPeriod := int64_of_fits (by omega) fits
  exact ⟨same,by omega⟩

/-- The longest period of a command line does not fit. -/
example : EcuProcessConfig.period ⟨"counter",kMaximumPeriod⟩ = -1000 := by decide

section process
variable {ω : Type} (world : World ω)

/-- One round of the loop: the exit code, or the deadline that it slept until. -/
def iterate (period nextDeadline : Int) (s : ω) : List Event × (EcuProcessExitCode ⊕ Int) × ω :=
  let asked := world.isShutdownRequested s
  if asked.1 then ([.shutdown true,.info "shutdown complete"],.inl .kSuccess,asked.2)
  else
    let polled := world.networkPoll asked.2
    if !polled.1 then ([.shutdown false,.networkPoll false,.error "network poll failed"],.inl .kNetworkPollFailed,polled.2)
    else
      let asked := world.isShutdownRequested (world.applicationPeriodic polled.2)
      if asked.1 then
        ([.shutdown false,.networkPoll true,.applicationPeriodic,.shutdown true,.info "shutdown complete"],.inl .kSuccess,asked.2)
      else
        let current := world.now asked.2
        -- missed slots are skipped
        let next := int64 (nextDeadline + period)
        let deadline := if next ≤ current.1 then int64 (current.1 + period) else next
        ([.shutdown false,.networkPoll true,.applicationPeriodic,.shutdown false,.now current.1,.sleepUntil deadline],.inr deadline,
          world.sleepUntil deadline current.2)

/-- At most `rounds` rounds. -/
def loop (period : Int) : Nat → Int → ω → Run ω
  | 0, _, s => ⟨[],none,s⟩
  | rounds + 1, nextDeadline, s =>
    match iterate world period nextDeadline s with
    | (events,.inl code,s) => ⟨events,some code,s⟩
    | (events,.inr deadline,s) =>
      let rest := loop period rounds deadline s
      { rest with events := events ++ rest.events }

def startup (start : Int) : List Event :=
  [.info "initializing network",.networkInit true,.applicationInit,.info "ECU process started",.now start]

/-- `run`, cut off behind `rounds` rounds. -/
def run (config : EcuProcessConfig) (rounds : Nat) (s : ω) : Run ω :=
  if config.isValid then
    let initialized := world.networkInit s
    if initialized.1 then
      let start := world.now (world.applicationInit initialized.2)
      let looped := loop world config.period rounds start.1 start.2
      { looped with events := startup start.1 ++ looped.events }
    else
      ⟨[.info "initializing network",.networkInit false,.error "network initialization failed"],some .kNetworkInitializationFailed,
        initialized.2⟩
  else ⟨[.error "invalid ECU process configuration"],some .kInvalidConfiguration,s⟩

/-- The clock never moves back, and a sleep does not end before its deadline. -/
structure Clocked (time : ω → Int) : Prop where
  networkPoll : ∀ s, time s ≤ time (world.networkPoll s).2
  applicationPeriodic : ∀ s, time s ≤ time (world.applicationPeriodic s)
  isShutdownRequested : ∀ s, time s ≤ time (world.isShutdownRequested s).2
  now : ∀ s, time s ≤ (world.now s).1 ∧ (world.now s).1 ≤ time (world.now s).2
  sleepUntil : ∀ deadline s, deadline ≤ time (world.sleepUntil deadline s)

end process

def Event.reading : Event → Option Int
  | .now time => some time
  | _ => none

/-- Every reading of the clock leaves room for a period. -/
def Readable (period : Int) (events : List Event) : Prop :=
  ∀ time ∈ events.filterMap Event.reading, -2 ^ 63 ≤ time ∧ time + period < 2 ^ 63

theorem readable_append {period : Int} {events others : List Event} :
    Readable period (events ++ others) ↔ Readable period events ∧ Readable period others := by
  rw [Readable,List.filterMap_append]
  exact List.forall_mem_append

/-- A round that read the clock at `current` and slept until `deadline`. -/
structure Round where
  current : Int
  deadline : Int

def Round.events (round : Round) : List Event :=
  [.shutdown false,.networkPoll true,.applicationPeriodic,.shutdown false,.now round.current,.sleepUntil round.deadline]

/-- How a run stands behind its full rounds. -/
inductive Ends : List Event → Option EcuProcessExitCode → Prop where
  | running : Ends [] none
  | asked : Ends [.shutdown true,.info "shutdown complete"] (some .kSuccess)
  | askedBehind : Ends [.shutdown false,.networkPoll true,.applicationPeriodic,.shutdown true,.info "shutdown complete"]
      (some .kSuccess)
  | failed : Ends [.shutdown false,.networkPoll false,.error "network poll failed"] (some .kNetworkPollFailed)

/-- A round behind the deadline `previous`: the next deadline lies ahead, a period behind `previous`, or a period ahead of now
when that slot is missed. -/
structure Keeps (period previous : Int) (round : Round) : Prop where
  begun : previous ≤ round.current
  ahead : round.current < round.deadline
  soon : round.deadline ≤ round.current + period
  slot : round.deadline = previous + period ∨ previous + period ≤ round.current ∧ round.deadline = round.current + period

def Paced (period : Int) : Int → List Round → Prop
  | _, [] => True
  | previous, round :: rounds => Keeps period previous round ∧ Paced period round.deadline rounds

section rhythm
variable {period previous : Int}

/-- Rounds are not made up for: each comes a period behind the one before it, or later. -/
theorem Paced.due {rounds : List Round} (positive : 0 < period) (paced : Paced period previous rounds) (i : Nat)
    (known : i < rounds.length) : previous + i * period ≤ rounds[i].current := by
  induction rounds generalizing previous i with
  | nil => exact absurd known (Nat.not_lt_zero i)
  | cons round rounds ih =>
    obtain ⟨keeps,paced⟩ := paced
    cases i with
    | zero => simpa using keeps.begun
    | succ i =>
      have later := ih paced i (by simpa using known)
      have apart : previous + period ≤ round.deadline := by
        rcases keeps.slot with slot | ⟨missed,slot⟩ <;> omega
      have step : ((i + 1 : Nat) : Int) * period = i * period + period := by push_cast; ring
      rw [List.getElem_cons_succ,step]
      omega

/-- While no slot is missed, the deadlines do not drift. -/
theorem Paced.regular {rounds : List Round} (paced : Paced period previous rounds)
    (early : ∀ i (known : i < rounds.length), rounds[i].current < previous + (i + 1) * period) (i : Nat) (known : i < rounds.length) :
    rounds[i].deadline = previous + (i + 1) * period := by
  induction rounds generalizing previous i with
  | nil => exact absurd known (Nat.not_lt_zero i)
  | cons round rounds ih =>
    obtain ⟨keeps,paced⟩ := paced
    have first : round.deadline = previous + period := by
      have inside := early 0 (Nat.zero_lt_succ _)
      rcases keeps.slot with slot | ⟨missed,-⟩
      · exact slot
      · simp only [List.getElem_cons_zero,Nat.cast_zero,zero_add,one_mul] at inside
        omega
    cases i with
    | zero => simpa using first
    | succ i =>
      have rest := ih paced (fun j inside => by
        have next := early (j + 1) (by simpa using inside)
        rw [List.getElem_cons_succ] at next
        rw [first]
        push_cast at next ⊢
        linarith) i (by simpa using known)
      rw [List.getElem_cons_succ,rest,first]
      push_cast
      ring

variable {ω : Type} {world : World ω} {time : ω → Int}

theorem iterate_cases (clocked : Clocked world time) (positive : 0 < period) {s : ω} (reached : previous ≤ time s)
    (low : -2 ^ 63 ≤ previous) (readable : Readable period (iterate world period previous s).1) :
    (∃ tail code s', iterate world period previous s = (tail,.inl code,s') ∧ Ends tail (some code)) ∨
      ∃ round : Round, ∃ s', iterate world period previous s = (round.events,.inr round.deadline,s') ∧ Keeps period previous round ∧
        round.deadline ≤ time s' := by
  have before := clocked.isShutdownRequested s
  unfold iterate at readable ⊢
  dsimp only at readable ⊢
  generalize world.isShutdownRequested s = asked at before readable ⊢
  obtain ⟨requested,asked⟩ := asked
  cases requested with
  | true => exact Or.inl ⟨_,_,_,rfl,.asked⟩
  | false =>
    have polling := clocked.networkPoll asked
    rw [if_neg Bool.false_ne_true] at readable ⊢
    generalize world.networkPoll asked = polled at polling readable ⊢
    obtain ⟨done,polled⟩ := polled
    cases done with
    | false => exact Or.inl ⟨_,_,_,rfl,.failed⟩
    | true =>
      have working := clocked.applicationPeriodic polled
      have asking := clocked.isShutdownRequested (world.applicationPeriodic polled)
      simp only [Bool.not_true,Bool.false_eq_true,if_false] at readable ⊢
      generalize world.isShutdownRequested (world.applicationPeriodic polled) = again at asking readable ⊢
      obtain ⟨requested,again⟩ := again
      cases requested with
      | true => exact Or.inl ⟨_,_,_,rfl,.askedBehind⟩
      | false =>
        have reading := (clocked.now again).1
        rw [if_neg Bool.false_ne_true] at readable ⊢
        dsimp only at before polling asking readable ⊢
        generalize world.now again = current at reading readable ⊢
        have begun : previous ≤ current.1 := by omega
        -- the clock has passed the deadline slept until, so a period behind it fits as well
        have fits := readable current.1 (by simp [Event.reading])
        have behind : int64 (previous + period) = previous + period := int64_of_fits (by omega) (by omega)
        have ahead : int64 (current.1 + period) = current.1 + period := int64_of_fits (by omega) fits.2
        rw [behind,ahead]
        refine Or.inr ⟨⟨current.1,if previous + period ≤ current.1 then current.1 + period else previous + period⟩,_,rfl,?_,
          clocked.sleepUntil _ _⟩
        by_cases missed : previous + period ≤ current.1
        · rw [if_pos missed]
          exact ⟨begun,by dsimp only; omega,le_refl _,Or.inr ⟨missed,rfl⟩⟩
        · rw [if_neg missed]
          exact ⟨begun,by dsimp only; omega,by dsimp only; omega,Or.inl rfl⟩

theorem loop_paced (clocked : Clocked world time) (positive : 0 < period) (limit : Nat) {s : ω} (reached : previous ≤ time s)
    (low : -2 ^ 63 ≤ previous) (readable : Readable period (loop world period limit previous s).events) :
    ∃ rounds : List Round, ∃ tail, (loop world period limit previous s).events = rounds.flatMap Round.events ++ tail ∧
      Ends tail (loop world period limit previous s).exit ∧ Paced period previous rounds ∧ rounds.length ≤ limit ∧
      ((loop world period limit previous s).exit = none → rounds.length = limit) := by
  induction limit generalizing previous s with
  | zero => exact ⟨[],[],rfl,.running,trivial,le_refl _,fun _ => rfl⟩
  | succ limit ih =>
    rw [loop] at readable ⊢
    have first : Readable period (iterate world period previous s).1 := by
      rcases taken : iterate world period previous s with ⟨events,code | deadline,s'⟩
      · rw [taken] at readable
        exact readable
      · rw [taken] at readable
        exact (readable_append.mp readable).1
    rcases iterate_cases clocked positive reached low first with ⟨tail,code,s',same,ends⟩ | ⟨round,s',same,keeps,slept⟩
    · rw [same]
      exact ⟨[],tail,rfl,ends,trivial,Nat.zero_le _,fun running => by cases running⟩
    · rw [same] at readable ⊢
      have ahead := keeps.ahead
      have begun := keeps.begun
      obtain ⟨rounds,tail,events,ends,paced,few,whole⟩ := ih slept (by omega) (readable_append.mp readable).2
      refine ⟨round :: rounds,tail,?_,ends,⟨keeps,paced⟩,Nat.succ_le_succ few,fun running => congrArg Nat.succ (whole running)⟩
      dsimp only
      rw [events,List.flatMap_cons,List.append_assoc]

/-- A process with an invalid configuration touches nothing, and one whose network fails to initialize does not start its
application. Else the network is polled before each call of the application and the clock read behind it; the sleeps end ahead
of the reading and a period behind each other or, when a slot is missed, a period ahead; so rounds are never made up for, and
they do not drift while none is late. It ends only on a request, with success, or on a failed poll. The period, and each reading
with a period behind it, fit 64 bits of nanoseconds. -/
theorem superloop_keeps_rhythm (clocked : Clocked world time) (config : EcuProcessConfig) (limit : Nat) (s : ω)
    (fits : 1000 * config.loopPeriod < 2 ^ 63) (readable : Readable (1000 * config.loopPeriod) (run world config limit s).events) :
    let process := run world config limit s
    (config.isValid = false ∧ process = ⟨[.error "invalid ECU process configuration"],some .kInvalidConfiguration,s⟩) ∨
    (config.isValid = true ∧ process = ⟨[.info "initializing network",.networkInit false,.error "network initialization failed"],
      some .kNetworkInitializationFailed,(world.networkInit s).2⟩) ∨
    config.isValid = true ∧ ∃ (start : Int) (rounds : List Round) (tail : List Event),
      process.events = startup start ++ rounds.flatMap Round.events ++ tail ∧ Ends tail process.exit ∧
      Paced config.period start rounds ∧ rounds.length ≤ limit ∧ (process.exit = none → rounds.length = limit) ∧
      (∀ i (known : i < rounds.length), start + i * config.period ≤ rounds[i].current) ∧
      ((∀ i (known : i < rounds.length), rounds[i].current < start + (i + 1) * config.period) →
        ∀ i (known : i < rounds.length), rounds[i].deadline = start + (i + 1) * config.period) := by
  unfold run at readable ⊢
  cases valid : config.isValid with
  | false => exact Or.inl ⟨rfl,rfl⟩
  | true =>
    refine Or.inr ?_
    obtain ⟨same,positive⟩ := EcuProcessConfig.period_eq valid fits
    rw [← same] at readable
    cases initialized : (world.networkInit s).1 with
    | false => exact Or.inl ⟨rfl,by simp [initialized]⟩
    | true =>
      have reading := (clocked.now (world.applicationInit (world.networkInit s).2)).2
      simp only [valid,initialized,if_true,readable_append] at readable
      obtain ⟨started,readable⟩ := readable
      have low := (started _ (List.mem_singleton_self _)).1
      obtain ⟨rounds,tail,events,ends,paced,few,whole⟩ := loop_paced clocked positive limit reading low readable
      refine Or.inr ⟨rfl,_,rounds,tail,?_,by simpa [initialized] using ends,paced,few,by simpa [initialized] using whole,
        paced.due positive,paced.regular⟩
      simp only [initialized,if_true]
      rw [events,List.append_assoc]

end rhythm

/-! ### A late round -/

/-- The time, and how often the request to shut down is still answered with no; the third round takes longer. -/
def lateWorld : World (Int × Nat) where
  networkInit s := (true,s)
  networkPoll s := (true,(s.1 + 100000,s.2))
  applicationInit s := s
  applicationPeriodic s := (if s.2 = 3 then s.1 + 2500000 else s.1 + 300000,s.2)
  isShutdownRequested s := (s.2 = 0,(s.1,s.2 - 1))
  now s := (s.1,s)
  sleepUntil deadline s := (max deadline s.1,s.2)

theorem lateWorld_clocked : Clocked lateWorld Prod.fst where
  networkPoll s := by simp [lateWorld]
  applicationPeriodic s := by
    simp only [lateWorld]
    split_ifs <;> omega
  isShutdownRequested s := le_refl _
  now s := ⟨le_refl _,le_refl _⟩
  sleepUntil deadline s := le_max_left _ _

theorem lateWorld_readable : Readable 1000000 (run lateWorld ⟨"counter",1000⟩ 9 (0,8)).events := by
  unfold Readable
  decide

theorem late_round_skipped : (run lateWorld ⟨"counter",1000⟩ 9 (0,8)).exit = some .kSuccess ∧
    ∃ (start : Int) (rounds : List Round) (tail : List Event), (run lateWorld ⟨"counter",1000⟩ 9 (0,8)).events =
      startup start ++ rounds.flatMap Round.events ++ tail ∧
        ∀ i (known : i < rounds.length), start + i * 1000000 ≤ rounds[i].current := by
  refine ⟨by decide,?_⟩
  rcases superloop_keeps_rhythm lateWorld_clocked ⟨"counter",1000⟩ 9 (0,8) (by decide) lateWorld_readable with
    ⟨invalid,-⟩ | ⟨-,failed⟩ | ⟨-,start,rounds,tail,events,-,-,-,-,due,-⟩
  · exact absurd invalid (by decide)
  · exact absurd (congrArg Run.exit failed) (by decide)
  · exact ⟨start,rounds,tail,events,due⟩

end WireSpaces.Simulator
