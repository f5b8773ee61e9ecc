import WireSpaces.CanDriver

/-!
The text console in front of the CAN driver: command lines from the UART become frames, and
received frames become report lines. Whatever comes over the UART and over the bus, the
frames that leave are the commanded ones that were answered with OK.
-/
namespace WireSpaces.CanConsole
open WireSpaces.Codec WireSpaces.CanDriver

/-! ### Commands -/

def kCommandCapacity : Nat := 24
def carriageReturn : U8 := 0x0D
def lineFeed : U8 := 0x0A

def parseHexNibble (character : U8) : Option U8 :=
  if 0x30 ≤ character ∧ character ≤ 0x39 then some (character - 0x30)
  else if 0x41 ≤ character ∧ character ≤ 0x46 then some (character - 0x41 + 10)
  else if 0x61 ≤ character ∧ character ≤ 0x66 then some (character - 0x61 + 10)
  else none

def parseHexByte (first second : U8) : Option U8 :=
  match parseHexNibble first, parseHexNibble second with
  | some high, some low => some ((high <<< 4) ||| low)
  | _, _ => none

theorem eight_set (frame : Mcp2515CanFrame) (index : Nat) (value : U8) : (frame.data.set index value).length = 8 := by
  rw [List.length_set,frame.eight]

def store (frame : Mcp2515CanFrame) (index : Nat) (value : U8) : Mcp2515CanFrame :=
  ⟨frame.identifier,frame.size,frame.data.set index value,eight_set frame index value⟩

def parseData (command : Bytes) : Nat → Nat → Mcp2515CanFrame → Option Mcp2515CanFrame
  | 0, _, frame => some frame
  | remaining + 1, index, frame =>
    match parseHexByte (command.getD (6 + 2 * index) 0) (command.getD (7 + 2 * index) 0) with
    | none => none
    | some value => parseData command remaining (index + 1) (store frame index value)

/-- The frame of a command; `none` is answered with `T:BAD`. -/
def parseCommand (command : Bytes) : Option Mcp2515CanFrame :=
  if command.length < 6 ∨ command.getD 0 0 ≠ 0x54 ∨ command.getD 1 0 ≠ 0x3A ∨ command.getD 5 0 ≠ 0x3A ∨
      (command.length - 6) % 2 ≠ 0 ∨ command.length - 6 > 16 then none
  else
    match parseHexNibble (command.getD 2 0), parseHexNibble (command.getD 3 0), parseHexNibble (command.getD 4 0) with
    | some high, some middle, some low =>
      if high > 0x07 then none
      else
        let size := (command.length - 6) / 2
        parseData command size 0 { Mcp2515CanFrame.init with
          identifier := (high.setWidth 16 <<< 8) ||| (middle.setWidth 16 <<< 4) ||| low.setWidth 16, size := BitVec.ofNat 8 size }
    | _, _, _ => none

inductive Reply where
  | bad
  | ok
  | busy
  deriving Repr, DecidableEq

/-- What the console writes: the answer to a command, or the report of a frame. -/
inductive Output where
  | reply (reply : Reply)
  | report (frame : U16 × Bytes)
  deriving Repr, DecidableEq

structure Console (σ : Type) where
  state : σ
  command : Bytes
  outputs : List Output
  /-- The frames that `transmit` took. -/
  accepted : List Mcp2515CanFrame

section console
variable {σ : Type} (spi : Spi σ)

def processCommand (c : Console σ) : Console σ :=
  match parseCommand c.command with
  | none => { c with outputs := c.outputs ++ [.reply .bad] }
  | some frame =>
    let queued := transmit spi frame c.state
    { c with
      state := queued.2
      outputs := c.outputs ++ [.reply (if queued.1 then .ok else .busy)]
      accepted := if queued.1 then c.accepted ++ [frame] else c.accepted }

/-- One character of `processUart`. -/
def readByte (c : Console σ) (character : U8) : Console σ :=
  if character = carriageReturn ∨ character = lineFeed then
    if c.command ≠ [] then { processCommand spi c with command := [] } else c
  else if c.command.length < kCommandCapacity then { c with command := c.command ++ [character] }
  else { c with command := [], outputs := c.outputs ++ [.reply .bad] }

def processUart (available : Bytes) (c : Console σ) : Console σ := available.foldl (readByte spi) c

/-- The loop around `receive`, with at most `limit` calls. -/
def reportReceived : Nat → Mcp2515CanFrame → Console σ → Console σ
  | 0, _, c => c
  | limit + 1, frame, c =>
    let received := receive spi frame c.state
    let c := { c with state := received.2, outputs := c.outputs ++ (reported received.1).toList.map .report }
    if received.1.1 then reportReceived limit received.1.2 c else c

theorem processUart_append (first second : Bytes) (c : Console σ) :
    processUart spi (first ++ second) c = processUart spi second (processUart spi first c) := List.foldl_append

/-- The bytes that `processUart` finds, and a bound on the frames that come in behind. -/
structure Turn where
  available : Bytes
  limit : Nat

def runTurn (c : Console σ) (turn : Turn) : Console σ := reportReceived spi turn.limit .init (processUart spi turn.available c)

def runTurns (s : σ) (turns : List Turn) : Console σ := turns.foldl (runTurn spi) ⟨s,[],[],[]⟩

end console

/-! ### The lines of the input -/

def isTerminator (character : U8) : Bool := character = carriageReturn || character = lineFeed

/-- What a stretch of the input is to the console. -/
inductive Piece where
  | blank (terminator : U8)
  | line (command : Bytes) (terminator : U8)
  | overflow (characters : Bytes)
  deriving Repr, DecidableEq

def Piece.text : Piece → Bytes
  | .blank terminator => [terminator]
  | .line command terminator => command ++ [terminator]
  | .overflow characters => characters

def Plain (characters : Bytes) : Prop := ∀ character ∈ characters, isTerminator character = false

def Piece.Valid : Piece → Prop
  | .blank terminator => isTerminator terminator = true
  | .line command terminator => command ≠ [] ∧ command.length ≤ kCommandCapacity ∧ Plain command ∧ isTerminator terminator = true
  | .overflow characters => characters.length = kCommandCapacity + 1 ∧ Plain characters

def Piece.answered : Piece → Bool
  | .blank _ => false
  | _ => true

def Piece.frame : Piece → Option Mcp2515CanFrame
  | .line command _ => parseCommand command
  | _ => none

/-- The input is cut into pieces, of which the last is still open. -/
structure Cuts (input : Bytes) (pieces : List Piece) (rest : Bytes) : Prop where
  whole : input = pieces.flatMap Piece.text ++ rest
  valid : ∀ piece ∈ pieces, piece.Valid
  short : rest.length ≤ kCommandCapacity
  plain : Plain rest

def Output.answer : Output → Option Reply
  | .reply answer => some answer
  | .report _ => none

def Output.reported : Output → Option (U16 × Bytes)
  | .reply _ => none
  | .report frame => some frame

def replies (outputs : List Output) : List Reply := outputs.filterMap Output.answer

def reports (outputs : List Output) : List (U16 × Bytes) := outputs.filterMap Output.reported

/-- The frames of the pieces that were answered with OK. -/
def granted (pieces : List Piece) (answers : List Reply) : List Mcp2515CanFrame :=
  (pieces.zip answers).filterMap fun answered => if answered.2 = .ok then answered.1.frame else none

/-- Every line and every overflow has its answer, `bad` exactly where there is no frame; and the accepted frames are those of the
lines with OK. -/
structure Answered (pieces : List Piece) (answers : List Reply) (accepted : List Mcp2515CanFrame) : Prop where
  each : List.Forall₂ (fun piece reply => reply = .bad ↔ piece.frame = none) pieces answers
  accepted_eq : accepted = granted pieces answers

theorem Answered.snoc {pieces : List Piece} {answers : List Reply} {accepted : List Mcp2515CanFrame}
    (answered : Answered pieces answers accepted) {piece : Piece} {reply : Reply} (right : reply = .bad ↔ piece.frame = none)
    {accepted' : List Mcp2515CanFrame} (same : accepted' = accepted ++ (if reply = .ok then piece.frame.toList else [])) :
    Answered (pieces ++ [piece]) (answers ++ [reply]) accepted' := by
  refine ⟨List.rel_append answered.each (.cons right .nil),?_⟩
  rw [same,answered.accepted_eq,granted,granted,List.zip_append answered.each.length_eq,List.filterMap_append]
  congr 1
  by_cases ok : reply = .ok
  · cases frame : piece.frame <;> simp [ok,frame]
  · simp [ok]

/-! ### A whole run -/

section runs
variable {σ : Type} {spi : Spi σ} {c : Controller σ}

variable {input : Bytes} {console : Console σ} {pieces : List Piece} {taken : List Content}

theorem Cuts.close {rest : Bytes} (cuts : Cuts input pieces rest) {character : U8} {piece : Piece} (valid : piece.Valid)
    (text : piece.text = rest ++ [character]) : Cuts (input ++ [character]) (pieces ++ [piece]) [] := by
  refine ⟨?_,fun other member => ?_,Nat.zero_le _,fun _ member => absurd member List.not_mem_nil⟩
  · rw [cuts.whole,List.flatMap_append,List.flatMap_singleton,text,List.append_nil,List.append_assoc]
  · rcases List.mem_append.mp member with old | new
    · exact cuts.valid other old
    · rw [List.mem_singleton.mp new]
      exact valid

theorem Cuts.grow {rest : Bytes} (cuts : Cuts input pieces rest) {character : U8} (other : isTerminator character = false)
    (room : rest.length < kCommandCapacity) : Cuts (input ++ [character]) pieces (rest ++ [character]) := by
  refine ⟨?_,cuts.valid,?_,fun one member => ?_⟩
  · rw [cuts.whole,List.append_assoc]
  · rw [List.length_append,List.length_singleton]
    exact room
  · rcases List.mem_append.mp member with old | new
    · exact cuts.plain one old
    · rw [List.mem_singleton.mp new]
      exact other

end runs

def hexDigit (nibble : U8) : U8 := if nibble < 10 then 0x30 + nibble else 0x41 + (nibble - 10)

/-- `data.hex().upper()`. -/
def hexData (data : Bytes) : Bytes := data.flatMap fun byte : U8 => [hexDigit (byte >>> 4),hexDigit (byte &&& 0x0F)]

/-- `{identifier:03X}`. -/
def hexIdentifier (identifier : Nat) : Bytes :=
  let digits := (Nat.toDigits 16 identifier).map fun digit => BitVec.ofNat 8 digit.toUpper.toNat
  List.replicate (3 - digits.length) 0x30 ++ digits

/-- `encode_arduino_transmit` before the line end. -/
def command (frame : Nat × Bytes) : Bytes := [0x54,0x3A] ++ hexIdentifier frame.1 ++ [0x3A] ++ hexData frame.2

def encodeArduinoTransmit (frame : Nat × Bytes) : Bytes := command frame ++ [carriageReturn]

/-- What `CanFrame` may hold on the bus. -/
def Standard (frame : Nat × Bytes) : Prop := frame.1 < 2048 ∧ frame.2.length ≤ 8

theorem digitChar_upper : ∀ digit < 16, BitVec.ofNat 8 digit.digitChar.toUpper.toNat = hexDigit (BitVec.ofNat 8 digit) := by decide

theorem hexIdentifier_eq : ∀ identifier < 2048, hexIdentifier identifier = [hexDigit (BitVec.ofNat 8 (identifier / 256)),
    hexDigit (BitVec.ofNat 8 (identifier / 16 % 16)),hexDigit (BitVec.ofNat 8 (identifier % 16))] := by
  intro identifier small
  have low := digitChar_upper (identifier % 16) (by omega)
  unfold hexIdentifier
  rcases Nat.lt_or_ge identifier 16 with one | more
  · rw [Nat.toDigits_of_lt_base one,show identifier / 256 = 0 by omega,show identifier / 16 % 16 = 0 by omega,← low,
      Nat.mod_eq_of_lt one]
    rfl
  have middle := digitChar_upper (identifier / 16 % 16) (by omega)
  rw [Nat.toDigits_of_base_le (by decide) more]
  rcases Nat.lt_or_ge identifier 256 with two | three
  · rw [Nat.toDigits_of_lt_base (by omega : identifier / 16 < 16),show identifier / 256 = 0 by omega,← low,← middle,
      Nat.mod_eq_of_lt (by omega : identifier / 16 < 16)]
    rfl
  · have high := digitChar_upper (identifier / 256) (by omega)
    have twice : identifier / 16 / 16 = identifier / 256 := Nat.div_div_eq_div_mul identifier 16 16
    rw [Nat.toDigits_of_base_le (by decide) (by omega : 16 ≤ identifier / 16),twice,
      Nat.toDigits_of_lt_base (by omega : identifier / 256 < 16),← low,← middle,← high]
    rfl

theorem identifier_join : ∀ identifier < 2048, ((BitVec.ofNat 8 (identifier / 256)).setWidth 16 <<< 8 |||
    (BitVec.ofNat 8 (identifier / 16 % 16)).setWidth 16 <<< 4) ||| (BitVec.ofNat 8 (identifier % 16)).setWidth 16 =
      BitVec.ofNat 16 identifier := by decide +kernel

theorem parseHexNibble_digit : ∀ nibble < 16, parseHexNibble (hexDigit (BitVec.ofNat 8 nibble)) = some (BitVec.ofNat 8 nibble) := by
  decide

theorem parseHexByte_digits : ∀ byte : U8, parseHexByte (hexDigit (byte >>> 4)) (hexDigit (byte &&& 0x0F)) = some byte := by decide

theorem plain_digits : ∀ byte : U8,
    isTerminator (hexDigit (byte >>> 4)) = false ∧ isTerminator (hexDigit (byte &&& 0x0F)) = false := by
  decide

theorem plain_digit : ∀ nibble < 16, isTerminator (hexDigit (BitVec.ofNat 8 nibble)) = false := by decide

theorem length_hexData (data : Bytes) : (hexData data).length = 2 * data.length := by
  induction data with
  | nil => rfl
  | cons byte data ih =>
    rw [hexData,List.flatMap_cons,List.length_append,← hexData,ih,List.length_cons]
    simp only [List.length_cons,List.length_nil]
    omega

theorem hexData_getD (data : Bytes) (index : Nat) (inside : index < data.length) :
    (hexData data).getD (2 * index) 0 = hexDigit (data.getD index 0 >>> 4) ∧
      (hexData data).getD (2 * index + 1) 0 = hexDigit (data.getD index 0 &&& 0x0F) := by
  induction data generalizing index with
  | nil => exact absurd inside (Nat.not_lt_zero index)
  | cons byte data ih =>
    cases index with
    | zero => exact ⟨rfl,rfl⟩
    | succ index => exact ih index (by simpa using inside)

theorem parseData_eq {line data : Bytes}
    (digits : ∀ index < data.length, line.getD (6 + 2 * index) 0 = hexDigit (data.getD index 0 >>> 4) ∧
      line.getD (7 + 2 * index) 0 = hexDigit (data.getD index 0 &&& 0x0F)) (eight : data.length ≤ 8) (remaining index : Nat)
    (whole : index + remaining = data.length) (frame : Mcp2515CanFrame) :
    ∃ parsed, parseData line remaining index frame = some parsed ∧ parsed.identifier = frame.identifier ∧ parsed.size = frame.size ∧
      parsed.data.take data.length = frame.data.take index ++ data.drop index := by
  induction remaining generalizing index frame with
  | zero =>
    rw [Nat.add_zero] at whole
    exact ⟨frame,rfl,rfl,rfl,by rw [whole,List.drop_length,List.append_nil]⟩
  | succ remaining ih =>
    obtain ⟨high,low⟩ := digits index (by omega)
    obtain ⟨parsed,same,identifier,size,bytes⟩ := ih (index + 1) (by omega) (store frame index (data.getD index 0))
    refine ⟨parsed,?_,identifier,size,?_⟩
    · rw [parseData,high,low,parseHexByte_digits]
      exact same
    · rw [bytes]
      change (frame.data.set index _).take (index + 1) ++ _ = _
      rw [take_set_succ (by rw [frame.eight]; omega),List.append_assoc,List.singleton_append]
      rw [List.getD_eq_getElem _ _ (by omega : index < data.length),← List.drop_eq_getElem_cons]

theorem command_eq {identifier : Nat} (small : identifier < 2048) (data : Bytes) :
    command (identifier,data) = 0x54 :: 0x3A :: hexDigit (BitVec.ofNat 8 (identifier / 256)) ::
      hexDigit (BitVec.ofNat 8 (identifier / 16 % 16)) :: hexDigit (BitVec.ofNat 8 (identifier % 16)) :: 0x3A :: hexData data := by
  rw [command,hexIdentifier_eq identifier small]
  rfl

/-- The console reads back what the host means. -/
theorem parseCommand_command {frame : Nat × Bytes} (standard : Standard frame) :
    ∃ parsed, parseCommand (command frame) = some parsed ∧ parsed.value = (BitVec.ofNat 16 frame.1,frame.2) := by
  obtain ⟨identifier,data⟩ := frame
  obtain ⟨small,eight⟩ := standard
  dsimp only at small eight
  have line := command_eq small data
  have length : (command (identifier,data)).length = 6 + 2 * data.length := by
    rw [line]
    simp only [List.length_cons,length_hexData]
    omega
  have digits : ∀ index < data.length, (command (identifier,data)).getD (6 + 2 * index) 0 = hexDigit (data.getD index 0 >>> 4) ∧
      (command (identifier,data)).getD (7 + 2 * index) 0 = hexDigit (data.getD index 0 &&& 0x0F) := by
    intro index inside
    rw [line,Nat.add_comm 6,Nat.add_comm 7]
    exact hexData_getD data index inside
  have high := parseHexNibble_digit (identifier / 256) (by omega)
  have middle := parseHexNibble_digit (identifier / 16 % 16) (by omega)
  have low := parseHexNibble_digit (identifier % 16) (by omega)
  have half : (6 + 2 * data.length - 6) / 2 = data.length := by omega
  have shape : ¬((command (identifier,data)).length < 6 ∨ (command (identifier,data)).getD 0 0 ≠ 0x54 ∨
      (command (identifier,data)).getD 1 0 ≠ 0x3A ∨ (command (identifier,data)).getD 5 0 ≠ 0x3A ∨
      ((command (identifier,data)).length - 6) % 2 ≠ 0 ∨ (command (identifier,data)).length - 6 > 16) := by
    rw [length,line]
    simp only [List.getD_cons_zero,List.getD_cons_succ,ne_eq,not_true_eq_false,false_or]
    omega
  have seven : ¬BitVec.ofNat 8 (identifier / 256) > (0x07 : U8) := by
    rw [gt_iff_lt,BitVec.lt_def,BitVec.toNat_ofNat]
    change ¬ 7 < _
    omega
  obtain ⟨parsed,same,named,sized,bytes⟩ := parseData_eq digits eight data.length 0 (Nat.zero_add _) { Mcp2515CanFrame.init with
    identifier := BitVec.ofNat 16 identifier, size := BitVec.ofNat 8 data.length }
  refine ⟨parsed,?_,?_⟩
  · rw [parseCommand,if_neg shape]
    have second : (command (identifier,data)).getD 2 0 = hexDigit (BitVec.ofNat 8 (identifier / 256)) := by rw [line]; rfl
    have third : (command (identifier,data)).getD 3 0 = hexDigit (BitVec.ofNat 8 (identifier / 16 % 16)) := by rw [line]; rfl
    have fourth : (command (identifier,data)).getD 4 0 = hexDigit (BitVec.ofNat 8 (identifier % 16)) := by rw [line]; rfl
    rw [second,third,fourth,high,middle,low]
    dsimp only
    rw [if_neg seven,length,half,identifier_join identifier small]
    exact same
  · have sizeNat : (BitVec.ofNat 8 data.length : U8).toNat = data.length := by
      rw [BitVec.toNat_ofNat]
      omega
    rw [Mcp2515CanFrame.value,named,sized]
    dsimp only
    rw [sizeNat,bytes,List.take_zero,List.nil_append,List.drop_zero]

section host
variable {σ : Type} (spi : Spi σ)

theorem command_plain {frame : Nat × Bytes} (standard : Standard frame) :
    Plain (command frame) ∧ (command frame).length ≤ kCommandCapacity ∧ command frame ≠ [] := by
  obtain ⟨identifier,data⟩ := frame
  obtain ⟨small,eight⟩ := standard
  dsimp only at small eight
  have line := command_eq small data
  refine ⟨fun character member => ?_,?_,?_⟩
  · rw [line] at member
    simp only [List.mem_cons] at member
    rcases member with rfl | rfl | rfl | rfl | rfl | rfl | inside
    · decide
    · decide
    · exact plain_digit _ (by omega)
    · exact plain_digit _ (by omega)
    · exact plain_digit _ (by omega)
    · decide
    · obtain ⟨byte,-,digit⟩ := List.mem_flatMap.mp inside
      rcases List.mem_cons.mp digit with rfl | digit
      · exact (plain_digits byte).1
      · rw [List.mem_singleton.mp digit]
        exact (plain_digits byte).2
  · rw [line]
    simp only [List.length_cons,length_hexData,kCommandCapacity]
    omega
  · rw [line]
    exact List.cons_ne_nil _ _

/-- Characters that only fill the buffer. -/
theorem processUart_plain (characters : Bytes) (plain : Plain characters) (console : Console σ)
    (room : console.command.length + characters.length ≤ kCommandCapacity) :
    processUart spi characters console = { console with command := console.command ++ characters } := by
  induction characters generalizing console with
  | nil => rw [List.append_nil]; rfl
  | cons character characters ih =>
    have first := plain character List.mem_cons_self
    have other : ¬(character = carriageReturn ∨ character = lineFeed) := by
      simpa [isTerminator] using first
    have fits : console.command.length < kCommandCapacity := by
      rw [List.length_cons] at room
      omega
    have step : readByte spi console character = { console with command := console.command ++ [character] } := by
      rw [readByte,if_neg other,if_pos fits]
    change processUart spi characters (readByte spi console character) = _
    rw [step,ih (fun one member => plain one (List.mem_cons_of_mem _ member))]
    · simp
    · simp only [List.length_append,List.length_cons,List.length_nil] at room ⊢
      omega

/-- A command of the host at a console without an open line. -/
theorem processUart_command {frame : Nat × Bytes} (standard : Standard frame) (console : Console σ) (idle : console.command = []) :
    ∃ parsed, parsed.value = (BitVec.ofNat 16 frame.1,frame.2) ∧ processUart spi (encodeArduinoTransmit frame) console =
      ⟨(transmit spi parsed console.state).2,[],
        console.outputs ++ [.reply (if (transmit spi parsed console.state).1 then .ok else .busy)],
        if (transmit spi parsed console.state).1 then console.accepted ++ [parsed] else console.accepted⟩ := by
  obtain ⟨plain,short,filled⟩ := command_plain standard
  obtain ⟨parsed,same,value⟩ := parseCommand_command standard
  refine ⟨parsed,value,?_⟩
  have read := processUart_plain spi (command frame) plain console (by rw [idle]; simpa using short)
  rw [idle,List.nil_append] at read
  rw [encodeArduinoTransmit,processUart_append,read]
  change readByte spi ⟨console.state,command frame,console.outputs,console.accepted⟩ carriageReturn = _
  rw [readByte,if_pos (Or.inl rfl),if_pos filled,processCommand,same]

/-- `transmit` of one frame behind the other, with what each call returned. -/
def transmitAll (state : σ) : List Mcp2515CanFrame → List Bool × σ
  | [] => ([],state)
  | frame :: frames =>
    let queued := transmit spi frame state
    let others := transmitAll queued.2 frames
    (queued.1 :: others.1,others.2)

/-- Behind a line end, whatever came before it, the console is as if `transmit` had been called once for each command of the host,
in their order and with the frame that the host means; each call is answered, with OK where it took the frame and BUSY where not. -/
theorem host_commands_obeyed (console : Console σ) (frames : List (Nat × Bytes)) (standard : ∀ frame ∈ frames, Standard frame) :
    let idle := readByte spi console carriageReturn
    let ends := processUart spi (frames.flatMap encodeArduinoTransmit) idle
    ∃ parsed : List Mcp2515CanFrame, parsed.map Mcp2515CanFrame.value = frames.map (Prod.map (BitVec.ofNat 16) id) ∧
      ends.state = (transmitAll spi idle.state parsed).2 ∧ ends.command = [] ∧
      ends.outputs = idle.outputs ++
        (transmitAll spi idle.state parsed).1.map fun queued => .reply (if queued then .ok else .busy) := by
  intro idle ends
  have closed : idle.command = [] := by
    change (readByte spi console carriageReturn).command = []
    rw [readByte,if_pos (Or.inl rfl)]
    split_ifs with open_line
    · rfl
    · exact not_not.mp open_line
  clear_value idle
  induction frames generalizing idle with
  | nil => exact ⟨[],rfl,rfl,closed,(List.append_nil _).symm⟩
  | cons frame frames ih =>
    obtain ⟨first,value,step⟩ := processUart_command spi (standard frame List.mem_cons_self) idle closed
    have split : ends =
        processUart spi (frames.flatMap encodeArduinoTransmit) (processUart spi (encodeArduinoTransmit frame) idle) := by
      simp only [ends,processUart,List.flatMap_cons,List.foldl_append]
    obtain ⟨parsed,values,state,command,outputs⟩ :=
      ih (fun other member => standard other (List.mem_cons_of_mem _ member)) _ (by rw [step] : (processUart spi _ idle).command = [])
    rw [step] at state outputs
    refine ⟨first :: parsed,?_,?_,?_,?_⟩
    · rw [List.map_cons,value,values]
      rfl
    · rw [split,step,state]
      rfl
    · rw [split]
      exact command
    · rw [split,step,outputs,List.append_assoc]
      rfl

end host

theorem greeting_standard : ∀ frame ∈ [((0x123 : Nat),([0xAB,0xCD] : Bytes)),(0x7FF,[])], Standard frame := by
  intro frame member
  rcases List.mem_cons.mp member with rfl | member
  · exact ⟨by decide,by decide⟩
  · rw [List.mem_singleton.mp member]
    exact ⟨by decide,by decide⟩

/-- A chip that does not come to send for ten instructions. -/
def jammed : Chip := { silent with bus := List.replicate 10 { finishes := false } }

/-- The second command comes while the first frame still waits. -/
theorem two_commands_obeyed :
    let ends := processUart Chip.spi ([(0x123,[0xAB,0xCD]),(0x7FF,[])].flatMap encodeArduinoTransmit)
      (readByte Chip.spi ⟨jammed,[0x54],[],[]⟩ carriageReturn)
    replies ends.outputs = [.bad,.ok,.busy] ∧
    ∃ parsed : List Mcp2515CanFrame, parsed.map Mcp2515CanFrame.value = [(0x123,[0xAB,0xCD]),(0x7FF,[])] ∧
      ends.state = (transmitAll Chip.spi jammed parsed).2 := by
  intro ends
  obtain ⟨parsed,values,state,-,-⟩ := host_commands_obeyed Chip.spi ⟨jammed,[0x54],[],[]⟩ [(0x123,[0xAB,0xCD]),(0x7FF,[])]
    greeting_standard
  exact ⟨by decide,parsed,values,state⟩

end WireSpaces.CanConsole
