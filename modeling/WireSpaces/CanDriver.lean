import WireSpaces.Codec

/-!
The polling driver of the MCP2515 CAN controller. The controller is known by its SPI
instructions only, and the bus may fill a receive buffer or finish a transmission before
any of them. Whatever the bus does, the driver takes each stored frame once, and what it
accepts to send leaves once, unchanged and in order.
-/
namespace WireSpaces.CanDriver
open WireSpaces.Codec

/-- A CAN frame; only the first `size` bytes of the data are its own. -/
structure Mcp2515CanFrame where
  identifier : U16
  size : U8
  data : Bytes
  eight : data.length = 8

theorem eight_zeros : (List.replicate 8 (0 : U8)).length = 8 := rfl

/-- `Mcp2515CanFrame{}`. -/
def Mcp2515CanFrame.init : Mcp2515CanFrame := ⟨0,0,List.replicate 8 0,eight_zeros⟩

/-! ### Registers -/

def kInstructionWrite : U8 := 0x02
def kInstructionRead : U8 := 0x03
def kInstructionBitModify : U8 := 0x05
def kInstructionRequestToSendBuffer0 : U8 := 0x81

def kRegisterCanintf : U8 := 0x2C
def kRegisterTxb0ctrl : U8 := 0x30
def kRegisterTxb0sidh : U8 := 0x31
def kRegisterTxb0dlc : U8 := 0x35
def kRegisterTxb0d0 : U8 := 0x36

def kTransmitRequest : U8 := 0x08
def kExtendedIdentifier : U8 := 0x08

/-- The flag and the registers of a receive buffer. -/
structure Buffer where
  flag : U8
  identifierRegister : U8
  dlcRegister : U8
  dataRegister : U8

def rxb0 : Buffer := ⟨0x01,0x61,0x65,0x66⟩
def rxb1 : Buffer := ⟨0x02,0x71,0x75,0x76⟩

/-- One exchange while the chip is selected: the byte that comes in last, and the controller behind it. -/
abbrev Spi (σ : Type) := Bytes → σ → U8 × σ

section driver
variable {σ : Type} (spi : Spi σ)

def readRegister (address : U8) (s : σ) : U8 × σ := spi [kInstructionRead,address,0x00] s
def writeRegister (address value : U8) (s : σ) : σ := (spi [kInstructionWrite,address,value] s).2
def bitModify (address mask value : U8) (s : σ) : σ := (spi [kInstructionBitModify,address,mask,value] s).2
def requestToSend (s : σ) : σ := (spi [kInstructionRequestToSendBuffer0] s).2

def writeData (data : Bytes) : Nat → U8 → σ → σ
  | 0, _, s => s
  | remaining + 1, index, s =>
    writeData data remaining (index + 1) (writeRegister spi (kRegisterTxb0d0 + index) (data.getD index.toNat 0) s)

def transmit (frame : Mcp2515CanFrame) (s : σ) : Bool × σ :=
  if frame.identifier > 0x07FF ∨ frame.size > 8 then (false,s)
  else
    let control := readRegister spi kRegisterTxb0ctrl s
    if control.1 &&& kTransmitRequest ≠ 0 then (false,control.2)
    else
      let s := writeRegister spi kRegisterTxb0sidh ((frame.identifier >>> 3).setWidth 8) control.2
      let s := writeRegister spi (kRegisterTxb0sidh + 1) (((frame.identifier &&& 0x07) <<< 5).setWidth 8) s
      let s := writeRegister spi (kRegisterTxb0sidh + 2) 0x00 s
      let s := writeRegister spi (kRegisterTxb0sidh + 3) 0x00 s
      let s := writeRegister spi kRegisterTxb0dlc frame.size s
      let s := writeData spi frame.data frame.size.toNat 0 s
      (true,requestToSend spi s)

def readData (register : U8) : Nat → U8 → Bytes → σ → Bytes × σ
  | 0, _, data, s => (data,s)
  | remaining + 1, index, data, s =>
    let value := readRegister spi (register + index) s
    readData register remaining (index + 1) (data.set index.toNat value.1) value.2

theorem length_readData (register : U8) (remaining : Nat) (index : U8) (data : Bytes) (s : σ) :
    (readData spi register remaining index data s).1.length = data.length := by
  induction remaining generalizing index data s with
  | zero => rfl
  | succ remaining ih => rw [readData,ih,List.length_set]

/-- `receive` once the DLC register is read. -/
def receiveData (buffer : Buffer) (frame : Mcp2515CanFrame) (dlc : U8) (s : σ) : (Bool × Mcp2515CanFrame) × σ :=
  let size := if dlc &&& 0x0F > 8 then 8 else dlc &&& 0x0F
  let data := readData spi buffer.dataRegister size.toNat 0 frame.data s
  let frame := ⟨frame.identifier,size,data.1,(length_readData spi _ _ _ _ _).trans frame.eight⟩
  ((true,frame),bitModify spi kRegisterCanintf buffer.flag 0x00 data.2)

/-- `receive` behind the choice of a buffer. -/
def receiveFrom (buffer : Buffer) (frame : Mcp2515CanFrame) (s : σ) : (Bool × Mcp2515CanFrame) × σ :=
  let sidh := readRegister spi buffer.identifierRegister s
  let sidl := readRegister spi (buffer.identifierRegister + 1) sidh.2
  if sidl.1 &&& kExtendedIdentifier ≠ 0 then ((false,frame),bitModify spi kRegisterCanintf buffer.flag 0x00 sidl.2)
  else
    let frame := { frame with identifier := (sidh.1.setWidth 16 <<< 3) ||| (sidl.1.setWidth 16 >>> 5) }
    let dlc := readRegister spi buffer.dlcRegister sidl.2
    if dlc.1 &&& 0x40 ≠ 0 then ((false,frame),bitModify spi kRegisterCanintf buffer.flag 0x00 dlc.2)
    else receiveData spi buffer frame dlc.1 dlc.2

/-- `receive`, and the frame as the call leaves it. -/
def receive (frame : Mcp2515CanFrame) (s : σ) : (Bool × Mcp2515CanFrame) × σ :=
  let flags := readRegister spi kRegisterCanintf s
  if flags.1 &&& rxb0.flag ≠ 0 then receiveFrom spi rxb0 frame flags.2
  else if flags.1 &&& rxb1.flag ≠ 0 then receiveFrom spi rxb1 frame flags.2
  else ((false,frame),flags.2)

end driver

/-! ### The controller -/

abbrev Registers := U8 → U8

/-- What stands in a receive buffer. -/
structure Content where
  sidh : U8
  sidl : U8
  dlc : U8
  data : Bytes
  deriving Repr, DecidableEq

def contentOf (registers : Registers) (buffer : Buffer) : Content :=
  ⟨registers buffer.identifierRegister,registers (buffer.identifierRegister + 1),registers buffer.dlcRegister,
    (List.range 8).map fun index => registers (buffer.dataRegister + BitVec.ofNat 8 index)⟩

def flagged (registers : Registers) (buffer : Buffer) : Bool := registers kRegisterCanintf &&& buffer.flag != 0

/-- The frames that wait in the receive buffers. -/
def pending (registers : Registers) : List Content := ([rxb0,rxb1].filter (flagged registers)).map (contentOf registers)

/-- What stands in the transmit buffer. -/
structure Loaded where
  sidh : U8
  sidl : U8
  eid8 : U8
  eid0 : U8
  dlc : U8
  data : Bytes
  deriving Repr, DecidableEq

def loadedOf (registers : Registers) : Loaded :=
  ⟨registers kRegisterTxb0sidh,registers (kRegisterTxb0sidh + 1),registers (kRegisterTxb0sidh + 2),registers (kRegisterTxb0sidh + 3),
    registers kRegisterTxb0dlc,
    (List.range (min 8 (registers kRegisterTxb0dlc).toNat)).map fun index => registers (kRegisterTxb0d0 + BitVec.ofNat 8 index)⟩

def requested (registers : Registers) : Bool := registers kRegisterTxb0ctrl &&& kTransmitRequest != 0

/-- The frame that waits to be sent. -/
def waiting (registers : Registers) : List Loaded := if requested registers then [loadedOf registers] else []

/-- The registers that `transmit` writes. -/
def transmitRegisters : List U8 := (List.range 13).map fun index => kRegisterTxb0sidh + BitVec.ofNat 8 index

/-- The bits of a transmit register that the controller has; the others read as zero. -/
def implemented (address : U8) : U8 :=
  if address = kRegisterTxb0sidh + 1 then 0xEB else if address = kRegisterTxb0dlc then 0x4F else 0xFF

/-- What the bus does between two instructions: it stores frames in free buffers, and finishes a transmission. -/
structure BusStep (before after : Registers) (stored : List Content) (finished : List Loaded) : Prop where
  kept : ∀ buffer ∈ [rxb0,rxb1], flagged before buffer = true →
    flagged after buffer = true ∧ contentOf after buffer = contentOf before buffer
  stored_eq : stored = ([rxb0,rxb1].filter fun buffer => !flagged before buffer && flagged after buffer).map (contentOf after)
  loaded : ∀ address ∈ transmitRegisters, after address = before address
  idle : requested before = false → requested after = false
  finished_eq : finished = if requested before && !requested after then [loadedOf before] else []

/-- What is known of a controller: its registers, and the frames it stored and sent so far. -/
structure Controller (σ : Type) where
  registers : σ → Registers
  arrived : σ → List Content
  sent : σ → List Loaded

/-- The bus has its turn, and an instruction finds the registers behind it. -/
def Controller.Goes {σ : Type} (c : Controller σ) (s : σ) (between : Registers) (s' : σ) : Prop :=
  ∃ stored finished, BusStep (c.registers s) between stored finished ∧ c.arrived s' = c.arrived s ++ stored ∧
    c.sent s' = c.sent s ++ finished

/-- The instructions of the driver do what the controller documents. -/
structure Obeys {σ : Type} (spi : Spi σ) (c : Controller σ) : Prop where
  read : ∀ address s, c.Goes s (c.registers (readRegister spi address s).2) (readRegister spi address s).2 ∧
    (readRegister spi address s).1 = c.registers (readRegister spi address s).2 address
  write : ∀ address ∈ transmitRegisters, ∀ value s, ∃ between, c.Goes s between (writeRegister spi address value s) ∧
    c.registers (writeRegister spi address value s) = Function.update between address (value &&& implemented address)
  modify : ∀ mask value s, ∃ between, c.Goes s between (bitModify spi kRegisterCanintf mask value s) ∧
    c.registers (bitModify spi kRegisterCanintf mask value s) =
      Function.update between kRegisterCanintf ((between kRegisterCanintf &&& ~~~mask) ||| (value &&& mask))
  send : ∀ s, ∃ between, c.Goes s between (requestToSend spi s) ∧ c.registers (requestToSend spi s) =
    Function.update between kRegisterTxb0ctrl (between kRegisterTxb0ctrl ||| kTransmitRequest)

/-! ### What frames mean -/

/-- Identifier and data of a stored frame; `none` for an extended identifier or the remote bit. -/
def decode (content : Content) : Option (U16 × Bytes) :=
  if content.sidl &&& kExtendedIdentifier ≠ 0 then none
  else if content.dlc &&& 0x40 ≠ 0 then none
  else
    some ((content.sidh.setWidth 16 <<< 3) ||| (content.sidl.setWidth 16 >>> 5),content.data.take (content.dlc &&& 0x0F).toNat)

/-- The transmit buffer for a frame. -/
def encode (frame : Mcp2515CanFrame) : Loaded :=
  ⟨(frame.identifier >>> 3).setWidth 8,((frame.identifier &&& 0x07) <<< 5).setWidth 8,0,0,frame.size,frame.data.take frame.size.toNat⟩

/-- What the caller of `receive` has of it. -/
def reported (received : Bool × Mcp2515CanFrame) : Option (U16 × Bytes) :=
  if received.1 then some (received.2.identifier,received.2.data.take received.2.size.toNat) else none

/-! ### The books -/

/-- Every stored frame was taken or still waits, and every accepted frame was sent or is about to be. -/
structure Balanced (registers : Registers) (arrived : List Content) (sent : List Loaded) (taken : List Content)
    (accepted : List Mcp2515CanFrame) : Prop where
  arrived : arrived.Perm (taken ++ pending registers)
  sent : sent ++ waiting registers = accepted.map encode

section books
variable {before after : Registers} {stored : List Content} {finished : List Loaded}

theorem BusStep.pending_perm (step : BusStep before after stored finished) : (pending after).Perm (pending before ++ stored) := by
  have first := step.kept rxb0 List.mem_cons_self
  have second := step.kept rxb1 (List.mem_cons_of_mem _ List.mem_cons_self)
  rw [step.stored_eq]
  unfold pending
  cases was0 : flagged before rxb0 with
  | true =>
    obtain ⟨is0,same0⟩ := first was0
    cases was1 : flagged before rxb1 with
    | true =>
      obtain ⟨is1,same1⟩ := second was1
      simp [was0,is0,was1,is1,same0,same1]
    | false => cases is1 : flagged after rxb1 <;> simp [was0,is0,was1,is1,same0]
  | false =>
    cases was1 : flagged before rxb1 with
    | true =>
      obtain ⟨is1,same1⟩ := second was1
      cases is0 : flagged after rxb0
      · simp [was0,is0,was1,is1,same1]
      · simpa [was0,is0,was1,is1,same1] using List.Perm.swap _ _ _
    | false => cases is0 : flagged after rxb0 <;> cases is1 : flagged after rxb1 <;> simp [was0,is0,was1,is1]

theorem mem_transmitRegisters {offset : Nat} (small : offset < 13) : kRegisterTxb0sidh + BitVec.ofNat 8 offset ∈ transmitRegisters :=
  List.mem_map.mpr ⟨offset,List.mem_range.mpr small,rfl⟩

theorem dataRegister_eq (index : Nat) : kRegisterTxb0d0 + BitVec.ofNat 8 index = kRegisterTxb0sidh + BitVec.ofNat 8 (index + 5) := by
  rw [BitVec.ofNat_add,show kRegisterTxb0d0 = kRegisterTxb0sidh + 5#8 from rfl,BitVec.add_assoc,BitVec.add_comm (BitVec.ofNat 8 index)]

theorem loadedOf_eq {registers : Registers} {contents : Nat → U8}
    (stands : ∀ offset < 13, registers (kRegisterTxb0sidh + BitVec.ofNat 8 offset) = contents offset) :
    loadedOf registers = ⟨contents 0,contents 1,contents 2,contents 3,contents 4,
      (List.range (min 8 (contents 4).toNat)).map fun index => contents (index + 5)⟩ := by
  have dlc : registers kRegisterTxb0dlc = contents 4 := stands 4 (by omega)
  have sidh : registers kRegisterTxb0sidh = contents 0 := stands 0 (by omega)
  unfold loadedOf
  rw [dlc,sidh,show registers (kRegisterTxb0sidh + 1) = _ from stands 1 (by omega),
    show registers (kRegisterTxb0sidh + 2) = _ from stands 2 (by omega),
    show registers (kRegisterTxb0sidh + 3) = _ from stands 3 (by omega)]
  congr 1
  refine List.map_congr_left fun index member => ?_
  have inside := List.mem_range.mp member
  rw [dataRegister_eq,stands _ (by omega)]

theorem loadedOf_congr (same : ∀ address ∈ transmitRegisters, after address = before address) : loadedOf after = loadedOf before := by
  rw [@loadedOf_eq before _ fun offset _ => rfl,loadedOf_eq fun offset small => same _ (mem_transmitRegisters small)]

/-- Registers outside the transmit buffer do not change what it holds. -/
theorem loadedOf_update {registers : Registers} {address : U8} (apart : address ∉ transmitRegisters) (value : U8) :
    loadedOf (Function.update registers address value) = loadedOf registers :=
  loadedOf_congr fun _ member => Function.update_of_ne (ne_of_mem_of_not_mem member apart) value registers

theorem BusStep.waiting_eq (step : BusStep before after stored finished) : waiting before = finished ++ waiting after := by
  have same := loadedOf_congr step.loaded
  rw [step.finished_eq]
  unfold waiting
  cases was : requested before with
  | true => cases is : requested after <;> simp [same]
  | false => simp [step.idle was]

theorem Balanced.step {arrived : List Content} {sent : List Loaded} {taken : List Content} {accepted : List Mcp2515CanFrame}
    (balanced : Balanced before arrived sent taken accepted) (step : BusStep before after stored finished) :
    Balanced after (arrived ++ stored) (sent ++ finished) taken accepted := by
  refine ⟨?_,?_⟩
  · have more := balanced.arrived.append_right stored
    rw [List.append_assoc] at more
    exact more.trans (step.pending_perm.symm.append_left taken)
  · rw [← balanced.sent,step.waiting_eq,List.append_assoc]

/-- The registers of a receive buffer. -/
def Buffer.registers (buffer : Buffer) : List U8 :=
  [buffer.identifierRegister,buffer.identifierRegister + 1,buffer.dlcRegister] ++
    (List.range 8).map fun index => buffer.dataRegister + BitVec.ofNat 8 index

/-- The registers that the receive side reads. -/
def receiveRegisters : List U8 := kRegisterCanintf :: [rxb0,rxb1].flatMap Buffer.registers

theorem receiveRegisters_apart : ∀ address ∈ receiveRegisters, address ≠ kRegisterTxb0ctrl ∧ address ∉ transmitRegisters := by decide

theorem contentOf_same {buffer : Buffer} (same : ∀ address ∈ buffer.registers, after address = before address) :
    contentOf after buffer = contentOf before buffer := by
  unfold contentOf
  rw [same buffer.identifierRegister (by simp [Buffer.registers]),same (buffer.identifierRegister + 1) (by simp [Buffer.registers]),
    same buffer.dlcRegister (by simp [Buffer.registers])]
  congr 1
  exact List.map_congr_left fun index member => same _ (List.mem_append_right _ (List.mem_map_of_mem member))

theorem canintf_apart : ∀ buffer ∈ [rxb0,rxb1], kRegisterCanintf ∉ buffer.registers := by
  simp only [List.forall_mem_cons,List.not_mem_nil,false_implies,implies_true,and_true]
  decide

theorem contentOf_congr {buffer : Buffer} (known : buffer ∈ [rxb0,rxb1])
    (same : ∀ address ∈ receiveRegisters, address ≠ kRegisterCanintf → after address = before address) :
    contentOf after buffer = contentOf before buffer := by
  refine contentOf_same fun address member => ?_
  refine same address (List.mem_cons_of_mem _ (List.mem_flatMap.mpr ⟨buffer,known,member⟩)) ?_
  exact ne_of_mem_of_not_mem member (canintf_apart buffer known)

theorem pending_congr (same : ∀ address ∈ receiveRegisters, after address = before address) : pending after = pending before := by
  have flags (buffer : Buffer) : flagged after buffer = flagged before buffer := by
    rw [flagged,flagged,same kRegisterCanintf List.mem_cons_self]
  unfold pending
  rw [List.filter_congr fun buffer _ => flags buffer]
  refine List.map_congr_left fun buffer member => ?_
  exact contentOf_congr (List.mem_of_mem_filter member) fun address member _ => same address member

/-- Clearing a flag leaves the other one alone. -/
theorem flagged_clear (buffer other : Buffer) (registers : Registers) : flagged (Function.update registers kRegisterCanintf
    ((registers kRegisterCanintf &&& ~~~buffer.flag) ||| (0x00 &&& buffer.flag))) other =
      (((registers kRegisterCanintf &&& ~~~buffer.flag) ||| (0x00 &&& buffer.flag)) &&& other.flag != 0) := by
  rw [flagged,Function.update_self]

/-- Taking a frame off its buffer. -/
theorem pending_clear {buffer : Buffer} (known : buffer ∈ [rxb0,rxb1]) (full : flagged before buffer = true) :
    (pending before).Perm (contentOf before buffer :: pending
      (Function.update before kRegisterCanintf ((before kRegisterCanintf &&& ~~~buffer.flag) ||| (0x00 &&& buffer.flag)))) := by
  have same {other : Buffer} (member : other ∈ [rxb0,rxb1]) : contentOf (Function.update before kRegisterCanintf
      ((before kRegisterCanintf &&& ~~~buffer.flag) ||| (0x00 &&& buffer.flag))) other = contentOf before other :=
    contentOf_congr member fun address _ apart => Function.update_of_ne apart _ _
  have first := same List.mem_cons_self
  have second := same (List.mem_cons_of_mem _ List.mem_cons_self)
  have flags0 := flagged_clear buffer rxb0 before
  have flags1 := flagged_clear buffer rxb1 before
  generalize Function.update before kRegisterCanintf _ = cleared at first second flags0 flags1 ⊢
  unfold pending
  rcases List.mem_cons.mp known with rfl | other
  · have bits : ∀ value : U8, (((value &&& ~~~rxb0.flag) ||| (0x00 &&& rxb0.flag)) &&& rxb0.flag != 0) = false ∧
        (((value &&& ~~~rxb0.flag) ||| (0x00 &&& rxb0.flag)) &&& rxb1.flag != 0) = (value &&& rxb1.flag != 0) := by decide
    obtain ⟨off,kept⟩ := bits (before kRegisterCanintf)
    have off := flags0.trans off
    have kept : flagged cleared rxb1 = flagged before rxb1 := flags1.trans kept
    cases is1 : flagged before rxb1 <;> simp [full,off,kept,is1,second]
  · obtain rfl := List.mem_singleton.mp other
    have bits : ∀ value : U8, (((value &&& ~~~rxb1.flag) ||| (0x00 &&& rxb1.flag)) &&& rxb1.flag != 0) = false ∧
        (((value &&& ~~~rxb1.flag) ||| (0x00 &&& rxb1.flag)) &&& rxb0.flag != 0) = (value &&& rxb0.flag != 0) := by decide
    obtain ⟨off,kept⟩ := bits (before kRegisterCanintf)
    have off := flags1.trans off
    have kept : flagged cleared rxb0 = flagged before rxb0 := flags0.trans kept
    cases is0 : flagged before rxb0
    · simp [full,off,kept,is0]
    · simpa [full,off,kept,is0,first] using List.Perm.swap _ _ _

end books

/-! ### Receiving -/

section calls
variable {σ : Type} {spi : Spi σ} {c : Controller σ} {s s' : σ} {between : Registers}
  {taken : List Content} {accepted : List Mcp2515CanFrame}

/-- `Balanced` in a state of the controller. -/
def Controller.Books (c : Controller σ) (s : σ) (taken : List Content) (accepted : List Mcp2515CanFrame) : Prop :=
  Balanced (c.registers s) (c.arrived s) (c.sent s) taken accepted

theorem Controller.Books.goes (books : c.Books s taken accepted) (goes : c.Goes s between s') :
    Balanced between (c.arrived s') (c.sent s') taken accepted := by
  obtain ⟨stored,finished,step,arrived,sent⟩ := goes
  rw [arrived,sent]
  exact Balanced.step books step

theorem Controller.Books.read (books : c.Books s taken accepted) (laws : Obeys spi c) (address : U8) :
    c.Books (readRegister spi address s).2 taken accepted :=
  books.goes (laws.read address s).1

/-- A receive buffer holds a frame. -/
def Controller.Holds (c : Controller σ) (s : σ) (buffer : Buffer) (content : Content) : Prop :=
  flagged (c.registers s) buffer = true ∧ contentOf (c.registers s) buffer = content

variable {buffer : Buffer} {content : Content}

/-- The bus does not touch a full buffer. -/
theorem Controller.Holds.goes (holds : c.Holds s buffer content) (known : buffer ∈ [rxb0,rxb1]) (goes : c.Goes s between s') :
    flagged between buffer = true ∧ contentOf between buffer = content := by
  obtain ⟨stored,finished,step,-,-⟩ := goes
  obtain ⟨full,same⟩ := step.kept buffer known holds.1
  exact ⟨full,same.trans holds.2⟩

theorem Controller.Holds.read (holds : c.Holds s buffer content) (known : buffer ∈ [rxb0,rxb1]) (laws : Obeys spi c) (address : U8) :
    c.Holds (readRegister spi address s).2 buffer content :=
  holds.goes known (laws.read address s).1

/-- What a read finds is what the full buffer holds. -/
theorem Controller.Holds.read_value (holds : c.Holds s buffer content) (known : buffer ∈ [rxb0,rxb1]) (laws : Obeys spi c) (address : U8)
    (field : Content → U8) (stands : ∀ registers, field (contentOf registers buffer) = registers address) :
    (readRegister spi address s).1 = field content := by
  rw [(laws.read address s).2,← stands (c.registers _),(holds.read known laws address).2]

theorem contentOf_data (registers : Registers) (buffer : Buffer) {index : U8} (small : index.toNat < 8) :
    (contentOf registers buffer).data.getD index.toNat 0 = registers (buffer.dataRegister + index) := by
  simp [contentOf,small]

theorem take_set_succ {data : Bytes} {index : Nat} (inside : index < data.length) (value : U8) :
    (data.set index value).take (index + 1) = data.take index ++ [value] := by
  rw [List.take_succ_eq_append_getElem (by simpa using inside),List.take_set_of_le (le_refl _),List.getElem_set_self]

theorem readData_spec (laws : Obeys spi c) (known : buffer ∈ [rxb0,rxb1]) (full : content.data.length = 8) (remaining : Nat) (index : U8)
    (data : Bytes) (eight : data.length = 8) (inside : index.toNat + remaining ≤ 8) (s : σ) (holds : c.Holds s buffer content)
    (books : c.Books s taken accepted) :
    (readData spi buffer.dataRegister remaining index data s).1.take (index.toNat + remaining) =
        data.take index.toNat ++ (content.data.drop index.toNat).take remaining ∧
      c.Holds (readData spi buffer.dataRegister remaining index data s).2 buffer content ∧
      c.Books (readData spi buffer.dataRegister remaining index data s).2 taken accepted := by
  induction remaining generalizing index data s with
  | zero => exact ⟨by simp [readData],holds,books⟩
  | succ remaining ih =>
    have next : (index + 1).toNat = index.toNat + 1 := by
      rw [BitVec.toNat_add]
      exact Nat.mod_eq_of_lt (by change index.toNat + 1 < 256; omega)
    have value : (readRegister spi (buffer.dataRegister + index) s).1 = content.data.getD index.toNat 0 :=
      holds.read_value known laws _ (fun content => content.data.getD index.toNat 0) fun registers =>
        contentOf_data registers buffer (by omega)
    obtain ⟨bytes,holds',books'⟩ := ih (index + 1) (data.set index.toNat (readRegister spi (buffer.dataRegister + index) s).1)
      (by simpa using eight) (by omega) _ (holds.read known laws _) (books.read laws _)
    refine ⟨?_,holds',books'⟩
    have split : content.data.drop index.toNat = content.data.getD index.toNat 0 :: content.data.drop (index.toNat + 1) := by
      rw [List.drop_eq_getElem_cons (by omega),List.getD_eq_getElem]
    rw [next,take_set_succ (by omega)] at bytes
    rw [readData,split,List.take_succ_cons,← value,Nat.add_comm remaining 1,← Nat.add_assoc,bytes,
      List.append_assoc,List.singleton_append]

/-- A receive buffer is read out and its flag cleared. -/
theorem Controller.Books.take (books : c.Books s taken accepted) (laws : Obeys spi c) (known : buffer ∈ [rxb0,rxb1])
    (holds : c.Holds s buffer content) : c.Books (bitModify spi kRegisterCanintf buffer.flag 0x00 s) (taken ++ [content]) accepted := by
  obtain ⟨between,goes,after⟩ := laws.modify buffer.flag 0x00 s
  obtain ⟨full,same⟩ := holds.goes known goes
  have balanced := books.goes goes
  rw [Controller.Books,after]
  refine ⟨balanced.arrived.trans ?_,?_⟩
  · have taking := pending_clear known full
    rw [same] at taking
    simpa using taking.append_left taken
  · rw [← balanced.sent]
    congr 1
    have unloaded : kRegisterCanintf ∉ transmitRegisters := (receiveRegisters_apart _ List.mem_cons_self).2
    have control : kRegisterTxb0ctrl ≠ kRegisterCanintf := by decide
    unfold waiting requested
    rw [loadedOf_update unloaded,Function.update_of_ne control]

theorem clamp_size (dlc : U8) : (if dlc &&& 0x0F > 8 then 8 else dlc &&& 0x0F).toNat = min 8 (dlc &&& 0x0F).toNat := by
  revert dlc
  decide

/-- The bytes of a frame, once its identifier stands. -/
theorem receiveData_spec (laws : Obeys spi c) (known : buffer ∈ [rxb0,rxb1]) (full : content.data.length = 8) (frame : Mcp2515CanFrame)
    (holds : c.Holds s buffer content) (books : c.Books s taken accepted) :
    reported (receiveData spi buffer frame content.dlc s).1 =
        some (frame.identifier,content.data.take (content.dlc &&& 0x0F).toNat) ∧
      c.Books (receiveData spi buffer frame content.dlc s).2 (taken ++ [content]) accepted := by
  have size := clamp_size content.dlc
  obtain ⟨bytes,holds,books⟩ := readData_spec laws known full (if content.dlc &&& 0x0F > 8 then 8 else content.dlc &&& 0x0F).toNat 0
    frame.data frame.eight (by change 0 + _ ≤ 8; omega) s holds books
  refine ⟨?_,books.take laws known holds⟩
  have zero : (0 : U8).toNat = 0 := rfl
  rw [zero,Nat.zero_add,List.take_zero,List.nil_append,List.drop_zero] at bytes
  dsimp only [reported,receiveData]
  rw [if_pos rfl,bytes,size,Nat.min_comm,← List.take_take,List.take_of_length_le full.le]

/-- One full buffer is handed out once, as its frame reads. -/
theorem receiveFrom_spec (laws : Obeys spi c) (known : buffer ∈ [rxb0,rxb1]) (full : content.data.length = 8) (frame : Mcp2515CanFrame)
    (holds : c.Holds s buffer content) (books : c.Books s taken accepted) :
    reported (receiveFrom spi buffer frame s).1 = decode content ∧
      c.Books (receiveFrom spi buffer frame s).2 (taken ++ [content]) accepted := by
  have sidh := holds.read_value known laws buffer.identifierRegister Content.sidh fun _ => rfl
  have books := books.read laws buffer.identifierRegister
  have holds := holds.read known laws buffer.identifierRegister
  unfold receiveFrom
  generalize readRegister spi buffer.identifierRegister s = first at sidh books holds ⊢
  have sidl := holds.read_value known laws (buffer.identifierRegister + 1) Content.sidl fun _ => rfl
  have books := books.read laws (buffer.identifierRegister + 1)
  have holds := holds.read known laws (buffer.identifierRegister + 1)
  dsimp only
  generalize readRegister spi (buffer.identifierRegister + 1) first.2 = second at sidl books holds ⊢
  have dlc := holds.read_value known laws buffer.dlcRegister Content.dlc fun _ => rfl
  have books' := books.read laws buffer.dlcRegister
  have holds' := holds.read known laws buffer.dlcRegister
  generalize readRegister spi buffer.dlcRegister second.2 = third at dlc books' holds' ⊢
  rw [decode,sidh,sidl,dlc]
  by_cases extended : content.sidl &&& kExtendedIdentifier ≠ 0
  · rw [if_pos extended,if_pos extended]
    exact ⟨rfl,books.take laws known holds⟩
  rw [if_neg extended,if_neg extended]
  by_cases remote : content.dlc &&& 0x40 ≠ 0
  · rw [if_pos remote,if_pos remote]
    exact ⟨rfl,books'.take laws known holds'⟩
  rw [if_neg remote,if_neg remote]
  exact receiveData_spec laws known full _ holds' books'

theorem length_contentOf (registers : Registers) (buffer : Buffer) : (contentOf registers buffer).data.length = 8 := by simp [contentOf]

/-- A call of `receive` takes at most one stored frame, and hands out what that frame reads as. -/
theorem receive_spec (laws : Obeys spi c) (frame : Mcp2515CanFrame) (books : c.Books s taken accepted) :
    ∃ more : List Content, (reported (receive spi frame s).1).toList = more.filterMap decode ∧
      c.Books (receive spi frame s).2 (taken ++ more) accepted := by
  have value := (laws.read kRegisterCanintf s).2
  have books := books.read laws kRegisterCanintf
  unfold receive
  generalize readRegister spi kRegisterCanintf s = flags at value books ⊢
  have from_buffer {buffer : Buffer} (known : buffer ∈ [rxb0,rxb1]) (set : flags.1 &&& buffer.flag ≠ 0) :
      ∃ more : List Content, (reported (receiveFrom spi buffer frame flags.2).1).toList = more.filterMap decode ∧
        c.Books (receiveFrom spi buffer frame flags.2).2 (taken ++ more) accepted := by
    have holds : c.Holds flags.2 buffer (contentOf (c.registers flags.2) buffer) :=
      ⟨by rw [flagged,← value]; exact bne_iff_ne.mpr set,rfl⟩
    obtain ⟨same,books⟩ := receiveFrom_spec laws known (length_contentOf _ _) frame holds books
    refine ⟨[_],?_,books⟩
    rw [same,List.filterMap_cons]
    cases decode (contentOf (c.registers flags.2) buffer) <;> rfl
  dsimp only
  split_ifs with first second
  · exact from_buffer List.mem_cons_self first
  · exact from_buffer (List.mem_cons_of_mem _ List.mem_cons_self) second
  · exact ⟨[],rfl,by rwa [List.append_nil]⟩

/-! ### Transmitting -/

/-- The transmit buffer is free, and its thirteen registers stand as `contents`. -/
structure Controller.Filling (c : Controller σ) (s : σ) (contents : Nat → U8) (taken : List Content)
    (accepted : List Mcp2515CanFrame) : Prop where
  books : c.Books s taken accepted
  idle : requested (c.registers s) = false
  stands : ∀ offset < 13, c.registers s (kRegisterTxb0sidh + BitVec.ofNat 8 offset) = contents offset

variable {contents : Nat → U8} {registers : Registers}

theorem Controller.Filling.goes (filling : c.Filling s contents taken accepted) (goes : c.Goes s between s') :
    Balanced between (c.arrived s') (c.sent s') taken accepted ∧ requested between = false ∧
      ∀ offset < 13, between (kRegisterTxb0sidh + BitVec.ofNat 8 offset) = contents offset := by
  refine ⟨filling.books.goes goes,?_⟩
  obtain ⟨stored,finished,step,-,-⟩ := goes
  refine ⟨step.idle filling.idle,fun offset small => ?_⟩
  rw [step.loaded _ (mem_transmitRegisters small),filling.stands offset small]

/-- Registers that the receive side does not read may change while nothing waits to be sent. -/
theorem Balanced.update {before : Registers} {arrived : List Content} {sent : List Loaded}
    (balanced : Balanced before arrived sent taken accepted) {address : U8} (apart : address ∉ receiveRegisters) (value : U8) :
    arrived.Perm (taken ++ pending (Function.update before address value)) := by
  refine balanced.arrived.trans ?_
  rw [pending_congr fun other member => Function.update_of_ne (ne_of_mem_of_not_mem member apart) value before]

theorem transmitRegister_inj : ∀ first < 13, ∀ second < 13,
    kRegisterTxb0sidh + BitVec.ofNat 8 first = kRegisterTxb0sidh + BitVec.ofNat 8 second → first = second := by decide

theorem Balanced.waiting_free {arrived : List Content} {sent : List Loaded} (balanced : Balanced registers arrived sent taken accepted)
    (idle : requested registers = false) : sent = accepted.map encode := by
  rw [← balanced.sent,waiting,idle]
  exact (List.append_nil sent).symm

theorem Controller.Filling.write (filling : c.Filling s contents taken accepted) (laws : Obeys spi c) (offset : Nat) (small : offset < 13)
    {value : U8} (fits : value &&& implemented (kRegisterTxb0sidh + BitVec.ofNat 8 offset) = value) :
    c.Filling (writeRegister spi (kRegisterTxb0sidh + BitVec.ofNat 8 offset) value s)
      (Function.update contents offset value) taken accepted := by
  have member := mem_transmitRegisters small
  obtain ⟨between,goes,after⟩ := laws.write _ member value s
  rw [fits] at after
  obtain ⟨balanced,idle,stands⟩ := filling.goes goes
  have apart : kRegisterTxb0sidh + BitVec.ofNat 8 offset ∉ receiveRegisters := fun inside => (receiveRegisters_apart _ inside).2 member
  have control : ∀ address ∈ transmitRegisters, kRegisterTxb0ctrl ≠ address := by decide
  have still_idle : requested (c.registers (writeRegister spi (kRegisterTxb0sidh + BitVec.ofNat 8 offset) value s)) = false := by
    rw [after,requested,Function.update_of_ne (control _ member)]
    exact idle
  refine ⟨⟨?_,?_⟩,still_idle,fun other inside => ?_⟩
  · rw [after]
    exact balanced.update apart value
  · rw [waiting,still_idle,balanced.waiting_free idle]
    exact List.append_nil _
  · rw [after]
    by_cases same : other = offset
    · rw [same,Function.update_self,Function.update_self]
    · rw [Function.update_of_ne same,← stands other inside]
      exact Function.update_of_ne (fun equal => same (transmitRegister_inj other inside offset small equal)) _ _

/-- The driver writes no bit that is not there. -/
theorem implemented_whole : ∀ offset < 13, offset ≠ 1 → offset ≠ 4 →
    implemented (kRegisterTxb0sidh + BitVec.ofNat 8 offset) = BitVec.allOnes 8 := by decide

theorem implemented_identifier (identifier : U16) : ((identifier &&& 0x07) <<< 5).setWidth 8 &&&
    implemented (kRegisterTxb0sidh + BitVec.ofNat 8 1) = ((identifier &&& 0x07) <<< 5).setWidth 8 := by
  have high : ((identifier &&& 0x07) <<< 5).setWidth 8 = (identifier.setWidth 8 &&& (0x07 : U8)) <<< 5 := by
    ext bit inside
    simp
  rw [high]
  generalize identifier.setWidth 8 = byte
  revert byte
  decide

theorem implemented_size : ∀ size : U8, size ≤ 8 → size &&& implemented (kRegisterTxb0sidh + BitVec.ofNat 8 4) = size := by decide

theorem writeData_filling (laws : Obeys spi c) (data : Bytes) (remaining : Nat) (index : U8) (inside : index.toNat + remaining ≤ 8)
    (filling : c.Filling s contents taken accepted) :
    ∃ loaded, c.Filling (writeData spi data remaining index s) loaded taken accepted ∧ ∀ offset,
      loaded offset = if 5 + index.toNat ≤ offset ∧ offset < 5 + index.toNat + remaining then data.getD (offset - 5) 0
        else contents offset := by
  induction remaining generalizing index s contents with
  | zero => exact ⟨contents,filling,fun offset => by rw [if_neg (by omega)]⟩
  | succ remaining ih =>
    have next : (index + 1).toNat = index.toNat + 1 := by
      rw [BitVec.toNat_add]
      exact Nat.mod_eq_of_lt (by change index.toNat + 1 < 256; omega)
    have address : kRegisterTxb0d0 + index = kRegisterTxb0sidh + BitVec.ofNat 8 (index.toNat + 5) := by
      rw [← dataRegister_eq,BitVec.ofNat_toNat,BitVec.setWidth_eq]
    have whole := implemented_whole (index.toNat + 5) (by omega) (by omega) (by omega)
    have fits : data.getD index.toNat 0 &&& implemented (kRegisterTxb0sidh + BitVec.ofNat 8 (index.toNat + 5)) =
        data.getD index.toNat 0 := by rw [whole,BitVec.and_allOnes]
    have filling := filling.write laws (index.toNat + 5) (by omega) fits
    obtain ⟨loaded,filling,stands⟩ := ih (index + 1) (by omega) filling
    refine ⟨loaded,by rw [writeData,address]; exact filling,fun offset => ?_⟩
    rw [stands,next,Function.update_apply]
    by_cases here : offset = index.toNat + 5
    · rw [if_neg (by omega),if_pos here,if_pos (by omega),here,Nat.add_sub_cancel]
    · rw [if_neg here]
      refine if_congr (by omega) rfl rfl

/-- The transmit buffer as the writes for a frame leave it. -/
theorem loadedOf_encode {frame : Mcp2515CanFrame} (small : frame.size.toNat ≤ 8)
    (stands : ∀ offset < 13, registers (kRegisterTxb0sidh + BitVec.ofNat 8 offset) = contents offset)
    (sidh : contents 0 = (frame.identifier >>> 3).setWidth 8) (sidl : contents 1 = ((frame.identifier &&& 0x07) <<< 5).setWidth 8)
    (eid8 : contents 2 = 0) (eid0 : contents 3 = 0) (dlc : contents 4 = frame.size)
    (data : ∀ index < frame.size.toNat, contents (index + 5) = frame.data.getD index 0) : loadedOf registers = encode frame := by
  rw [loadedOf_eq stands,sidh,sidl,eid8,eid0,dlc,encode,Nat.min_eq_right small]
  congr 1
  refine List.ext_getElem (by simp [frame.eight,small]) fun index first second => ?_
  have inside : index < frame.size.toNat := by simpa using first
  rw [List.getElem_map,List.getElem_range,data index inside,List.getElem_take,List.getD_eq_getElem]

/-- The request to send makes the loaded frame the one that waits. -/
theorem Controller.Filling.send {frame : Mcp2515CanFrame} (filling : c.Filling s contents taken accepted) (laws : Obeys spi c)
    (loaded : ∀ registers : Registers, (∀ offset < 13, registers (kRegisterTxb0sidh + BitVec.ofNat 8 offset) = contents offset) →
      loadedOf registers = encode frame) : c.Books (requestToSend spi s) taken (accepted ++ [frame]) := by
  obtain ⟨between,goes,after⟩ := laws.send s
  obtain ⟨balanced,idle,stands⟩ := filling.goes goes
  have unread : kRegisterTxb0ctrl ∉ receiveRegisters := fun inside => (receiveRegisters_apart _ inside).1 rfl
  have unloaded : kRegisterTxb0ctrl ∉ transmitRegisters := by decide
  have asked : ∀ value : U8, ((value ||| kTransmitRequest) &&& kTransmitRequest != 0) = true := by decide
  refine ⟨?_,?_⟩
  · rw [after]
    exact balanced.update unread _
  · rw [after,waiting,requested,Function.update_self,asked,if_pos rfl,loadedOf_update unloaded,loaded _ stands,
      balanced.waiting_free idle,List.map_append,List.map_singleton]

/-- A frame that `transmit` takes stands in the buffer as it has to be sent; one that it refuses changes nothing. -/
theorem transmit_spec (laws : Obeys spi c) (frame : Mcp2515CanFrame) (books : c.Books s taken accepted) :
    c.Books (transmit spi frame s).2 taken (if (transmit spi frame s).1 then accepted ++ [frame] else accepted) := by
  unfold transmit
  by_cases invalid : frame.identifier > 0x07FF ∨ frame.size > 8
  · rwa [if_pos invalid]
  rw [if_neg invalid]
  have small : frame.size.toNat ≤ 8 := BitVec.not_lt.mp fun large => invalid (Or.inr large)
  have value := (laws.read kRegisterTxb0ctrl s).2
  have books := books.read laws kRegisterTxb0ctrl
  generalize readRegister spi kRegisterTxb0ctrl s = control at value books ⊢
  by_cases busy : control.1 &&& kTransmitRequest ≠ 0
  · dsimp only
    rwa [if_pos busy]
  dsimp only
  rw [if_neg busy]
  have free : requested (c.registers control.2) = false := by
    rw [requested,← value]
    exact bne_eq_false_iff_eq.mpr (not_not.mp busy)
  have start : c.Filling control.2 (fun offset => c.registers control.2 (kRegisterTxb0sidh + BitVec.ofNat 8 offset)) taken accepted :=
    ⟨books,free,fun _ _ => rfl⟩
  have high : (frame.identifier >>> 3).setWidth 8 &&& implemented (kRegisterTxb0sidh + BitVec.ofNat 8 0) =
      (frame.identifier >>> 3).setWidth 8 := by
    rw [implemented_whole 0 (by omega) (by omega) (by omega),BitVec.and_allOnes]
  have filled := ((((start.write laws 0 (by omega) high).write laws 1 (by omega) (implemented_identifier frame.identifier)).write laws 2
    (by omega) (BitVec.zero_and)).write laws 3 (by omega) (BitVec.zero_and)).write laws 4 (by omega)
      (implemented_size frame.size (BitVec.le_def.mpr small))
  obtain ⟨contents,filled,bytes⟩ := writeData_filling laws frame.data frame.size.toNat 0 (by change 0 + _ ≤ 8; omega) filled
  refine filled.send laws fun registers stands => loadedOf_encode small stands ?_ ?_ ?_ ?_ ?_ fun index inside => ?_
  any_goals rw [bytes,if_neg (by omega)]; rfl
  rw [bytes,if_pos (by change 5 + 0 ≤ _ ∧ _ < 5 + 0 + _; omega),Nat.add_sub_cancel]

end calls

/-! ### A chip on a bus -/

/-- What the bus does ahead of an instruction: it may finish a transmission, and a frame may come in. -/
structure BusTurn where
  finishes : Bool := true
  arrives : Option Content := none

/-- A controller, with what the bus does ahead of its next instructions; behind these it finishes what is to be sent. -/
structure Chip where
  registers : Registers
  sent : List Loaded
  arrived : List Content
  bus : List BusTurn

def kTransmitted : U8 := 0x04

def Chip.finish (chip : Chip) : Chip :=
  if requested chip.registers then
    { chip with
      registers := Function.update (Function.update chip.registers kRegisterTxb0ctrl 0x00) kRegisterCanintf
        (chip.registers kRegisterCanintf ||| kTransmitted)
      sent := chip.sent ++ [loadedOf chip.registers] }
  else chip

/-- The registers with a frame in a buffer. -/
def fill (buffer : Buffer) (content : Content) (registers : Registers) : Registers := fun address =>
  if address = kRegisterCanintf then registers address ||| buffer.flag
  else
    match buffer.registers.idxOf? address with
    | some index => ([content.sidh,content.sidl,content.dlc] ++ content.data).getD index 0
    | none => registers address

/-- A frame goes to the first free buffer; it is lost when there is none. -/
def Chip.hear (chip : Chip) (content : Content) : Chip :=
  match [rxb0,rxb1].find? fun buffer => !flagged chip.registers buffer with
  | none => chip
  | some buffer =>
    { chip with
      registers := fill buffer content chip.registers
      arrived := chip.arrived ++ [contentOf (fill buffer content chip.registers) buffer] }

def Chip.settle (chip : Chip) : Chip :=
  let turn := chip.bus.headD {}
  let chip := { if turn.finishes then chip.finish else chip with bus := chip.bus.tail }
  match turn.arrives with
  | none => chip
  | some content => chip.hear content

def Chip.execute (bytes : Bytes) (chip : Chip) : U8 × Chip :=
  match bytes with
  | [instruction,address,value] =>
    if instruction = kInstructionRead then (chip.registers address,chip)
    else (0,{ chip with registers := Function.update chip.registers address (value &&& implemented address) })
  | [_,address,mask,value] =>
    (0,{ chip with registers := Function.update chip.registers address ((chip.registers address &&& ~~~mask) ||| (value &&& mask)) })
  | _ =>
    (0,{ chip with
      registers := Function.update chip.registers kRegisterTxb0ctrl (chip.registers kRegisterTxb0ctrl ||| kTransmitRequest) })

def Chip.spi : Spi Chip := fun bytes chip => chip.settle.execute bytes

def Chip.controller : Controller Chip := ⟨Chip.registers,Chip.arrived,Chip.sent⟩

/-- A finished transmission does not touch the receive buffers. -/
theorem Chip.finish_kept (registers : Registers) {buffer : Buffer} (known : buffer ∈ [rxb0,rxb1]) :
    let after := Function.update (Function.update registers kRegisterTxb0ctrl 0x00) kRegisterCanintf
      (registers kRegisterCanintf ||| kTransmitted)
    flagged after buffer = flagged registers buffer ∧ contentOf after buffer = contentOf registers buffer := by
  have bits : ∀ value : U8, ((value ||| kTransmitted) &&& rxb0.flag != 0) = (value &&& rxb0.flag != 0) ∧
      ((value ||| kTransmitted) &&& rxb1.flag != 0) = (value &&& rxb1.flag != 0) := by decide
  refine ⟨?_,contentOf_congr known fun address member apart => ?_⟩
  · rw [flagged,Function.update_self,flagged]
    rcases List.mem_cons.mp known with rfl | other
    · exact (bits _).1
    · rw [List.mem_singleton.mp other]
      exact (bits _).2
  · rw [Function.update_of_ne apart,Function.update_of_ne (receiveRegisters_apart address member).1]

theorem BusStep.nothing (registers : Registers) : BusStep registers registers [] [] := by
  refine ⟨fun buffer _ full => ⟨full,rfl⟩,?_,fun address _ => rfl,fun idle => idle,?_⟩
  · simp
  · cases requested registers <;> rfl

theorem Chip.finish_step (chip : Chip) :
    BusStep chip.registers chip.finish.registers [] (if requested chip.registers then [loadedOf chip.registers] else []) := by
  unfold Chip.finish
  cases busy : requested chip.registers with
  | false => exact BusStep.nothing chip.registers
  | true =>
    have apart : ∀ address ∈ transmitRegisters, address ≠ kRegisterTxb0ctrl ∧ address ≠ kRegisterCanintf := by decide
    have done : requested (Function.update (Function.update chip.registers kRegisterTxb0ctrl 0x00) kRegisterCanintf
        (chip.registers kRegisterCanintf ||| kTransmitted)) = false := by
      rw [requested,Function.update_of_ne (by decide),Function.update_self]
      rfl
    refine ⟨fun buffer known full => ?_,?_,fun address member => ?_,fun idle => ?_,?_⟩
    · obtain ⟨flag,content⟩ := Chip.finish_kept chip.registers known
      exact ⟨flag.trans full,content⟩
    · rw [eq_comm,List.map_eq_nil_iff,List.filter_eq_nil_iff]
      intro buffer known
      rw [if_pos rfl,(Chip.finish_kept chip.registers known).1]
      cases flagged chip.registers buffer <;> decide
    · obtain ⟨control,flags⟩ := apart address member
      rw [if_pos rfl]
      exact (Function.update_of_ne flags _ _).trans (Function.update_of_ne control _ _)
    · exact done
    · rw [busy,if_pos rfl,if_pos rfl,done]
      rfl

theorem fill_of_not_mem {buffer : Buffer} {address : U8} (apart : address ∉ buffer.registers) (other : address ≠ kRegisterCanintf)
    (content : Content) (registers : Registers) : fill buffer content registers address = registers address := by
  rw [fill,if_neg other,List.idxOf?_eq_none_iff.mpr apart]

/-- A frame in one buffer leaves the other one as it is. -/
theorem flagged_fill (buffer other : Buffer) (content : Content) (registers : Registers) :
    flagged (fill buffer content registers) other = ((registers kRegisterCanintf ||| buffer.flag) &&& other.flag != 0) := by
  rw [flagged,fill,if_pos rfl]

theorem fill_step {registers : Registers} {buffer : Buffer} (free : buffer = rxb0 ∧ flagged registers rxb0 = false ∨
    buffer = rxb1 ∧ flagged registers rxb0 = true ∧ flagged registers rxb1 = false) (content : Content) :
    BusStep registers (fill buffer content registers) [contentOf (fill buffer content registers) buffer] [] := by
  have known : buffer ∈ [rxb0,rxb1] := by
    rcases free with ⟨rfl,-⟩ | ⟨rfl,-,-⟩
    · exact List.mem_cons_self
    · exact List.mem_cons_of_mem _ List.mem_cons_self
  have apart (address : U8) (outside : address ∉ receiveRegisters) : fill buffer content registers address = registers address :=
    fill_of_not_mem (fun inside => outside (List.mem_cons_of_mem _ (List.mem_flatMap.mpr ⟨buffer,known,inside⟩)))
      (fun same => outside (same ▸ List.mem_cons_self)) content registers
  have same_request : requested (fill buffer content registers) = requested registers := by
    rw [requested,apart _ fun inside => (receiveRegisters_apart _ inside).1 rfl,requested]
  have bits : ∀ value : U8, ((value ||| rxb0.flag) &&& rxb0.flag != 0) = true ∧
      ((value ||| rxb0.flag) &&& rxb1.flag != 0) = (value &&& rxb1.flag != 0) ∧
      ((value ||| rxb1.flag) &&& rxb0.flag != 0) = (value &&& rxb0.flag != 0) ∧
      ((value ||| rxb1.flag) &&& rxb1.flag != 0) = true := by decide
  obtain ⟨first,second,third,fourth⟩ := bits (registers kRegisterCanintf)
  have disjoint : (∀ address ∈ rxb1.registers, address ∉ rxb0.registers ∧ address ≠ kRegisterCanintf) ∧
      ∀ address ∈ rxb0.registers, address ∉ rxb1.registers ∧ address ≠ kRegisterCanintf := by decide
  refine ⟨fun other member full => ?_,?_,fun address member => ?_,fun idle => same_request.trans idle,?_⟩
  · rw [flagged_fill]
    rcases free with ⟨rfl,empty⟩ | ⟨rfl,-,empty⟩
    · rcases List.mem_cons.mp member with rfl | rest
      · rw [empty] at full
        cases full
      · rw [List.mem_singleton.mp rest] at full ⊢
        exact ⟨second.trans full,contentOf_same fun address inside =>
          fill_of_not_mem (disjoint.1 address inside).1 (disjoint.1 address inside).2 content registers⟩
    · rcases List.mem_cons.mp member with rfl | rest
      · exact ⟨third.trans full,contentOf_same fun address inside =>
          fill_of_not_mem (disjoint.2 address inside).1 (disjoint.2 address inside).2 content registers⟩
      · rw [List.mem_singleton.mp rest,empty] at full
        cases full
  · simp only [List.filter_cons,flagged_fill,List.filter_nil]
    rcases free with ⟨rfl,empty⟩ | ⟨rfl,full,empty⟩
    · have same : flagged registers rxb1 = (registers kRegisterCanintf &&& rxb1.flag != 0) := rfl
      rw [first,second,empty,← same]
      cases flagged registers rxb1 <;> rfl
    · have same : flagged registers rxb0 = (registers kRegisterCanintf &&& rxb0.flag != 0) := rfl
      rw [third,fourth,empty,← same,full]
      rfl
  · exact apart address fun inside => (receiveRegisters_apart address inside).2 member
  · rw [same_request]
    cases requested registers <;> rfl

/-- A transmission that ends and a frame that comes in behind it are one step of the bus. -/
theorem BusStep.behind {before between after : Registers} {stored : List Content} {finished : List Loaded}
    (first : BusStep before between [] finished) (second : BusStep between after stored []) : BusStep before after stored finished := by
  have flags : ∀ buffer ∈ [rxb0,rxb1], flagged between buffer = flagged before buffer := by
    intro buffer known
    have none := first.stored_eq
    rw [eq_comm,List.map_eq_nil_iff,List.filter_eq_nil_iff] at none
    have fresh := none buffer known
    cases was : flagged before buffer with
    | true => exact (first.kept buffer known was).1
    | false => simpa [was] using fresh
  have requests : finished = if requested before && !requested after then [loadedOf before] else [] := by
    have still := second.finished_eq
    rw [first.finished_eq]
    cases was : requested before with
    | false => rfl
    | true =>
      cases now : requested between with
      | false => rw [second.idle now]
      | true =>
        cases later : requested after with
        | true => rfl
        | false =>
          rw [now,later] at still
          cases still
  refine ⟨fun buffer known full => ?_,?_,fun address member => ?_,fun idle => second.idle (first.idle idle),requests⟩
  · obtain ⟨flag,content⟩ := first.kept buffer known full
    obtain ⟨flag,later⟩ := second.kept buffer known flag
    exact ⟨flag,later.trans content⟩
  · rw [second.stored_eq,List.filter_congr fun buffer known => by rw [flags buffer known]]
  · exact (second.loaded address member).trans (first.loaded address member)

theorem Chip.settle_step (chip : Chip) : ∃ stored finished, BusStep chip.registers chip.settle.registers stored finished ∧
    chip.settle.arrived = chip.arrived ++ stored ∧ chip.settle.sent = chip.sent ++ finished := by
  generalize turnIs : chip.bus.headD {} = turn
  obtain ⟨between,betweenIs⟩ : ∃ between : Chip, between = { if turn.finishes then chip.finish else chip with bus := chip.bus.tail } :=
    ⟨_,rfl⟩
  obtain ⟨finished,first,arrived,sent⟩ : ∃ finished, BusStep chip.registers between.registers [] finished ∧
      between.arrived = chip.arrived ∧ between.sent = chip.sent ++ finished := by
    rw [betweenIs]
    cases turn.finishes with
    | true =>
      refine ⟨_,chip.finish_step,?_,?_⟩
      · simp only [if_true,Chip.finish]
        split_ifs <;> rfl
      · simp only [if_true,Chip.finish]
        split_ifs
        · rfl
        · exact (List.append_nil _).symm
    | false => exact ⟨[],BusStep.nothing _,rfl,(List.append_nil _).symm⟩
  rw [Chip.settle,turnIs]
  dsimp only
  rw [← betweenIs]
  cases turn.arrives with
  | none => exact ⟨[],finished,first,arrived.trans (List.append_nil _).symm,sent⟩
  | some content =>
    dsimp only [Chip.hear]
    split
    · exact ⟨[],finished,first,arrived.trans (List.append_nil _).symm,sent⟩
    · rename_i buffer found
      refine ⟨_,finished,first.behind (fill_step ?_ content),congrArg (· ++ _) arrived,sent⟩
      rw [List.find?_cons,List.find?_cons,List.find?_nil] at found
      cases full : flagged between.registers rxb0 with
      | false =>
        rw [full] at found
        exact .inl ⟨(Option.some.inj found).symm,rfl⟩
      | true =>
        rw [full] at found
        cases other : flagged between.registers rxb1 with
        | false =>
          rw [other] at found
          exact .inr ⟨(Option.some.inj found).symm,rfl,rfl⟩
        | true =>
          rw [other] at found
          cases found

theorem Chip.settle_goes (chip chip' : Chip) (sent : chip'.sent = chip.settle.sent) (arrived : chip'.arrived = chip.settle.arrived) :
    Chip.controller.Goes chip chip.settle.registers chip' := by
  obtain ⟨stored,finished,step,more,gone⟩ := chip.settle_step
  exact ⟨stored,finished,step,arrived.trans more,sent.trans gone⟩

theorem Chip.obeys : Obeys Chip.spi Chip.controller where
  read _ chip := ⟨chip.settle_goes _ rfl rfl,rfl⟩
  write _ _ _ chip := ⟨chip.settle.registers,chip.settle_goes _ rfl rfl,rfl⟩
  modify _ _ chip := ⟨chip.settle.registers,chip.settle_goes _ rfl rfl,rfl⟩
  send chip := ⟨chip.settle.registers,chip.settle_goes _ rfl rfl,rfl⟩

/-- Two bytes under identifier `0x123`. -/
def greeting : Mcp2515CanFrame := ⟨0x123,2,[0xAB,0xCD,0,0,0,0,0,0],rfl⟩

/-- `greeting` as a controller stores it. -/
def heardGreeting : Content := ⟨0x24,0x60,0x02,[0xAB,0xCD,0,0,0,0,0,0]⟩

def silent : Chip := ⟨fun _ => 0,[],[],[]⟩

/-- A chip with `greeting` in its first buffer. -/
def greeted : Chip := silent.hear heardGreeting

/-- A chip that hears `greeting` once more, behind the next sixteen instructions, and sends nothing before. -/
def answered : Chip := { greeted with bus := List.replicate 16 { finishes := false } ++ [{ arrives := some heardGreeting }] }

theorem silent_books : Chip.controller.Books silent [] [] := ⟨List.Perm.of_eq (by decide),by decide⟩

theorem greeted_books : Chip.controller.Books greeted [] [] := ⟨List.Perm.of_eq (by decide),by decide⟩

theorem answered_books : Chip.controller.Books answered [] [] := ⟨List.Perm.of_eq (by decide),by decide⟩

/-! ### Any order of calls -/

inductive Call where
  | transmit (frame : Mcp2515CanFrame)
  | receive (frame : Mcp2515CanFrame)

/-- The controller, the frames that `transmit` took, and what `receive` handed out. -/
structure Trace (σ : Type) where
  state : σ
  accepted : List Mcp2515CanFrame
  received : List (U16 × Bytes)

def Call.run {σ : Type} (spi : Spi σ) (trace : Trace σ) : Call → Trace σ
  | .transmit frame =>
    let queued := CanDriver.transmit spi frame trace.state
    { trace with state := queued.2, accepted := if queued.1 then trace.accepted ++ [frame] else trace.accepted }
  | .receive frame =>
    let polled := CanDriver.receive spi frame trace.state
    { trace with state := polled.2, received := trace.received ++ (reported polled.1).toList }

def runCalls {σ : Type} (spi : Spi σ) (calls : List Call) (s : σ) : Trace σ := calls.foldl (Call.run spi) ⟨s,[],[]⟩

/-- `transmit` takes standard frames only. -/
def Valid (frame : Mcp2515CanFrame) : Prop := frame.identifier ≤ 0x07FF ∧ frame.size ≤ 8

section runs
variable {σ : Type} {spi : Spi σ} {c : Controller σ}

theorem transmit_valid {frame : Mcp2515CanFrame} {s : σ} (queued : (transmit spi frame s).1 = true) : Valid frame := by
  by_cases invalid : frame.identifier > 0x07FF ∨ frame.size > 8
  · rw [transmit,if_pos invalid] at queued
    cases queued
  · obtain ⟨identifier,size⟩ := not_or.mp invalid
    exact ⟨BitVec.not_lt.mp identifier,BitVec.not_lt.mp size⟩

/-- The books of a run: what was handed out is what the taken frames read as, and only standard frames were accepted. -/
structure Kept (c : Controller σ) (trace : Trace σ) (taken : List Content) : Prop where
  books : c.Books trace.state taken trace.accepted
  received : trace.received = taken.filterMap decode
  valid : ∀ frame ∈ trace.accepted, Valid frame

theorem Kept.call (laws : Obeys spi c) {trace : Trace σ} {taken : List Content} (kept : Kept c trace taken) (call : Call) :
    ∃ taken, Kept c (call.run spi trace) taken := by
  cases call with
  | transmit frame =>
    refine ⟨taken,transmit_spec laws frame kept.books,kept.received,fun other member => ?_⟩
    dsimp only [Call.run] at member
    split_ifs at member with queued
    · rcases List.mem_append.mp member with old | new
      · exact kept.valid other old
      · rw [List.mem_singleton.mp new]
        exact transmit_valid queued
    · exact kept.valid other member
  | receive frame =>
    obtain ⟨more,read,books⟩ := receive_spec laws frame kept.books
    refine ⟨taken ++ more,books,?_,kept.valid⟩
    rw [List.filterMap_append,← kept.received,← read]
    rfl

theorem Kept.run (laws : Obeys spi c) {s : σ} (start : c.Books s [] []) (calls : List Call) :
    ∃ taken, Kept c (runCalls spi calls s) taken := by
  induction calls using List.reverseRecOn with
  | nil => exact ⟨[],start,rfl,fun _ member => absurd member List.not_mem_nil⟩
  | append_singleton calls call ih =>
    obtain ⟨taken,kept⟩ := ih
    rw [runCalls,List.foldl_append]
    exact kept.call laws call

/-- In any order of calls, and whatever the bus does between the instructions, every frame that the controller stored
is handed out at most once and stays in its buffer until then, and the frames that `transmit` took leave in their order,
each once and as they were. -/
theorem driver_exactly_once (laws : Obeys spi c) {s : σ} (start : c.Books s [] []) (calls : List Call) :
    ∃ taken, (c.arrived (runCalls spi calls s).state).Perm (taken ++ pending (c.registers (runCalls spi calls s).state)) ∧
      (runCalls spi calls s).received = taken.filterMap decode ∧
      c.sent (runCalls spi calls s).state ++ waiting (c.registers (runCalls spi calls s).state) =
        (runCalls spi calls s).accepted.map encode := by
  obtain ⟨taken,kept⟩ := Kept.run laws start calls
  exact ⟨taken,kept.books.arrived,kept.received,kept.books.sent⟩

end runs

/-- A frame is taken and one goes out; ahead of the next call the answer comes in. -/
def exchanged : Trace Chip := runCalls Chip.spi [.receive .init,.transmit greeting,.receive .init,.receive .init] answered

theorem greeted_takes_once : exchanged.received = [(0x123,[0xAB,0xCD]),(0x123,[0xAB,0xCD])] ∧ exchanged.state.sent = [encode greeting] ∧
    ∃ taken, exchanged.state.arrived.Perm (taken ++ pending exchanged.state.registers) ∧
      exchanged.received = taken.filterMap decode ∧
      exchanged.state.sent ++ waiting exchanged.state.registers = exchanged.accepted.map encode := by
  refine ⟨by decide,by decide,?_⟩
  exact driver_exactly_once Chip.obeys answered_books [.receive .init,.transmit greeting,.receive .init,.receive .init]

/-! ### Two drivers on a bus -/

/-- A frame from a transmit buffer as another controller stores it: identifier, length and data are the same. -/
def Carried (loaded : Loaded) (content : Content) : Prop :=
  content.sidh = loaded.sidh ∧ content.sidl &&& 0xE8 = loaded.sidl &&& 0xE8 ∧ content.dlc &&& 0x4F = loaded.dlc &&& 0x4F ∧
    content.data.take loaded.dlc.toNat = loaded.data

/-- What a frame says. -/
def Mcp2515CanFrame.value (frame : Mcp2515CanFrame) : U16 × Bytes := (frame.identifier,frame.data.take frame.size.toNat)

theorem identifier_bits : ∀ identifier < 2048,
    (((BitVec.ofNat 16 identifier >>> 3).setWidth 8).setWidth 16 <<< 3) |||
        (((((BitVec.ofNat 16 identifier &&& 0x07) <<< 5).setWidth 8 : U8) &&& 0xE8) >>> 5).setWidth 16 = BitVec.ofNat 16 identifier ∧
      ((((BitVec.ofNat 16 identifier &&& 0x07) <<< 5).setWidth 8 : U8) &&& 0xE8) &&& kExtendedIdentifier = 0 := by decide +kernel

theorem sidl_bits : ∀ sidl : U8, sidl.setWidth 16 >>> 5 = ((sidl &&& 0xE8) >>> 5).setWidth 16 ∧
    sidl &&& kExtendedIdentifier = (sidl &&& 0xE8) &&& kExtendedIdentifier := by decide

theorem dlc_bits : ∀ dlc : U8, dlc &&& 0x40 = (dlc &&& 0x4F) &&& 0x40 ∧ dlc &&& 0x0F = (dlc &&& 0x4F) &&& 0x0F := by decide

theorem size_bits : ∀ size : U8, size ≤ 8 → (size &&& 0x4F) &&& 0x40 = 0 ∧ (size &&& 0x4F) &&& 0x0F = size := by decide

theorem decode_carried {frame : Mcp2515CanFrame} (valid : Valid frame) {content : Content} (carried : Carried (encode frame) content) :
    decode content = some frame.value := by
  obtain ⟨sidh,sidl,dlc,data⟩ := carried
  obtain ⟨shifted,extended⟩ := sidl_bits content.sidl
  obtain ⟨remote,size⟩ := dlc_bits content.dlc
  obtain ⟨not_remote,same⟩ := size_bits frame.size valid.2
  rw [sidl] at shifted extended
  rw [dlc] at remote size
  have bits := identifier_bits frame.identifier.toNat (Nat.lt_succ_of_le valid.1)
  rw [BitVec.ofNat_toNat,BitVec.setWidth_eq] at bits
  obtain ⟨identifier,standard⟩ := bits
  rw [decode,if_neg (not_not.mpr (extended.trans standard)),if_neg (not_not.mpr (remote.trans not_remote)),size.trans same,shifted,sidh]
  exact congrArg₂ (fun identifier data => some (identifier,data)) identifier data

theorem decode_all {frames : List Mcp2515CanFrame} {contents : List Content} (valid : ∀ frame ∈ frames, Valid frame)
    (carried : List.Forall₂ Carried (frames.map encode) contents) : contents.filterMap decode = frames.map Mcp2515CanFrame.value := by
  induction frames generalizing contents with
  | nil =>
    cases carried
    rfl
  | cons frame frames ih =>
    cases carried with
    | cons first rest =>
      rw [List.filterMap_cons,decode_carried (valid frame List.mem_cons_self) first,
        ih (fun other member => valid other (List.mem_cons_of_mem _ member)) rest]
      rfl

/-- Between two drivers: when a controller stores some of the frames that the other one sent, what its driver hands out
and what still waits are, in some order, exactly such frames as the sending driver accepted. -/
theorem bus_keeps_frames {σ₁ σ₂ : Type} {spi₁ : Spi σ₁} {spi₂ : Spi σ₂} {c₁ : Controller σ₁} {c₂ : Controller σ₂}
    (laws₁ : Obeys spi₁ c₁) (laws₂ : Obeys spi₂ c₂) {s₁ : σ₁} {s₂ : σ₂} (start₁ : c₁.Books s₁ [] [])
    (start₂ : c₂.Books s₂ [] []) (calls₁ calls₂ : List Call) {heard : List Loaded}
    (some_sent : heard.Sublist (c₁.sent (runCalls spi₁ calls₁ s₁).state))
    (carried : List.Forall₂ Carried heard (c₂.arrived (runCalls spi₂ calls₂ s₂).state)) :
    ∃ kept : List Mcp2515CanFrame, kept.Sublist (runCalls spi₁ calls₁ s₁).accepted ∧
      ((runCalls spi₂ calls₂ s₂).received ++ (pending (c₂.registers (runCalls spi₂ calls₂ s₂).state)).filterMap decode).Perm
        (kept.map Mcp2515CanFrame.value) := by
  obtain ⟨_,sender⟩ := Kept.run laws₁ start₁ calls₁
  obtain ⟨taken,receiver⟩ := Kept.run laws₂ start₂ calls₂
  have prefixed : heard.Sublist ((runCalls spi₁ calls₁ s₁).accepted.map encode) := by
    rw [← sender.books.sent]
    exact some_sent.trans (List.sublist_append_left _ _)
  obtain ⟨kept,sub,rfl⟩ := List.sublist_map_iff.mp prefixed
  refine ⟨kept,sub,?_⟩
  rw [receiver.received,← List.filterMap_append,← decode_all (fun frame member => sender.valid frame (sub.subset member)) carried]
  exact (receiver.books.arrived.filterMap decode).symm

theorem greeting_carried : Carried (encode greeting) (contentOf greeted.registers rxb0) := by
  unfold Carried
  decide

theorem greeting_crosses : ∃ kept : List Mcp2515CanFrame,
    kept.Sublist (runCalls Chip.spi [.transmit greeting,.receive .init] silent).accepted ∧
      ((runCalls Chip.spi [.receive .init,.receive .init] greeted).received ++
        (pending (runCalls Chip.spi [.receive .init,.receive .init] greeted).state.registers).filterMap decode).Perm
          (kept.map Mcp2515CanFrame.value) := by
  have sent : [encode greeting].Sublist (runCalls Chip.spi [.transmit greeting,.receive .init] silent).state.sent := by decide
  have arrived : (runCalls Chip.spi [.receive .init,.receive .init] greeted).state.arrived = [contentOf greeted.registers rxb0] := by
    decide
  refine bus_keeps_frames Chip.obeys Chip.obeys silent_books greeted_books [.transmit greeting,.receive .init]
    [.receive .init,.receive .init] sent ?_
  change List.Forall₂ Carried _ (runCalls Chip.spi [.receive .init,.receive .init] greeted).state.arrived
  rw [arrived]
  exact .cons greeting_carried .nil

end WireSpaces.CanDriver
