import WireSpaces.DemoBoard

/-!
The LED ramp tool against the demonstration board: eleven brightness steps, each sent
again and again until its response comes back. The line to the board may lose requests
and the line back may lose, repeat or reorder what the board ever sent; still the LED
never dims, and stands at the acknowledged level or at the one asked for now.
-/
namespace WireSpaces.LedRamp
open WireSpaces.Codec WireSpaces.Packet WireSpaces.EndpointQueue WireSpaces.Services WireSpaces.DemoBoard
open WireSpaces.UartLink (WireSpacesPacket hostView)
open WireSpaces.HostReceiver (packB)
open WireSpaces.Dispatch (offers)

/-! ### The tool -/

def ledEndpoint : Nat := 0xFFFB
def normalSimpleControl : Nat := 0x80

/-- The request of `set_brightness`; `none` is the error of `struct.pack`. -/
def request (brightness sequence : Nat) : Option WireSpacesPacket := do
  let brightness ← packB brightness
  let sequence ← packB sequence
  return ⟨normalSimpleControl,1,2,1,ledEndpoint,[kLedMagic,kRequest,brightness,sequence]⟩

/-- A packet that `set_brightness` returns on. -/
def acknowledges (brightness sequence : Nat) (packet : WireSpacesPacket) : Bool :=
  packet.endpoint == ledEndpoint && packet.payload.length == 4 && packet.sourceHost == 1 && packet.destinationHost == 2 &&
    packet.payload.getD 0 0 == kLedMagic && packet.payload.getD 1 0 == kResponse &&
    (packet.payload.getD 2 0).toNat == brightness && (packet.payload.getD 3 0).toNat == sequence

def stepCount : Nat := 11

def brightness (step : Nat) : Nat := (step * 255 + 5) / 10

/-- `main`: the step it is at, and whether one ran out of time. -/
structure Tool where
  step : Nat := 0
  failed : Bool := false
  deriving Repr, DecidableEq

def Tool.running (tool : Tool) : Bool := !tool.failed && decide (tool.step < stepCount)

/-- The bytes that `set_brightness` writes whenever its next send is due, as a packet. -/
def Tool.write (tool : Tool) : List WireSpacesPacket :=
  if tool.running then (request (brightness tool.step) tool.step).toList else []

/-- The frames of one read; behind a matching one the rest is left. -/
def Tool.hear (tool : Tool) (packets : List WireSpacesPacket) : Tool :=
  if tool.running && packets.any (acknowledges (brightness tool.step) tool.step) then { tool with step := tool.step + 1 } else tool

/-- The deadline of a step. -/
def Tool.timeOut (tool : Tool) : Tool := if tool.running then { tool with failed := true } else tool

/-! ### The tool and the board -/

/-- The requests on their way, everything that the board ever sent, and the levels that the LED was set to. -/
structure System where
  tool : Tool := {}
  toBoard : List WireSpacesPacket := []
  board : DemoApplication
  sent : List WireSpacesPacket := []
  lit : List U8 := []

inductive Action where
  | write
  | lose (index : Nat)
  | board (heard : List PacketBuffer) (nowMs sendMs : U32)
  | hear (packets : List WireSpacesPacket)
  | timeOut

def packetOf : Output → Option WireSpacesPacket
  | .brightness _ => none
  | .packet packet => some (hostView packet)

def levelOf : Output → Option U8
  | .brightness level => some level
  | .packet _ => none

def perform (system : System) : Action → System
  | .write => { system with toBoard := system.toBoard ++ system.tool.write }
  | .lose index => { system with toBoard := system.toBoard.eraseIdx index }
  | .board heard nowMs sendMs =>
    let ran := runOnPackets heard nowMs sendMs system.board
    { system with
      toBoard := system.toBoard.drop heard.length
      board := ran.1
      sent := system.sent ++ ran.2.filterMap packetOf
      lit := system.lit ++ ran.2.filterMap levelOf }
  | .hear packets => { system with tool := system.tool.hear packets }
  | .timeOut => { system with tool := system.tool.timeOut }

/-- The board hears the oldest requests, and the tool anything that the board sent. -/
def permitted (system : System) : Action → Bool
  | .board heard _ _ => heard.map hostView == system.toBoard.take heard.length
  | .hear packets => packets.all system.sent.contains
  | _ => true

def permittedAll : System → List Action → Bool
  | _, [] => true
  | system, action :: rest => permitted system action && permittedAll (perform system action) rest

def performAll (system : System) (actions : List Action) : System := actions.foldl perform system

def start (destination : HostId) : System := { board := construct destination }

/-! ### Requests and responses -/

/-- The level of a step as the board gets it. -/
def level (step : Nat) : U8 := BitVec.ofNat 8 (brightness step)

def command (step : Nat) : WireSpacesPacket :=
  ⟨normalSimpleControl,1,2,1,ledEndpoint,[kLedMagic,kRequest,level step,BitVec.ofNat 8 step]⟩

theorem brightness_mono {step later : Nat} (le : step ≤ later) : brightness step ≤ brightness later := by
  unfold brightness
  omega

theorem brightness_fits {step : Nat} (few : step < stepCount) : brightness step < 256 ∧ step < 256 := by
  unfold brightness stepCount at *
  omega

theorem level_toNat {step : Nat} (few : step < stepCount) : (level step).toNat = brightness step :=
  BitVec.toNat_ofNat .. ▸ Nat.mod_eq_of_lt (brightness_fits few).1

theorem request_step {step : Nat} (few : step < stepCount) : request (brightness step) step = some (command step) := by
  obtain ⟨bright,small⟩ := brightness_fits few
  have packed {value : Nat} (fits : value < 256) : packB value = some (BitVec.ofNat 8 value) := by
    have exact := HostReceiver.packB_toNat (BitVec.ofNat 8 value)
    rwa [BitVec.toNat_ofNat,Nat.mod_eq_of_lt fits] at exact
  unfold request
  rw [packed bright,packed small]
  rfl

section requests
variable {packet : PacketBuffer} {step : Nat}

/-- What the board reads off a packet that the tool sent. -/
theorem command_contents (same : hostView packet = command step) :
    packet.header = ⟨0x80,⟨1⟩,⟨2⟩,⟨1⟩,⟨0xFFFB⟩⟩ ∧ packet.payload = [kLedMagic,kRequest,level step,BitVec.ofNat 8 step] ∧
      packet.size = 4 := by
  obtain ⟨control,wire,source,destination,endpoint,payload⟩ := WireSpacesPacket.mk.injEq .. ▸ same
  have size := packet.payload_length
  rw [payload] at size
  refine ⟨?_,payload,size.symm⟩
  have byte {value : U8} {number : U8} (equal : value.toNat = number.toNat) : value = number := BitVec.eq_of_toNat_eq equal
  generalize packet.header = header at *
  obtain ⟨c,⟨w⟩,⟨s⟩,⟨d⟩,⟨e⟩⟩ := header
  obtain rfl : c = 0x80 := byte control
  obtain rfl : w = 1 := byte wire
  obtain rfl : s = 2 := byte source
  obtain rfl : d = 1 := byte destination
  obtain rfl : e = 0xFFFB := BitVec.eq_of_toNat_eq endpoint
  rfl

/-- Such a packet is for the LED service, which obeys and answers it. -/
theorem command_answered (same : hostView packet = command step) :
    addressed kPingEndpoint packet = false ∧ addressed kLedControlEndpoint packet = true ∧
      ledOutputs packet = [.brightness (level step),.packet (ledResponse packet.header (level step) (BitVec.ofNat 8 step))] := by
  obtain ⟨header,payload,size⟩ := command_contents same
  have requested : isRequest kLedMagic packet = true := by
    unfold isRequest
    rw [header,payload,size]
    rfl
  refine ⟨?_,?_,?_⟩
  · unfold addressed
    rw [header]
    rfl
  · unfold addressed offers
    rw [header,size]
    rfl
  · unfold ledOutputs
    rw [requested,if_pos rfl,payload]
    rfl

end requests

/-- The response to a step acknowledges that step and no other. -/
theorem response_acknowledges {header : Header} {step other : Nat} (few : step < stepCount)
    (acknowledged : acknowledges (brightness other) other (hostView (ledResponse header (level step) (BitVec.ofNat 8 step))) = true) :
    other = step := by
  have payload : (hostView (ledResponse header (level step) (BitVec.ofNat 8 step))).payload =
      [kLedMagic,kResponse,level step,BitVec.ofNat 8 step] :=
    congrArg Message.payload (ledResponse_message header (level step) (BitVec.ofNat 8 step))
  unfold acknowledges at acknowledged
  rw [payload] at acknowledged
  simp only [Bool.and_eq_true,beq_iff_eq] at acknowledged
  have sequence : (BitVec.ofNat 8 step).toNat = other := acknowledged.2
  rw [BitVec.toNat_ofNat,Nat.mod_eq_of_lt (brightness_fits few).2] at sequence
  exact sequence.symm

/-- A packet of the board's own leaves as it is or not at all. -/
theorem carryOut_own {packet : PacketBuffer} {output : Output} (member : output ∈ carryOut (.forward packet)) : output = .packet packet := by
  have own (selected : Router.InterfaceSet) : (forwarder packet selected).2 ⊆ [packet] := by
    unfold forwarder
    dsimp only
    split_ifs <;> simp
  obtain ⟨out,found,rfl⟩ := List.mem_map.mp member
  refine congrArg Output.packet (List.mem_singleton.mp ?_)
  unfold Router.forward at found
  dsimp only at found
  split_ifs at found
  · cases found
  · split at found
    · cases found
    · split_ifs at found
      · cases found
      · cases found
      · exact own _ found

/-- The heartbeat sets no LED and acknowledges nothing. -/
theorem heartbeat_silent {nowMs sendMs : U32} {publisher : Publisher} {output : Output}
    (member : output ∈ (runHeartbeat 1000 nowMs sendMs publisher).2.flatMap carryOut) :
    ∃ packet, output = .packet packet ∧ ∀ bright sequence, acknowledges bright sequence (hostView packet) = false := by
  obtain ⟨event,made,out⟩ := List.mem_flatMap.mp member
  unfold runHeartbeat at made
  split_ifs at made
  · obtain rfl := List.mem_singleton.mp made
    refine ⟨_,carryOut_own out,fun bright sequence => ?_⟩
    unfold acknowledges
    rfl
  · cases made

/-! ### A turn of the board -/

section turn
variable {system : System} {heard : List PacketBuffer} {steps : List Nat}

/-- The steps of the requests a board hears: it obeys the first two, and passes over the rest. -/
theorem answers_commands (same : heard.map hostView = steps.map command) :
    (answers heard).filterMap levelOf = (steps.take 2).map level ∧
      ∀ packet ∈ (answers heard).filterMap packetOf, ∃ request : PacketBuffer, ∃ step ∈ steps.take 2, hostView request = command step ∧
        packet = hostView (ledResponse request.header (level step) (BitVec.ofNat 8 step)) := by
  have each : ∀ packet ∈ heard, ∃ step ∈ steps, hostView packet = command step := by
    intro packet member
    have found : hostView packet ∈ steps.map command := same ▸ List.mem_map_of_mem member
    obtain ⟨step,known,equal⟩ := List.mem_map.mp found
    exact ⟨step,known,equal.symm⟩
  have pings : served kPingEndpoint heard = [] := by
    have none : heard.filter (addressed kPingEndpoint) = [] := List.filter_eq_nil_iff.mpr fun packet member => by
      obtain ⟨step,-,equal⟩ := each packet member
      rw [(command_answered equal).1]
      exact Bool.false_ne_true
    rw [served,none]
    rfl
  have leds : served kLedControlEndpoint heard = heard.take 2 := by
    have all : heard.filter (addressed kLedControlEndpoint) = heard := List.filter_eq_self.mpr fun packet member => by
      obtain ⟨step,-,equal⟩ := each packet member
      exact (command_answered equal).2.1
    rw [served,all]
  have pairs : (heard.take 2).map hostView = (steps.take 2).map command := by
    rw [List.map_take,List.map_take,same]
  rw [answers,pings,leds,List.flatMap_nil,List.nil_append]
  generalize heard.take 2 = obeyed at pairs
  generalize steps.take 2 = asked at pairs
  clear each pings leds same
  induction obeyed generalizing asked with
  | nil =>
    obtain rfl : asked = [] := List.map_eq_nil_iff.mp pairs.symm
    refine ⟨rfl,fun packet member => ?_⟩
    cases member
  | cons packet obeyed ih =>
    cases asked with
    | nil => cases pairs
    | cons step asked =>
      obtain ⟨here,later⟩ := List.cons.inj pairs
      obtain ⟨levels,responses⟩ := ih asked later
      have outputs := (command_answered here).2.2
      rw [List.flatMap_cons,outputs]
      refine ⟨?_,?_⟩
      · rw [List.filterMap_append,levels]
        rfl
      · intro out member
        rw [List.filterMap_append,List.mem_append] at member
        rcases member with own | other
        · simp only [packetOf,List.filterMap_cons,List.filterMap_nil,List.mem_singleton] at own
          exact ⟨packet,step,List.mem_cons_self,here,own⟩
        · obtain ⟨request,step,known,found⟩ := responses out other
          exact ⟨request,step,List.mem_cons_of_mem _ known,found⟩

end turn

/-! ### What a run keeps -/

/-- The requests under way and those obeyed belong to steps in order; what the board sent acknowledges obeyed steps only, and the
    tool has gone past no other. -/
structure Ramped (system : System) (obeyed asked : List Nat) : Prop where
  toBoard : system.toBoard = asked.map command
  lit : system.lit = obeyed.map level
  ordered : (obeyed ++ asked).Pairwise (· ≤ ·)
  reached : ∀ step ∈ obeyed ++ asked, step ≤ system.tool.step ∧ step < stepCount
  answered : ∀ packet ∈ system.sent, ∀ step < stepCount, acknowledges (brightness step) step packet = true → step ∈ obeyed
  passed : ∀ step < system.tool.step, step ∈ obeyed
  bounded : system.tool.step ≤ stepCount
  idle : Queued system.board []

section steps
variable {system : System} {obeyed asked : List Nat}

theorem Tool.running_iff {tool : Tool} : tool.running = true ↔ tool.failed = false ∧ tool.step < stepCount := by
  simp [Tool.running]

theorem Ramped.write (ramped : Ramped system obeyed asked) : ∃ asked, Ramped (perform system .write) obeyed asked := by
  cases running : system.tool.running with
  | false =>
    have silent : perform system .write = system := by
      simp [perform,Tool.write,running]
    rw [silent]
    exact ⟨asked,ramped⟩
  | true =>
    have few := (Tool.running_iff.mp running).2
    have wrote : system.tool.write = [command system.tool.step] := by
      rw [Tool.write,if_pos running,request_step few]
      rfl
    refine ⟨asked ++ [system.tool.step],?_,ramped.lit,?_,?_,ramped.answered,ramped.passed,ramped.bounded,ramped.idle⟩
    · simp only [perform,wrote,ramped.toBoard,List.map_append,List.map_cons,List.map_nil]
    · rw [← List.append_assoc,List.pairwise_append]
      refine ⟨ramped.ordered,List.pairwise_singleton _ _,fun step member last same => ?_⟩
      rw [List.mem_singleton.mp same]
      exact (ramped.reached step member).1
    · rw [← List.append_assoc]
      intro step member
      rcases List.mem_append.mp member with before | now
      · exact ramped.reached step before
      · rw [List.mem_singleton.mp now]
        exact ⟨le_rfl,few⟩

theorem Ramped.lose (ramped : Ramped system obeyed asked) (index : Nat) :
    Ramped (perform system (.lose index)) obeyed (asked.eraseIdx index) := by
  have fewer : (obeyed ++ asked.eraseIdx index).Sublist (obeyed ++ asked) :=
    (List.Sublist.refl obeyed).append (List.eraseIdx_sublist asked index)
  refine ⟨?_,ramped.lit,ramped.ordered.sublist fewer,fun step member => ramped.reached step (fewer.subset member),
    ramped.answered,ramped.passed,ramped.bounded,ramped.idle⟩
  rw [perform,ramped.toBoard]
  exact List.eraseIdx_map command asked index

/-- The board obeys the first two requests of a turn; the others are dropped at its full queue. -/
theorem Ramped.board (ramped : Ramped system obeyed asked) {heard : List PacketBuffer} {nowMs sendMs : U32}
    (oldest : heard.map hostView = system.toBoard.take heard.length) :
    Ramped (perform system (.board heard nowMs sendMs)) (obeyed ++ (asked.take heard.length).take 2) (asked.drop heard.length) := by
  have same : heard.map hostView = (asked.take heard.length).map command := by rw [oldest,ramped.toBoard,List.map_take]
  obtain ⟨levels,responses⟩ := answers_commands same
  obtain ⟨outputs,idle,-,-⟩ := runOnPackets_eq ramped.idle heard nowMs sendMs
  have quiet : ((runHeartbeat 1000 nowMs sendMs system.board.heartbeat).2.flatMap carryOut).filterMap levelOf = [] := by
    refine List.filterMap_eq_nil_iff.mpr fun output member => ?_
    obtain ⟨packet,rfl,-⟩ := heartbeat_silent member
    rfl
  have fewer : (obeyed ++ (asked.take heard.length).take 2 ++ asked.drop heard.length).Sublist (obeyed ++ asked) := by
    rw [List.append_assoc]
    refine (List.Sublist.refl obeyed).append ?_
    have parts := (List.take_sublist 2 (asked.take heard.length)).append (List.Sublist.refl (asked.drop heard.length))
    rwa [List.take_append_drop] at parts
  refine ⟨?_,?_,ramped.ordered.sublist fewer,fun step member => ramped.reached step (fewer.subset member),?_,
    fun step before => List.mem_append_left _ (ramped.passed step before),ramped.bounded,idle⟩
  · simp only [perform,ramped.toBoard,List.map_drop]
  · simp only [perform,outputs,List.filterMap_append,quiet,List.append_nil,levels,ramped.lit,List.map_append]
  · intro packet member step few acknowledged
    simp only [perform,outputs,List.filterMap_append,List.mem_append] at member
    rcases member with before | response | beat
    · exact List.mem_append_left _ (ramped.answered packet before step few acknowledged)
    · obtain ⟨request,asker,known,-,rfl⟩ := responses packet response
      have asking : asker ∈ obeyed ++ asked := fewer.subset (by simp [known])
      obtain rfl := response_acknowledges (ramped.reached asker asking).2 acknowledged
      exact List.mem_append_right _ known
    · obtain ⟨output,out,viewed⟩ := List.mem_filterMap.mp beat
      obtain ⟨packet,rfl,deaf⟩ := heartbeat_silent out
      cases viewed
      exact absurd acknowledged (by rw [deaf]; exact Bool.false_ne_true)

/-- A step is passed only behind its response, and the board answers what it obeyed. -/
theorem Ramped.hear (ramped : Ramped system obeyed asked) {packets : List WireSpacesPacket} (known : ∀ packet ∈ packets, packet ∈ system.sent) :
    Ramped (perform system (.hear packets)) obeyed asked := by
  rw [perform,Tool.hear]
  split_ifs with matched
  · obtain ⟨running,found⟩ := Bool.and_eq_true_iff.mp matched
    have few := (Tool.running_iff.mp running).2
    obtain ⟨packet,member,acknowledged⟩ := List.any_eq_true.mp found
    have here := ramped.answered packet (known packet member) system.tool.step few acknowledged
    refine ⟨ramped.toBoard,ramped.lit,ramped.ordered,fun step member => ?_,ramped.answered,fun step before => ?_,few,ramped.idle⟩
    · exact ⟨(ramped.reached step member).1.trans (Nat.le_succ _),(ramped.reached step member).2⟩
    · rcases (Nat.lt_succ_iff.mp before).lt_or_eq with earlier | now
      · exact ramped.passed step earlier
      · exact now ▸ here
  · exact ramped

theorem Ramped.perform (ramped : Ramped system obeyed asked) {action : Action} (allowed : permitted system action = true) :
    ∃ obeyed asked, Ramped (perform system action) obeyed asked := by
  cases action with
  | write => exact ⟨obeyed,ramped.write⟩
  | lose index => exact ⟨_,_,ramped.lose index⟩
  | board heard nowMs sendMs => exact ⟨_,_,ramped.board (beq_iff_eq.mp allowed)⟩
  | hear packets =>
    refine ⟨_,_,ramped.hear fun packet member => ?_⟩
    exact List.contains_iff_mem.mp (List.all_eq_true.mp allowed packet member)
  | timeOut =>
    refine ⟨obeyed,asked,?_⟩
    rw [LedRamp.perform,Tool.timeOut]
    split_ifs
    · exact ⟨ramped.toBoard,ramped.lit,ramped.ordered,ramped.reached,ramped.answered,ramped.passed,ramped.bounded,ramped.idle⟩
    · exact ramped

theorem Ramped.run (ramped : Ramped system obeyed asked) {actions : List Action} (allowed : permittedAll system actions = true) :
    ∃ obeyed asked, Ramped (performAll system actions) obeyed asked := by
  induction actions generalizing system obeyed asked with
  | nil => exact ⟨obeyed,asked,ramped⟩
  | cons action rest ih =>
    obtain ⟨here,later⟩ := Bool.and_eq_true_iff.mp allowed
    obtain ⟨obeyed,asked,next⟩ := ramped.perform here
    exact ih next later

theorem ramped_start (destination : HostId) : Ramped (start destination) [] [] :=
  ⟨rfl,rfl,List.Pairwise.nil,nofun,nofun,nofun,Nat.zero_le _,queued_construct destination⟩

end steps

/-! ### The ramp -/

/-- Nothing is behind the last step that was obeyed. -/
theorem le_last {obeyed : List Nat} (ordered : obeyed.Pairwise (· ≤ ·)) {last : Nat} (ends : obeyed.getLast? = some last) :
    ∀ step ∈ obeyed, step ≤ last := by
  obtain ⟨before,rfl⟩ := List.getLast?_eq_some_iff.mp ends
  intro step member
  rcases List.mem_append.mp member with earlier | now
  · exact (List.pairwise_append.mp ordered).2.2 step earlier last List.mem_cons_self
  · exact (List.mem_singleton.mp now).le

/-- Whatever requests are lost, whichever of the board's packets come back, in whatever order and how often: the LED never dims, and
    when the tool has gone past a step the LED stands at the level of that step or of the one behind it, so at full brightness
    behind the last. -/
theorem ramp_never_dims (destination : HostId) (actions : List Action) (allowed : permittedAll (start destination) actions = true) :
    let system := performAll (start destination) actions
    (system.lit.map BitVec.toNat).Pairwise (· ≤ ·) ∧
      (∀ step, system.tool.step = step + 1 →
        system.lit.getLast? = some (level step) ∨ step + 1 < stepCount ∧ system.lit.getLast? = some (level (step + 1))) ∧
      (system.tool.step = stepCount → system.lit.getLast? = some 255) := by
  obtain ⟨obeyed,asked,ramped⟩ := (ramped_start destination).run allowed
  generalize performAll (start destination) actions = system at ramped
  have ordered := (List.pairwise_append.mp ramped.ordered).1
  have reached : ∀ step ∈ obeyed, step ≤ system.tool.step ∧ step < stepCount := fun step member =>
    ramped.reached step (List.mem_append_left _ member)
  have stands : ∀ step, system.tool.step = step + 1 →
      system.lit.getLast? = some (level step) ∨ step + 1 < stepCount ∧ system.lit.getLast? = some (level (step + 1)) := by
    intro step after
    have passed := ramped.passed step (by omega)
    obtain ⟨last,ends⟩ := Option.isSome_iff_exists.mp (List.getLast?_isSome.mpr (List.ne_nil_of_mem passed))
    have behind := le_last ordered ends step passed
    have ahead := reached last (List.mem_of_getLast? ends)
    rw [ramped.lit,List.getLast?_map,ends,Option.map_some]
    rcases behind.lt_or_eq with later | rfl
    · obtain rfl : last = step + 1 := by omega
      exact .inr ⟨ahead.2,rfl⟩
    · exact .inl rfl
  refine ⟨?_,stands,fun complete => ?_⟩
  · rw [ramped.lit,List.map_map]
    refine List.pairwise_map.mpr (List.Pairwise.imp_of_mem ?_ ordered)
    intro step later here there le
    simp only [Function.comp_apply,level_toNat (reached step here).2,level_toNat (reached later there).2]
    exact brightness_mono le
  · rcases stands 10 complete with full | beyond
    · exact full
    · exact absurd beyond.1 (by decide)

/-! ### A run -/

/-- A request of the tool's as the board's receiver gives it on. -/
def arrive (step : Nat) : PacketBuffer :=
  ((UartLink.receiveFrame kMaximumPayloadSize payload_fits (((command step).encode).getD [])).getD servicePacket)

/-- One step: its first request is lost, the board hears the others, and the tool all that the board sent so far. -/
def stepActions (step : Nat) : List Action :=
  [.write,.write,.write,.lose 0,.board [arrive step,arrive step] (.ofNat 32 (step * 500)) 0,
    .hear ((List.range (step + 1)).map fun step => hostView (ledResponse (arrive step).header (level step) (.ofNat 8 step)))]

def fullRamp : List Action := (List.range stepCount).flatMap stepActions

theorem lossy_ramp_completes : (performAll (start ⟨2⟩) fullRamp).tool.step = stepCount ∧
    (performAll (start ⟨2⟩) fullRamp).lit.getLast? = some 255 := by
  have complete : (performAll (start ⟨2⟩) fullRamp).tool.step = stepCount := by decide +kernel
  exact ⟨complete,(ramp_never_dims ⟨2⟩ fullRamp (by decide +kernel)).2.2 complete⟩

end WireSpaces.LedRamp
