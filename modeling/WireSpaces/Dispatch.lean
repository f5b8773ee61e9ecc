import WireSpaces.Router

/-!
Receivers with state behind a dispatch table, as objects that a table entry points to.
With distinct endpoints at most one of them hears a packet, and the result is the one of
the table of their present answers.
-/
namespace WireSpaces.Dispatch
open WireSpaces.Codec WireSpaces.Packet
open WireSpaces.Router (HostInfo DispatchResult DispatchTableEntry toDispatchResult resultPriority)

/-! ### The table -/

/-- The receiver of an entry answers a packet and moves the state; `none` is the null pointer. -/
structure Entry (σ : Type) where
  endpoint : EndpointAddress
  receiver : Option (PacketBuffer → σ → ReceiveResult × σ)

section table
variable {σ : Type} (packet : PacketBuffer) (host : HostInfo)

def dispatchEach (broadcast : Bool) : List (Entry σ) → DispatchResult → σ → DispatchResult × σ
  | [], aggregate, s => (aggregate,s)
  | entry :: rest, aggregate, s =>
    match entry.receiver with
    | none => dispatchEach broadcast rest aggregate s
    | some receive =>
      if entry.endpoint ≠ packet.header.endpoint then dispatchEach broadcast rest aggregate s
      else if !broadcast && host.id ≠ packet.header.destination then dispatchEach broadcast rest aggregate s
      else
        let received := receive packet s
        let result := toDispatchResult received.1
        if !broadcast then (result,received.2)
        else dispatchEach broadcast rest (if resultPriority result > resultPriority aggregate then result else aggregate) received.2

def dispatch (entries : List (Entry σ)) (s : σ) : DispatchResult × σ :=
  if !packet.header.hasSupportedControl then (.kRejected,s)
  else
    let broadcast := packet.header.destination.isBroadcast
    if broadcast && !host.isMemberOf packet.header.wire then (.kNoEndpoint,s)
    else dispatchEach packet host broadcast entries .kNoEndpoint s

/-- An entry with what its receiver would answer now. -/
def freeze (s : σ) (entry : Entry σ) : DispatchTableEntry :=
  ⟨entry.endpoint,entry.receiver.map fun receive packet => (receive packet s).1⟩

/-- Whether the dispatcher offers the packet to receivers of its endpoint at all. -/
def offers : Bool :=
  packet.header.hasSupportedControl &&
    if packet.header.destination.isBroadcast then host.isMemberOf packet.header.wire else host.id == packet.header.destination

end table

section results
variable {σ : Type} {packet : PacketBuffer} {host : HostInfo}

/-- An entry that is null or of another endpoint is passed over. -/
theorem dispatchEach_pass {broadcast : Bool} {entry : Entry σ} (other : entry.receiver = none ∨ entry.endpoint ≠ packet.header.endpoint)
    (rest : List (Entry σ)) (aggregate : DispatchResult) (s : σ) :
    dispatchEach packet host broadcast (entry :: rest) aggregate s = dispatchEach packet host broadcast rest aggregate s := by
  obtain ⟨endpoint,receiver⟩ := entry
  cases receiver with
  | none => rfl
  | some receive =>
    rcases other with null | other
    · cases null
    · exact if_pos other

theorem dispatchEach_foreign {broadcast : Bool} {entries : List (Entry σ)} (foreign : packet.header.endpoint ∉ entries.map Entry.endpoint)
    (aggregate : DispatchResult) (s : σ) : dispatchEach packet host broadcast entries aggregate s = (aggregate,s) := by
  induction entries generalizing aggregate s with
  | nil => rfl
  | cons entry rest ih =>
    rw [List.map_cons,List.mem_cons,not_or] at foreign
    rw [dispatchEach_pass (.inr fun same => foreign.1 same.symm),ih foreign.2]

theorem router_foreign {broadcast : Bool} {entries : List DispatchTableEntry}
    (foreign : packet.header.endpoint ∉ entries.map DispatchTableEntry.endpoint) (aggregate : DispatchResult) :
    Router.dispatchEach packet host broadcast entries aggregate = aggregate := by
  induction entries generalizing aggregate with
  | nil => rfl
  | cons entry rest ih =>
    obtain ⟨endpoint,receiver⟩ := entry
    rw [List.map_cons,List.mem_cons,not_or] at foreign
    cases receiver with
    | none => exact ih foreign.2 aggregate
    | some receive => exact (if_pos fun same => foreign.1 same.symm).trans (ih foreign.2 aggregate)

theorem freeze_endpoint (s : σ) (entries : List (Entry σ)) :
    (entries.map (freeze s)).map DispatchTableEntry.endpoint = entries.map Entry.endpoint := by
  rw [List.map_map]
  rfl

theorem dispatchEach_result {broadcast : Bool} {entries : List (Entry σ)} (distinct : (entries.map Entry.endpoint).Nodup)
    (aggregate : DispatchResult) (s : σ) :
    (dispatchEach packet host broadcast entries aggregate s).1 =
      Router.dispatchEach packet host broadcast (entries.map (freeze s)) aggregate := by
  induction entries generalizing aggregate with
  | nil => rfl
  | cons entry rest ih =>
    obtain ⟨endpoint,receiver⟩ := entry
    rw [List.map_cons,List.nodup_cons] at distinct
    cases receiver with
    | none => exact ih distinct.2 aggregate
    | some receive =>
      simp only [List.map_cons,freeze,Option.map_some,dispatchEach,Router.dispatchEach]
      split_ifs with other away unicast better
      · exact ih distinct.2 aggregate
      · exact ih distinct.2 aggregate
      · rfl
      · have foreign : packet.header.endpoint ∉ rest.map Entry.endpoint := not_ne_iff.mp other ▸ distinct.1
        rw [dispatchEach_foreign foreign]
        exact (router_foreign (by rw [freeze_endpoint]; exact foreign) _).symm
      · have foreign : packet.header.endpoint ∉ rest.map Entry.endpoint := not_ne_iff.mp other ▸ distinct.1
        rw [dispatchEach_foreign foreign]
        exact (router_foreign (by rw [freeze_endpoint]; exact foreign) _).symm

/-- The dispatcher answers as the table of the receivers' present answers does. -/
theorem dispatch_result {entries : List (Entry σ)} (distinct : (entries.map Entry.endpoint).Nodup) (s : σ) :
    (dispatch packet host entries s).1 = Router.dispatch (entries.map (freeze s)) packet host := by
  unfold dispatch Router.dispatch
  dsimp only
  split_ifs
  · rfl
  · rfl
  · exact dispatchEach_result distinct _ s

/-- Who hears a packet: the receiver of its endpoint, if the packet is offered. -/
theorem dispatch_state (packet : PacketBuffer) (host : HostInfo) (before after : List (Entry σ)) {endpoint : EndpointAddress}
    {receive : PacketBuffer → σ → ReceiveResult × σ} (distinct : ((before ++ ⟨endpoint,some receive⟩ :: after).map Entry.endpoint).Nodup)
    (here : packet.header.endpoint = endpoint) (s : σ) : (dispatch packet host (before ++ ⟨endpoint,some receive⟩ :: after) s).2 =
      if offers packet host then (receive packet s).2 else s := by
  rw [List.map_append,List.map_cons,List.nodup_append,List.nodup_cons] at distinct
  obtain ⟨-,⟨behind,-⟩,apart⟩ := distinct
  have skip : ∀ broadcast aggregate, dispatchEach packet host broadcast (before ++ ⟨endpoint,some receive⟩ :: after) aggregate s =
      dispatchEach packet host broadcast (⟨endpoint,some receive⟩ :: after) aggregate s := by
    intro broadcast aggregate
    have others : ∀ entry ∈ before, entry.endpoint ≠ packet.header.endpoint := fun entry member same =>
      apart _ (List.mem_map_of_mem member) _ List.mem_cons_self (same.trans here)
    clear apart
    induction before with
    | nil => rfl
    | cons entry rest ih =>
      rw [List.cons_append,dispatchEach_pass (.inr (others entry List.mem_cons_self))]
      exact ih (fun entry member => others entry (List.mem_cons_of_mem _ member))
  have foreign : packet.header.endpoint ∉ after.map Entry.endpoint := here ▸ behind
  unfold dispatch offers
  cases supported : packet.header.hasSupportedControl with
  | false => rfl
  | true =>
    cases broadcast : packet.header.destination.isBroadcast with
    | true =>
      cases member : host.isMemberOf packet.header.wire with
      | false => rfl
      | true =>
        simp only [skip,dispatchEach,here,ne_eq,not_true_eq_false,Bool.not_true,Bool.false_and,Bool.and_false,if_false,
          Bool.false_eq_true,Bool.and_true,if_true]
        rw [dispatchEach_foreign foreign]
    | false =>
      simp only [skip,dispatchEach,here,ne_eq,not_true_eq_false,Bool.not_true,Bool.false_and,if_false,Bool.false_eq_true,
        Bool.not_false,Bool.true_and,if_true,decide_not,beq_iff_eq]
      by_cases own : host.id = packet.header.destination
      · simp [own]
      · simp [own,dispatchEach_foreign foreign]

/-- A packet for no endpoint of the table moves nothing. -/
theorem dispatch_foreign {entries : List (Entry σ)} (foreign : packet.header.endpoint ∉ entries.map Entry.endpoint) (s : σ) :
    (dispatch packet host entries s).2 = s := by
  unfold dispatch
  dsimp only
  split_ifs
  · rfl
  · rfl
  · rw [dispatchEach_foreign foreign]

end results

end WireSpaces.Dispatch
