import WireSpaces.Circular
import Mathlib

/-!
The ring buffer of one producer and one consumer, run by one of them at a time. Its two indices
go round the cells of an array in an index type of `width` bits. Where that type holds the
capacity and `size_t`, of `sizeBits` bits, holds one more, the buffer is a list of at most
`capacity` items. An access outside the array is `none`.
-/
namespace WireSpaces.Containers

/-- The cells of `Array<T, kCapacity + 1U>`: the sum is a `size_t`, and an array of no elements has one cell. -/
def cells (sizeBits capacity : Nat) : Nat :=
  if (capacity + 1) % 2 ^ sizeBits = 0 then 1 else (capacity + 1) % 2 ^ sizeBits

/-- The array holds a cell for every value of an index. -/
theorem cells_eq {sizeBits capacity : Nat} (holds : capacity + 1 < 2 ^ sizeBits) : cells sizeBits capacity = capacity + 1 := by
  rw [cells,Nat.mod_eq_of_lt holds,if_neg (Nat.succ_ne_zero capacity)]

/-- Neither index passes the capacity, whatever the width of its type. -/
structure RingBuffer (α : Type) (sizeBits capacity width : Nat) where
  buffer : List α
  writeIndex : BitVec width
  readIndex : BitVec width
  buffer_length : buffer.length = cells sizeBits capacity
  write_le : writeIndex.toNat ≤ capacity
  read_le : readIndex.toNat ≤ capacity

def increment (capacity : Nat) {width : Nat} (index : BitVec width) : BitVec width :=
  if index.toNat = capacity then 0 else index + 1

theorem succ_toNat {width : Nat} (index : BitVec width) : (index + 1).toNat = (index.toNat + 1) % 2 ^ width := by
  have one : (1 : BitVec width).toNat = 1 % 2 ^ width := rfl
  rw [BitVec.toNat_add,one,Nat.add_mod_mod]

theorem increment_le {capacity width : Nat} {index : BitVec width} (inside : index.toNat ≤ capacity) :
    (increment capacity index).toNat ≤ capacity := by
  unfold increment
  split
  · simp
  · have wraps : (index + 1).toNat ≤ index.toNat + 1 := by
      rw [succ_toNat]
      exact Nat.mod_le _ _
    omega

/-- Where the index type holds the capacity, an index goes round all cells. -/
theorem increment_toNat {capacity width : Nat} {index : BitVec width} (fits : capacity < 2 ^ width)
    (inside : index.toNat ≤ capacity) :
    (increment capacity index).toNat = if index.toNat = capacity then 0 else index.toNat + 1 := by
  unfold increment
  split
  · simp
  · rw [succ_toNat]
    exact Nat.mod_eq_of_lt (by omega)

namespace RingBuffer
variable {α : Type} {sizeBits capacity width : Nat}

def create (initial : α) : RingBuffer α sizeBits capacity width where
  buffer := List.replicate (cells sizeBits capacity) initial
  writeIndex := 0
  readIndex := 0
  buffer_length := List.length_replicate
  write_le := by simp
  read_le := by simp

def isEmpty (ring : RingBuffer α sizeBits capacity width) : Bool := ring.writeIndex == ring.readIndex

def isFull (ring : RingBuffer α sizeBits capacity width) : Bool := increment capacity ring.writeIndex == ring.readIndex

/-- Both branches return to the index type; the sum in the second is a `size_t` first. -/
def size (ring : RingBuffer α sizeBits capacity width) : BitVec width :=
  let writer := ring.writeIndex
  let reader := ring.readIndex
  if reader ≤ writer then writer - reader
  else .ofNat width ((capacity + 1) % 2 ^ sizeBits) - reader + writer

/-- Store at the write index and move it on. -/
def push (ring : RingBuffer α sizeBits capacity width) (item : α) : Option (RingBuffer α sizeBits capacity width) :=
  if ring.writeIndex.toNat < ring.buffer.length then
    some {
      buffer := ring.buffer.set ring.writeIndex.toNat item
      writeIndex := increment capacity ring.writeIndex
      readIndex := ring.readIndex
      buffer_length := List.length_set.trans ring.buffer_length
      write_le := increment_le ring.write_le
      read_le := ring.read_le }
  else none

def enqueue (ring : RingBuffer α sizeBits capacity width) (item : α) :
    Option (Bool × RingBuffer α sizeBits capacity width) :=
  if ring.isFull then some (false,ring) else (ring.push item).map (true,·)

/-- The loop stops at the first item that does not fit. -/
def enqueueSpan (ring : RingBuffer α sizeBits capacity width) : List α → Option (Bool × RingBuffer α sizeBits capacity width)
  | [] => some (true,ring)
  | item :: items =>
    match ring.enqueue item with
    | none => none
    | some (false,ring) => some (false,ring)
    | some (true,ring) => ring.enqueueSpan items

/-- The item at the read index. -/
def oldest (ring : RingBuffer α sizeBits capacity width) : Option α := ring.buffer[ring.readIndex.toNat]?

/-- Move the read index on. -/
def pop (ring : RingBuffer α sizeBits capacity width) : RingBuffer α sizeBits capacity width where
  buffer := ring.buffer
  writeIndex := ring.writeIndex
  readIndex := increment capacity ring.readIndex
  buffer_length := ring.buffer_length
  write_le := ring.write_le
  read_le := increment_le ring.read_le

/-- The item is written to the caller's variable, which a failure leaves as it was. -/
def dequeue (ring : RingBuffer α sizeBits capacity width) (item : α) :
    Option (Bool × α × RingBuffer α sizeBits capacity width) :=
  if ring.isEmpty then some (false,item,ring) else ring.oldest.map (true,·,ring.pop)

/-- The loop over the output; `fuel` bounds the items that can leave. -/
def fill : Nat → BitVec width → List α → RingBuffer α sizeBits capacity width →
    Option (BitVec width × List α × RingBuffer α sizeBits capacity width)
  | 0, index, output, ring => some (index,output,ring)
  | fuel + 1, index, output, ring =>
    if inside : index.toNat < output.length then
      match ring.dequeue (output.get ⟨index.toNat,inside⟩) with
      | none => none
      | some (true,item,ring) => fill fuel (index + 1) (output.set index.toNat item) ring
      | some (false,_,ring) => some (index,output,ring)
    else some (index,output,ring)

/-- How many items were written to the output, the output, and the buffer. -/
def dequeueSpan (ring : RingBuffer α sizeBits capacity width) (output : List α) :
    Option (BitVec width × List α × RingBuffer α sizeBits capacity width) :=
  fill (capacity + 1) 0 output ring

def peek (ring : RingBuffer α sizeBits capacity width) (item : α) : Option (Bool × α) :=
  if ring.isEmpty then some (false,item) else ring.oldest.map (true,·)

/-- The loop of `clear`; the dequeued items are dropped. -/
def drain (initial : α) : Nat → RingBuffer α sizeBits capacity width → Option (RingBuffer α sizeBits capacity width)
  | 0, ring => some ring
  | fuel + 1, ring =>
    if ring.isEmpty then some ring
    else
      match ring.dequeue initial with
      | none => none
      | some (_,_,ring) => drain initial fuel ring

def clear (ring : RingBuffer α sizeBits capacity width) (initial : α) : Option (RingBuffer α sizeBits capacity width) :=
  drain initial (capacity + 1) ring

/-! ### The items held -/

/-- How many cells lie from the read index to the write index, going round. -/
def count (ring : RingBuffer α sizeBits capacity width) : Nat :=
  if ring.readIndex.toNat ≤ ring.writeIndex.toNat then ring.writeIndex.toNat - ring.readIndex.toNat
  else (capacity + 1 - ring.readIndex.toNat) + ring.writeIndex.toNat

/-- The items held, oldest first. -/
def held (ring : RingBuffer α sizeBits capacity width) : List α := Circular.run ring.buffer ring.readIndex.toNat ring.count

theorem count_le (ring : RingBuffer α sizeBits capacity width) : ring.count ≤ capacity := by
  have := ring.write_le
  have := ring.read_le
  unfold count
  split <;> omega

theorem isEmpty_eq (ring : RingBuffer α sizeBits capacity width) : ring.isEmpty = decide (ring.count = 0) := by
  have := ring.write_le
  have := ring.read_le
  rw [isEmpty,Bool.beq_eq_decide_eq]
  apply decide_eq_decide.mpr
  rw [← BitVec.toNat_inj]
  unfold count
  split <;> omega

theorem write_eq (ring : RingBuffer α sizeBits capacity width) :
    ring.writeIndex.toNat = (ring.readIndex.toNat + ring.count) % (capacity + 1) := by
  have := ring.write_le
  have := ring.read_le
  unfold count
  split
  · rw [Nat.mod_eq_of_lt (by omega)]
    omega
  · have round : ring.readIndex.toNat + (capacity + 1 - ring.readIndex.toNat + ring.writeIndex.toNat) =
        ring.writeIndex.toNat + (capacity + 1) := by omega
    rw [round,Nat.add_mod_right,Nat.mod_eq_of_lt (by omega)]

theorem isFull_eq (fits : capacity < 2 ^ width) (ring : RingBuffer α sizeBits capacity width) :
    ring.isFull = decide (ring.count = capacity) := by
  have := ring.write_le
  have := ring.read_le
  rw [isFull,Bool.beq_eq_decide_eq]
  apply decide_eq_decide.mpr
  rw [← BitVec.toNat_inj,increment_toNat fits ring.write_le]
  unfold count
  split <;> split <;> omega

section holds
variable (holds : capacity + 1 < 2 ^ sizeBits) (ring : RingBuffer α sizeBits capacity width)
include holds

/-- The array has a cell for every index. -/
theorem whole : ring.buffer.length = capacity + 1 := ring.buffer_length.trans (cells_eq holds)

theorem held_length : ring.held.length = ring.count := by
  apply Circular.run_length
  have := ring.count_le
  have := whole holds ring
  omega

theorem held_le : ring.held.length ≤ capacity := (held_length holds ring).trans_le ring.count_le

theorem create_held (initial : α) : (create initial : RingBuffer α sizeBits capacity width).held = [] := by
  apply List.eq_nil_of_length_eq_zero
  rw [held_length holds]
  simp [count,create]

theorem isEmpty_of_held {first : α} {rest : List α} (some : ring.held = first :: rest) : ¬ring.isEmpty = true := by
  have counted := held_length holds ring
  rw [some,List.length_cons] at counted
  rw [isEmpty_eq,decide_eq_true_eq]
  omega

theorem isEmpty_of_nil (empty : ring.held = []) : ring.isEmpty = true := by
  rw [isEmpty_eq,← held_length holds,empty]
  rfl

theorem held_cons {first : α} {rest : List α} (some : ring.held = first :: rest) : ring.oldest = .some first ∧
    Circular.run ring.buffer (ring.readIndex.toNat + 1) (ring.count - 1) = rest := by
  have counted := held_length holds ring
  rw [some,List.length_cons] at counted
  have length := whole holds ring
  have bound := ring.count_le
  have inside := ring.read_le
  have parts : ring.held = ring.buffer[ring.readIndex.toNat] :: Circular.run ring.buffer (ring.readIndex.toNat + 1) (ring.count - 1) := by
    have pred : ring.count = ring.count - 1 + 1 := by omega
    rw [held,pred]
    exact Circular.run_succ (by omega) (by omega)
  rw [some] at parts
  obtain ⟨head,tail⟩ := List.cons.inj parts
  refine ⟨?_,tail.symm⟩
  rw [oldest,List.getElem?_eq_getElem (by omega),head]

theorem dequeue_empty (empty : ring.held = []) (item : α) : ring.dequeue item = some (false,item,ring) := by
  rw [dequeue,if_pos (isEmpty_of_nil holds ring empty)]

theorem dequeue_held {first : α} {rest : List α} (some : ring.held = first :: rest) (item : α) :
    ring.dequeue item = .some (true,first,ring.pop) := by
  rw [dequeue,if_neg (isEmpty_of_held holds ring some),(held_cons holds ring some).1]
  rfl

variable (fits : capacity < 2 ^ width)
include fits

theorem size_toNat : ring.size.toNat = ring.count := by
  have written := ring.write_le
  have read := ring.read_le
  unfold size count
  simp only [BitVec.le_def]
  split
  case isTrue ordered => exact BitVec.toNat_sub_of_le ordered
  case isFalse around =>
    rw [Nat.mod_eq_of_lt holds,BitVec.toNat_add,BitVec.toNat_sub,BitVec.toNat_ofNat]
    have positive : 0 < 2 ^ width := Nat.two_pow_pos width
    have sum : (2 ^ width - ring.readIndex.toNat + (capacity + 1) % 2 ^ width) % 2 ^ width =
        (capacity + 1 - ring.readIndex.toNat) % 2 ^ width := by
      rw [Nat.add_mod_mod,show 2 ^ width - ring.readIndex.toNat + (capacity + 1) =
        capacity + 1 - ring.readIndex.toNat + 2 ^ width by omega,Nat.add_mod_right]
    rw [sum,Nat.mod_add_mod]
    exact Nat.mod_eq_of_lt (by omega)

theorem enqueue_full (full : ring.held.length = capacity) (item : α) : ring.enqueue item = some (false,ring) := by
  rw [held_length holds] at full
  rw [enqueue,if_pos (by rw [isFull_eq fits ring,full,decide_eq_true rfl])]

theorem push_held (room : ring.count < capacity) (item : α) :
    ∃ left, ring.push item = some left ∧ left.held = ring.held ++ [item] := by
  have inside := ring.write_le
  have read := ring.read_le
  have length := whole holds ring
  rw [push,if_pos (by omega)]
  refine ⟨_,rfl,?_⟩
  generalize pushed : RingBuffer.mk (ring.buffer.set ring.writeIndex.toNat item) (increment capacity ring.writeIndex)
    ring.readIndex _ _ _ = left
  have counted : left.count = ring.count + 1 := by
    rw [← pushed]
    unfold count at room ⊢
    simp only [increment_toNat fits inside]
    split <;> split <;> (try split at room) <;> split <;> omega
  rw [held,counted,← pushed]
  simp only [ring.write_eq]
  exact Circular.run_set length (by omega) item

theorem enqueue_room (room : ring.held.length < capacity) (item : α) :
    ∃ left, ring.enqueue item = some (true,left) ∧ left.held = ring.held ++ [item] := by
  rw [held_length holds] at room
  have unfilled : ¬ring.isFull = true := by
    rw [isFull_eq fits ring,decide_eq_true_eq]
    omega
  obtain ⟨left,pushed,behind⟩ := push_held holds ring fits room item
  refine ⟨left,?_,behind⟩
  rw [enqueue,if_neg unfilled,pushed]
  rfl

theorem pop_held {first : α} {rest : List α} (some : ring.held = first :: rest) : ring.pop.held = rest := by
  have busy := isEmpty_of_held holds ring some
  rw [isEmpty_eq,decide_eq_true_eq] at busy
  obtain ⟨-,tail⟩ := held_cons holds ring some
  have inside := ring.read_le
  have := ring.write_le
  have counted : ring.pop.count = ring.count - 1 := by
    unfold count at busy ⊢
    simp only [pop,increment_toNat fits inside]
    split <;> split <;> (try split at busy) <;> split <;> omega
  rw [held,counted,← tail]
  simp only [pop,increment_toNat fits inside]
  split
  case isTrue last =>
    have round : Circular.run ring.buffer ((capacity + 1) % (capacity + 1)) (ring.count - 1) =
        Circular.run ring.buffer (capacity + 1) (ring.count - 1) := Circular.run_mod (whole holds ring)
    rw [last,← round,Nat.mod_self]
  case isFalse => rfl

/-! ### Spans -/

/-- The longest front of the items that fits goes in. -/
theorem enqueueSpan_held (items : List α) :
    ∃ left, ring.enqueueSpan items = some (decide (ring.held.length + items.length ≤ capacity),left) ∧
      left.held = ring.held ++ items.take (capacity - ring.held.length) := by
  induction items generalizing ring with
  | nil =>
    have := held_le holds ring
    exact ⟨ring,by simp [enqueueSpan,this],by simp⟩
  | cons item items ih =>
    rcases (held_le holds ring).lt_or_eq with room | full
    · obtain ⟨left,added,behind⟩ := enqueue_room holds ring fits room item
      obtain ⟨last,answer,all⟩ := ih left
      have more : capacity - ring.held.length = capacity - left.held.length + 1 := by
        rw [behind,List.length_append,List.length_singleton]
        omega
      refine ⟨last,?_,all.trans ?_⟩
      · rw [enqueueSpan,added]
        have same : left.held.length + items.length = ring.held.length + (items.length + 1) := by
          rw [behind,List.length_append,List.length_singleton]
          omega
        rw [List.length_cons,← same]
        exact answer
      · rw [more,List.take_succ_cons,behind,List.append_assoc]
        rfl
    · refine ⟨ring,?_,by simp [full]⟩
      rw [enqueueSpan,enqueue_full holds ring fits full]
      simp [full]

/-- The loop from a position on: the oldest items overwrite the output, as many as there are or as it can take. -/
theorem fill_held {fuel : Nat} {index : BitVec width} {before after : List α} (position : index.toNat = before.length)
    (enough : ring.held.length < fuel) (narrow : before.length + ring.held.length < 2 ^ width) :
    ∃ index' left, fill fuel index (before ++ after) ring =
        some (index',before ++ (ring.held.take after.length ++ after.drop ring.held.length),left) ∧
      index'.toNat = before.length + min after.length ring.held.length ∧ left.held = ring.held.drop after.length := by
  induction fuel generalizing index before after ring with
  | zero => omega
  | succ fuel ih =>
    rw [fill]
    cases after with
    | nil =>
      rw [dif_neg (by rw [List.append_nil]; omega)]
      exact ⟨index,ring,by simp,by simpa using position,rfl⟩
    | cons x after =>
      have inside : index.toNat < (before ++ x :: after).length := by
        rw [List.length_append,List.length_cons]
        omega
      rw [dif_pos inside]
      rcases items : ring.held with _ | ⟨first,rest⟩
      · rw [dequeue_empty holds ring items]
        exact ⟨index,ring,by simp,by simpa using position,items⟩
      · rw [dequeue_held holds ring items]
        have remaining := pop_held holds ring fits items
        rw [items,List.length_cons] at enough narrow
        have next : (index + 1).toNat = (before ++ [first]).length := by
          rw [succ_toNat,List.length_append,List.length_singleton,position]
          exact Nat.mod_eq_of_lt (by omega)
        have stored : (before ++ x :: after).set index.toNat first = (before ++ [first]) ++ after := by
          rw [position,List.set_append_right _ _ le_rfl,Nat.sub_self,List.set_cons_zero,List.append_assoc]
          rfl
        obtain ⟨index',left,filled,count,others⟩ : ∃ index' left, fill fuel (index + 1) ((before ++ [first]) ++ after) ring.pop =
            some (index',(before ++ [first]) ++ (ring.pop.held.take after.length ++ after.drop ring.pop.held.length),left) ∧ _ :=
          ih ring.pop next (by rw [remaining]; omega)
            (by rw [remaining,List.length_append,List.length_singleton]; omega)
        refine ⟨index',left,?_,?_,?_⟩
        · simp only [stored,filled,remaining]
          simp
        · rw [count,remaining]
          simp only [List.length_append,List.length_cons,List.length_nil]
          omega
        · rw [others,remaining]
          rfl

theorem dequeueSpan_held (output : List α) :
    ∃ taken left, ring.dequeueSpan output =
        some (taken,ring.held.take output.length ++ output.drop ring.held.length,left) ∧
      taken.toNat = min output.length ring.held.length ∧ left.held = ring.held.drop output.length := by
  have bound := held_le holds ring
  have start : (0 : BitVec width).toNat = ([] : List α).length := by simp
  obtain ⟨taken,left,filled,count,others⟩ : ∃ taken left, fill (capacity + 1) 0 ([] ++ output) ring =
      some (taken,[] ++ (ring.held.take output.length ++ output.drop ring.held.length),left) ∧ _ :=
    fill_held holds ring fits start (Nat.lt_succ_of_le bound) (by simp only [List.length_nil]; omega)
  refine ⟨taken,left,filled,?_,others⟩
  simpa using count

theorem drain_held (initial : α) {fuel : Nat} (enough : ring.held.length < fuel) :
    ∃ left, drain initial fuel ring = some left ∧ left.held = [] := by
  induction fuel generalizing ring with
  | zero => omega
  | succ fuel ih =>
    rw [drain]
    rcases items : ring.held with _ | ⟨first,rest⟩
    · rw [if_pos (isEmpty_of_nil holds ring items)]
      exact ⟨ring,rfl,items⟩
    · have remaining := pop_held holds ring fits items
      rw [items,List.length_cons] at enough
      rw [if_neg (isEmpty_of_held holds ring items),dequeue_held holds ring items]
      apply ih
      rw [remaining]
      omega

end holds
end RingBuffer

/-! ### Calls -/

section calls
variable {α : Type} {sizeBits capacity width : Nat}

inductive Call (α : Type) where
  | enqueue (item : α)
  | enqueueSpan (items : List α)
  | dequeue (item : α)
  | dequeueSpan (output : List α)
  | peek (item : α)
  | clear

/-- What a call returns, with the caller's variables after it. -/
inductive Answer (α : Type) where
  | done (flag : Bool)
  | item (flag : Bool) (item : α)
  | items (taken : Nat) (output : List α)
  | cleared

/-- A call of the buffer; `initial` is the default of the item type. -/
def call (initial : α) (ring : RingBuffer α sizeBits capacity width) :
    Call α → Option (Answer α × RingBuffer α sizeBits capacity width)
  | .enqueue item => (ring.enqueue item).map fun (flag,ring) => (.done flag,ring)
  | .enqueueSpan items => (ring.enqueueSpan items).map fun (flag,ring) => (.done flag,ring)
  | .dequeue item => (ring.dequeue item).map fun (flag,item,ring) => (.item flag item,ring)
  | .dequeueSpan output => (ring.dequeueSpan output).map fun (taken,output,ring) => (.items taken.toNat output,ring)
  | .peek item => (ring.peek item).map fun (flag,item) => (.item flag item,ring)
  | .clear => (ring.clear initial).map fun ring => (.cleared,ring)

/-- The same call of a list of at most `capacity` items, oldest first. -/
def fifo (capacity : Nat) (held : List α) : Call α → Answer α × List α
  | .enqueue item => if held.length < capacity then (.done true,held ++ [item]) else (.done false,held)
  | .enqueueSpan items =>
    (.done (held.length + items.length ≤ capacity),held ++ items.take (capacity - held.length))
  | .dequeue item =>
    match held with
    | [] => (.item false item,[])
    | first :: rest => (.item true first,rest)
  | .dequeueSpan output =>
    (.items (min output.length held.length) (held.take output.length ++ output.drop held.length),held.drop output.length)
  | .peek item =>
    match held with
    | [] => (.item false item,[])
    | first :: rest => (.item true first,first :: rest)
  | .clear => (.cleared,[])

/-- The buffer and the list after some calls. -/
def after (initial : α) (ring : RingBuffer α sizeBits capacity width) (calls : List (Call α)) :
    Option (RingBuffer α sizeBits capacity width) :=
  calls.foldlM (fun ring next => (call initial ring next).map Prod.snd) ring

def kept (capacity : Nat) (held : List α) (calls : List (Call α)) : List α :=
  calls.foldl (fun held next => (fifo capacity held next).2) held

/-- A buffer that cannot be told from a list: it reports the list's length, and each call answers as the list does. -/
structure Reports (initial : α) (ring : RingBuffer α sizeBits capacity width) (held : List α) : Prop where
  bounded : held.length ≤ capacity
  size : ring.size.toNat = held.length
  isEmpty : ring.isEmpty = decide (held.length = 0)
  isFull : ring.isFull = decide (held.length = capacity)
  answers : ∀ next, (call initial ring next).map Prod.fst = some (fifo capacity held next).1

section fits
variable (holds : capacity + 1 < 2 ^ sizeBits) (fits : capacity < 2 ^ width)
include holds fits

/-- One call of a buffer whose types hold the capacity is the call of its list. -/
theorem call_held (initial : α) (ring : RingBuffer α sizeBits capacity width) (next : Call α) :
    ∃ left, call initial ring next = some ((fifo capacity ring.held next).1,left) ∧
      left.held = (fifo capacity ring.held next).2 := by
  have bound := RingBuffer.held_le holds ring
  cases next with
  | enqueue item =>
    rw [call,fifo]
    rcases bound.lt_or_eq with room | full
    · obtain ⟨left,done,behind⟩ := ring.enqueue_room holds fits room item
      rw [if_pos room,done]
      exact ⟨left,rfl,behind⟩
    · rw [ring.enqueue_full holds fits full,if_neg (by omega)]
      exact ⟨ring,rfl,rfl⟩
  | enqueueSpan items =>
    obtain ⟨left,done,behind⟩ := ring.enqueueSpan_held holds fits items
    rw [call,done]
    exact ⟨left,rfl,behind⟩
  | dequeue item =>
    rw [call]
    rcases items : ring.held with _ | ⟨first,rest⟩
    · rw [ring.dequeue_empty holds items]
      exact ⟨ring,rfl,items⟩
    · rw [ring.dequeue_held holds items]
      exact ⟨ring.pop,rfl,ring.pop_held holds fits items⟩
  | dequeueSpan output =>
    obtain ⟨taken,left,filled,count,others⟩ := ring.dequeueSpan_held holds fits output
    rw [call,filled]
    exact ⟨left,congrArg (fun taken => some (Answer.items taken _,left)) count,others⟩
  | peek item =>
    rw [call,RingBuffer.peek]
    rcases items : ring.held with _ | ⟨first,rest⟩
    · rw [if_pos (ring.isEmpty_of_nil holds items)]
      exact ⟨ring,rfl,items⟩
    · rw [if_neg (ring.isEmpty_of_held holds items),(ring.held_cons holds items).1]
      exact ⟨ring,rfl,items⟩
  | clear =>
    obtain ⟨left,drained,empty⟩ := ring.drain_held holds fits initial (Nat.lt_succ_of_le bound)
    rw [call,RingBuffer.clear,drained]
    exact ⟨left,rfl,empty⟩

theorem after_held (initial : α) (ring : RingBuffer α sizeBits capacity width) (calls : List (Call α)) :
    ∃ left, after initial ring calls = some left ∧ left.held = kept capacity ring.held calls := by
  induction calls generalizing ring with
  | nil => exact ⟨ring,rfl,rfl⟩
  | cons next calls ih =>
    obtain ⟨second,done,step⟩ := call_held holds fits initial ring next
    obtain ⟨left,others,held⟩ := ih second
    refine ⟨left,?_,held.trans (by rw [step]; rfl)⟩
    rw [after,List.foldlM_cons,done]
    exact others

theorem reports_held (initial : α) (ring : RingBuffer α sizeBits capacity width) : Reports initial ring ring.held := by
  have length := ring.held_length holds
  refine ⟨ring.held_le holds,?_,?_,?_,?_⟩
  · rw [length,ring.size_toNat holds fits]
  · rw [length,ring.isEmpty_eq]
  · rw [length,ring.isFull_eq fits]
  · intro next
    obtain ⟨left,done,-⟩ := call_held holds fits initial ring next
    rw [done]
    rfl

end fits

/-! ### Types too narrow -/

theorem kept_enqueued (item : α) {count : Nat} (few : count ≤ capacity) :
    kept capacity [] (List.replicate count (.enqueue item)) = List.replicate count item := by
  induction count with
  | zero => rfl
  | succ count ih =>
    have before := ih (by omega)
    rw [kept] at before ⊢
    rw [List.replicate_succ',List.foldl_append,before,List.foldl_cons,List.foldl_nil,fifo,
      if_pos (by rw [List.length_replicate]; omega),List.replicate_succ']

/-- Where `size_t` holds one more than the capacity, no item is stored outside the array. -/
theorem after_enqueued_some (holds : capacity + 1 < 2 ^ sizeBits) (ring : RingBuffer α sizeBits capacity width) (item : α)
    (count : Nat) : ∃ left, after item ring (List.replicate count (.enqueue item)) = some left := by
  induction count generalizing ring with
  | zero => exact ⟨ring,rfl⟩
  | succ count ih =>
    have inside : ring.writeIndex.toNat < ring.buffer.length := by
      rw [ring.whole holds]
      exact Nat.lt_succ_of_le ring.write_le
    have stored : ∃ next, (call item ring (.enqueue item)).map Prod.snd = some next := by
      rw [call,RingBuffer.enqueue,RingBuffer.push,if_pos inside]
      split
      · exact ⟨_,rfl⟩
      · exact ⟨_,rfl⟩
    obtain ⟨next,stored⟩ := stored
    obtain ⟨left,others⟩ := ih next
    refine ⟨left,?_⟩
    rw [List.replicate_succ,after,List.foldlM_cons,stored]
    exact others

/-- The indices of a buffer that took some items without an access outside its array. -/
theorem after_enqueued (initial : α) {count : Nat} (below : count < 2 ^ width) (few : count ≤ capacity)
    {ring : RingBuffer α sizeBits capacity width}
    (reached : after initial (.create initial) (List.replicate count (.enqueue initial)) = some ring) :
    ring.writeIndex.toNat = count ∧ ring.readIndex = 0 := by
  induction count generalizing ring with
  | zero =>
    cases reached
    exact ⟨by simp [RingBuffer.create],rfl⟩
  | succ count ih =>
    rw [List.replicate_succ',after,List.foldlM_append] at reached
    obtain ⟨before,earlier,reached⟩ := Option.bind_eq_some_iff.mp reached
    obtain ⟨write,read⟩ := ih (by omega) (by omega) earlier
    have moved : (increment capacity before.writeIndex).toNat = count + 1 := by
      rw [increment,if_neg (by omega),succ_toNat,write]
      exact Nat.mod_eq_of_lt below
    have unfilled : ¬before.isFull = true := by
      rw [RingBuffer.isFull,beq_iff_eq,read,← BitVec.toNat_inj,moved]
      simp
    rw [List.foldlM_cons,call,RingBuffer.enqueue,if_neg unfilled,RingBuffer.push] at reached
    split at reached
    · cases reached
      exact ⟨moved,read⟩
    · cases reached

/-- Where the index type does not hold the capacity, the write index wraps at the type's own end
    and the buffer is full with fewer items than its capacity. -/
theorem narrow_refuses (narrow : 2 ^ width ≤ capacity) (initial : α) {ring : RingBuffer α sizeBits capacity width}
    (reached : after initial (.create initial) (List.replicate (2 ^ width - 1) (.enqueue initial)) = some ring) :
    ring.isFull = true := by
  have positive : 0 < 2 ^ width := Nat.two_pow_pos width
  obtain ⟨write,read⟩ := after_enqueued initial (Nat.sub_lt positive Nat.one_pos) (by omega) reached
  have wraps : (increment capacity ring.writeIndex).toNat = 0 := by
    rw [increment,if_neg (by omega),succ_toNat,write,Nat.sub_add_cancel positive,Nat.mod_self]
  rw [RingBuffer.isFull,beq_iff_eq,read,← BitVec.toNat_inj,wraps]
  simp

/-- Where `size_t` does not hold one more than the capacity, the array has one cell and the second item misses it. -/
theorem one_cell_misses (last : capacity + 1 = 2 ^ sizeBits) (two : 2 ≤ capacity) (fits : capacity < 2 ^ width) (initial : α)
    {ring : RingBuffer α sizeBits capacity width}
    (reached : after initial (.create initial) (List.replicate 1 (.enqueue initial)) = some ring) :
    call initial ring (.enqueue initial) = none := by
  obtain ⟨write,read⟩ := after_enqueued initial (by omega) (by omega) reached
  have moved : (increment capacity ring.writeIndex).toNat = 2 := by
    rw [increment_toNat fits ring.write_le,if_neg (by omega),write]
  have unfilled : ¬ring.isFull = true := by
    rw [RingBuffer.isFull,beq_iff_eq,read,← BitVec.toNat_inj,moved]
    simp
  have one : ring.buffer.length = 1 := by rw [ring.buffer_length,cells,last,Nat.mod_self,if_pos rfl]
  rw [call,RingBuffer.enqueue,if_neg unfilled,RingBuffer.push,if_neg (by omega)]
  rfl

/-- A ring buffer is a list of at most its capacity of items in every run of calls, with no access outside
    its array, exactly when its index type holds the capacity and `size_t` holds one more. -/
theorem ring_buffer_fifo_iff (initial : α) (sizeBits capacity width : Nat) (_positive : 0 < capacity)
    (given : capacity < 2 ^ sizeBits) (wide : 16 ≤ sizeBits) :
    (∀ calls : List (Call α), ∃ ring : RingBuffer α sizeBits capacity width,
      after initial (.create initial) calls = some ring ∧ Reports initial ring (kept capacity [] calls)) ↔
    capacity < 2 ^ width ∧ capacity + 1 < 2 ^ sizeBits := by
  constructor
  · intro reports
    have fits : capacity < 2 ^ width := by
      by_contra narrow
      have few : 2 ^ width ≤ capacity := Nat.not_lt.mp narrow
      have positive : 0 < 2 ^ width := Nat.two_pow_pos width
      obtain ⟨ring,reached,report⟩ := reports (List.replicate (2 ^ width - 1) (.enqueue initial))
      have full := report.isFull
      rw [narrow_refuses few initial reached,kept_enqueued initial (by omega),List.length_replicate,eq_comm,
        decide_eq_true_eq] at full
      omega
    refine ⟨fits,?_⟩
    by_contra large
    have least : 2 ^ 16 ≤ 2 ^ sizeBits := Nat.pow_le_pow_right (by decide) wide
    obtain ⟨ring,reached,report⟩ := reports (List.replicate 1 (.enqueue initial))
    have answered := report.answers (.enqueue initial)
    rw [one_cell_misses (by omega) (by omega) fits initial reached] at answered
    cases answered
  · rintro ⟨fits,holds⟩ calls
    obtain ⟨ring,reached,held⟩ := after_held holds fits initial (.create initial : RingBuffer α sizeBits capacity width) calls
    rw [RingBuffer.create_held holds] at held
    exact ⟨ring,reached,held ▸ reports_held holds fits initial ring⟩

/-- An index of one byte goes round the 256 cells of a buffer of 255 items. -/
theorem widest_byte_index : 0 < 255 ∧ 255 < 2 ^ 64 ∧ 16 ≤ 64 ∧ ∀ calls : List (Call Nat),
    ∃ ring : RingBuffer Nat 64 255 8, after 0 (.create 0) calls = some ring ∧ Reports 0 ring (kept 255 [] calls) :=
  ⟨by decide,by decide,by decide,(ring_buffer_fifo_iff 0 64 255 8 (by decide) (by decide) (by decide)).mpr (by decide)⟩

/-- A buffer of 256 items with the same index refuses an item while it holds 255. -/
theorem byte_index_refuses : (kept 256 [] (List.replicate 255 (.enqueue 0))).length = 255 ∧
    ((after 0 (.create 0 : RingBuffer Nat 64 256 8) (List.replicate 255 (.enqueue 0))).bind (call 0 · (.enqueue 0))).map Prod.fst =
      some (.done false) ∧
    ¬ ∀ calls : List (Call Nat), ∃ ring : RingBuffer Nat 64 256 8,
      after 0 (.create 0) calls = some ring ∧ Reports 0 ring (kept 256 [] calls) := by
  have held : kept 256 [] (List.replicate 255 (.enqueue 0)) = List.replicate 255 0 := kept_enqueued 0 (by decide)
  obtain ⟨ring,reached⟩ := after_enqueued_some (by decide) (.create 0 : RingBuffer Nat 64 256 8) 0 255
  have full : ring.isFull = true := narrow_refuses (by decide) 0 reached
  refine ⟨by rw [held,List.length_replicate],?_,?_⟩
  · rw [reached,Option.bind_some,call,RingBuffer.enqueue,if_pos full]
    rfl
  · intro reports
    obtain ⟨other,again,report⟩ := reports (List.replicate 255 (.enqueue 0))
    rw [reached] at again
    cases again
    have answered := report.isFull
    rw [full,held,List.length_replicate] at answered
    revert answered
    decide

end calls

end WireSpaces.Containers
