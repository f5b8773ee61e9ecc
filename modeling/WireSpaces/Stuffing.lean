import Mathlib

/-!
Flag-delimited streams over any alphabet. A flag separates the parts of a stream
and never occurs inside one: an item that is the flag or the escape is sent as the
escape followed by its twisted form.
-/
namespace WireSpaces.Stuffing

/-- The reserved items and the twist that hides them. -/
structure Scheme (α : Type*) where
  flag : α
  escape : α
  twist : α → α
  twist_twist : ∀ x, twist (twist x) = x
  flag_ne_escape : flag ≠ escape
  twist_flag : twist flag ≠ flag
  twist_escape : twist escape ≠ flag

variable {α : Type*} [DecidableEq α]

/-! ### Splitting at flags -/

section parts
variable (flag : α)

/-- The parts between two flags: neither what precedes the first nor what follows the last. -/
def closedParts (stream : List α) : List (List α) := (stream.splitOn flag).tail.dropLast

/-- What follows the last flag, or the whole stream without one. -/
def openPart (stream : List α) : List α := (stream.splitOn flag).getLast (List.splitOn_ne_nil flag stream)

variable {flag}

/-- A stream with a flag has a last one. -/
theorem last_flag {stream : List α} (member : flag ∈ stream) :
    ∃ before after, stream = before ++ flag :: after ∧ flag ∉ after := by
  induction stream using List.reverseRecOn with
  | nil => simp at member
  | append_singleton stream x ih =>
    by_cases same : x = flag
    · exact ⟨stream,[],by rw [same],by simp⟩
    · have earlier : flag ∈ stream := by
        rcases List.mem_append.mp member with inside | last
        · exact inside
        · exact absurd (List.mem_singleton.mp last).symm same
      obtain ⟨before,after,rfl,free⟩ := ih earlier
      refine ⟨before,after ++ [x],by simp,?_⟩
      intro inside
      rcases List.mem_append.mp inside with old | last
      · exact free old
      · exact same (List.mem_singleton.mp last).symm

theorem openPart_of_not_mem {stream : List α} (free : flag ∉ stream) : openPart flag stream = stream := by
  simp [openPart,List.splitOn_eq_singleton free]

theorem openPart_after_flag (before : List α) {after : List α} (free : flag ∉ after) :
    openPart flag (before ++ flag :: after) = after := by
  simp [openPart,List.splitOn_append_cons_self,List.splitOn_eq_singleton free]

theorem closedParts_of_not_mem {stream : List α} (free : flag ∉ stream) : closedParts flag stream = [] := by
  simp [closedParts,List.splitOn_eq_singleton free]

theorem closedParts_after_flag (before : List α) {after : List α} (free : flag ∉ after) :
    closedParts flag (before ++ flag :: after) = (before.splitOn flag).tail := by
  rw [closedParts,List.splitOn_append_cons_self,List.splitOn_eq_singleton free,
    List.tail_append_of_ne_nil (List.splitOn_ne_nil flag before),List.dropLast_concat]

theorem openPart_concat_flag (stream : List α) : openPart flag (stream ++ [flag]) = [] :=
  openPart_after_flag stream (by simp)

theorem openPart_concat {stream : List α} {x : α} (other : x ≠ flag) :
    openPart flag (stream ++ [x]) = openPart flag stream ++ [x] := by
  by_cases member : flag ∈ stream
  · obtain ⟨before,after,rfl,free⟩ := last_flag member
    rw [List.append_assoc,List.cons_append,openPart_after_flag before free,
      openPart_after_flag before (by simp [free,other.symm])]
  · rw [openPart_of_not_mem member,openPart_of_not_mem (by simp [member,other.symm])]

theorem closedParts_concat {stream : List α} {x : α} (other : x ≠ flag) :
    closedParts flag (stream ++ [x]) = closedParts flag stream := by
  by_cases member : flag ∈ stream
  · obtain ⟨before,after,rfl,free⟩ := last_flag member
    rw [List.append_assoc,List.cons_append,closedParts_after_flag before free,
      closedParts_after_flag before (by simp [free,other.symm])]
  · rw [closedParts_of_not_mem member,closedParts_of_not_mem (by simp [member,other.symm])]

/-- A flag closes the open part, unless it is the first. -/
theorem closedParts_concat_flag (stream : List α) :
    closedParts flag (stream ++ [flag]) =
      if flag ∈ stream then closedParts flag stream ++ [openPart flag stream] else [] := by
  rw [closedParts_after_flag stream (by simp)]
  split
  · rename_i member
    obtain ⟨before,after,rfl,free⟩ := last_flag member
    rw [openPart_after_flag before free,closedParts_after_flag before free,List.splitOn_append_cons_self,
      List.splitOn_eq_singleton free,List.tail_append_of_ne_nil (List.splitOn_ne_nil flag before)]
  · rename_i free
    rw [List.splitOn_eq_singleton free,List.tail_cons]

end parts

/-! ### Escapes -/

section escapes
variable (c : Scheme α)

def stuffItem (x : α) : List α := if x = c.flag ∨ x = c.escape then [c.escape,c.twist x] else [x]

def stuff (content : List α) : List α := content.flatMap (stuffItem c)

/-- The content of a part, unless its last escape has no partner. -/
def unstuff : List α → Option (List α)
  | [] => some []
  | [x] => if x = c.escape then none else some [x]
  | x :: y :: rest =>
    if x = c.escape then (unstuff rest).map (c.twist y :: ·) else (unstuff (y :: rest)).map (x :: ·)

/-- One item read from left to right: the content so far and whether an escape is pending. -/
def scanItem (read : List α × Bool) (x : α) : List α × Bool :=
  if read.2 then (read.1 ++ [c.twist x],false)
  else if x = c.escape then (read.1,true)
  else (read.1 ++ [x],false)

def scan (part : List α) : List α × Bool := part.foldl (scanItem c) ([],false)

variable {c}

@[simp] theorem stuff_nil : stuff c [] = [] := rfl

@[simp] theorem stuff_cons (x : α) (content : List α) : stuff c (x :: content) = stuffItem c x ++ stuff c content := rfl

@[simp] theorem stuff_append (front back : List α) : stuff c (front ++ back) = stuff c front ++ stuff c back :=
  List.flatMap_append

theorem scanItem_foldl (done : List α) (pending : Bool) (part : List α) :
    part.foldl (scanItem c) (done,pending) =
      (done ++ (part.foldl (scanItem c) ([],pending)).1,(part.foldl (scanItem c) ([],pending)).2) := by
  induction part generalizing done pending with
  | nil => simp
  | cons x part ih =>
    simp only [List.foldl_cons,scanItem,List.nil_append]
    split
    · rw [ih (done ++ [c.twist x]),ih [c.twist x]]
      simp
    · split
      · rw [ih done]
      · rw [ih (done ++ [x]),ih [x]]
        simp

theorem scan_append (front back : List α) (whole : (scan c front).2 = false) :
    scan c (front ++ back) = ((scan c front).1 ++ (scan c back).1,(scan c back).2) := by
  have read : front.foldl (scanItem c) ([],false) = ((scan c front).1,false) := Prod.ext rfl whole
  rw [scan,List.foldl_append,read,scanItem_foldl]
  rfl

theorem scan_concat (part : List α) (x : α) : scan c (part ++ [x]) = scanItem c (scan c part) x := by
  rw [scan,List.foldl_append]
  rfl

theorem scan_escape_cons (y : α) (rest : List α) :
    scan c (c.escape :: y :: rest) = (c.twist y :: (scan c rest).1,(scan c rest).2) :=
  scan_append [c.escape,y] rest (by simp [scan,scanItem]) |>.trans (by simp [scan,scanItem])

theorem scan_cons {x : α} (other : x ≠ c.escape) (rest : List α) :
    scan c (x :: rest) = (x :: (scan c rest).1,(scan c rest).2) :=
  scan_append [x] rest (by simp [scan,scanItem,other]) |>.trans (by simp [scan,scanItem,other])

/-- Reading pairs from the left and scanning item by item agree. -/
theorem unstuff_eq_scan (part : List α) :
    unstuff c part = if (scan c part).2 then none else some (scan c part).1 := by
  fun_induction unstuff c part with
  | case1 => simp [scan]
  | case2 => simp [scan,scanItem]
  | case3 x other => simp [scan,scanItem,other]
  | case4 y rest ih =>
    rw [ih,scan_escape_cons]
    split <;> simp
  | case5 x y rest other ih =>
    rw [ih,scan_cons other (y :: rest)]
    split <;> simp

theorem scan_stuffItem (x : α) : scan c (stuffItem c x) = ([x],false) := by
  unfold stuffItem
  split
  · simp [scan,scanItem,c.twist_twist]
  · rename_i plain
    push Not at plain
    simp [scan,scanItem,plain.2]

theorem scan_stuff (content : List α) : scan c (stuff c content) = (content,false) := by
  induction content with
  | nil => rfl
  | cons x content ih =>
    rw [stuff_cons,scan_append _ _ (by rw [scan_stuffItem]),scan_stuffItem,ih]
    rfl

theorem unstuff_stuff (content : List α) : unstuff c (stuff c content) = some content := by
  rw [unstuff_eq_scan,scan_stuff]
  rfl

theorem flag_not_mem_stuff (content : List α) : c.flag ∉ stuff c content := by
  rw [stuff,List.mem_flatMap]
  rintro ⟨x,-,inside⟩
  unfold stuffItem at inside
  split at inside
  · rename_i reserved
    rcases List.mem_pair.mp inside with same | same
    · exact c.flag_ne_escape same
    · rcases reserved with rfl | rfl
      · exact c.twist_flag same.symm
      · exact c.twist_escape same.symm
  · rename_i plain
    push Not at plain
    exact plain.1 (List.mem_singleton.mp inside).symm

/-- Scanning only adds to the content. -/
theorem scanItem_length_le (read : List α × Bool) (x : α) : read.1.length ≤ (scanItem c read x).1.length := by
  rw [scanItem]
  split
  · simp
  · split
    · exact le_refl _
    · simp

end escapes
end WireSpaces.Stuffing
