import QNEthernet.Lib.Ring
import QNEthernet.Lib.Fifo

/-! `internal/CircularBuffer.h`: a vector-backed ring that overwrites its oldest element. -/

namespace QNEthernet.Internal

structure CircularBuffer (α : Type) where
  buf : List α
  size : Nat
  head : Nat
  tail : Nat
  deriving DecidableEq, Repr

namespace CircularBuffer

variable {α : Type} [Inhabited α]

def make (capacity : Nat) : CircularBuffer α :=
  { buf := List.replicate (max capacity 1) default, size := 0, head := 0, tail := 0 }

def capacity (q : CircularBuffer α) : Nat := q.buf.length

def empty (q : CircularBuffer α) : Bool := q.size == 0

def full (q : CircularBuffer α) : Bool := q.size == q.capacity

/-- `buf_.resize(n)`: new elements are value-initialized. -/
def resizeBuf (buf : List α) (n : Nat) : List α :=
  buf.take n ++ List.replicate (n - buf.length) default

def setCapacity (q : CircularBuffer α) (cap : Nat) : CircularBuffer α :=
  if cap = q.capacity then q
  else
    let actualCap := max cap 1
    if actualCap ≤ q.size then
      -- Keep the newest elements: the new tail is rotated to position 0.
      let n := (q.tail + (q.size - actualCap)) % q.capacity
      { buf := resizeBuf (q.buf.rotate n) actualCap, size := actualCap, head := 0, tail := 0 }
    else
      { buf := resizeBuf (q.buf.rotate q.tail) actualCap, size := q.size, head := q.size, tail := 0 }

/-- `moved` is what a move leaves behind in the slot of the returned element. -/
def get (moved : α → α) (q : CircularBuffer α) : α × CircularBuffer α :=
  if q.empty then (default, q)
  else
    let x := q.buf.getD q.tail default
    (x, { q with
      buf := q.buf.set q.tail (moved x)
      tail := (q.tail + 1) % q.capacity
      size := q.size - 1 })

/-- The returned index is the slot that the caller's reference is bound to. -/
def put (q : CircularBuffer α) : Nat × CircularBuffer α :=
  let t := q.head
  let q := if q.full then { q with tail := (q.tail + 1) % q.capacity } else { q with size := q.size + 1 }
  (t, { q with head := (q.head + 1) % q.capacity })

/-- An assignment through the reference that `put` returned. -/
def store (q : CircularBuffer α) (slot : Nat) (x : α) : CircularBuffer α :=
  { q with buf := q.buf.set slot x }

def clear (q : CircularBuffer α) : CircularBuffer α := { q with size := 0, head := 0, tail := 0 }

/-- A defaulted move takes the vector and copies the indices. -/
def movedFrom (q : CircularBuffer α) : CircularBuffer α := { q with buf := [] }

def contents (q : CircularBuffer α) : List α := Ring.window q.buf q.tail q.size

structure WF (q : CircularBuffer α) : Prop where
  positive : 1 ≤ q.capacity
  bounded : q.size ≤ q.capacity
  tail_lt : q.tail < q.capacity
  head_eq : q.head = (q.tail + q.size) % q.capacity

omit [Inhabited α] in
theorem length_contents (q : CircularBuffer α) (wf : q.WF) : q.contents.length = q.size :=
  Ring.length_window q.buf q.tail q.size wf.bounded

/-- What the ring is for: a bounded queue that drops its oldest elements. -/
def abstract (q : CircularBuffer α) (wf : q.WF) : Fifo α where
  capacity := q.capacity
  items := q.contents
  positive := wf.positive
  bounded := by rw [length_contents q wf]; exact wf.bounded

theorem make_wf (capacity : Nat) : (make capacity : CircularBuffer α).WF := by
  constructor <;> simp [make, CircularBuffer.capacity]

theorem make_contents (capacity : Nat) : (make capacity : CircularBuffer α).contents = [] := by
  simp [make, contents]

omit [Inhabited α] in
@[simp] theorem put_slot (q : CircularBuffer α) : q.put.1 = q.head := rfl

omit [Inhabited α] in
theorem put_store_wf (q : CircularBuffer α) (wf : q.WF) (x : α) :
    (q.put.2.store q.put.1 x).WF := by
  have positive := wf.positive
  have bounded := wf.bounded
  have tail := wf.tail_lt
  have head := wf.head_eq
  simp only [capacity] at positive bounded tail head
  by_cases full : q.size = q.buf.length
  · constructor <;> simp only [put, CircularBuffer.full, capacity, store, full, beq_self_eq_true,
      if_true, List.length_set, Nat.le_refl]
    · exact positive
    · exact Nat.mod_lt _ positive
    · rw [head, full, Nat.add_mod_right, Nat.add_mod_right, Nat.mod_mod, Nat.mod_add_mod]
  · have room : (q.size == q.buf.length) = false := by simp [full]
    constructor <;> simp only [put, CircularBuffer.full, capacity, store, room, Bool.false_eq_true,
      if_false, List.length_set]
    · exact positive
    · omega
    · exact tail
    · rw [head, Nat.mod_add_mod, Nat.add_assoc]

omit [Inhabited α] in
theorem put_store_contents (q : CircularBuffer α) (wf : q.WF) (x : α) :
    (q.put.2.store q.put.1 x).contents = Fifo.kept q.capacity 1 q.contents ++ [x] := by
  have bounded := wf.bounded
  have tail := wf.tail_lt
  have head := wf.head_eq
  simp only [Fifo.kept, length_contents q wf]
  simp only [capacity] at bounded tail head ⊢
  by_cases full : q.size = q.buf.length
  · have start : q.head = q.tail := by
      rw [head, full, Nat.add_mod_right, Nat.mod_eq_of_lt tail]
    simp only [contents, put, CircularBuffer.full, capacity, store, full, beq_self_eq_true, if_true,
      start]
    rw [Ring.window_set_full q.buf q.tail x tail, Nat.add_sub_cancel_left]
  · have room : (q.size == q.buf.length) = false := by simp [full]
    simp only [contents, put, CircularBuffer.full, capacity, store, room, Bool.false_eq_true,
      if_false, head]
    rw [Ring.window_set_push q.buf q.tail q.size x (by omega),
      show q.size + 1 - q.buf.length = 0 by omega, List.drop_zero]

theorem get_wf (moved : α → α) (q : CircularBuffer α) (wf : q.WF) : (q.get moved).2.WF := by
  by_cases empty : q.empty = true
  · simpa only [get, empty, if_true] using wf
  · have positive := wf.positive
    have bounded := wf.bounded
    have head := wf.head_eq
    have size : 1 ≤ q.size := by
      simp only [CircularBuffer.empty, beq_iff_eq] at empty
      omega
    simp only [capacity] at positive bounded head
    constructor <;> simp only [get, empty, capacity, List.length_set, if_false, Bool.false_eq_true]
    · exact positive
    · omega
    · exact Nat.mod_lt _ positive
    · rw [head, Nat.mod_add_mod]
      congr 1
      omega

theorem get_contents (moved : α → α) (q : CircularBuffer α) (wf : q.WF) (some : q.empty = false) :
    q.contents = (q.get moved).1 :: (q.get moved).2.contents := by
  have bounded := wf.bounded
  have tail := wf.tail_lt
  have size : 1 ≤ q.size := by
    simp only [CircularBuffer.empty, beq_eq_false_iff_ne] at some
    omega
  simp only [capacity] at bounded tail
  obtain ⟨rest, count⟩ : ∃ rest, q.size = rest + 1 := ⟨q.size - 1, by omega⟩
  have wrap : ((q.tail + 1) % q.buf.length + (q.buf.length - 1)) % q.buf.length = q.tail := by
    rw [Nat.mod_add_mod, show q.tail + 1 + (q.buf.length - 1) = q.tail + q.buf.length by omega,
      Nat.add_mod_right, Nat.mod_eq_of_lt tail]
  -- The moved-from slot is the last one of the turn, so it lies outside the shorter window.
  have outside := Ring.window_set_outside q.buf ((q.tail + 1) % q.buf.length) rest
    (q.buf.length - 1) (moved (q.buf.getD q.tail default)) (by omega) (by omega)
  rw [wrap] at outside
  simp only [get, some, Bool.false_eq_true, if_false, contents, capacity, count,
    Nat.add_sub_cancel, outside]
  rw [Ring.window_cons q.buf q.tail rest (by omega) tail, List.getD_eq_getElem?_getD,
    List.getElem?_eq_getElem tail, Option.getD_some]

theorem get_capacity (moved : α → α) (q : CircularBuffer α) :
    (q.get moved).2.capacity = q.capacity := by
  unfold get
  split <;> simp [capacity]

omit [Inhabited α] in
theorem put_store_capacity (q : CircularBuffer α) (slot : Nat) (x : α) :
    (q.put.2.store slot x).capacity = q.capacity := by
  unfold put
  split <;> simp [capacity, store]

omit [Inhabited α] in
theorem put_store_size (q : CircularBuffer α) (slot : Nat) (x : α) :
    (q.put.2.store slot x).size + (if q.full then 1 else 0) = q.size + 1 := by
  by_cases full : q.full = true
  · simp only [put, store, full, if_true]
  · simp only [put, store, full, Bool.false_eq_true, if_false, Nat.add_zero]

theorem get_size (moved : α → α) (q : CircularBuffer α) (some : q.empty = false) :
    (q.get moved).2.size + 1 = q.size := by
  simp only [get, some, Bool.false_eq_true, if_false]
  simp only [empty, beq_eq_false_iff_ne] at some
  omega

theorem length_resizeBuf (buf : List α) (n : Nat) : (resizeBuf buf n).length = n := by
  simp [resizeBuf]
  omega

theorem window_resizeBuf (buf : List α) (n size : Nat) (old : size ≤ buf.length) (new : size ≤ n) :
    Ring.window (resizeBuf buf n) 0 size = Ring.window buf 0 size := by
  simp only [Ring.window, List.rotate_zero, resizeBuf]
  rw [List.take_append_of_le_length (by simp; omega), List.take_take, Nat.min_eq_left new]

theorem setCapacity_fewer (q : CircularBuffer α) (cap : Nat) (changed : cap ≠ q.capacity)
    (fewer : max cap 1 ≤ q.size) :
    q.setCapacity cap =
      { buf := resizeBuf (q.buf.rotate ((q.tail + (q.size - max cap 1)) % q.capacity)) (max cap 1)
        size := max cap 1, head := 0, tail := 0 } := by
  simp only [setCapacity, if_neg changed, if_pos fewer]

theorem setCapacity_more (q : CircularBuffer α) (cap : Nat) (changed : cap ≠ q.capacity)
    (more : ¬ max cap 1 ≤ q.size) :
    q.setCapacity cap =
      { buf := resizeBuf (q.buf.rotate q.tail) (max cap 1)
        size := q.size, head := q.size, tail := 0 } := by
  simp only [setCapacity, if_neg changed, if_neg more]

theorem setCapacity_capacity (q : CircularBuffer α) (wf : q.WF) (cap : Nat) :
    (q.setCapacity cap).capacity = max cap 1 := by
  have positive := wf.positive
  by_cases same : cap = q.capacity
  · simp only [setCapacity, if_pos same]
    omega
  · by_cases fewer : max cap 1 ≤ q.size
    · rw [setCapacity_fewer q cap same fewer, capacity, length_resizeBuf]
    · rw [setCapacity_more q cap same fewer, capacity, length_resizeBuf]

theorem setCapacity_wf (q : CircularBuffer α) (wf : q.WF) (cap : Nat) : (q.setCapacity cap).WF := by
  have size := setCapacity_capacity q wf cap
  by_cases same : cap = q.capacity
  · simpa only [setCapacity, if_pos same] using wf
  · by_cases fewer : max cap 1 ≤ q.size
    · rw [setCapacity_fewer q cap same fewer] at size ⊢
      constructor
      · rw [size]; exact Nat.le_max_right _ _
      · rw [size]
      · rw [size]; exact Nat.le_max_right _ _
      · rw [size, Nat.zero_add, Nat.mod_self]
    · rw [setCapacity_more q cap same fewer] at size ⊢
      constructor
      · rw [size]; exact Nat.le_max_right _ _
      · rw [size]; exact Nat.le_of_not_le fewer
      · rw [size]; exact Nat.le_max_right _ _
      · rw [size, Nat.zero_add, Nat.mod_eq_of_lt (Nat.lt_of_not_le fewer)]

theorem setCapacity_contents (q : CircularBuffer α) (wf : q.WF) (cap : Nat) :
    (q.setCapacity cap).contents = Fifo.kept (max cap 1) 0 q.contents := by
  have positive := wf.positive
  have bounded := wf.bounded
  simp only [Fifo.kept, length_contents q wf, Nat.add_zero]
  by_cases same : cap = q.capacity
  · simp only [setCapacity, if_pos same]
    rw [show q.size - max cap 1 = 0 by omega, List.drop_zero]
  · simp only [capacity] at bounded
    by_cases fewer : max cap 1 ≤ q.size
    · rw [setCapacity_fewer q cap same fewer]
      simp only [contents]
      rw [window_resizeBuf _ _ _ (by rw [List.length_rotate]; omega) (Nat.le_refl _),
        Ring.drop_window q.buf q.tail q.size _ bounded (by omega)]
      simp only [Ring.window, List.rotate_zero, capacity]
      rw [show q.size - (q.size - max cap 1) = max cap 1 by omega]
    · rw [setCapacity_more q cap same fewer]
      simp only [contents]
      rw [window_resizeBuf _ _ _ (by rw [List.length_rotate]; omega) (by omega),
        show q.size - max cap 1 = 0 by omega, List.drop_zero]
      simp only [Ring.window, List.rotate_zero]

theorem setCapacity_size (q : CircularBuffer α) (wf : q.WF) (cap : Nat) (fits : q.size ≤ max cap 1) :
    (q.setCapacity cap).size = q.size := by
  rw [← length_contents _ (setCapacity_wf q wf cap), setCapacity_contents q wf cap, Fifo.kept,
    List.length_drop, length_contents q wf]
  omega

omit [Inhabited α] in
theorem put_store_refines (q : CircularBuffer α) (wf : q.WF) (x : α) :
    (q.put.2.store q.put.1 x).abstract (put_store_wf q wf x) = (q.abstract wf).push x := by
  apply Fifo.ext_items
  · exact put_store_capacity q q.put.1 x
  · exact put_store_contents q wf x

theorem get_refines (moved : α → α) (q : CircularBuffer α) (wf : q.WF) (some : q.empty = false) :
    (q.abstract wf).pop =
      Option.some ((q.get moved).1, (q.get moved).2.abstract (get_wf moved q wf)) := by
  have popped := get_contents moved q wf some
  unfold Fifo.pop
  split
  next found =>
    change q.contents = [] at found
    rw [popped] at found
    cases found
  next x rest found =>
    change q.contents = x :: rest at found
    rw [popped] at found
    cases found
    congr 2
    apply Fifo.ext_items
    · exact (get_capacity moved q).symm
    · rfl

theorem setCapacity_refines (q : CircularBuffer α) (wf : q.WF) (cap : Nat) :
    (q.setCapacity cap).abstract (setCapacity_wf q wf cap) = (q.abstract wf).resize cap := by
  apply Fifo.ext_items
  · exact setCapacity_capacity q wf cap
  · exact setCapacity_contents q wf cap

end CircularBuffer
end QNEthernet.Internal
