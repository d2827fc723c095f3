import QNEthernet.Internal.CircularBuffer
import QNEthernet.Internal.ByteBuffer
import QNEthernet.Lib.Run

/-! Both buffers against the queues they are meant to be, over every sequence of calls. -/

namespace QNEthernet.Internal

open Lwip

namespace CircularBuffer

variable {α : Type} [Inhabited α]

/-- `operator[]`. It asserts that there is such an element. -/
def elementAt (q : CircularBuffer α) (n : Nat) : Option α :=
  if n < q.size then q.buf[(q.tail + n) % q.capacity]? else none

inductive Call (α : Type) where
  -- `put` and the assignment through the reference it returns.
  | put (x : α)
  | get
  | clear
  | setCapacity (cap : Nat)
  | elementAt (n : Nat)

def call (moved : α → α) (q : CircularBuffer α) : Call α → Option α × CircularBuffer α
  | .put x => (none, q.put.2.store q.put.1 x)
  | .get => (some (q.get moved).1, (q.get moved).2)
  | .clear => (none, q.clear)
  | .setCapacity cap => (none, q.setCapacity cap)
  | .elementAt n => (q.elementAt n, q)

/-- The calls on a queue that drops its oldest element when it is full. -/
def dropOldest (q : Fifo α) : Call α → Option α × Fifo α
  | .put x => (none, q.push x)
  | .get =>
      match q.pop with
      | none => (some default, q)
      | some (x, rest) => (some x, rest)
  | .clear => (none, q.clear)
  | .setCapacity cap => (none, q.resize cap)
  | .elementAt n => (q.items[n]?, q)

def Represents (q : CircularBuffer α) (spec : Fifo α) : Prop :=
  ∃ wf : q.WF, q.abstract wf = spec

omit [Inhabited α] in
theorem clear_wf (q : CircularBuffer α) (wf : q.WF) : q.clear.WF := by
  constructor
  · exact wf.positive
  · exact Nat.zero_le _
  · exact wf.positive
  · exact (Nat.zero_mod _).symm

omit [Inhabited α] in
theorem clear_refines (q : CircularBuffer α) (wf : q.WF) :
    q.clear.abstract (clear_wf q wf) = (q.abstract wf).clear := by
  apply Fifo.ext_items
  · rfl
  · exact Ring.window_zero q.buf 0

omit [Inhabited α] in
theorem elementAt_refines (q : CircularBuffer α) (wf : q.WF) (n : Nat) :
    q.elementAt n = (q.abstract wf).items[n]? := by
  change q.elementAt n = q.contents[n]?
  unfold elementAt
  split
  next inside => exact (Ring.getElem?_window q.buf q.tail q.size n wf.bounded inside).symm
  next outside =>
    symm
    rw [List.getElem?_eq_none_iff, length_contents q wf]
    exact Nat.le_of_not_lt outside

theorem call_represents (moved : α → α) (q : CircularBuffer α) (spec : Fifo α) (c : Call α)
    (same : Represents q spec) :
    (q.call moved c).1 = (dropOldest spec c).1 ∧
      Represents (q.call moved c).2 (dropOldest spec c).2 := by
  obtain ⟨wf, rfl⟩ := same
  cases c with
  | put x => exact ⟨rfl, put_store_wf q wf x, put_store_refines q wf x⟩
  | get =>
      cases empty : q.empty with
      | true =>
          have size : q.size = 0 := by simpa [CircularBuffer.empty] using empty
          have none : q.contents = [] := by rw [contents, size, Ring.window_zero]
          have nothing : (q.abstract wf).pop = Option.none := by
            unfold Fifo.pop
            split
            next => rfl
            next found => exact absurd (none.symm.trans found) (by simp)
          simp only [call, dropOldest, get, empty, if_true, nothing]
          exact ⟨trivial, wf, rfl⟩
      | false =>
          have popped := get_refines moved q wf empty
          simp only [call, dropOldest, popped]
          exact ⟨trivial, get_wf moved q wf, rfl⟩
  | clear => exact ⟨rfl, clear_wf q wf, clear_refines q wf⟩
  | setCapacity cap => exact ⟨rfl, setCapacity_wf q wf cap, setCapacity_refines q wf cap⟩
  | elementAt n => exact ⟨elementAt_refines q wf n, wf, rfl⟩

theorem make_represents (capacity : Nat) : Represents (make capacity : CircularBuffer α) (.empty capacity) := by
  refine ⟨make_wf capacity, ?_⟩
  apply Fifo.ext_items
  · simp [abstract, make, CircularBuffer.capacity, Fifo.empty]
  · exact make_contents capacity

/-- Whatever the capacity and the calls, the ring answers as the queue does and holds its elements. -/
theorem refines_dropOldest (moved : α → α) (capacity : Nat) (calls : List (Call α)) :
    let q := (Run.trace (call moved) (make capacity) calls).2
    let spec := (Run.trace dropOldest (.empty capacity) calls).2
    (Run.trace (call moved) (make capacity) calls).1 =
        (Run.trace dropOldest (.empty capacity) calls).1 ∧
      1 ≤ q.capacity ∧ q.size ≤ q.capacity ∧ q.head = (q.tail + q.size) % q.capacity ∧
      q.capacity = spec.capacity ∧ q.size = spec.items.length ∧
      (∀ n < q.size, q.elementAt n = spec.items[n]?) ∧ q.contents = spec.items := by
  obtain ⟨answers, wf, same⟩ := Run.trace_simulates Represents (call moved) dropOldest
    (call_represents moved) calls (make capacity) (.empty capacity) (make_represents capacity)
  intro q spec
  have holds : q.abstract wf = spec := same
  rw [← holds]
  exact ⟨answers, wf.positive, wf.bounded, wf.head_eq, rfl, (length_contents q wf).symm,
    fun n _ => elementAt_refines q wf n, rfl⟩

end CircularBuffer

namespace ByteBuffer

def clear (q : ByteBuffer) : ByteBuffer := { q with size := 0, head := 0, tail := 0 }

inductive Call where
  | write (bytes : List Byte)
  | read (size : Nat)
  | skip (size : Nat)
  | readPbuf (p : Pbuf) (pbufOffset : Nat)
  | clear

inductive Answer where
  | size (n : Nat)
  | bytes (bytes : List Byte)
  | pbuf (err : Err) (bytes : List Byte)
  | none
  deriving DecidableEq

def call (q : ByteBuffer) : Call → Answer × ByteBuffer
  | .write bytes => (.size (q.write bytes).1, (q.write bytes).2)
  | .read size => (.bytes (q.read size).1, (q.read size).2)
  | .skip size => (.size (q.skip size).1, (q.skip size).2)
  | .readPbuf p pbufOffset =>
      (.pbuf (q.readPbuf p.bytes pbufOffset).1 (q.readPbuf p.bytes pbufOffset).2.1,
        (q.readPbuf p.bytes pbufOffset).2.2)
  | .clear => (.none, q.clear)

/-- The calls on a queue of bytes that takes what it has room for. A pbuf is filled from its offset to
its end or not at all. -/
def takeWhatFits (q : Fifo Byte) : Call → Answer × Fifo Byte
  | .write bytes => (.size (q.append bytes).1, (q.append bytes).2)
  | .read size => (.bytes (q.take size).1, (q.take size).2)
  | .skip size => (.size (min size q.items.length), (q.take size).2)
  | .readPbuf p pbufOffset =>
      if p.totLen < pbufOffset then (.pbuf .arg p.bytes, q)
      else if q.items.length < p.totLen - pbufOffset then (.pbuf .buf p.bytes, q)
      else
        (.pbuf .ok (p.bytes.take pbufOffset ++ (q.take (p.totLen - pbufOffset)).1),
          (q.take (p.totLen - pbufOffset)).2)
  | .clear => (.none, q.clear)

def Represents (q : ByteBuffer) (spec : Fifo Byte) : Prop :=
  q.WF ∧ q.capacity = spec.capacity ∧ q.contents = spec.items

theorem Represents.size {q : ByteBuffer} {spec : Fifo Byte} (same : Represents q spec) :
    q.size = spec.items.length := by
  rw [← length_contents q same.1, same.2.2]

theorem write_take (q : ByteBuffer) (wf : q.WF) (bytes : List Byte) :
    q.write bytes = q.write (bytes.take (min bytes.length q.remaining)) := by
  have start : q.head < q.capacity := by
    rw [wf.head_eq]
    exact Nat.mod_lt _ wf.positive
  have room : q.remaining ≤ q.capacity := Nat.sub_le _ _
  have length : min (bytes.take (min bytes.length q.remaining)).length q.remaining =
      min bytes.length q.remaining := by
    rw [List.length_take]
    omega
  simp only [write, length, Nat.mod_eq_of_lt start, List.take_take, Nat.min_self]
  generalize size : min bytes.length q.remaining = n
  by_cases none : n = 0
  · rw [if_pos none, if_pos none]
  · rw [if_neg none, if_neg none]
    congr 2
    have turn := start_lt_iff q.head n q.capacity start (by omega) (by omega)
    by_cases straight : q.head + n < q.capacity
    · rw [if_pos (turn.mpr straight), if_pos (turn.mpr straight)]
    · have wrap := wrap_eq q.head n q.capacity start (by omega) straight
      rw [if_neg (fun around => straight (turn.mp around)),
        if_neg (fun around => straight (turn.mp around)), wrap, List.drop_take, List.take_take,
        Nat.min_eq_left (show q.capacity - q.head ≤ n by omega),
        Nat.min_eq_left (show q.head + n - q.capacity ≤ n - (q.capacity - q.head) by omega)]

theorem read_min (q : ByteBuffer) (size : Nat) : q.read size = q.read (min size q.size) := by
  simp only [read, Nat.min_assoc, Nat.min_self]

theorem skip_min (q : ByteBuffer) (size : Nat) : q.skip size = q.skip (min size q.size) := by
  simp only [skip, Nat.min_assoc, Nat.min_self]

theorem clear_wf (q : ByteBuffer) (wf : q.WF) : q.clear.WF := by
  constructor
  · exact wf.positive
  · exact Nat.zero_le _
  · exact wf.positive
  · exact (Nat.zero_mod _).symm

theorem write_represents {q : ByteBuffer} {spec : Fifo Byte} (same : Represents q spec)
    (bytes : List Byte) :
    (q.write bytes).1 = (spec.append bytes).1 ∧ Represents (q.write bytes).2 (spec.append bytes).2 := by
  have room : q.remaining = spec.capacity - spec.items.length := by
    rw [remaining, same.2.1, same.size]
  have length : (bytes.take (min bytes.length q.remaining)).length = min bytes.length q.remaining := by
    rw [List.length_take]
    omega
  have wrote := write_contents q same.1 (bytes.take (min bytes.length q.remaining)) (by omega)
  rw [← write_take q same.1, length] at wrote
  obtain ⟨count, wf, contents, capacity⟩ := wrote
  refine ⟨by rw [count, room]; rfl, wf, capacity.trans same.2.1, ?_⟩
  rw [contents, same.2.2, room]
  rfl

theorem read_represents {q : ByteBuffer} {spec : Fifo Byte} (same : Represents q spec) (size : Nat) :
    (q.read size).1 = (spec.take size).1 ∧ Represents (q.read size).2 (spec.take size).2 := by
  obtain ⟨wf, bytes, rest, capacity⟩ := read_contents q same.1 (min size q.size) (by omega)
  rw [← read_min] at wf bytes rest capacity
  rw [same.size, same.2.2] at bytes rest
  refine ⟨?_, wf, capacity.trans same.2.1, ?_⟩
  · rw [bytes, ← List.take_eq_take_min]
    rfl
  · rw [rest, ← List.drop_eq_drop_min]
    rfl

theorem skip_represents {q : ByteBuffer} {spec : Fifo Byte} (same : Represents q spec) (size : Nat) :
    (q.skip size).1 = min size spec.items.length ∧
      Represents (q.skip size).2 (spec.take size).2 := by
  obtain ⟨wf, rest, capacity⟩ := skip_contents q same.1 (min size q.size) (by omega)
  rw [← skip_min] at wf rest capacity
  rw [same.size, same.2.2] at rest
  refine ⟨?_, wf, capacity.trans same.2.1, ?_⟩
  · rw [← same.size, skip]
    split
    next none => exact none.symm
    next => rfl
  · rw [rest, ← List.drop_eq_drop_min]
    rfl

theorem readPbuf_represents {q : ByteBuffer} {spec : Fifo Byte} (same : Represents q spec) (p : Pbuf)
    (pbufOffset : Nat) :
    (q.call (.readPbuf p pbufOffset)).1 = (takeWhatFits spec (.readPbuf p pbufOffset)).1 ∧
      Represents (q.call (.readPbuf p pbufOffset)).2
        (takeWhatFits spec (.readPbuf p pbufOffset)).2 := by
  simp only [call, takeWhatFits]
  by_cases past : p.totLen < pbufOffset
  · have refused : q.readPbuf p.bytes pbufOffset = (.arg, p.bytes, q) := if_pos past
    rw [refused, if_pos past]
    exact ⟨rfl, same⟩
  · by_cases few : spec.items.length < p.totLen - pbufOffset
    · have refused : q.readPbuf p.bytes pbufOffset = (.buf, p.bytes, q) := by
        have few : p.bytes.length - pbufOffset > q.size := by rwa [same.size]
        exact (if_neg past).trans (if_pos few)
      rw [refused, if_neg past, if_pos few]
      exact ⟨rfl, same⟩
    · have enough : p.bytes.length - pbufOffset ≤ q.size := by
        rw [same.size]
        exact Nat.le_of_not_lt few
      obtain ⟨ok, filled, wf, rest, capacity⟩ :=
        readPbuf_contents q same.1 p.bytes pbufOffset p.short (Nat.le_of_not_lt past) enough
      rw [if_neg past, if_neg few, ok, filled, same.2.2]
      refine ⟨rfl, wf, capacity.trans same.2.1, ?_⟩
      rw [rest, same.2.2]
      rfl

theorem call_represents (q : ByteBuffer) (spec : Fifo Byte) (c : Call) (same : Represents q spec) :
    (q.call c).1 = (takeWhatFits spec c).1 ∧ Represents (q.call c).2 (takeWhatFits spec c).2 := by
  cases c with
  | write bytes =>
      obtain ⟨count, kept⟩ := write_represents same bytes
      exact ⟨congrArg Answer.size count, kept⟩
  | read size =>
      obtain ⟨bytes, kept⟩ := read_represents same size
      exact ⟨congrArg Answer.bytes bytes, kept⟩
  | skip size =>
      obtain ⟨count, kept⟩ := skip_represents same size
      exact ⟨congrArg Answer.size count, kept⟩
  | readPbuf p pbufOffset => exact readPbuf_represents same p pbufOffset
  | clear => exact ⟨rfl, clear_wf q same.1, same.2.1, Ring.window_zero q.buf 0⟩

theorem takeWhatFits_capacity (spec : Fifo Byte) (c : Call) :
    (takeWhatFits spec c).2.capacity = spec.capacity := by
  cases c with
  | readPbuf p pbufOffset =>
      simp only [takeWhatFits]
      split
      · rfl
      · split <;> rfl
  | write | read | skip | clear => rfl

/-- Whatever the array holds at first, a buffer of `N` bytes answers as the queue of `N` bytes does and
holds its bytes. -/
theorem refines_takeWhatFits (N : Nat) (positive : 1 ≤ N) (array : Vector Byte N) (calls : List Call) :
    let start : ByteBuffer := { buf := array.toList }
    let q := (Run.trace call start calls).2
    let spec := (Run.trace takeWhatFits (.empty N) calls).2
    (Run.trace call start calls).1 = (Run.trace takeWhatFits (.empty N) calls).1 ∧
      q.capacity = N ∧ q.size ≤ N ∧ q.size = spec.items.length ∧ q.contents = spec.items := by
  intro start q spec
  have length : start.capacity = N := by simp [start, capacity]
  have fresh : Represents start (.empty N) := by
    refine ⟨⟨?_, Nat.zero_le _, ?_, (Nat.zero_mod _).symm⟩, ?_, Ring.window_zero _ 0⟩
    · rw [length]
      exact positive
    · rw [length]
      exact positive
    · rw [length]
      exact (Nat.max_eq_left positive).symm
  obtain ⟨answers, same, size⟩ := Run.trace_simulates
    (fun q spec => Represents q spec ∧ spec.capacity = N) call takeWhatFits
    (fun q spec c same => by
      obtain ⟨answer, kept⟩ := call_represents q spec c same.1
      exact ⟨answer, kept, (takeWhatFits_capacity spec c).trans same.2⟩)
    calls start (.empty N) ⟨fresh, Nat.max_eq_left positive⟩
  have capacity : q.capacity = N := same.2.1.trans size
  exact ⟨answers, capacity, capacity ▸ same.1.bounded, same.size, same.2.2⟩

/-- The buffer is full and split across the end of the array when the pbuf takes all of it. -/
def splitCalls : List Call :=
  [.write [1, 2, 3], .skip 2, .write [4, 5, 6, 7], .readPbuf ⟨[[0, 0], [0, 0, 0]], by decide⟩ 1, .read 1]

theorem refines_takeWhatFits_split :
    (Run.trace call { buf := [9, 9, 9, 9] } splitCalls).1 =
      [.size 3, .size 2, .size 3, .pbuf .ok [0, 3, 4, 5, 6], .bytes []] :=
  (refines_takeWhatFits 4 (by decide) #v[9, 9, 9, 9] splitCalls).1.trans (by decide)

end ByteBuffer
end QNEthernet.Internal
