import QNEthernet.Lwip.Pbuf

/-! `internal/ByteBuffer.h`: a byte ring of fixed capacity with block reads and writes. -/

namespace QNEthernet.Internal

open Lwip

structure ByteBuffer where
  buf : List Byte
  size : Nat := 0
  head : Nat := 0
  tail : Nat := 0

namespace ByteBuffer

def capacity (q : ByteBuffer) : Nat := q.buf.length

def empty (q : ByteBuffer) : Bool := q.size == 0

def remaining (q : ByteBuffer) : Nat := q.capacity - q.size

/-- The copy of `pSize` bytes to a pbuf, in two pieces if they go around the end. -/
def fillPbuf (q : ByteBuffer) (p : List Byte) (pSize pbufOffset : Nat) : Err × List Byte :=
  let start := q.tail % q.capacity
  let newTail := (q.tail + pSize) % q.capacity
  if start < newTail then pbufTakeAt p ((q.buf.drop start).take pSize) pbufOffset
  else
    let firstSize := (q.capacity - start) % 2 ^ 16
    let first := pbufTakeAt p ((q.buf.drop start).take firstSize) pbufOffset
    if first.1 = .ok ∧ newTail ≠ 0 then
      pbufTakeAt first.2 (q.buf.take (newTail % 2 ^ 16)) (firstSize + pbufOffset)
    else first

/-- `read(p, pbufOffset)`: fills the bytes of `p` behind the offset. -/
def readPbuf (q : ByteBuffer) (p : List Byte) (pbufOffset : Nat) : Err × List Byte × ByteBuffer :=
  if p.length < pbufOffset then (.arg, p, q)
  else
    let pSize := p.length - pbufOffset
    if pSize > q.size then (.buf, p, q)
    else if pSize = 0 then (.ok, p, q)
    else
      match q.fillPbuf p pSize pbufOffset with
      | (.ok, p) =>
          (.ok, p, { q with tail := (q.tail + pSize) % q.capacity, size := q.size - pSize })
      | (err, p) => (err, p, q)

/-- `read(buf, size)` with a buffer: the bytes copied to it. -/
def read (q : ByteBuffer) (size : Nat) : List Byte × ByteBuffer :=
  let size := min size q.size
  if size = 0 then ([], q)
  else
    let start := q.tail % q.capacity
    let newTail := (q.tail + size) % q.capacity
    let bytes :=
      if start < newTail then (q.buf.drop start).take size
      else (q.buf.drop start).take (q.capacity - start) ++ q.buf.take newTail
    (bytes, { q with tail := newTail, size := q.size - size })

def skip (q : ByteBuffer) (size : Nat) : Nat × ByteBuffer :=
  let size := min size q.size
  if size = 0 then (0, q)
  else (size, { q with tail := (q.tail + size) % q.capacity, size := q.size - size })

def write (q : ByteBuffer) (bytes : List Byte) : Nat × ByteBuffer :=
  let size := min bytes.length q.remaining
  if size = 0 then (0, q)
  else
    let start := q.head % q.capacity
    let newHead := (q.head + size) % q.capacity
    let buf :=
      if start < newHead then Ring.overwrite q.buf start (bytes.take size)
      else Ring.overwrite (Ring.overwrite q.buf start (bytes.take (q.capacity - start))) 0
        ((bytes.drop (q.capacity - start)).take newHead)
    (size, { q with buf := buf, head := newHead, size := q.size + size })

def contents (q : ByteBuffer) : List Byte := Ring.window q.buf q.tail q.size

structure WF (q : ByteBuffer) : Prop where
  positive : 1 ≤ q.capacity
  bounded : q.size ≤ q.capacity
  tail_lt : q.tail < q.capacity
  head_eq : q.head = (q.tail + q.size) % q.capacity

theorem wf_fresh {buf : List Byte} (some_bytes : 1 ≤ buf.length) : ({ buf := buf } : ByteBuffer).WF where
  positive := some_bytes
  bounded := Nat.zero_le _
  tail_lt := some_bytes
  head_eq := (Nat.zero_mod _).symm

theorem length_contents (q : ByteBuffer) (wf : q.WF) : q.contents.length = q.size :=
  Ring.length_window q.buf q.tail q.size wf.bounded

/-- A step of at most one turn ends behind its start unless it meets the end of the array. -/
theorem start_lt_iff (start n capacity : Nat) (inside : start < capacity) (some : 0 < n)
    (once : n ≤ capacity) : start < (start + n) % capacity ↔ start + n < capacity := by
  by_cases straight : start + n < capacity
  · rw [Nat.mod_eq_of_lt straight]
    omega
  · rw [Nat.mod_eq_sub_mod (by omega), Nat.mod_eq_of_lt (by omega)]
    omega

theorem wrap_eq (start n capacity : Nat) (inside : start < capacity) (once : n ≤ capacity)
    (around : ¬ start + n < capacity) : (start + n) % capacity = start + n - capacity := by
  rw [Nat.mod_eq_sub_mod (by omega), Nat.mod_eq_of_lt (by omega)]

theorem advance_wf (q : ByteBuffer) (wf : q.WF) (n : Nat) (inside : n ≤ q.size) :
    ({ q with tail := (q.tail + n) % q.capacity, size := q.size - n } : ByteBuffer).WF := by
  have bounded := wf.bounded
  constructor
  · exact wf.positive
  · exact Nat.le_trans (Nat.sub_le _ _) wf.bounded
  · exact Nat.mod_lt _ wf.positive
  · change q.head = ((q.tail + n) % q.capacity + (q.size - n)) % q.capacity
    rw [Nat.mod_add_mod, show q.tail + n + (q.size - n) = q.tail + q.size by omega]
    exact wf.head_eq

theorem advance_contents (q : ByteBuffer) (wf : q.WF) (n : Nat) (inside : n ≤ q.size) :
    ({ q with tail := (q.tail + n) % q.capacity, size := q.size - n } : ByteBuffer).contents =
      q.contents.drop n :=
  (Ring.drop_window q.buf q.tail q.size n wf.bounded inside).symm

theorem skip_eq (q : ByteBuffer) (size : Nat) (inside : size ≤ q.size) (some : size ≠ 0) :
    q.skip size =
      (size, { q with tail := (q.tail + size) % q.capacity, size := q.size - size }) := by
  simp only [skip, Nat.min_eq_left inside, some, if_false]

theorem skip_contents (q : ByteBuffer) (wf : q.WF) (size : Nat) (inside : size ≤ q.size) :
    (q.skip size).2.WF ∧ (q.skip size).2.contents = q.contents.drop size ∧
      (q.skip size).2.capacity = q.capacity := by
  by_cases none : size = 0
  · subst none
    simpa [skip] using wf
  · rw [skip_eq q size inside none]
    exact ⟨advance_wf q wf size inside, advance_contents q wf size inside, rfl⟩

theorem read_contents (q : ByteBuffer) (wf : q.WF) (size : Nat) (inside : size ≤ q.size) :
    (q.read size).2.WF ∧ (q.read size).1 = q.contents.take size ∧
      (q.read size).2.contents = q.contents.drop size ∧ (q.read size).2.capacity = q.capacity := by
  have bounded := wf.bounded
  have start := wf.tail_lt
  by_cases none : size = 0
  · subst none
    simpa [read] using wf
  · have advanced := advance_contents q wf size inside
    simp only [read, Nat.min_eq_left inside, none, if_false, Nat.mod_eq_of_lt start]
    refine ⟨advance_wf q wf size inside, ?_, advanced, rfl⟩
    rw [contents, Ring.take_window q.buf q.tail q.size size inside]
    rw [capacity] at bounded start ⊢
    by_cases straight : q.tail + size < q.buf.length
    · rw [if_pos ((start_lt_iff _ _ _ start (by omega) (by omega)).mpr straight),
        Ring.window_straight q.buf q.tail size (by omega)]
    · rw [if_neg (by rw [start_lt_iff _ _ _ start (by omega) (by omega)]; exact straight),
        wrap_eq _ _ _ start (by omega) straight,
        Ring.window_wrapped q.buf q.tail size (by omega) (by omega) (by omega),
        List.take_of_length_le (by rw [List.length_drop])]

theorem write_eq (q : ByteBuffer) (wf : q.WF) (bytes : List Byte)
    (fits : bytes.length ≤ q.remaining) (some : bytes ≠ []) :
    q.write bytes = (bytes.length,
      { q with
        buf := Ring.splice q.buf ((q.tail + q.size) % q.capacity) bytes
        head := (q.head + bytes.length) % q.capacity
        size := q.size + bytes.length }) := by
  have positive := wf.positive
  have length : bytes.length ≠ 0 := by simpa using some
  have room : bytes.length ≤ q.buf.length := Nat.le_trans fits (Nat.sub_le _ _)
  have start : q.head < q.capacity := by
    rw [wf.head_eq]
    exact Nat.mod_lt _ positive
  simp only [write, Nat.min_eq_left fits, length, if_false, Nat.mod_eq_of_lt start,
    List.take_length, ← wf.head_eq]
  congr 2
  rw [capacity] at start ⊢
  by_cases straight : q.head + bytes.length < q.buf.length
  · rw [if_pos ((start_lt_iff _ _ _ start (by omega) room).mpr straight), Ring.splice,
      if_pos straight]
  · rw [if_neg (by rw [start_lt_iff _ _ _ start (by omega) room]; exact straight), Ring.splice,
      if_neg straight, wrap_eq _ _ _ start room straight,
      List.take_of_length_le (show (bytes.drop (q.buf.length - q.head)).length ≤ _ by
        rw [List.length_drop]; omega)]

theorem write_contents (q : ByteBuffer) (wf : q.WF) (bytes : List Byte)
    (fits : bytes.length ≤ q.remaining) :
    (q.write bytes).1 = bytes.length ∧ (q.write bytes).2.WF ∧
      (q.write bytes).2.contents = q.contents ++ bytes ∧
      (q.write bytes).2.capacity = q.capacity := by
  have positive := wf.positive
  have bounded := wf.bounded
  by_cases none : bytes = []
  · subst none
    simpa [write] using wf
  · have room : q.size + bytes.length ≤ q.buf.length := by
      simp only [remaining, capacity] at fits bounded
      omega
    have length := Ring.length_splice q.buf ((q.tail + q.size) % q.capacity) bytes
      (Nat.le_of_lt (Nat.mod_lt _ positive)) (by omega)
    rw [write_eq q wf bytes fits none]
    refine ⟨rfl, ?_, ?_, length⟩
    · constructor
      · exact Nat.le_trans positive (Nat.le_of_eq length.symm)
      · exact Nat.le_trans room (Nat.le_of_eq length.symm)
      · exact Nat.lt_of_lt_of_eq wf.tail_lt length.symm
      · dsimp only [capacity] at length ⊢
        rw [length, wf.head_eq, capacity, Nat.mod_add_mod, Nat.add_assoc]
    · exact Ring.window_splice q.buf q.tail q.size bytes room positive

theorem fillPbuf_eq (q : ByteBuffer) (wf : q.WF) (p : List Byte) (pSize pbufOffset : Nat)
    (short : p.length < 2 ^ 16) (some : 0 < pSize) (full : pbufOffset + pSize = p.length)
    (enough : pSize ≤ q.size) :
    q.fillPbuf p pSize pbufOffset =
      (.ok, p.take pbufOffset ++ Ring.window q.buf q.tail pSize) := by
  have bounded := wf.bounded
  have start := wf.tail_lt
  have turn := start_lt_iff q.tail pSize q.capacity start some (by omega)
  simp only [fillPbuf, Nat.mod_eq_of_lt start]
  by_cases straight : q.tail + pSize < q.capacity
  · rw [if_pos (turn.mpr straight)]
    have window := Ring.window_straight q.buf q.tail pSize (Nat.le_of_lt straight)
    have length : ((q.buf.drop q.tail).take pSize).length = pSize := by
      rw [← window]
      exact Ring.length_window q.buf q.tail pSize (Nat.le_trans enough bounded)
    rw [pbufTakeAt, if_pos (by omega), Ring.overwrite_end p pbufOffset _ (by omega), window]
  · have wrap := wrap_eq q.tail pSize q.capacity start (by omega) straight
    have inside : (q.capacity - q.tail) % 2 ^ 16 = q.capacity - q.tail := Nat.mod_eq_of_lt (by omega)
    have back : (q.tail + pSize - q.capacity) % 2 ^ 16 = q.tail + pSize - q.capacity :=
      Nat.mod_eq_of_lt (by omega)
    have window := Ring.window_wrapped q.buf q.tail pSize (Nat.le_of_lt start)
      (Nat.le_of_not_lt straight) (Nat.le_trans enough bounded)
    have first : (q.buf.drop q.tail).length = q.capacity - q.tail := List.length_drop
    have second : (q.buf.take (q.tail + pSize - q.capacity)).length = q.tail + pSize - q.capacity := by
      rw [List.length_take, ← capacity]
      omega
    have whole : (q.buf.drop q.tail).take (q.capacity - q.tail) = q.buf.drop q.tail :=
      List.take_of_length_le (Nat.le_of_eq first)
    have front : pbufTakeAt p (q.buf.drop q.tail) pbufOffset =
        (.ok, Ring.overwrite p pbufOffset (q.buf.drop q.tail)) := by
      rw [pbufTakeAt, if_pos (by omega)]
    rw [if_neg (fun around => straight (turn.mp around)), wrap, inside, back, whole, front, window]
    rw [← capacity]
    by_cases exact : q.tail + pSize - q.capacity = 0
    · rw [if_neg (fun both => both.2 exact), exact, List.take_zero, List.append_nil,
        Ring.overwrite_end p pbufOffset _ (by omega)]
    · have filled := Ring.length_overwrite p pbufOffset (q.buf.drop q.tail) (by omega)
      rw [if_pos ⟨rfl, exact⟩, pbufTakeAt, if_pos (by dsimp only; omega), Nat.add_comm, ← first,
        Ring.overwrite_overwrite p pbufOffset _ _ (by omega),
        Ring.overwrite_end p pbufOffset _ (by rw [List.length_append]; omega)]

theorem readPbuf_contents (q : ByteBuffer) (wf : q.WF) (p : List Byte) (pbufOffset : Nat)
    (short : p.length < 2 ^ 16) (offset : pbufOffset ≤ p.length)
    (enough : p.length - pbufOffset ≤ q.size) :
    (q.readPbuf p pbufOffset).1 = .ok ∧
      (q.readPbuf p pbufOffset).2.1 =
        p.take pbufOffset ++ q.contents.take (p.length - pbufOffset) ∧
      (q.readPbuf p pbufOffset).2.2.WF ∧
      (q.readPbuf p pbufOffset).2.2.contents = q.contents.drop (p.length - pbufOffset) ∧
      (q.readPbuf p pbufOffset).2.2.capacity = q.capacity := by
  by_cases none : pbufOffset = p.length
  · subst none
    simpa [readPbuf] using wf
  · have filled := fillPbuf_eq q wf p (p.length - pbufOffset) pbufOffset short (by omega) (by omega)
      enough
    simp only [readPbuf, if_neg (Nat.not_lt.mpr offset), gt_iff_lt, if_neg (Nat.not_lt.mpr enough),
      if_neg (show ¬ p.length - pbufOffset = 0 by omega), filled]
    rw [contents, Ring.take_window q.buf q.tail q.size _ enough]
    exact ⟨trivial, rfl, advance_wf q wf _ enough, advance_contents q wf _ enough, rfl⟩

end ByteBuffer
end QNEthernet.Internal
