import QNEthernet.Entropy.Trng

/-! What the pool holds, what holds at each point of a call, and what each thing that is seen changes. -/

namespace QNEthernet.Entropy.Trng

open Spans

/-- The pool holds the end of what was read, all that was written stands before it, and the calls that are over
have returned what they should. -/
structure Pool (size : Nat) (entropy : Nat → UInt32) (h : History) : Prop where
  atMost : size ≤ kEntropyCountBytes
  total : h.stream.length = h.next + size
  unread : h.stream.drop h.next = Memory.window (bytesOf entropy) (kEntropyCountBytes - size) size
  ordered : InOrder h.stream h.spans
  behind : ∀ s ∈ h.spans, s.stop ≤ h.next

/-- What a call has done when it returns: `trng_data` has written as many bytes as it says, all of them unless it
saw an error, and `trng_available` says how many there are, and has taken none. -/
structure Done.Right (d : Done) : Prop where
  next : d.span.stop = d.next
  data : ∀ size, d.call = .trngData size → d.ret = d.span.values.length ∧ d.ret ≤ size ∧ (d.ret = size ↔ d.error = false)
  available : d.call = .trngAvailable → d.span.values = [] ∧ d.next = d.before ∧ d.ret = d.unread
  init : d.call = .trngInit → d.span.values = []

/-- The blocks are among those that became valid, and the one that is valid now is none of them. -/
def Fresh (hw : Hw) (generated claimed : List (List Byte)) : Prop :=
  if hw.entVal then ∃ older, generated = older ++ [blockOf hw.ent] ∧ claimed.Sublist older
  else claimed.Sublist generated

/-- The blocks that were read, and the one that has just been copied. -/
def World.claimed (w : World) : List (List Byte) :=
  match w.m.pc with
  | .fillDummy _ => w.h.blocks ++ [blockOf w.m.entropy]
  | _ => w.h.blocks

namespace Record

structure Data (r : Record) (size rem next : Nat) (error : Bool) : Prop where
  call : r.call = .trngData size
  written : r.span.values.length + rem = size
  stop : r.span.stop = next
  error : r.error = error

structure Available (r : Record) (next : Nat) : Prop where
  call : r.call = .trngAvailable
  span : r.span = ⟨next, []⟩
  before : r.before = next

structure Init (r : Record) (next : Nat) : Prop where
  call : r.call = .trngInit
  values : r.span.values = []
  stop : r.span.stop = next

variable {r : Record} {size rem next ret unread : Nat} {error raised : Bool}

theorem Data.right (data : r.Data size rem next error) (counted : ret = r.span.values.length)
    (all : ret = size ↔ error = false) : Done.Right { r with ret := ret, next := next, unread := unread, raised := raised } where
  next := data.stop
  data := by
    intro size' same
    cases data.call.symm.trans same
    have written := data.written
    refine ⟨counted, by show ret ≤ size; omega, ?_⟩
    rw [← data.error] at all
    exact all
  available := fun other => by cases data.call.symm.trans other
  init := fun other => by cases data.call.symm.trans other

theorem Available.right (nothing : r.Available next) (counted : ret = unread) :
    Done.Right { r with ret := ret, next := next, unread := unread, raised := raised } where
  next := by rw [nothing.span]; rfl
  data := fun _ other => by cases nothing.call.symm.trans other
  available := fun _ => ⟨by rw [nothing.span], nothing.before.symm, counted⟩
  init := fun other => by cases nothing.call.symm.trans other

theorem Init.right (init : r.Init next) : Done.Right { r with ret := ret, next := next, unread := unread, raised := raised } where
  next := init.stop
  data := fun _ other => by cases init.call.symm.trans other
  available := fun other => by cases init.call.symm.trans other
  init := fun _ => init.values

def Restarts (r : Record) (next : Nat) : Caller → Prop
  | .trngData size rem => r.Data size rem next false ∧ rem = size
  | .trngAvailable => False
  | .trngInit => r.Init next

def Fills (r : Record) (next : Nat) (error : Bool) : Caller → Prop
  | .trngData size rem => r.Data size rem next error ∧ rem ≠ 0
  | .trngAvailable => r.Available next
  | .trngInit => False

end Record

def At (m : Machine) (h : History) (r : Record) : Pc → Prop
  | .idle => False
  | .dataErr size | .dataClear size => r.Data size size h.next false
  | .loop size rem => r.Data size rem h.next false
  | .wait size rem => r.Data size rem h.next false ∧ rem ≠ 0 ∧ m.entropySizeBytes = 0
  | .take size rem => r.Data size rem h.next false ∧ rem ≠ 0 ∧ m.entropySizeBytes ≠ 0
  | .available | .availableSize => r.Available h.next
  | .availableVal => r.Available h.next ∧ m.entropySizeBytes = 0
  | .initProgram | .initRun => r.Init h.next
  | .restart caller | .restarted caller => r.Restarts h.next caller
  | .fillErr caller => r.Fills h.next false caller ∧ m.entropySizeBytes = 0 ∧ (m.hw.entVal = true ∨ m.hw.err = true)
  | .fillClear caller => r.Fills h.next true caller ∧ m.entropySizeBytes = 0
  | .fillCopy caller i =>
      r.Fills h.next false caller ∧ m.entropySizeBytes = 0 ∧ m.hw.entVal = true ∧ i < kEntropyCount ∧
        ∀ j < i, m.entropy j = m.hw.ent j
  | .fillDummy caller => r.Fills h.next false caller ∧ m.entropySizeBytes = 0
  | .ret n => Done.Right { r with ret := n, next := h.next, unread := h.unread, raised := h.raised }

theorem blockOf_congr {a b : Nat → UInt32} (same : ∀ j < kEntropyCount, a j = b j) : blockOf a = blockOf b := by
  apply Memory.window_congr
  intro k inside
  have word : (0 + k) / 4 < kEntropyCount := by
    rw [Nat.zero_add]
    exact (Nat.div_lt_iff_lt_mul (by decide)).mpr inside
  rw [bytesOf, bytesOf, same _ word]

theorem Fresh.restart {hw : Hw} {generated claimed : List (List Byte)} (fresh : Fresh hw generated claimed) :
    claimed.Sublist generated := by
  rw [Fresh] at fresh
  split at fresh
  · obtain ⟨older, rfl, among⟩ := fresh
    exact among.trans (List.sublist_append_left _ _)
  · exact fresh

section History

variable {h : History} {r : Record}

theorem spans_current (current : h.current = some r) : h.spans = h.done.map (·.span) ++ [r.span] := by
  rw [History.spans, current]
  rfl

variable {size : Nat} {entropy : Nat → UInt32}

theorem Pool.of_empty (pool : Pool 0 entropy h) (entropy' : Nat → UInt32) : Pool 0 entropy' h where
  atMost := pool.atMost
  total := pool.total
  unread := pool.unread
  ordered := pool.ordered
  behind := pool.behind

theorem Pool.read (pool : Pool 0 entropy h) : Pool kEntropyCountBytes entropy (h.see (.read (blockOf entropy))) := by
  have stream : (h.see (.read (blockOf entropy))).stream = h.stream ++ blockOf entropy := by
    simp only [History.see, History.stream, List.flatten_append, List.flatten_singleton]
  have length : (blockOf entropy).length = kEntropyCountBytes := Memory.length_window _ _ _
  constructor
  · exact Nat.le_refl _
  · rw [stream, List.length_append, length, pool.total]
    rfl
  · rw [stream, Nat.sub_self]
    exact List.drop_left' pool.total
  · rw [stream]
    exact pool.ordered.grow _
  · exact pool.behind

theorem Pool.wrote (pool : Pool size entropy h) (current : h.current = some r) (stop : r.span.stop = h.next)
    {count : Nat} (some : count ≤ size) :
    Pool (size - count) entropy
      (h.see (.wrote (Memory.window (bytesOf entropy) (kEntropyCountBytes - size) count))) := by
  have atMost := pool.atMost
  have total := pool.total
  have length := Memory.length_window (bytesOf entropy) (kEntropyCountBytes - size) count
  generalize wrote : Memory.window (bytesOf entropy) (kEntropyCountBytes - size) count = bytes at length
  have next : bytes <+: h.stream.drop r.span.stop := by
    rw [stop, pool.unread, ← wrote, ← Nat.add_sub_cancel' some]
    exact Memory.window_prefix _ _ _ _
  have spans : (h.see (.wrote bytes)).spans = h.done.map (·.span) ++ [r.span.extend bytes] := by
    rw [History.spans, History.see, current]
    rfl
  constructor
  · omega
  · show h.stream.length = h.next + bytes.length + (size - count)
    omega
  · show h.stream.drop (h.next + bytes.length) = _
    have start : kEntropyCountBytes - (size - count) = kEntropyCountBytes - size + count := by omega
    rw [← List.drop_drop, pool.unread, length, Memory.drop_window, start]
  · rw [spans]
    exact (spans_current current ▸ pool.ordered).extend next
  · rw [spans]
    intro s member
    rcases List.mem_append.mp member with before | last
    · exact Nat.le_trans (pool.behind s (List.mem_append_left _ before)) (Nat.le_add_right _ _)
    · rw [List.mem_singleton.mp last, Span.stop, Span.extend, List.length_append, ← Nat.add_assoc]
      exact Nat.add_le_add_right (Nat.le_of_eq stop) _

theorem Pool.discarded (pool : Pool size entropy h) (current : h.current = some r) (none : r.span.values = []) :
    Pool 0 entropy (h.see .discarded) := by
  have all : h.next ≤ h.stream.length := by
    rw [pool.total]
    exact Nat.le_add_right _ _
  have spans : (h.see .discarded).spans = h.done.map (·.span) ++ [⟨h.stream.length, []⟩] := by
    rw [History.spans, History.see, current]
    simp only [Option.map_some, none, if_true]
    rfl
  obtain ⟨front, before, -⟩ := (spans_current current ▸ pool.ordered).front
  have behind : ∀ s ∈ h.done.map (·.span), s.stop ≤ h.stream.length :=
    fun s member => Nat.le_trans (pool.behind s (List.mem_append_left _ member)) all
  constructor
  · exact Nat.zero_le _
  · rfl
  · exact List.drop_length
  · rw [spans]
    exact front.append behind (List.nil_prefix)
  · rw [spans]
    intro s member
    rcases List.mem_append.mp member with before | last
    · exact behind s before
    · rw [List.mem_singleton.mp last]
      exact Nat.le_refl _

theorem spans_failed (h : History) : (h.see .failed).spans = h.spans := by
  cases current : h.current <;> simp only [History.spans, History.see, current, Option.map_none, Option.map_some]

theorem spans_returned (h : History) (n : Nat) : (h.see (.returned n)).spans = h.spans := by
  cases current : h.current <;>
    simp only [History.spans, History.see, current, Option.map_none, Option.map_some, Option.toList_none,
      Option.toList_some, List.append_nil, List.map_append, List.map_singleton]

theorem Pool.of_spans (pool : Pool size entropy h) {h' : History} (stream : h'.stream = h.stream)
    (next : h'.next = h.next) (spans : h'.spans = h.spans) : Pool size entropy h' := by
  refine ⟨pool.atMost, ?_, ?_, ?_, ?_⟩
  · rw [stream, next, pool.total]
  · rw [stream, next, pool.unread]
  · rw [stream, spans]
    exact pool.ordered
  · rw [spans, next]
    exact pool.behind

end History

end QNEthernet.Entropy.Trng
