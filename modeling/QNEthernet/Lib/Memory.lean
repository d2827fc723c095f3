import Mathlib.Tactic

/-! Memory by index: values that are stored in a row, and windows that are read back. -/

namespace QNEthernet.Memory

variable {α : Type} (m : Nat → α)

def write (start : Nat) (values : List α) : Nat → α :=
  fun i => if start ≤ i then values.getD (i - start) (m i) else m i

def window (start len : Nat) : List α := (List.range len).map fun i => m (start + i)

variable {start i : Nat} {values : List α}

theorem write_before (before : i < start) : write m start values i = m i :=
  if_neg (Nat.not_le.mpr before)

theorem write_behind (behind : start + values.length ≤ i) : write m start values i = m i := by
  have past : values.length ≤ i - start := by omega
  rw [write, if_pos (by omega), List.getD_eq_getElem?_getD, List.getElem?_eq_none past, Option.getD_none]

theorem write_inside (from_start : start ≤ i) (inside : i - start < values.length) :
    write m start values i = values.get ⟨i - start, inside⟩ := by
  rw [write, if_pos from_start, List.getD_eq_getElem?_getD, List.getElem?_eq_getElem inside, Option.getD_some]
  rfl

theorem write_singleton (i : Nat) (a : α) : write m i [a] i = a := by
  rw [write, if_pos (Nat.le_refl i), Nat.sub_self]
  rfl

theorem length_window (start len : Nat) : (window m start len).length = len := by
  rw [window, List.length_map, List.length_range]

theorem window_zero (len : Nat) : window m 0 len = (List.range len).map m := by
  simp only [window, Nat.zero_add]

theorem window_congr {m m' : Nat → α} {start len : Nat} (same : ∀ i < len, m (start + i) = m' (start + i)) :
    window m start len = window m' start len := by
  apply List.map_congr_left
  intro i inside
  exact same i (List.mem_range.mp inside)

theorem window_add (start len more : Nat) :
    window m start (len + more) = window m start len ++ window m (start + len) more := by
  simp only [window, List.range_add, List.map_append, List.map_map, Function.comp_def, Nat.add_assoc]

theorem window_prefix (start len more : Nat) : window m start len <+: window m start (len + more) := by
  rw [window_add]
  exact List.prefix_append _ _

theorem take_window (start len count : Nat) : (window m start len).take count = window m start (min count len) := by
  rcases Nat.le_total count len with inside | all
  · have parts := window_add m start count (len - count)
    rw [Nat.add_sub_cancel' inside] at parts
    rw [parts, List.take_left' (length_window m start count), Nat.min_eq_left inside]
  · rw [List.take_of_length_le (by rwa [length_window]), Nat.min_eq_right all]

theorem drop_window (start len count : Nat) :
    (window m start len).drop count = window m (start + count) (len - count) := by
  rcases Nat.le_total count len with inside | all
  · have parts := window_add m start count (len - count)
    rw [Nat.add_sub_cancel' inside] at parts
    rw [parts, List.drop_left' (length_window m start count)]
  · rw [List.drop_of_length_le (by rwa [length_window]), Nat.sub_eq_zero_of_le all]
    rfl

theorem getD_window {start len i : Nat} (inside : i < len) (default : α) :
    (window m start len).getD i default = m (start + i) := by
  rw [window, List.getD_eq_getElem?_getD, List.getElem?_map, List.getElem?_range inside]
  rfl

theorem window_getD (values : List α) (default : α) :
    window (fun i => values.getD i default) 0 values.length = values := by
  apply List.ext_getElem (length_window _ 0 _)
  intro i inside inside'
  simp [window, List.getElem?_eq_getElem inside']

theorem window_write_before {first len : Nat} (before : first + len ≤ start) :
    window (write m start values) first len = window m first len := by
  apply window_congr
  intro i inside
  exact write_before m (by omega)

theorem window_write_behind {first len : Nat} (behind : start + values.length ≤ first) :
    window (write m start values) first len = window m first len := by
  apply window_congr
  intro i _
  exact Memory.write_behind m (by omega)

theorem window_write (start : Nat) (values : List α) : window (write m start values) start values.length = values := by
  apply List.ext_getElem (length_window _ start _)
  intro i inside inside'
  have place : start + i - start = i := Nat.add_sub_cancel_left start i
  simp only [window, List.getElem_map, List.getElem_range]
  rw [write_inside m (Nat.le_add_right start i) (by rw [place]; exact inside')]
  simp only [List.get_eq_getElem, place]

theorem window_write_append (first len : Nat) (values : List α) :
    window (write m (first + len) values) first (len + values.length) = window m first len ++ values := by
  calc window (write m (first + len) values) first (len + values.length)
      = window (write m (first + len) values) first len ++
          window (write m (first + len) values) (first + len) values.length := window_add _ first len _
    _ = window m first len ++ values := by
        rw [window_write_before m (Nat.le_refl _), window_write]

end QNEthernet.Memory
