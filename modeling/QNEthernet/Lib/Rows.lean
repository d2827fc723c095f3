import QNEthernet.Lib.Memory

/-! Rows of one width in memory, one behind the other. -/

namespace QNEthernet.Rows

variable {α : Type} (m : Nat → α) (width : Nat)

def row (i : Nat) : List α := Memory.window m (width * i) width

def rows (start count : Nat) : List (List α) := (List.range count).map fun i => row m width (start + i)

/-- The memory, with these rows in the place of those from `start` on. -/
def put (start : Nat) (values : List (List α)) : Nat → α := fun a =>
  if start ≤ a / width ∧ a / width < start + values.length then
    (values.getD (a / width - start) []).getD (a % width) (m a)
  else m a

variable {m width} {start i : Nat} {values : List (List α)}

theorem length_row : (row m width i).length = width := Memory.length_window _ _ _

theorem length_rows (start count : Nat) : (rows m width start count).length = count := by
  rw [rows, List.length_map, List.length_range]

theorem rows_succ (start count : Nat) :
    rows m width start (count + 1) = rows m width start count ++ [row m width (start + count)] := by
  rw [rows, List.range_succ, List.map_append, List.map_singleton]
  rfl

theorem rows_cons (start count : Nat) :
    rows m width start (count + 1) = row m width start :: rows m width (start + 1) count := by
  rw [rows, List.range_succ_eq_map, List.map_cons, List.map_map]
  congr 1
  apply List.map_congr_left
  intro i _
  rw [Function.comp_apply, Nat.succ_eq_add_one, Nat.add_assoc, Nat.add_comm 1 i]

theorem mem_rows_length {count : Nat} {r : List α} (member : r ∈ rows m width start count) : r.length = width := by
  obtain ⟨i, -, rfl⟩ := List.mem_map.mp member
  exact length_row

theorem place {offset : Nat} (inside : offset < width) :
    (width * i + offset) / width = i ∧ (width * i + offset) % width = offset := by
  constructor
  · rw [Nat.mul_add_div (by omega), Nat.div_eq_of_lt inside, Nat.add_zero]
  · rw [Nat.mul_add_mod, Nat.mod_eq_of_lt inside]

theorem row_congr {m' : Nat → α} (same : ∀ a, a / width = i → m a = m' a) : row m width i = row m' width i := by
  apply Memory.window_congr
  intro offset inside
  exact same _ (place inside).1

theorem row_put_outside (outside : i < start ∨ start + values.length ≤ i) :
    row (put m width start values) width i = row m width i := by
  apply row_congr
  intro a here
  rw [put, here, if_neg (by omega)]

theorem row_put_inside (from_start : start ≤ i) (inside : i - start < values.length)
    (widths : ∀ r ∈ values, r.length = width) :
    row (put m width start values) width i = values.get ⟨i - start, inside⟩ := by
  have size : (values.get ⟨i - start, inside⟩).length = width := widths _ (List.get_mem _ _)
  apply List.ext_getElem (length_row.trans size.symm)
  intro offset within within'
  rw [length_row] at within
  simp only [row, Memory.window, List.getElem_map, List.getElem_range, put, (place within).1, (place within).2]
  rw [if_pos ⟨from_start, by omega⟩, List.getD_eq_getElem?_getD, List.getD_eq_getElem?_getD,
    List.getElem?_eq_getElem inside, Option.getD_some]
  exact congrArg (Option.getD · _) (List.getElem?_eq_getElem within')

theorem put_cons (start : Nat) (r : List α) (values : List (List α)) :
    put (put m width start [r]) width (start + 1) values = put m width start (r :: values) := by
  funext a
  simp only [put, List.length_cons, List.length_nil]
  rcases Nat.lt_trichotomy (a / width) start with before | here | behind
  · rw [if_neg (by omega), if_neg (by omega), if_neg (by omega)]
  · rw [if_neg (by omega), if_pos (by omega), if_pos (by omega), here, Nat.sub_self]
    rfl
  · have next : a / width - start = a / width - (start + 1) + 1 := by omega
    by_cases inside : a / width < start + 1 + values.length
    · rw [if_pos (by omega), if_neg (by omega), if_pos (by omega), next, List.getD_cons_succ]
    · rw [if_neg (by omega), if_neg (by omega), if_neg (by omega)]

theorem rows_put (widths : ∀ r ∈ values, r.length = width) :
    rows (put m width start values) width start values.length = values := by
  apply List.ext_getElem (length_rows _ _)
  intro i inside inside'
  have placed := row_put_inside (m := m) (i := start + i) (Nat.le_add_right _ _)
    (by rwa [Nat.add_sub_cancel_left]) widths
  simp only [List.get_eq_getElem, Nat.add_sub_cancel_left] at placed
  rw [← placed]
  simp only [rows, List.getElem_map, List.getElem_range]

end QNEthernet.Rows
