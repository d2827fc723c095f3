import Mathlib.Data.List.Rotate
import Mathlib.Tactic

/-! Rings: a flat array read from a moving start position, wrapping at its end. -/

namespace QNEthernet.Ring

variable {α : Type}

/-- The first `size` elements met when walking the array from `tail`. -/
def window (buf : List α) (tail size : Nat) : List α := (buf.rotate tail).take size

/-- Copies a block over the array, as one `std::copy_n` does. -/
def overwrite (buf : List α) (start : Nat) (block : List α) : List α :=
  buf.take start ++ block ++ buf.drop (start + block.length)

@[simp] theorem window_zero (buf : List α) (tail : Nat) : window buf tail 0 = [] := by
  simp [window]

theorem length_window (buf : List α) (tail size : Nat) (bound : size ≤ buf.length) :
    (window buf tail size).length = size := by
  simp [window, bound]

theorem getElem?_window (buf : List α) (tail size i : Nat) (bound : size ≤ buf.length)
    (inside : i < size) : (window buf tail size)[i]? = buf[(tail + i) % buf.length]? := by
  rw [window, List.getElem?_take_of_lt inside, List.getElem?_rotate (by omega), Nat.add_comm]

theorem ext_window (buf : List α) (tail size : Nat) (other : List α)
    (bound : size ≤ buf.length) (length : other.length = size)
    (same : ∀ i, i < size → other[i]? = buf[(tail + i) % buf.length]?) :
    window buf tail size = other := by
  apply List.ext_getElem?
  intro i
  by_cases inside : i < size
  · rw [getElem?_window buf tail size i bound inside, same i inside]
  · rw [List.getElem?_eq_none (by rw [length_window buf tail size bound]; omega),
      List.getElem?_eq_none (by omega)]

theorem slot_injective (length tail i j : Nat) (hi : i < length) (hj : j < length)
    (same : (tail + i) % length = (tail + j) % length) : i = j := by
  have congruent : i ≡ j [MOD length] := Nat.ModEq.add_left_cancel' tail same
  exact Nat.ModEq.eq_of_lt_of_lt congruent hi hj

theorem window_mod (buf : List α) (tail size : Nat) :
    window buf (tail % buf.length) size = window buf tail size := by
  rw [window, List.rotate_mod, window]

theorem drop_window (buf : List α) (tail size n : Nat) (bound : size ≤ buf.length)
    (inside : n ≤ size) :
    (window buf tail size).drop n = window buf ((tail + n) % buf.length) (size - n) := by
  symm
  rw [window_mod]
  apply ext_window
  · omega
  · rw [List.length_drop, length_window buf tail size bound]
  · intro i hi
    rw [List.getElem?_drop, getElem?_window buf tail size (n + i) bound (by omega), Nat.add_assoc]

theorem take_window (buf : List α) (tail size n : Nat) (inside : n ≤ size) :
    (window buf tail size).take n = window buf tail n := by
  rw [window, window, List.take_take, Nat.min_eq_left inside]

theorem window_cons (buf : List α) (tail size : Nat) (bound : size + 1 ≤ buf.length)
    (start : tail < buf.length) :
    window buf tail (size + 1) =
      buf[tail] :: window buf ((tail + 1) % buf.length) size := by
  apply ext_window
  · exact bound
  · simp [length_window buf _ size (by omega)]
  · intro i hi
    cases i with
    | zero => simp [Nat.mod_eq_of_lt start]
    | succ i =>
        rw [List.getElem?_cons_succ, getElem?_window buf _ size i (by omega) (by omega),
          Nat.mod_add_mod]
        congr 2
        omega

theorem window_set_outside (buf : List α) (tail size i : Nat) (x : α)
    (bound : size ≤ i) (inside : i < buf.length) :
    window (buf.set ((tail + i) % buf.length) x) tail size = window buf tail size := by
  apply ext_window
  · simp; omega
  · exact length_window buf tail size (by omega)
  · intro j hj
    have other : (tail + i) % buf.length ≠ (tail + j) % buf.length := by
      intro same
      have := slot_injective buf.length tail i j inside (by omega) same
      omega
    rw [List.length_set, List.getElem?_set_ne other,
      getElem?_window buf tail size j (by omega) hj]

theorem window_set_push (buf : List α) (tail size : Nat) (x : α) (space : size < buf.length) :
    window (buf.set ((tail + size) % buf.length) x) tail (size + 1) =
      window buf tail size ++ [x] := by
  have slot : (tail + size) % buf.length < buf.length := Nat.mod_lt _ (by omega)
  have same := window_set_outside buf tail size size x (Nat.le_refl size) space
  apply ext_window
  · simp; omega
  · simp [length_window buf tail size (by omega)]
  · intro i hi
    rw [List.length_set]
    by_cases old : i < size
    · rw [List.getElem?_append_left (by rw [length_window buf tail size (by omega)]; exact old),
        ← same, getElem?_window _ tail size i (by simp; omega) old, List.length_set]
    · have last : i = size := by omega
      subst last
      rw [List.getElem?_append_right (by rw [length_window buf tail i (by omega)]),
        length_window buf tail i (by omega)]
      simp [List.getElem?_set_self slot]

theorem window_set_full (buf : List α) (tail : Nat) (x : α) (start : tail < buf.length) :
    window (buf.set tail x) ((tail + 1) % buf.length) buf.length =
      (window buf tail buf.length).drop 1 ++ [x] := by
  have wrap : ((tail + 1) % buf.length + (buf.length - 1)) % buf.length = tail := by
    rw [Nat.mod_add_mod, show tail + 1 + (buf.length - 1) = tail + buf.length by omega,
      Nat.add_mod_right, Nat.mod_eq_of_lt start]
  have pushed := window_set_push buf ((tail + 1) % buf.length) (buf.length - 1) x (by omega)
  rw [wrap, Nat.sub_add_cancel (by omega)] at pushed
  rw [pushed, drop_window buf tail buf.length 1 (Nat.le_refl _) (by omega)]

@[simp] theorem length_overwrite (buf : List α) (start : Nat) (block : List α)
    (fits : start + block.length ≤ buf.length) :
    (overwrite buf start block).length = buf.length := by
  simp [overwrite]
  omega

theorem getElem?_overwrite (buf : List α) (start i : Nat) (block : List α)
    (fits : start + block.length ≤ buf.length) :
    (overwrite buf start block)[i]? =
      if start ≤ i ∧ i < start + block.length then block[i - start]? else buf[i]? := by
  have front : (buf.take start).length = start := by simp; omega
  rw [overwrite, List.append_assoc]
  by_cases before : i < start
  · rw [List.getElem?_append_left (by omega), List.getElem?_take_of_lt before,
      if_neg (by omega)]
  · rw [List.getElem?_append_right (by omega), front]
    by_cases within : i < start + block.length
    · rw [List.getElem?_append_left (by omega), if_pos (by omega)]
    · rw [List.getElem?_append_right (by omega), List.getElem?_drop, if_neg (by omega)]
      congr 1
      omega

theorem overwrite_end (buf : List α) (start : Nat) (block : List α)
    (full : start + block.length = buf.length) :
    overwrite buf start block = buf.take start ++ block := by
  rw [overwrite, full, List.drop_length, List.append_nil]

theorem overwrite_middle (front old back block : List α) (same : block.length = old.length) :
    overwrite (front ++ old ++ back) front.length block = front ++ block ++ back := by
  have kept : (front ++ old ++ back).take front.length = front := by
    rw [List.append_assoc]
    exact List.take_left
  have rest : (front ++ old ++ back).drop (front.length + block.length) = back := by
    rw [same, ← List.length_append]
    exact List.drop_left
  rw [overwrite, kept, rest]

theorem take_overwrite (buf : List α) (start : Nat) (block : List α)
    (fits : start + block.length ≤ buf.length) :
    (overwrite buf start block).take (start + block.length) = buf.take start ++ block := by
  have front : (buf.take start ++ block).length = start + block.length := by
    rw [List.length_append, List.length_take]
    omega
  rw [overwrite, List.take_append_of_le_length (by omega), List.take_of_length_le (by omega)]

theorem overwrite_overwrite (buf : List α) (start : Nat) (first second : List α)
    (fits : start + first.length ≤ buf.length) :
    overwrite (overwrite buf start first) (start + first.length) second =
      overwrite buf start (first ++ second) := by
  have front : (buf.take start ++ first).length = start + first.length := by
    rw [List.length_append, List.length_take]
    omega
  have kept : (overwrite buf start first).take (start + first.length) = buf.take start ++ first :=
    take_overwrite buf start first fits
  have rest : (overwrite buf start first).drop (start + first.length + second.length) =
      buf.drop (start + first.length + second.length) := by
    rw [overwrite, List.drop_append, front, List.drop_eq_nil_of_le (by omega), List.nil_append,
      List.drop_drop]
    congr 1
    omega
  rw [overwrite, kept, rest, overwrite, List.length_append, List.append_assoc, List.append_assoc,
    List.append_assoc, List.append_assoc, Nat.add_assoc]

theorem window_straight (buf : List α) (start n : Nat) (inside : start + n ≤ buf.length) :
    window buf start n = (buf.drop start).take n := by
  rw [window, List.rotate_eq_drop_append_take (by omega),
    List.take_append_of_le_length (by rw [List.length_drop]; omega)]

theorem window_wrapped (buf : List α) (start n : Nat) (bound : start ≤ buf.length)
    (around : buf.length ≤ start + n) (once : n ≤ buf.length) :
    window buf start n = buf.drop start ++ buf.take (start + n - buf.length) := by
  have front : (buf.drop start).length ≤ n := by rw [List.length_drop]; omega
  rw [window, List.rotate_eq_drop_append_take bound, List.take_append,
    List.take_of_length_le front, List.take_take, List.length_drop]
  congr 2
  omega

/-- Writes a block from `start` on, going on at the front when it meets the end. -/
def splice (buf : List α) (start : Nat) (block : List α) : List α :=
  if start + block.length < buf.length then overwrite buf start block
  else overwrite (overwrite buf start (block.take (buf.length - start))) 0
    (block.drop (buf.length - start))

theorem length_overwrite_front (buf : List α) {start : Nat} (block : List α) (bound : start ≤ buf.length) :
    (overwrite buf start (block.take (buf.length - start))).length = buf.length := by
  apply length_overwrite
  rw [List.length_take]
  omega

theorem length_splice (buf : List α) (start : Nat) (block : List α) (bound : start ≤ buf.length)
    (once : block.length ≤ buf.length) : (splice buf start block).length = buf.length := by
  unfold splice
  split
  next straight => exact length_overwrite buf start block (by omega)
  next around =>
    have first := length_overwrite_front buf block bound
    rw [length_overwrite _ _ _ (by rw [first, List.length_drop]; omega), first]

theorem getElem?_splice_inside (buf : List α) (start j : Nat) (block : List α)
    (bound : start < buf.length) (once : block.length ≤ buf.length) (inside : j < block.length) :
    (splice buf start block)[(start + j) % buf.length]? = block[j]? := by
  unfold splice
  split
  next straight =>
    rw [Nat.mod_eq_of_lt (by omega), getElem?_overwrite _ _ _ _ (by omega), if_pos (by omega)]
    congr 1
    omega
  next around =>
    have first := length_overwrite_front buf block bound.le
    rw [getElem?_overwrite _ _ _ _ (by rw [first, List.length_drop]; omega), List.length_drop]
    by_cases early : start + j < buf.length
    · rw [Nat.mod_eq_of_lt early, if_neg (by omega),
        getElem?_overwrite _ _ _ _ (by rw [List.length_take]; omega), List.length_take,
        if_pos (by omega), List.getElem?_take_of_lt (by omega)]
      congr 1
      omega
    · have wrapped : (start + j) % buf.length = start + j - buf.length := by
        rw [Nat.mod_eq_sub_mod (by omega), Nat.mod_eq_of_lt (by omega)]
      rw [wrapped, if_pos (by omega), List.getElem?_drop]
      congr 1
      omega

theorem getElem?_splice_outside (buf : List α) (start j : Nat) (block : List α)
    (bound : start < buf.length) (outside : block.length ≤ j) (inside : j < buf.length) :
    (splice buf start block)[(start + j) % buf.length]? = buf[(start + j) % buf.length]? := by
  unfold splice
  split
  next straight =>
    have apart : ¬ (start ≤ (start + j) % buf.length ∧
        (start + j) % buf.length < start + block.length) := by
      by_cases early : start + j < buf.length
      · rw [Nat.mod_eq_of_lt early]
        omega
      · rw [Nat.mod_eq_sub_mod (by omega), Nat.mod_eq_of_lt (by omega)]
        omega
    rw [getElem?_overwrite _ _ _ _ (by omega), if_neg apart]
  next around =>
    have first := length_overwrite_front buf block bound.le
    have wrapped : (start + j) % buf.length = start + j - buf.length := by
      rw [Nat.mod_eq_sub_mod (by omega), Nat.mod_eq_of_lt (by omega)]
    rw [wrapped, getElem?_overwrite _ _ _ _ (by rw [first, List.length_drop]; omega),
      List.length_drop, if_neg (by omega), getElem?_overwrite _ _ _ _ (by rw [List.length_take]; omega),
      if_neg (by omega)]

theorem window_splice (buf : List α) (tail size : Nat) (block : List α)
    (space : size + block.length ≤ buf.length) (positive : 0 < buf.length) :
    window (splice buf ((tail + size) % buf.length) block) tail (size + block.length) =
      window buf tail size ++ block := by
  have start : (tail + size) % buf.length < buf.length := Nat.mod_lt _ positive
  have length := length_splice buf ((tail + size) % buf.length) block (Nat.le_of_lt start) (by omega)
  have front := length_window buf tail size (by omega)
  apply ext_window
  · rw [length]
    exact space
  · rw [List.length_append, front]
  · intro i inside
    rw [length]
    by_cases old : i < size
    · -- Seen from the write position, the old elements are the last ones of the turn.
      have turn : (tail + i) % buf.length =
          ((tail + size) % buf.length + (buf.length - size + i)) % buf.length := by
        rw [Nat.mod_add_mod, show tail + size + (buf.length - size + i) = tail + i + buf.length by omega,
          Nat.add_mod_right]
      rw [List.getElem?_append_left (by omega), getElem?_window buf tail size i (by omega) old, turn,
        getElem?_splice_outside buf _ _ block start (by omega) (by omega)]
    · have turn : (tail + i) % buf.length =
          ((tail + size) % buf.length + (i - size)) % buf.length := by
        rw [Nat.mod_add_mod]
        congr 1
        omega
      rw [List.getElem?_append_right (by omega), front, turn,
        getElem?_splice_inside buf _ _ block start (by omega) (by omega)]

end QNEthernet.Ring
