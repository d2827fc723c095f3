import Mathlib.Tactic

/-! Values that are handed over piece by piece: what is left is offered, some of its first values are
taken, and before an offer the giver may be asked to stop. -/

namespace QNEthernet.Partial

variable {α : Type}

inductive Attempt (α : Type) where
  | asked (stop : Bool)
  | offered (values : List α) (count : Nat)
  deriving DecidableEq

def taken : List (Attempt α) → List α
  | [] => []
  | .asked _ :: attempts => taken attempts
  | .offered values count :: attempts => values.take count ++ taken attempts

/-- So many of the values went over, the first ones: all of them, unless the giver was asked to stop,
and that was the end. -/
structure Went (values : List α) (count : Nat) (attempts : List (Attempt α)) : Prop where
  taken : taken attempts = values.take count
  atMost : count ≤ values.length
  whole : count = values.length ↔ .asked true ∉ attempts
  last : .asked true ∉ attempts.dropLast

theorem taken_append (front back : List (Attempt α)) : taken (front ++ back) = taken front ++ taken back := by
  induction front with
  | nil => rfl
  | cons attempt front ih =>
      cases attempt with
      | asked stop => exact ih
      | offered values count => simp only [List.cons_append, taken, ih, List.append_assoc]

theorem last_cons {attempt : Attempt α} {attempts : List (Attempt α)} (goesOn : .asked true ≠ attempt)
    (last : .asked true ∉ attempts.dropLast) : .asked true ∉ (attempt :: attempts).dropLast := by
  cases attempts with
  | nil => exact List.not_mem_nil
  | cons next attempts => exact List.not_mem_cons_of_ne_of_not_mem goesOn last

variable {values more : List α} {count count' : Nat} {attempts attempts' : List (Attempt α)}

theorem Went.nothing : Went ([] : List α) 0 [] where
  taken := rfl
  atMost := Nat.le_refl 0
  whole := iff_of_true rfl List.not_mem_nil
  last := List.not_mem_nil

theorem Went.stopped (left : 0 < values.length) : Went values 0 [.asked true] where
  taken := rfl
  atMost := Nat.zero_le _
  whole := iff_of_false left.ne fun goesOn => goesOn List.mem_cons_self
  last := List.not_mem_nil

theorem Went.asked (went : Went values count attempts) : Went values count (.asked false :: attempts) where
  taken := went.taken
  atMost := went.atMost
  whole := by
    rw [went.whole, List.mem_cons, not_or]
    exact (and_iff_right (by simp)).symm
  last := last_cons (by simp) went.last

theorem Went.offered (inside : count ≤ values.length) (went : Went (values.drop count) count' attempts) :
    Went values (count + count') (.offered values count :: attempts) where
  taken := by rw [Partial.taken, went.taken, List.take_add]
  atMost := by
    have atMost := went.atMost
    rw [List.length_drop] at atMost
    omega
  whole := by
    have whole := went.whole
    rw [List.length_drop] at whole
    rw [List.mem_cons, not_or, ← whole]
    exact ⟨fun all => ⟨by simp, by omega⟩, fun all => by omega⟩
  last := last_cons (by simp) went.last

theorem Went.append (first : Went values count attempts) (all : values.length ≤ count)
    (then_ : Went more count' attempts') : Went (values ++ more) (count + count') (attempts ++ attempts') where
  taken := by
    rw [taken_append, first.taken, then_.taken, Nat.le_antisymm first.atMost all, List.take_length,
      List.take_length_add_append]
  atMost := by
    rw [List.length_append]
    exact Nat.add_le_add first.atMost then_.atMost
  whole := by
    have same := Nat.le_antisymm first.atMost all
    have goesOn := first.whole.mp same
    rw [List.length_append, same, Nat.add_left_cancel_iff, then_.whole, List.mem_append, not_or]
    exact (and_iff_right goesOn).symm
  last := by
    have goesOn := first.whole.mp (Nat.le_antisymm first.atMost all)
    cases attempts' with
    | nil =>
        rw [List.append_nil]
        exact first.last
    | cons attempt attempts' =>
        rw [List.dropLast_append_of_ne_nil (List.cons_ne_nil _ _), List.mem_append, not_or]
        exact ⟨goesOn, then_.last⟩

theorem Went.cut (went : Went values count attempts) (short : count < values.length) (more : List α) :
    Went (values ++ more) count attempts where
  taken := by rw [went.taken, List.take_append_of_le_length short.le]
  atMost := by
    rw [List.length_append]
    omega
  whole := by
    rw [← went.whole, List.length_append]
    exact iff_of_false (by omega) short.ne
  last := went.last

end QNEthernet.Partial
