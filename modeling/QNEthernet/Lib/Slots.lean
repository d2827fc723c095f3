import Mathlib.Tactic

/-! Tables of slots that are filled from the first free one on, and a second table that follows one of
them but is not cleared with it. -/

namespace QNEthernet.Slots

variable {n : Nat} {α : Type}

abbrev Table (n : Nat) (α : Type) := Fin n → Option α

def empty : Table n α := fun _ => none

def firstFree (t : Table n α) : Option (Fin n) := Fin.find? fun i => (t i).isNone

def firstOf [DecidableEq α] (x : α) (t : Table n α) : Option (Fin n) :=
  Fin.find? fun i => decide (t i = some x)

/-- Below `used`, `m` has what `t` has; from there on `t` has nothing, and `m` may have anything. -/
structure Shadows (m t : Table n α) (used : Nat) : Prop where
  same : ∀ i : Fin n, i.val < used → m i = t i
  unused : ∀ i : Fin n, used ≤ i.val → t i = none

variable {m t : Table n α} {used : Nat}

theorem Shadows.cleared (m : Table n α) : Shadows m empty 0 :=
  ⟨fun _ below => absurd below (Nat.not_lt_zero _), fun _ _ => rfl⟩

theorem Shadows.put (shadows : Shadows m t used) {slot : Fin n} (free : firstFree t = some slot)
    (x : α) :
    ∃ used', Shadows (Function.update m slot (some x)) (Function.update t slot (some x)) used' := by
  have first := (Fin.find?_eq_some_iff.mp free).2
  have near : slot.val ≤ used := by
    by_contra beyond
    have open_slot := shadows.unused ⟨used, by omega⟩ (Nat.le_refl used)
    have taken := first ⟨used, by omega⟩ (Nat.lt_of_not_le beyond)
    rw [open_slot] at taken
    cases taken
  refine ⟨max used (slot.val + 1), ?_, ?_⟩
  · intro i below
    by_cases here : i = slot
    · rw [here, Function.update_self, Function.update_self]
    · rw [Function.update_of_ne here, Function.update_of_ne here]
      have apart : i.val ≠ slot.val := fun equal => here (Fin.ext equal)
      exact shadows.same i (by omega)
  · intro i beyond
    have apart : i ≠ slot := by
      intro here
      rw [here] at beyond
      omega
    rw [Function.update_of_ne apart]
    exact shadows.unused i (by omega)

theorem Shadows.free (shadows : Shadows m t used) (slot : Fin n) :
    Shadows (Function.update m slot none) (Function.update t slot none) used := by
  constructor
  · intro i below
    by_cases here : i = slot
    · rw [here, Function.update_self, Function.update_self]
    · rw [Function.update_of_ne here, Function.update_of_ne here]
      exact shadows.same i below
  · intro i beyond
    by_cases here : i = slot
    · rw [here, Function.update_self]
    · rw [Function.update_of_ne here]
      exact shadows.unused i beyond

theorem Shadows.drop (shadows : Shadows m t used) {slot : Fin n} (gone : t slot = none) :
    Shadows (Function.update m slot none) t used := by
  have freed := shadows.free slot
  rwa [← gone, Function.update_eq_self, gone] at freed

variable [DecidableEq α]

theorem Shadows.lookup (shadows : Shadows m t used) {x : α} {slot : Fin n}
    (found : firstOf x m = some slot) : t slot = some x ∨ t slot = none ∧ ∀ i, t i ≠ some x := by
  obtain ⟨here, first⟩ := Fin.find?_eq_some_iff.mp found
  have held : m slot = some x := of_decide_eq_true here
  by_cases below : slot.val < used
  · rw [← shadows.same slot below]
    exact .inl held
  · refine .inr ⟨shadows.unused slot (by omega), ?_⟩
    intro i there
    have inside : i.val < used := by
      by_contra beyond
      rw [shadows.unused i (by omega)] at there
      cases there
    have earlier := first i (by rw [Fin.lt_def]; omega)
    rw [shadows.same i inside] at earlier
    exact of_decide_eq_false earlier there

theorem Shadows.missing (shadows : Shadows m t used) {x : α} (none : firstOf x m = none) (i : Fin n) :
    t i ≠ some x := by
  intro there
  have absent := Fin.find?_eq_none_iff.mp none i
  by_cases below : i.val < used
  · rw [shadows.same i below] at absent
    exact of_decide_eq_false absent there
  · rw [shadows.unused i (by omega)] at there
    cases there

end QNEthernet.Slots
