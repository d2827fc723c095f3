import Mathlib.Tactic

/-! A divisor in two stages, a power of the base times a factor, each the smallest that serves. -/

namespace QNEthernet.Divisors

/-- Where two searches end: the power grows until the largest factor would fit, then the factor grows
until it does, both up to their limits. -/
structure Greedy (fits : Nat → Prop) (base stages limit power factor : Nat) : Prop where
  power_le : power ≤ stages
  factor_pos : 1 ≤ factor
  factor_le : factor ≤ limit
  powers : ∀ j < power, ¬ fits (base ^ j * limit)
  power_ends : power = stages ∨ fits (base ^ power * limit)
  factors : ∀ e, 1 ≤ e → e < factor → ¬ fits (base ^ power * e)
  factor_ends : factor = limit ∨ fits (base ^ power * factor)

namespace Greedy

variable {fits : Nat → Prop} {base stages limit power factor : Nat}

theorem least (greedy : Greedy fits base stages limit power factor) (positive : 0 < base)
    (upward : ∀ a b, 0 < a → a ≤ b → fits a → fits b) {j e : Nat} (pos : 1 ≤ e) (le : e ≤ limit)
    (fit : fits (base ^ j * e)) : base ^ power * factor ≤ base ^ j * e := by
  by_cases early : j < power
  · have larger : base ^ j * e ≤ base ^ j * limit := Nat.mul_le_mul_left _ le
    exact absurd (upward _ _ (Nat.mul_pos (Nat.pow_pos positive) pos) larger fit) (greedy.powers j early)
  · have split : base ^ j * e = base ^ power * (base ^ (j - power) * e) := by
      rw [← mul_assoc, ← pow_add, Nat.add_sub_cancel' (by omega)]
    have some_factor : 1 ≤ base ^ (j - power) * e :=
      Nat.mul_pos (Nat.pow_pos positive) pos
    have reached : factor ≤ base ^ (j - power) * e := by
      by_contra below
      exact greedy.factors _ some_factor (by omega) (split ▸ fit)
    calc base ^ power * factor
        ≤ base ^ power * (base ^ (j - power) * e) := Nat.mul_le_mul_left _ reached
      _ = base ^ j * e := split.symm

theorem fit_of_fit (greedy : Greedy fits base stages limit power factor) (positive : 0 < base)
    (upward : ∀ a b, 0 < a → a ≤ b → fits a → fits b) {j e : Nat} (stage : j ≤ stages)
    (pos : 1 ≤ e) (le : e ≤ limit) (fit : fits (base ^ j * e)) : fits (base ^ power * factor) := by
  rcases greedy.factor_ends with full | found
  · rw [full]
    rcases greedy.power_ends with top | found
    · have larger : base ^ j * e ≤ base ^ power * limit := by
        rw [top]
        exact Nat.mul_le_mul (Nat.pow_le_pow_right positive stage) le
      exact upward _ _ (Nat.mul_pos (Nat.pow_pos positive) pos) larger fit
    · exact found
  · exact found

theorem largest (greedy : Greedy fits base stages limit power factor)
    (none : ∀ j e, j ≤ stages → 1 ≤ e → e ≤ limit → ¬ fits (base ^ j * e)) :
    power = stages ∧ factor = limit := by
  constructor
  · rcases greedy.power_ends with top | found
    · exact top
    · have pos : 1 ≤ limit := le_trans greedy.factor_pos greedy.factor_le
      exact absurd found (none power limit greedy.power_le pos le_rfl)
  · rcases greedy.factor_ends with full | found
    · exact full
    · exact absurd found (none power factor greedy.power_le greedy.factor_pos greedy.factor_le)

end Greedy
end QNEthernet.Divisors
