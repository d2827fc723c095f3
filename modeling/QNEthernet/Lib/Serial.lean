import Mathlib.Tactic

/-! Serial numbers: a clock without bound, known modulo a period. Two readings less than half a period
apart are in the order that the difference of their serial numbers says. -/

namespace QNEthernet.Serial

variable {period half a b : Nat}

theorem difference_eq {x : Nat} (small : x < period) (sum : (x + b) % period = a % period) :
    (period - b % period + a % period) % period = x := by
  have pos : 0 < period := by omega
  have inside : b % period < period := Nat.mod_lt b pos
  have parts : period * (b / period) + b % period = b := Nat.div_add_mod b period
  have shifted : (period - b % period + a % period) + b = a % period + period * (1 + b / period) := by
    rw [Nat.mul_add, Nat.mul_one]
    omega
  have congruent : (period - b % period + a % period) + b ≡ x + b [MOD period] := by
    rw [shifted]
    calc a % period + period * (1 + b / period)
        ≡ a % period [MOD period] := Nat.add_mul_mod_self_left ..
      _ ≡ a [MOD period] := Nat.mod_modEq a period
      _ ≡ x + b [MOD period] := sum.symm
  have cancelled : (period - b % period + a % period) % period = x % period :=
    Nat.ModEq.add_right_cancel' b congruent
  rw [cancelled, Nat.mod_eq_of_lt small]

theorem difference_of_le (order : b ≤ a) (near : a < b + period) :
    (period - b % period + a % period) % period = a - b :=
  difference_eq (by omega) (by rw [Nat.sub_add_cancel order])

theorem difference_of_lt (order : a < b) (near : b ≤ a + period) :
    (period - b % period + a % period) % period = period - (b - a) := by
  apply difference_eq (by omega)
  have turn : period - (b - a) + b = a + period := by omega
  rw [turn, Nat.add_mod_right]

theorem before_iff (even : period = 2 * half) (near : a < b + half) (near' : b ≤ a + half) :
    half ≤ (period - b % period + a % period) % period ↔ a < b := by
  by_cases order : a < b
  · rw [difference_of_lt order (by omega)]
    omega
  · rw [difference_of_le (by omega) (by omega)]
    omega

end QNEthernet.Serial
