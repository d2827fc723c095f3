import QNEthernet.Lib.Chunks
import Mathlib.Data.Nat.Count
import Mathlib.Data.Int.CardIntervalMod

/-! Numbers below a bound from samples below a size: the sample times the bound has the number above and a
rest below, and samples with a small rest are drawn again. -/

namespace QNEthernet.Rejection

variable (size bound : Nat)

/-- The rest is not among the first ones, which some numbers have and others do not. -/
def Accepted (sample : Nat) : Prop := size % bound ≤ sample * bound % size

def value (sample : Nat) : Nat := sample * bound / size

variable {size bound}

instance (sample : Nat) : Decidable (Accepted size bound sample) := inferInstanceAs (Decidable (_ ≤ _))

theorem value_lt (pos : 0 < bound) {sample : Nat} (below : sample < size) : value size bound sample < bound := by
  apply Nat.div_lt_of_lt_mul
  exact Nat.mul_lt_mul_of_pos_right below pos

theorem accepted_iff {v sample : Nat} (pos : 0 < size) :
    Accepted size bound sample ∧ value size bound sample = v ↔
      v * size + size % bound ≤ sample * bound ∧ sample * bound < (v + 1) * size := by
  have parts := Nat.div_add_mod (sample * bound) size
  have rest := Nat.mod_lt (sample * bound) pos
  unfold Accepted value
  constructor
  · rintro ⟨enough, rfl⟩
    rw [Nat.mul_comm _ size, Nat.mul_comm _ size, Nat.mul_add]
    omega
  · rintro ⟨low, high⟩
    have number : sample * bound / size = v :=
      Nat.div_eq_of_lt_le (le_trans (Nat.le_add_right _ _) low) high
    rw [number, Nat.mul_comm] at parts
    exact ⟨by omega, number⟩

/-- As the interval is a multiple of the bound long, it has as many multiples wherever it begins. -/
theorem card_value {v : Nat} (below : v < bound) :
    ((Finset.range size).filter fun sample => Accepted size bound sample ∧ value size bound sample = v).card =
      size / bound := by
  rcases Nat.eq_zero_or_pos size with rfl | pos
  · rw [Finset.range_zero, Finset.filter_empty, Finset.card_empty, Nat.zero_div]
  have first (start k : Nat) : (start + (bound - 1)) / bound ≤ k ↔ start ≤ k * bound := by
    rw [Chunks.blocks_le_iff (Nat.zero_lt_of_lt below), Nat.mul_comm]
  have last : ((v + 1) * size + (bound - 1)) / bound = (v * size + size % bound + (bound - 1)) / bound + size / bound := by
    have length : (v + 1) * size = v * size + size % bound + bound * (size / bound) := by
      rw [Nat.add_mul, Nat.one_mul, Nat.add_assoc, Nat.mod_add_div]
    rw [length, Nat.add_right_comm, Nat.add_mul_div_left _ _ (Nat.zero_lt_of_lt below)]
  have interval : ((Finset.range size).filter fun sample =>
      Accepted size bound sample ∧ value size bound sample = v) =
      Finset.Ico ((v * size + size % bound + (bound - 1)) / bound) (((v + 1) * size + (bound - 1)) / bound) := by
    ext sample
    rw [Finset.mem_filter, accepted_iff pos, Finset.mem_Ico, first, Finset.mem_range, ← Nat.not_le, ← Nat.not_le,
      ← Nat.not_le, first]
    refine ⟨And.right, fun inside => ⟨fun tooBig => inside.2 ?_, inside⟩⟩
    calc (v + 1) * size ≤ bound * size := Nat.mul_le_mul_right size below
      _ = size * bound := Nat.mul_comm bound size
      _ ≤ sample * bound := Nat.mul_le_mul_right bound tooBig
  rw [interval, Nat.card_Ico, last, Nat.add_sub_cancel_left]

theorem card_mod (divides : bound ∣ size) {v : Nat} (below : v < bound) :
    ((Finset.range size).filter fun sample => sample % bound = v).card = size / bound := by
  have counted := Nat.count_modEq_card size (Nat.zero_lt_of_lt below) v
  rw [Nat.count_eq_card_filter_range, Nat.mod_eq_zero_of_dvd divides, if_neg (Nat.not_lt_zero _), Nat.add_zero] at counted
  rw [← counted]
  congr 1
  ext sample
  rw [Finset.mem_filter, Finset.mem_filter, Nat.ModEq, Nat.mod_eq_of_lt below]

end QNEthernet.Rejection
