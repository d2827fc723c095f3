import Mathlib.Tactic

/-! A `while` loop over a state, and what is known where it stops. -/

namespace QNEthernet.While

variable {σ : Type} (more : σ → Bool) (next : σ → σ)

/-- `none` when the turns do not suffice. -/
def run : Nat → σ → Option σ
  | 0, _ => none
  | fuel + 1, s => if more s then run fuel (next s) else some s

theorem run_stops (turn : Nat → σ) {last : Nat} (turns : ∀ i < last, next (turn i) = turn (i + 1))
    (ended : more (turn last) = false) {fuel i : Nat} (reached : i ≤ last) (enough : last - i < fuel) :
    ∃ k, i ≤ k ∧ k ≤ last ∧ (∀ j, i ≤ j → j < k → more (turn j) = true) ∧ more (turn k) = false ∧
      run more next fuel (turn i) = some (turn k) := by
  induction fuel generalizing i with
  | zero => omega
  | succ fuel later =>
    cases going : more (turn i) with
    | false =>
      refine ⟨i, le_rfl, reached, ?_, going, ?_⟩
      · intro j above below
        omega
      · rw [run, going, if_neg Bool.false_ne_true]
    | true =>
      have before : i < last := by
        rcases Nat.lt_or_eq_of_le reached with before | same
        · exact before
        · rw [same, ended] at going
          exact absurd going Bool.false_ne_true
      obtain ⟨k, above, below, passed, stopped, result⟩ := later (i := i + 1) (by omega) (by omega)
      refine ⟨k, by omega, below, ?_, stopped, ?_⟩
      · intro j from_i to_k
        rcases Nat.eq_or_lt_of_le from_i with first | after
        · rw [← first, going]
        · exact passed j after to_k
      · rw [run, going, if_pos rfl, turns i before, result]

end QNEthernet.While
