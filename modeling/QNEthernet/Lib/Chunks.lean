import Mathlib.Tactic

/-! Loops that pass something on block by block: every block but the last one is full. -/

namespace QNEthernet.Chunks

variable {σ : Type} (block size : Nat) (send : Nat → Nat → σ → σ)

/-- `while (n < size)`, with `send n len` for the `len` units from `n` on. -/
def loop : Nat → Nat → σ → σ
  | 0, _, s => s
  | fuel + 1, n, s =>
      if n < size then
        let len := min block (size - n)
        loop fuel (n + len) (send n len s)
      else s

/-- The loop from the start. As a turn passes on one unit at least, `size` turns are enough. -/
def run (s : σ) : σ := loop block size send size 0 s

variable {block size send}

theorem loop_ended {n : Nat} (ended : size ≤ n) (fuel : Nat) (s : σ) : loop block size send fuel n s = s := by
  cases fuel with
  | zero => rfl
  | succ fuel => rw [loop, if_neg (Nat.not_lt.mpr ended)]

theorem loop_induct (pos : 0 < block) (P : Nat → σ → Prop)
    (step : ∀ n s, n < size → n % block = 0 → P n s → P (n + min block (size - n)) (send n (min block (size - n)) s))
    (fuel n : Nat) (s : σ) (blocks : n % block = 0 ∨ n = size) (begun : n ≤ size) (enough : size ≤ n + fuel)
    (start : P n s) : P size (loop block size send fuel n s) := by
  induction fuel generalizing n s with
  | zero =>
      have all : n = size := by omega
      exact all ▸ start
  | succ fuel ih =>
      rw [loop]
      split
      · next more =>
          have aligned : n % block = 0 := blocks.resolve_right (by omega)
          have next : (n + min block (size - n)) % block = 0 ∨ n + min block (size - n) = size := by
            by_cases whole : block ≤ size - n
            · left
              rw [Nat.min_eq_left whole, Nat.add_mod_right, aligned]
            · right
              omega
          exact ih _ _ next (by omega) (by omega) (step n s more aligned start)
      · next ended =>
          have all : n = size := by omega
          exact all ▸ start

theorem run_induct (pos : 0 < block) (P : Nat → σ → Prop)
    (step : ∀ n s, n < size → n % block = 0 → P n s → P (n + min block (size - n)) (send n (min block (size - n)) s))
    (s : σ) (start : P 0 s) : P size (run block size send s) :=
  loop_induct pos P step size 0 s (.inl (Nat.zero_mod block)) (Nat.zero_le size) (Nat.le_add_left size 0) start

theorem blocks_le_iff (pos : 0 < block) (k : Nat) : (size + (block - 1)) / block ≤ k ↔ size ≤ block * k := by
  rw [Nat.div_le_iff_le_mul pos, Nat.mul_comm]
  omega

theorem loop_eq_foldl (pos : 0 < block) (fuel k : Nat) (s : σ) (enough : size ≤ block * k + fuel) :
    loop block size send fuel (block * k) s =
      (List.range' k ((size + (block - 1)) / block - k)).foldl
        (fun s k => send (block * k) (min block (size - block * k)) s) s := by
  have some_left (j : Nat) := @blocks_le_iff block size pos j
  generalize (size + (block - 1)) / block = blocks at some_left
  induction fuel generalizing k s with
  | zero =>
      rw [Nat.sub_eq_zero_of_le ((some_left k).mpr enough)]
      rfl
  | succ fuel ih =>
      dsimp only [loop]
      split
      · next more =>
          have left : k < blocks := by
            rw [← Nat.not_le, some_left]
            omega
          rw [← Nat.sub_add_cancel (show 1 ≤ blocks - k by omega), List.range'_succ, List.foldl_cons, Nat.sub_sub]
          by_cases whole : block ≤ size - block * k
          · rw [Nat.min_eq_left whole, ← Nat.mul_succ]
            exact ih (k + 1) _ (by rw [Nat.mul_succ]; omega)
          · have last : blocks ≤ k + 1 := by
              rw [some_left, Nat.mul_succ]
              omega
            rw [loop_ended (by omega), Nat.sub_eq_zero_of_le last]
            rfl
      · next ended =>
          rw [Nat.sub_eq_zero_of_le ((some_left k).mpr (Nat.not_lt.mp ended))]
          rfl

/-- The loop as a fold over its blocks. -/
theorem run_eq_foldl (pos : 0 < block) (s : σ) :
    run block size send s =
      (List.range ((size + (block - 1)) / block)).foldl
        (fun s k => send (block * k) (min block (size - block * k)) s) s := by
  have loop := @loop_eq_foldl σ block size send pos size 0 s (Nat.le_add_left size (block * 0))
  rwa [Nat.sub_zero, ← List.range_eq_range'] at loop

end QNEthernet.Chunks
