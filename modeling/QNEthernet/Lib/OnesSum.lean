import QNEthernet.Lib.Words

/-! Ones' complement sums of 16-bit words, and the checksum that makes one come out as all ones. -/

namespace QNEthernet.OnesSum

open Words

/-- The sum of the words in memory; an odd byte at the end counts as a word with a zero behind it. -/
def wordSum (order : ByteOrder) : List UInt8 → Nat
  | [] => 0
  | [b] => order.load [b, 0]
  | a :: b :: rest => order.load [a, b] + wordSum order rest

/-- The carries added back in: a number of 16 bits, zero for zero only. -/
def carried (n : Nat) : Nat := if n = 0 then 0 else (n - 1) % 65535 + 1

theorem carried_le (n : Nat) : carried n ≤ 65535 := by
  unfold carried
  split <;> omega

theorem eq_carried {r n : Nat} (le : r ≤ 65535) (same : r % 65535 = n % 65535) (zero : r = 0 ↔ n = 0) :
    r = carried n := by
  unfold carried
  split
  · next none => exact zero.mpr none
  · next some =>
    have positive : r ≠ 0 := fun none => some (zero.mp none)
    omega

theorem carried_mod (n : Nat) : carried n % 65535 = n % 65535 := by
  unfold carried
  split <;> omega

theorem carried_eq_zero {n : Nat} : carried n = 0 ↔ n = 0 := by
  unfold carried
  split <;> omega

theorem carried_complement (n : Nat) (some : 0 < n) : carried (n + (65535 - carried n)) = 65535 := by
  have le := carried_le n
  have same := carried_mod n
  refine (eq_carried le_rfl ?_ ?_).symm
  · omega
  · omega

theorem load_pair (order : ByteOrder) (a b : UInt8) :
    order.load [a, b] = match order with
      | .little => a.toNat + 256 * b.toNat
      | .big => b.toNat + 256 * a.toNat := by
  cases order <;> simp [ByteOrder.load, ByteOrder.arrange, number, Nat.ofDigits_cons]

theorem load_lt (order : ByteOrder) (a b : UInt8) : order.load [a, b] < 2 ^ 16 := by
  have first := a.toNat_lt
  have second := b.toNat_lt
  rw [load_pair]
  cases order <;> simp only <;> omega

theorem wordSum_le (order : ByteOrder) (bytes : List UInt8) :
    wordSum order bytes ≤ 65535 * ((bytes.length + 1) / 2) := by
  induction bytes using wordSum.induct with
  | case1 => simp [wordSum]
  | case2 b =>
    have word := load_lt order b 0
    simp only [wordSum, List.length_singleton]
    omega
  | case3 a b rest step =>
    have word := load_lt order a b
    simp only [wordSum, List.length_cons]
    omega

theorem wordSum_append (order : ByteOrder) (front back : List UInt8) (even : front.length % 2 = 0) :
    wordSum order (front ++ back) = wordSum order front + wordSum order back := by
  induction front using wordSum.induct with
  | case1 => simp [wordSum]
  | case2 b => simp at even
  | case3 a b rest step =>
    have rest_even : rest.length % 2 = 0 := by
      simp only [List.length_cons] at even
      omega
    simp only [List.cons_append, wordSum, step rest_even, Nat.add_assoc]

/-- The bytes with two weights by turns. -/
def weighted (here next : Nat) : List UInt8 → Nat
  | [] => 0
  | b :: rest => here * b.toNat + weighted next here rest

def weights : ByteOrder → Nat × Nat
  | .little => (1, 256)
  | .big => (256, 1)

theorem wordSum_eq_weighted (order : ByteOrder) (bytes : List UInt8) :
    wordSum order bytes = weighted (weights order).1 (weights order).2 bytes := by
  induction bytes using wordSum.induct with
  | case1 => rfl
  | case2 b => cases order <;> simp [wordSum, weighted, weights, load_pair]
  | case3 a b rest step =>
    rw [wordSum, step, load_pair, weighted, weighted]
    cases order <;> simp only [weights] <;> omega

theorem weighted_swapped {x y x' y' : Nat} (first : 256 * x % 65535 = x' % 65535)
    (second : 256 * y % 65535 = y' % 65535) (bytes : List UInt8) :
    256 * weighted x y bytes % 65535 = weighted x' y' bytes % 65535 := by
  induction bytes generalizing x y x' y' with
  | nil => rfl
  | cons b rest later =>
    have head : 256 * (x * b.toNat) ≡ x' * b.toNat [MOD 65535] := by
      rw [← Nat.mul_assoc]
      exact Nat.ModEq.mul_right _ first
    rw [weighted, weighted, Nat.mul_add]
    exact Nat.ModEq.add head (later second first)

theorem wordSum_mul_256 (bytes : List UInt8) :
    256 * wordSum .little bytes % 65535 = wordSum .big bytes % 65535 ∧
      256 * wordSum .big bytes % 65535 = wordSum .little bytes % 65535 := by
  simp only [wordSum_eq_weighted, weights]
  exact ⟨weighted_swapped (by decide) (by decide) bytes, weighted_swapped (by decide) (by decide) bytes⟩

theorem wordSum_shifted (order : ByteOrder) (bytes : List UInt8) :
    wordSum order (0 :: bytes) % 65535 = 256 * wordSum order bytes % 65535 := by
  cases order with
  | little =>
    rw [(wordSum_mul_256 bytes).1, wordSum_eq_weighted, wordSum_eq_weighted]
    simp [weighted, weights]
  | big =>
    rw [(wordSum_mul_256 bytes).2, wordSum_eq_weighted, wordSum_eq_weighted]
    simp [weighted, weights]

theorem wordSum_eq_zero (order : ByteOrder) (bytes : List UInt8) :
    wordSum order bytes = 0 ↔ ∀ b ∈ bytes, b = 0 := by
  have weighs {x y : Nat} (first : 0 < x) (second : 0 < y) : weighted x y bytes = 0 ↔ ∀ b ∈ bytes, b = 0 := by
    induction bytes generalizing x y with
    | nil => simp [weighted]
    | cons b rest later =>
      have nothing : b.toNat = 0 ↔ b = 0 := by
        rw [← UInt8.toNat_inj]
        rfl
      rw [weighted, Nat.add_eq_zero_iff, later second first, Nat.mul_eq_zero, nothing, List.forall_mem_cons]
      simp [first.ne']
  rw [wordSum_eq_weighted]
  cases order with
  | little => exact weighs (by decide) (by decide)
  | big => exact weighs (by decide) (by decide)

theorem carried_wordSum_other {order : ByteOrder} (other : ByteOrder) {bytes : List UInt8}
    (ones : carried (wordSum order bytes) = 65535) : carried (wordSum other bytes) = 65535 := by
  have multiple := carried_mod (wordSum order bytes)
  rw [ones] at multiple
  have same : wordSum other bytes % 65535 = 0 := by
    have scaled := wordSum_mul_256 bytes
    cases order <;> cases other <;> omega
  have some : wordSum other bytes ≠ 0 := by
    rw [ne_eq, wordSum_eq_zero, ← wordSum_eq_zero order, ← carried_eq_zero, ones]
    decide
  refine (eq_carried le_rfl ?_ ?_).symm
  · rw [same]
  · omega

/-- The upper half added to the lower one. -/
def fold (n : Nat) : Nat := n / 65536 + n % 65536

theorem fold_mod (n : Nat) : fold n % 65535 = n % 65535 := by
  rw [fold]
  omega

theorem fold_eq_zero {n : Nat} : fold n = 0 ↔ n = 0 := by
  rw [fold]
  omega

/-- Two such steps carry a 32-bit sum. -/
theorem fold_fold {n : Nat} (word : n < 2 ^ 32) : fold (fold n) = carried n := by
  have le : fold (fold n) ≤ 65535 := by
    simp only [fold]
    omega
  have same : fold (fold n) % 65535 = n % 65535 :=
    calc fold (fold n) % 65535 = fold n % 65535 := fold_mod (fold n)
      _ = n % 65535 := fold_mod n
  exact eq_carried le same (fold_eq_zero.trans fold_eq_zero)

/-- The two bytes of a word the other way round. -/
def swapped (n : Nat) : Nat := 256 * (n % 256) + n / 256

theorem swapped_mod (n : Nat) : swapped n % 65535 = 256 * n % 65535 := by
  rw [swapped]
  omega

theorem swapped_eq_zero {n : Nat} : swapped n = 0 ↔ n = 0 := by
  rw [swapped]
  omega

theorem swapped_le {n : Nat} (word : n ≤ 65535) : swapped n ≤ 65535 := by
  rw [swapped]
  omega

/-- A word sum taken one byte further on comes out swapped. -/
theorem swapped_carried_shifted (order : ByteOrder) (bytes : List UInt8) :
    swapped (carried (wordSum order (0 :: bytes))) = carried (wordSum order bytes) := by
  have same : swapped (carried (wordSum order (0 :: bytes))) % 65535 = wordSum order bytes % 65535 :=
    calc swapped (carried (wordSum order (0 :: bytes))) % 65535
        = 256 * carried (wordSum order (0 :: bytes)) % 65535 := swapped_mod _
      _ = 256 * wordSum order (0 :: bytes) % 65535 := Nat.ModEq.mul_left 256 (carried_mod _)
      _ = 256 * (256 * wordSum order bytes) % 65535 := Nat.ModEq.mul_left 256 (wordSum_shifted order bytes)
      _ = wordSum order bytes % 65535 := by omega
  have zero : swapped (carried (wordSum order (0 :: bytes))) = 0 ↔ wordSum order bytes = 0 := by
    rw [swapped_eq_zero, carried_eq_zero, wordSum_eq_zero, wordSum_eq_zero, List.forall_mem_cons]
    simp
  exact eq_carried (swapped_le (carried_le _)) same zero

end QNEthernet.OnesSum
