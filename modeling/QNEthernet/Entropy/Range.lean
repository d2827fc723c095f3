import QNEthernet.Lib.Rejection

/-! `entropy_random_range` of `entropy/entropy.cpp`. The samples are what `random32` delivers; after the last one
it fails. -/

namespace QNEthernet.Entropy

inductive Errno where
  | eio | edom
  deriving DecidableEq

structure RandomResult where
  ret : Bool
  out : UInt32
  errno : Option Errno
  rest : List UInt32
  deriving DecidableEq

def RandomResult.failed (out : UInt32) : RandomResult := ⟨false, out, some .eio, []⟩

def product (r range : UInt32) : UInt64 := r.toUInt64 * range.toUInt64

/-- `while (low < threshold)`, and the result. -/
def reject (range threshold out : UInt32) (p : UInt64) (samples : List UInt32) : RandomResult :=
  if p.toUInt32 < threshold then
    match samples with
    | [] => .failed out
    | r :: rest => reject range threshold out (product r range) rest
  else ⟨true, (p >>> 32).toUInt32, none, samples⟩

def entropyRandomRange (range out : UInt32) (samples : List UInt32) : RandomResult :=
  if range = 0 then ⟨false, out, some .edom, samples⟩
  else
    match samples with
    | [] => .failed out
    | r :: rest =>
        -- Is power of 2?
        if range &&& (range - 1) = 0 then ⟨true, r &&& (range - 1), none, rest⟩
        else
          let p := product r range
          if p.toUInt32 < range then reject range (-range % range) out p rest
          else ⟨true, (p >>> 32).toUInt32, none, rest⟩

/-- A call that gets this sample and no other makes do with it. -/
def accepts (range r : UInt32) : Bool := (entropyRandomRange range 0 [r]).ret

def value (range r : UInt32) : UInt32 := (entropyRandomRange range 0 [r]).out

/-- The samples before the first accepted one are drawn in vain. -/
def drawn (range out : UInt32) (samples : List UInt32) : RandomResult :=
  match samples.dropWhile fun r => !accepts range r with
  | [] => .failed out
  | r :: rest => ⟨true, value range r, none, rest⟩

section Words

variable {range r : UInt32}

theorem toNat_pos (nonzero : range ≠ 0) : 0 < range.toNat :=
  Nat.pos_of_ne_zero fun zero => nonzero (UInt32.toNat_inj.mp zero)

theorem toNat_sub_one (nonzero : range ≠ 0) : (range - 1).toNat = range.toNat - 1 :=
  UInt32.toNat_sub_of_le range 1 (UInt32.le_iff_toNat_le.mpr (toNat_pos nonzero))

theorem product_toNat : (product r range).toNat = r.toNat * range.toNat := by
  rw [product, UInt64.toNat_mul, UInt32.toNat_toUInt64, UInt32.toNat_toUInt64]
  apply Nat.mod_eq_of_lt
  calc r.toNat * range.toNat < 2 ^ 32 * 2 ^ 32 := Nat.mul_lt_mul'' r.toNat_lt range.toNat_lt
    _ = 2 ^ 64 := by decide

theorem low_toNat : (product r range).toUInt32.toNat = r.toNat * range.toNat % 2 ^ 32 := by
  rw [UInt64.toNat_toUInt32, product_toNat]

theorem high_toNat (nonzero : range ≠ 0) :
    (product r range >>> 32).toUInt32.toNat = Rejection.value (2 ^ 32) range.toNat r.toNat := by
  have small := Rejection.value_lt (toNat_pos nonzero) r.toNat_lt
  rw [UInt64.toNat_toUInt32, UInt64.toNat_shiftRight, product_toNat, Nat.shiftRight_eq_div_pow]
  exact Nat.mod_eq_of_lt (small.trans range.toNat_lt)

/-- The unsigned negation makes 2^32 - range of the range, which has the same remainder. -/
theorem threshold_toNat (nonzero : range ≠ 0) : (-range % range).toNat = 2 ^ 32 % range.toNat := by
  have pos := toNat_pos nonzero
  have bound := range.toNat_lt
  calc (-range % range).toNat = (2 ^ 32 - range.toNat) % 2 ^ 32 % range.toNat := by
        rw [UInt32.toNat_mod, UInt32.toNat_neg]
        rfl
    _ = (2 ^ 32 - range.toNat) % range.toNat := by
        rw [Nat.mod_eq_of_lt (show 2 ^ 32 - range.toNat < 2 ^ 32 by omega)]
    _ = 2 ^ 32 % range.toNat := (Nat.mod_eq_sub_mod bound.le).symm

theorem power_iff (nonzero : range ≠ 0) : range &&& (range - 1) = 0 ↔ range.toNat.isPowerOfTwo := by
  rw [← Nat.and_sub_one_eq_zero_iff_isPowerOfTwo (toNat_pos nonzero).ne', ← UInt32.toNat_inj, UInt32.toNat_and,
    toNat_sub_one nonzero]
  rfl

theorem mask_toNat (nonzero : range ≠ 0) (power : range.toNat.isPowerOfTwo) :
    (r &&& (range - 1)).toNat = r.toNat % range.toNat := by
  obtain ⟨k, power⟩ := power
  rw [UInt32.toNat_and, toNat_sub_one nonzero, power]
  exact Nat.and_two_pow_sub_one_eq_mod r.toNat k

end Words

section Samples

variable {range : UInt32}

/-- The comparison with the range only spares the division: it lets no sample through that the threshold stops. -/
theorem entropyRandomRange_eq (nonzero : range ≠ 0) (many : range &&& (range - 1) ≠ 0) (out r : UInt32)
    (rest : List UInt32) :
    entropyRandomRange range out (r :: rest) = reject range (-range % range) out (product r range) rest := by
  simp only [entropyRandomRange, if_neg nonzero, if_neg many]
  split
  · rfl
  next large =>
    have pos := toNat_pos nonzero
    have through : ¬ (product r range).toUInt32 < -range % range := by
      rw [UInt32.lt_iff_toNat_lt] at large ⊢
      rw [UInt32.toNat_mod]
      exact Nat.not_lt.mpr ((Nat.mod_lt _ pos).le.trans (Nat.not_lt.mp large))
    unfold reject
    rw [if_neg through]

theorem accepts_power (nonzero : range ≠ 0) (power : range &&& (range - 1) = 0) (r : UInt32) :
    accepts range r = true ∧ value range r = r &&& (range - 1) := by
  simp only [accepts, value, entropyRandomRange, if_neg nonzero, if_pos power, and_self]

theorem accepts_other (nonzero : range ≠ 0) (many : range &&& (range - 1) ≠ 0) (r : UInt32) :
    (accepts range r = true ↔ ¬ (product r range).toUInt32 < -range % range) ∧
      (accepts range r = true → value range r = (product r range >>> 32).toUInt32) := by
  unfold accepts value
  rw [entropyRandomRange_eq nonzero many, reject]
  split
  next small => exact ⟨iff_of_false Bool.false_ne_true (not_not.mpr small), fun absent => absurd absent Bool.false_ne_true⟩
  next large => exact ⟨iff_of_true rfl large, fun _ => rfl⟩

theorem reject_accepted (nonzero : range ≠ 0) (many : range &&& (range - 1) ≠ 0) {r : UInt32}
    (accepted : accepts range r = true) (out : UInt32) (rest : List UInt32) :
    reject range (-range % range) out (product r range) rest = ⟨true, value range r, none, rest⟩ := by
  obtain ⟨large, given⟩ := accepts_other nonzero many r
  unfold reject
  rw [if_neg (large.mp accepted), given accepted]

theorem reject_rejected (nonzero : range ≠ 0) (many : range &&& (range - 1) ≠ 0) {r : UInt32}
    (rejected : ¬ accepts range r = true) (out : UInt32) (rest : List UInt32) :
    reject range (-range % range) out (product r range) rest =
      match rest with
      | [] => .failed out
      | r :: rest => reject range (-range % range) out (product r range) rest := by
  have small : (product r range).toUInt32 < -range % range :=
    not_not.mp (mt (accepts_other nonzero many r).1.mpr rejected)
  conv_lhs => unfold reject
  rw [if_pos small]

theorem drawn_accepted {r : UInt32} (accepted : accepts range r = true) (out : UInt32) (rest : List UInt32) :
    drawn range out (r :: rest) = ⟨true, value range r, none, rest⟩ := by
  rw [drawn, List.dropWhile_cons_of_neg (by simp [accepted])]

theorem drawn_rejected {r : UInt32} (rejected : ¬ accepts range r = true) (out : UInt32) (rest : List UInt32) :
    drawn range out (r :: rest) = drawn range out rest := by
  rw [drawn, List.dropWhile_cons_of_pos (by simp [rejected]), drawn]

theorem reject_eq (nonzero : range ≠ 0) (many : range &&& (range - 1) ≠ 0) (out r : UInt32) (rest : List UInt32) :
    reject range (-range % range) out (product r range) rest = drawn range out (r :: rest) := by
  induction rest generalizing r with
  | nil =>
      by_cases accepted : accepts range r = true
      · rw [reject_accepted nonzero many accepted, drawn_accepted accepted]
      · rw [reject_rejected nonzero many accepted, drawn_rejected accepted]
        rfl
  | cons r' rest ih =>
      by_cases accepted : accepts range r = true
      · rw [reject_accepted nonzero many accepted, drawn_accepted accepted]
      · rw [reject_rejected nonzero many accepted, drawn_rejected accepted]
        exact ih r'

theorem entropyRandomRange_drawn (nonzero : range ≠ 0) (out : UInt32) (samples : List UInt32) :
    entropyRandomRange range out samples = drawn range out samples := by
  cases samples with
  | nil => rw [entropyRandomRange, if_neg nonzero, drawn, List.dropWhile_nil]
  | cons r rest =>
      by_cases power : range &&& (range - 1) = 0
      · obtain ⟨accepted, given⟩ := accepts_power nonzero power r
        rw [drawn_accepted accepted, given, entropyRandomRange, if_neg nonzero]
        exact if_pos power
      · rw [entropyRandomRange_eq nonzero power, reject_eq nonzero power]

/-- A draw that succeeds ends with the first accepted sample. -/
theorem drawn_true {out : UInt32} {samples : List UInt32} (success : (drawn range out samples).ret = true) :
    ∃ before r, samples = before ++ r :: (drawn range out samples).rest ∧
      (∀ r' ∈ before, accepts range r' = false) ∧ accepts range r = true ∧
      (drawn range out samples).out = value range r := by
  induction samples with
  | nil => exact absurd success Bool.false_ne_true
  | cons r rest ih =>
      by_cases accepted : accepts range r = true
      · rw [drawn_accepted accepted]
        exact ⟨[], r, rfl, fun r' none => absurd none List.not_mem_nil, accepted, rfl⟩
      · rw [drawn_rejected accepted] at success ⊢
        obtain ⟨before, last, same, rejected, there, given⟩ := ih success
        exact ⟨r :: before, last, congrArg (r :: ·) same,
          List.forall_mem_cons.mpr ⟨Bool.eq_false_iff.mpr accepted, rejected⟩, there, given⟩

theorem drawn_false {out : UInt32} {samples : List UInt32} (failure : (drawn range out samples).ret = false) :
    (drawn range out samples).out = out ∧ ∀ r ∈ samples, accepts range r = false := by
  induction samples with
  | nil => exact ⟨rfl, fun r none => absurd none List.not_mem_nil⟩
  | cons r rest ih =>
      by_cases accepted : accepts range r = true
      · rw [drawn_accepted accepted] at failure
        exact absurd failure.symm Bool.false_ne_true
      · rw [drawn_rejected accepted] at failure ⊢
        obtain ⟨same, rejected⟩ := ih failure
        exact ⟨same, List.forall_mem_cons.mpr ⟨Bool.eq_false_iff.mpr accepted, rejected⟩⟩

theorem accepts_iff (nonzero : range ≠ 0) (many : ¬ range.toNat.isPowerOfTwo) (r : UInt32) :
    (accepts range r = true ↔ Rejection.Accepted (2 ^ 32) range.toNat r.toNat) ∧
      (accepts range r = true → (value range r).toNat = Rejection.value (2 ^ 32) range.toNat r.toNat) := by
  obtain ⟨accepted, given⟩ := accepts_other nonzero (mt (power_iff nonzero).mp many) r
  rw [UInt32.lt_iff_toNat_lt, low_toNat, threshold_toNat nonzero, Nat.not_lt] at accepted
  exact ⟨accepted, fun there => by rw [given there, high_toNat nonzero]⟩

theorem value_lt (nonzero : range ≠ 0) {r : UInt32} (accepted : accepts range r = true) : value range r < range := by
  have pos := toNat_pos nonzero
  rw [UInt32.lt_iff_toNat_lt]
  by_cases power : range.toNat.isPowerOfTwo
  · rw [(accepts_power nonzero ((power_iff nonzero).mpr power) r).2, mask_toNat nonzero power]
    exact Nat.mod_lt _ pos
  · rw [(accepts_iff nonzero power r).2 accepted]
    exact Rejection.value_lt pos r.toNat_lt

theorem rejects_iff (nonzero : range ≠ 0) (r : UInt32) :
    accepts range r = false ↔
      ¬ range.toNat.isPowerOfTwo ∧ r.toNat * range.toNat % 2 ^ 32 < 2 ^ 32 % range.toNat := by
  rw [← Bool.not_eq_true]
  by_cases power : range.toNat.isPowerOfTwo
  · have accepted := (accepts_power nonzero ((power_iff nonzero).mpr power) r).1
    exact iff_of_false (not_not.mpr accepted) fun other => other.1 power
  · rw [(accepts_iff nonzero power r).1, Rejection.Accepted, Nat.not_le]
    exact (and_iff_right power).symm

/-- Every number has the same share of all samples. -/
theorem card_given (nonzero : range ≠ 0) {v : UInt32} (below : v < range) :
    ((Finset.range (2 ^ 32)).filter fun r =>
      accepts range (.ofNat r) = true ∧ value range (.ofNat r) = v).card = 2 ^ 32 / range.toNat := by
  have word {r : Nat} (small : r ∈ Finset.range (2 ^ 32)) : (UInt32.ofNat r).toNat = r := by
    rw [UInt32.toNat_ofNat', Nat.mod_eq_of_lt (Finset.mem_range.mp small)]
  by_cases power : range.toNat.isPowerOfTwo
  · have divides : range.toNat ∣ 2 ^ 32 := by
      obtain ⟨k, power⟩ := power
      have small : 2 ^ k < 2 ^ 32 := power ▸ range.toNat_lt
      exact power ▸ Nat.pow_dvd_pow 2 ((Nat.pow_lt_pow_iff_right (by decide)).mp small).le
    rw [← Rejection.card_mod divides (UInt32.lt_iff_toNat_lt.mp below)]
    refine congrArg Finset.card (Finset.filter_congr ?_)
    intro r small
    obtain ⟨accepted, given⟩ := accepts_power nonzero ((power_iff nonzero).mpr power) (.ofNat r)
    rw [given, ← UInt32.toNat_inj, mask_toNat nonzero power, word small]
    exact and_iff_right accepted
  · rw [← Rejection.card_value (UInt32.lt_iff_toNat_lt.mp below)]
    refine congrArg Finset.card (Finset.filter_congr ?_)
    intro r small
    obtain ⟨accepted, given⟩ := accepts_iff nonzero power (.ofNat r)
    rw [word small] at accepted given
    rw [← accepted]
    apply and_congr_right
    intro there
    rw [← given there, UInt32.toNat_inj]

/-- `entropy_random_range` takes the first sample that is accepted, and every number below the range is given by
equally many samples. -/
theorem random_range_uniform (nonzero : range ≠ 0) (out : UInt32) (samples : List UInt32) :
    let result := entropyRandomRange range out samples
    (∀ r, accepts range r = false ↔
        ¬ range.toNat.isPowerOfTwo ∧ r.toNat * range.toNat % 2 ^ 32 < 2 ^ 32 % range.toNat) ∧
      (result.ret = true → ∃ before r, samples = before ++ r :: result.rest ∧
        (∀ r' ∈ before, accepts range r' = false) ∧ accepts range r = true ∧
        result.out = value range r ∧ result.out < range) ∧
      (result.ret = false → result.out = out ∧ ∀ r ∈ samples, accepts range r = false) ∧
      (∀ v < range, ((Finset.range (2 ^ 32)).filter fun r =>
        accepts range (.ofNat r) = true ∧ value range (.ofNat r) = v).card = 2 ^ 32 / range.toNat) ∧
      entropyRandomRange 0 out samples = ⟨false, out, some .edom, samples⟩ := by
  dsimp only
  rw [entropyRandomRange_drawn nonzero]
  refine ⟨rejects_iff nonzero, ?_, drawn_false, fun v => card_given nonzero, rfl⟩
  intro success
  obtain ⟨before, r, same, rejected, accepted, given⟩ := drawn_true success
  exact ⟨before, r, same, rejected, accepted, given, given ▸ value_lt nonzero accepted⟩

theorem random_range_uniform_ten : ((Finset.range (2 ^ 32)).filter fun r =>
    accepts 10 (.ofNat r) = true ∧ value 10 (.ofNat r) = 3).card = 429496729 :=
  (@random_range_uniform 10 (by decide) 0 []).2.2.2.1 3 (by decide)

end Samples

end QNEthernet.Entropy
