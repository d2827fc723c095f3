import QNEthernet.Lib.While
import QNEthernet.Lib.Divisors

/-! The SDIO clock of `cyw43_T4_SDIO.cpp`: two dividers, and the register that holds them. -/

namespace QNEthernet.Drivers.Cyw43

def makeRegMask (m : BitVec 32) (s : Nat) : BitVec 32 := m <<< s
def makeRegSet (x m : BitVec 32) (s : Nat) : BitVec 32 := (x &&& m) <<< s
def makeRegGet (x m : BitVec 32) (s : Nat) : BitVec 32 := (x >>> s) &&& m

def sdhcSysctlDtocv (n : BitVec 32) : BitVec 32 := makeRegSet n 0xF 16
def sdhcSysctlDtocvMask : BitVec 32 := makeRegMask 0xF 16
def sdhcSysctlSdclkfs (n : BitVec 32) : BitVec 32 := makeRegSet n 0xFF 8
def sdhcSysctlSdclkfsMask : BitVec 32 := makeRegMask 0xFF 8
def sdhcSysctlDvs (n : BitVec 32) : BitVec 32 := makeRegSet n 0xF 4
def sdhcSysctlDvsMask : BitVec 32 := makeRegMask 0xF 4

structure SdClock where
  sysCtrl : BitVec 32
  wiFiClkKhz : BitVec 32 := 0
  deriving DecidableEq

namespace SdClock

def dvsLimit : BitVec 32 := 0x10
def wificlkfsLimit : BitVec 32 := 0x100

section Dividers

variable (baseClk maxSdclk : BitVec 32)

def wificlkfsLoop (fuel : Nat) (wificlkfs : BitVec 32) : Option (BitVec 32) :=
  While.run
    (fun wificlkfs =>
      decide (baseClk / (wificlkfs * dvsLimit) > maxSdclk) && decide (wificlkfs < wificlkfsLimit))
    (fun wificlkfs => wificlkfs <<< 1) fuel wificlkfs

def dvsLoop (wificlkfs : BitVec 32) (fuel : Nat) (dvs : BitVec 32) : Option (BitVec 32) :=
  While.run (fun dvs => decide (baseClk / (wificlkfs * dvs) > maxSdclk) && decide (dvs < dvsLimit))
    (fun dvs => dvs + 1) fuel dvs

end Dividers

def dividersMask : BitVec 32 := sdhcSysctlDtocvMask ||| sdhcSysctlDvsMask ||| sdhcSysctlSdclkfsMask

/-- `none` when a loop would take more turns than `fuel`. -/
def setWiFiclk (fuel : Nat) (s : SdClock) (baseClk kHzMax : BitVec 32) : Option SdClock := do
  let maxSdclk := 1000 * kHzMax
  let wificlkfs ← wificlkfsLoop baseClk maxSdclk fuel 1
  let dvs ← dvsLoop baseClk maxSdclk wificlkfs fuel 1
  let sysctl := s.sysCtrl &&& ~~~dividersMask
  pure {
    wiFiClkKhz := baseClk / (1000 * wificlkfs * dvs)
    sysCtrl := sysctl ||| sdhcSysctlDtocv 0x0E ||| sdhcSysctlDvs (dvs - 1) |||
      sdhcSysctlSdclkfs (wificlkfs >>> 1) }

/-- What the hardware divides by first: nothing for zero, else twice the field. -/
def prescaler (s : SdClock) : Nat :=
  let field := (makeRegGet s.sysCtrl 0xFF 8).toNat
  if field = 0 then 1 else 2 * field

/-- What it divides by then: one more than the field. -/
def divisor (s : SdClock) : Nat := (makeRegGet s.sysCtrl 0xF 4).toNat + 1

variable {fuel : Nat} {s : SdClock} {baseClk kHzMax maxSdclk : BitVec 32}

/-- A divider serves when it takes the base clock down to the limit. -/
def Fits (baseClk maxSdclk : BitVec 32) (divider : Nat) : Prop := baseClk.toNat / divider ≤ maxSdclk.toNat

theorem over_iff {p q : Nat} (small : p * q < 2 ^ 32) :
    baseClk / (BitVec.ofNat 32 p * BitVec.ofNat 32 q) > maxSdclk ↔ ¬ Fits baseClk maxSdclk (p * q) := by
  have product : (BitVec.ofNat 32 p * BitVec.ofNat 32 q).toNat = p * q := by
    rw [← BitVec.ofNat_mul, BitVec.toNat_ofNat, Nat.mod_eq_of_lt small]
  rw [gt_iff_lt, BitVec.lt_def, BitVec.toNat_udiv, product, Fits, Nat.not_le]

theorem goes_on_iff {p q v : Nat} {limit : BitVec 32} (small : p * q < 2 ^ 32) (word : v < 2 ^ 32) :
    (decide (baseClk / (BitVec.ofNat 32 p * BitVec.ofNat 32 q) > maxSdclk) &&
      decide (BitVec.ofNat 32 v < limit)) = true ↔ ¬ Fits baseClk maxSdclk (p * q) ∧ v < limit.toNat := by
  rw [Bool.and_eq_true, decide_eq_true_eq, decide_eq_true_eq, over_iff small, BitVec.lt_def,
    BitVec.toNat_ofNat, Nat.mod_eq_of_lt word]

theorem wificlkfsLoop_stops (baseClk maxSdclk : BitVec 32) (enough : 8 < fuel) :
    ∃ k ≤ 8, wificlkfsLoop baseClk maxSdclk fuel 1 = some (BitVec.ofNat 32 (2 ^ k)) ∧
      (∀ j < k, ¬ Fits baseClk maxSdclk (2 ^ j * 16)) ∧ (k = 8 ∨ Fits baseClk maxSdclk (2 ^ k * 16)) := by
  have power {j : Nat} (stage : j ≤ 8) : 2 ^ j ≤ 2 ^ 8 := Nat.pow_le_pow_right (by decide) stage
  have turns (i : Nat) (_ : i < 8) : BitVec.ofNat 32 (2 ^ i) <<< 1 = BitVec.ofNat 32 (2 ^ (i + 1)) := by
    rw [BitVec.shiftLeft_eq_mul_twoPow, pow_succ, BitVec.ofNat_mul]
    rfl
  have goes_on {j : Nat} (stage : j ≤ 8) :
      (decide (baseClk / (BitVec.ofNat 32 (2 ^ j) * dvsLimit) > maxSdclk) &&
        decide (BitVec.ofNat 32 (2 ^ j) < wificlkfsLimit)) = true ↔
          ¬ Fits baseClk maxSdclk (2 ^ j * 16) ∧ 2 ^ j < 2 ^ 8 := by
    have bound := power stage
    have small : 2 ^ j * 16 < 2 ^ 32 := by omega
    exact goes_on_iff small (by omega)
  obtain ⟨k, -, stage, passed, stopped, result⟩ :=
    While.run_stops (fun w => decide (baseClk / (w * dvsLimit) > maxSdclk) && decide (w < wificlkfsLimit))
      (fun w => w <<< 1) (fun i => BitVec.ofNat 32 (2 ^ i)) turns
      (by simp [wificlkfsLimit]) (Nat.zero_le 8) (by omega : 8 - 0 < fuel)
  refine ⟨k, stage, result, ?_, ?_⟩
  · intro j below
    exact ((goes_on (by omega)).mp (passed j (Nat.zero_le j) below)).1
  · by_cases last : k = 8
    · exact Or.inl last
    · have within : 2 ^ k < 2 ^ 8 := Nat.pow_lt_pow_right (by decide) (by omega)
      refine Or.inr (not_not.mp fun unfit => ?_)
      exact absurd ((goes_on stage).mpr ⟨unfit, within⟩) (Bool.eq_false_iff.mp stopped)

theorem dvsLoop_stops (baseClk maxSdclk : BitVec 32) {p : Nat} (power : p ≤ 2 ^ 8) (enough : 16 ≤ fuel) :
    ∃ d, 1 ≤ d ∧ d ≤ 16 ∧
      dvsLoop baseClk maxSdclk (BitVec.ofNat 32 p) fuel 1 = some (BitVec.ofNat 32 d) ∧
      (∀ e, 1 ≤ e → e < d → ¬ Fits baseClk maxSdclk (p * e)) ∧ (d = 16 ∨ Fits baseClk maxSdclk (p * d)) := by
  have small {e : Nat} (factor : e ≤ 16) : p * e < 2 ^ 32 :=
    calc p * e ≤ 2 ^ 8 * 16 := Nat.mul_le_mul power factor
      _ < 2 ^ 32 := by decide
  have turns (i : Nat) (_ : i < 16) : BitVec.ofNat 32 i + 1 = BitVec.ofNat 32 (i + 1) := by
    rw [BitVec.ofNat_add]
    rfl
  have goes_on {e : Nat} (factor : e ≤ 16) :
      (decide (baseClk / (BitVec.ofNat 32 p * BitVec.ofNat 32 e) > maxSdclk) &&
        decide (BitVec.ofNat 32 e < dvsLimit)) = true ↔ ¬ Fits baseClk maxSdclk (p * e) ∧ e < 16 :=
    goes_on_iff (small factor) (by omega)
  obtain ⟨d, pos, factor, passed, stopped, result⟩ :=
    While.run_stops
      (fun dvs => decide (baseClk / (BitVec.ofNat 32 p * dvs) > maxSdclk) && decide (dvs < dvsLimit))
      (fun dvs => dvs + 1) (BitVec.ofNat 32) turns
      (by simp [dvsLimit]) (by decide : 1 ≤ 16) (by omega : 16 - 1 < fuel)
  refine ⟨d, pos, factor, result, ?_, ?_⟩
  · intro e from_one below
    exact ((goes_on (by omega)).mp (passed e from_one below)).1
  · by_cases last : d = 16
    · exact Or.inl last
    · refine Or.inr (not_not.mp fun unfit => ?_)
      exact absurd ((goes_on factor).mpr ⟨unfit, by omega⟩) (Bool.eq_false_iff.mp stopped)

end SdClock

section Fields

variable (x y m n : BitVec 32) (s t : Nat)

theorem makeRegSet_eq_and : makeRegSet x m s = (x <<< s) &&& makeRegMask m s := by
  rw [makeRegSet, makeRegMask, BitVec.shiftLeft_and_distrib]

theorem makeRegGet_or : makeRegGet (x ||| y) m s = makeRegGet x m s ||| makeRegGet y m s := by
  simp only [makeRegGet, BitVec.ushiftRight_or_distrib, BitVec.and_or_distrib_right]

theorem makeRegGet_and : makeRegGet (x &&& y) m s = (x >>> s) &&& makeRegGet y m s := by
  rw [makeRegGet, makeRegGet, BitVec.ushiftRight_and_distrib, BitVec.and_assoc]

theorem makeRegGet_apart (apart : makeRegGet (makeRegMask n t) m s = 0) :
    makeRegGet (makeRegSet y n t) m s = 0 := by
  rw [makeRegSet_eq_and, makeRegGet_and, apart]
  exact BitVec.and_zero

theorem makeRegGet_makeRegSet (room : makeRegMask m s >>> s = m) :
    makeRegGet (makeRegSet x m s) m s = x &&& m := by
  apply BitVec.eq_of_getLsbD_eq
  intro i _
  by_cases inside : s + i < 32
  · have moved : s + i - s = i := by omega
    have after : ¬ s + i < s := by omega
    rw [makeRegGet, makeRegSet, BitVec.getLsbD_and, BitVec.getLsbD_ushiftRight, BitVec.getLsbD_shiftLeft, moved,
      decide_eq_true inside, decide_eq_false after, BitVec.getLsbD_and, Bool.not_false, Bool.true_and,
      Bool.true_and, Bool.and_assoc, Bool.and_self]
  · have unused : m.getLsbD i = false := by
      rw [← room]
      simp [makeRegMask, inside]
    rw [makeRegGet, BitVec.getLsbD_and, BitVec.getLsbD_and, unused, Bool.and_false, Bool.and_false]

end Fields

namespace SdClock

/-- The register once its three fields are written. -/
def dividersWritten (sysctl dtocv dvs sdclkfs : BitVec 32) : BitVec 32 :=
  (sysctl &&& ~~~dividersMask) ||| sdhcSysctlDtocv dtocv ||| sdhcSysctlDvs dvs ||| sdhcSysctlSdclkfs sdclkfs

variable (sysctl dtocv dvs sdclkfs : BitVec 32)

theorem makeRegGet_dividersWritten (m : BitVec 32) (t : Nat) (cleared : makeRegGet (~~~dividersMask) m t = 0) :
    makeRegGet (dividersWritten sysctl dtocv dvs sdclkfs) m t =
      makeRegGet (makeRegSet dtocv 0xF 16) m t ||| makeRegGet (makeRegSet dvs 0xF 4) m t |||
        makeRegGet (makeRegSet sdclkfs 0xFF 8) m t := by
  rw [dividersWritten, makeRegGet_or, makeRegGet_or, makeRegGet_or, makeRegGet_and, cleared]
  simp [sdhcSysctlDtocv, sdhcSysctlDvs, sdhcSysctlSdclkfs]

theorem makeRegGet_dvs :
    makeRegGet (dividersWritten sysctl dtocv dvs sdclkfs) 0xF 4 = dvs &&& 0xF := by
  rw [makeRegGet_dividersWritten _ _ _ _ _ _ (by decide), makeRegGet_apart _ _ _ _ _ (by decide),
    makeRegGet_makeRegSet _ _ _ (by decide), makeRegGet_apart _ _ _ _ _ (by decide)]
  simp

theorem makeRegGet_sdclkfs :
    makeRegGet (dividersWritten sysctl dtocv dvs sdclkfs) 0xFF 8 = sdclkfs &&& 0xFF := by
  rw [makeRegGet_dividersWritten _ _ _ _ _ _ (by decide), makeRegGet_apart _ _ _ _ _ (by decide),
    makeRegGet_apart _ _ _ _ _ (by decide), makeRegGet_makeRegSet _ _ _ (by decide)]
  simp

theorem makeRegGet_dtocv :
    makeRegGet (dividersWritten sysctl dtocv dvs sdclkfs) 0xF 16 = dtocv &&& 0xF := by
  rw [makeRegGet_dividersWritten _ _ _ _ _ _ (by decide), makeRegGet_makeRegSet _ _ _ (by decide),
    makeRegGet_apart _ _ _ _ _ (by decide), makeRegGet_apart _ _ _ _ _ (by decide)]
  simp

theorem dividersWritten_rest :
    dividersWritten sysctl dtocv dvs sdclkfs &&& ~~~dividersMask = sysctl &&& ~~~dividersMask := by
  have inside (x m : BitVec 32) (s : Nat) (within : makeRegMask m s &&& ~~~dividersMask = 0) :
      makeRegSet x m s &&& ~~~dividersMask = 0 := by
    rw [makeRegSet_eq_and, BitVec.and_assoc, within]
    exact BitVec.and_zero
  rw [dividersWritten, BitVec.and_or_distrib_right, BitVec.and_or_distrib_right,
    BitVec.and_or_distrib_right, sdhcSysctlDtocv, inside _ _ _ (by decide), sdhcSysctlDvs,
    inside _ _ _ (by decide), sdhcSysctlSdclkfs, inside _ _ _ (by decide), BitVec.and_assoc]
  simp

end SdClock

namespace SdClock

variable {fuel : Nat} {s : SdClock} {baseClk kHzMax : BitVec 32} {k d : Nat}

theorem prescaler_written (stage : k ≤ 8) {sysctl dtocv dvs khz : BitVec 32} :
    prescaler ⟨dividersWritten sysctl dtocv dvs (BitVec.ofNat 32 (2 ^ k) >>> 1), khz⟩ = 2 ^ k := by
  rw [prescaler, makeRegGet_sdclkfs]
  interval_cases k <;> decide

theorem divisor_written (pos : 1 ≤ d) (factor : d ≤ 16) {sysctl dtocv sdclkfs khz : BitVec 32} :
    divisor ⟨dividersWritten sysctl dtocv (BitVec.ofNat 32 d - 1) sdclkfs, khz⟩ = d := by
  rw [divisor, makeRegGet_dvs]
  interval_cases d <;> decide

theorem khz_toNat (stage : k ≤ 8) (factor : d ≤ 16) :
    (baseClk / (1000 * BitVec.ofNat 32 (2 ^ k) * BitVec.ofNat 32 d)).toNat =
      baseClk.toNat / (1000 * (2 ^ k * d)) := by
  have small : 1000 * (2 ^ k * d) < 2 ^ 32 :=
    calc 1000 * (2 ^ k * d) ≤ 1000 * (2 ^ 8 * 16) :=
          Nat.mul_le_mul_left _ (Nat.mul_le_mul (Nat.pow_le_pow_right (by decide) stage) factor)
      _ < 2 ^ 32 := by decide
  have product : 1000 * BitVec.ofNat 32 (2 ^ k) * BitVec.ofNat 32 d = BitVec.ofNat 32 (1000 * (2 ^ k * d)) := by
    rw [BitVec.ofNat_mul, BitVec.ofNat_mul, ← BitVec.mul_assoc]
    rfl
  rw [product, BitVec.toNat_udiv, BitVec.toNat_ofNat, Nat.mod_eq_of_lt small]

/-- The two loops together are the search in two stages. -/
theorem setWiFiclk_greedy (s : SdClock) (baseClk : BitVec 32) (room : 1000 * kHzMax.toNat < 2 ^ 32)
    (enough : 16 ≤ fuel) :
    ∃ k d s', setWiFiclk fuel s baseClk kHzMax = some s' ∧
      Divisors.Greedy (fun divider => baseClk.toNat / divider ≤ 1000 * kHzMax.toNat) 2 8 16 k d ∧
      s'.sysCtrl = dividersWritten s.sysCtrl 0x0E (BitVec.ofNat 32 d - 1) (BitVec.ofNat 32 (2 ^ k) >>> 1) ∧
      s'.wiFiClkKhz = baseClk / (1000 * BitVec.ofNat 32 (2 ^ k) * BitVec.ofNat 32 d) := by
  have maximum : (1000 * kHzMax).toNat = 1000 * kHzMax.toNat := by
    rw [BitVec.toNat_mul]
    exact Nat.mod_eq_of_lt room
  obtain ⟨k, stage, first, powers, power_ends⟩ :=
    wificlkfsLoop_stops baseClk (1000 * kHzMax) (by omega : 8 < fuel)
  have power : 2 ^ k ≤ 2 ^ 8 := Nat.pow_le_pow_right (by decide) stage
  obtain ⟨d, pos, factor, second, factors, factor_ends⟩ :=
    dvsLoop_stops baseClk (1000 * kHzMax) power enough
  simp only [Fits, maximum] at powers power_ends factors factor_ends
  refine ⟨k, d, ⟨dividersWritten s.sysCtrl 0x0E (BitVec.ofNat 32 d - 1) (BitVec.ofNat 32 (2 ^ k) >>> 1),
    baseClk / (1000 * BitVec.ofNat 32 (2 ^ k) * BitVec.ofNat 32 d)⟩, ?_,
    ⟨stage, pos, factor, powers, power_ends, factors, factor_ends⟩, rfl, rfl⟩
  simp only [setWiFiclk, first, second, Option.bind_eq_bind, Option.bind_some]
  rfl

/-- A pair of dividers that the registers have and that keeps the clock within the limit. -/
def Legal (baseClk kHzMax : BitVec 32) (k d : Nat) : Prop :=
  k ≤ 8 ∧ 1 ≤ d ∧ d ≤ 16 ∧ baseClk.toNat / (2 ^ k * d) ≤ 1000 * kHzMax.toNat

/-- The clock is the fastest legal one, or the slowest when none is; the registers say so, and hold the rest. -/
theorem setWiFiclk_fastest (s : SdClock) (baseClk kHzMax : BitVec 32) (fuel : Nat) (enough : 16 ≤ fuel)
    (room : 1000 * kHzMax.toNat < 2 ^ 32) :
    ∃ k d s', setWiFiclk fuel s baseClk kHzMax = some s' ∧
      k ≤ 8 ∧ 1 ≤ d ∧ d ≤ 16 ∧
      ((∃ j e, Legal baseClk kHzMax j e) →
        Legal baseClk kHzMax k d ∧ ∀ j e, Legal baseClk kHzMax j e → 2 ^ k * d ≤ 2 ^ j * e) ∧
      ((∀ j e, ¬ Legal baseClk kHzMax j e) → k = 8 ∧ d = 16) ∧
      prescaler s' = 2 ^ k ∧ divisor s' = d ∧
      s'.sysCtrl &&& ~~~dividersMask = s.sysCtrl &&& ~~~dividersMask ∧
      makeRegGet s'.sysCtrl 0xF 16 = 0x0E ∧
      s'.wiFiClkKhz.toNat = baseClk.toNat / (1000 * (2 ^ k * d)) := by
  obtain ⟨k, d, ⟨sysCtrl, khz⟩, result, greedy, register, clock⟩ :=
    setWiFiclk_greedy s baseClk room enough
  have upward (a b : Nat) (pos : 0 < a) (le : a ≤ b) (fits : baseClk.toNat / a ≤ 1000 * kHzMax.toNat) :
      baseClk.toNat / b ≤ 1000 * kHzMax.toNat :=
    le_trans (Nat.div_le_div_left le pos) fits
  have stage := greedy.power_le
  have pos := greedy.factor_pos
  have factor := greedy.factor_le
  simp only at register clock
  subst register clock
  refine ⟨k, d, _, result, stage, pos, factor, ?_, ?_, prescaler_written stage, divisor_written pos factor,
    dividersWritten_rest .., ?_, khz_toNat stage factor⟩
  · rintro ⟨j, e, below, positive, le, legal⟩
    refine ⟨⟨stage, pos, factor, greedy.fit_of_fit (by decide) upward below positive le legal⟩, ?_⟩
    rintro j e ⟨_, positive, le, legal⟩
    exact greedy.least (by decide) upward positive le legal
  · intro none
    exact greedy.largest fun j e below positive le legal => none j e ⟨below, positive, le, legal⟩
  · rw [makeRegGet_dtocv]
    rfl

/-- The clock for initialization needs both dividers. -/
theorem setWiFiclk_fastest_initial :
    ∃ s', setWiFiclk 16 { sysCtrl := 0x008F800F } 198000000 400 = some s' ∧
      prescaler s' * divisor s' = 512 ∧ s'.wiFiClkKhz.toNat = 386 := by
  obtain ⟨k, d, s', result, stage, _, factor, fastest, _, power, divided, _, _, khz⟩ :=
    setWiFiclk_fastest { sysCtrl := 0x008F800F } 198000000 400 16 (by decide) (by decide)
  have served : Legal 198000000 400 5 16 := by
    unfold Legal
    decide
  obtain ⟨⟨_, _, _, legal⟩, least⟩ := fastest ⟨5, 16, served⟩
  have most : 2 ^ k * d ≤ 512 := least 5 16 served
  have fewest : 495 ≤ 2 ^ k * d := by
    by_contra small
    change 198000000 / (2 ^ k * d) ≤ 400000 at legal
    have slow : 198000000 / 494 ≤ 198000000 / (2 ^ k * d) :=
      Nat.div_le_div_left (by omega) (Nat.mul_pos (Nat.two_pow_pos k) (by omega))
    omega
  have product : 2 ^ k * d = 512 := by
    interval_cases k <;> omega
  refine ⟨s', result, ?_, ?_⟩
  · rw [power, divided, product]
  · rw [khz, product]
    decide

end SdClock
end QNEthernet.Drivers.Cyw43
