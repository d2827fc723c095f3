import Mathlib.Tactic

/-! `settimeofday` of `qnethernet_hal.cpp`: the split of a `timeval` into the registers of the real-time clock. -/

namespace QNEthernet.Hal

/-- Both fields are signed. -/
structure Timeval where
  tvSec : Int
  tvUsec : Int

/-- The RTC registers of the i.MX RT1062, and those of the other Teensys. -/
structure Rtc where
  lpsrtcmr : UInt32 := 0
  lpsrtclr : UInt32 := 0
  tsr : UInt32 := 0
  tpr : UInt32 := 0
  deriving DecidableEq, Inhabited

inductive Target where
  | imxrt1062
  | other
  deriving DecidableEq

namespace Timeval

variable (tv : Timeval)

/-- `sec` and `usec`, when both are in range. -/
def split : UInt32 × UInt32 :=
  let sec := UInt32.ofInt tv.tvSec
  let usec := UInt32.ofInt tv.tvUsec
  if 1000000 ≤ tv.tvUsec then
    (sec + .ofInt (tv.tvUsec.tdiv 1000000), .ofInt (tv.tvUsec.tmod 1000000))
  else if tv.tvUsec < 0 then
    (sec + .ofInt (tv.tvUsec.tdiv 1000000), .ofInt (1000000 + tv.tvUsec.tmod 1000000))
  else (sec, usec)

end Timeval

/-- There are 32768 ticks per 1,000,000 microseconds. -/
def fraction (usec : UInt32) : UInt32 := ((usec <<< 9) / 15625) &&& 0x7fff

def settimeofday (target : Target) (tv : Option Timeval) (rtc : Rtc) : Int × Rtc :=
  match tv with
  | none => (0, rtc)
  | some tv =>
      let (sec, usec) := tv.split
      match target with
      | .other => (0, { rtc with tpr := fraction usec, tsr := sec })
      | .imxrt1062 =>
          let hi := (sec >>> 17) &&& 0x7fff
          let lo := (sec <<< 15) ||| fraction usec
          (0, { rtc with lpsrtclr := lo, lpsrtcmr := hi })

namespace Timeval

variable (tv : Timeval)

def total : Int := tv.tvSec * 1000000 + tv.tvUsec

/-- The time is not before zero, and its seconds fit 32 bits. -/
def InRange : Prop := 0 ≤ tv.total ∧ tv.total / 1000000 < 2 ^ 32

/-- The clock is set to the time, whatever its registers were before. -/
def Set : Target → Prop
  | .imxrt1062 => ∀ rtc, let set := (settimeofday .imxrt1062 (some tv) rtc).2
      set.lpsrtcmr.toNat < 2 ^ 15 ∧
        (set.lpsrtcmr.toNat * 2 ^ 32 + set.lpsrtclr.toNat : Int) = tv.total * 32768 / 1000000
  | .other => ∀ rtc, let set := (settimeofday .other (some tv) rtc).2
      (set.tsr.toNat : Int) = tv.total / 1000000 ∧ (set.tpr.toNat : Int) = tv.total % 1000000 * 32768 / 1000000

/-- Truncation moves a negative count of microseconds up to the next second. -/
def carry : Int := if 0 ≤ tv.tvUsec ∨ 1000000 ∣ tv.tvUsec then 0 else 1

theorem tdiv_eq : tv.tvUsec.tdiv 1000000 = tv.tvUsec / 1000000 + tv.carry := Int.tdiv_eq_ediv

theorem tmod_eq : tv.tvUsec.tmod 1000000 = tv.tvUsec % 1000000 - 1000000 * tv.carry := by
  rw [Int.tmod_eq_emod, carry]
  split
  · rfl
  · rfl

theorem split_sec : tv.split.1 = .ofInt (tv.total / 1000000 + tv.carry) := by
  have whole : tv.total / 1000000 = tv.tvSec + tv.tvUsec / 1000000 := by
    unfold total
    omega
  have seconds : tv.split.1 = .ofInt tv.tvSec + .ofInt (tv.tvUsec.tdiv 1000000) := by
    unfold split
    split
    · rfl
    · split
      · rfl
      · have small : tv.tvUsec.tdiv 1000000 = 0 := Int.tdiv_eq_zero_of_lt (by omega) (by omega)
        rw [small]
        exact (UInt32.add_zero _).symm
  rw [seconds, ← UInt32.ofInt_add, tdiv_eq, whole, Int.add_assoc]

/-- The microseconds are in range, but may make up a whole second. -/
theorem split_usec : tv.split.2.toNat ≤ 1000000 ∧ ((tv.split.2.toNat % 1000000 : Nat) : Int) = tv.total % 1000000 := by
  have part : tv.total % 1000000 = tv.tvUsec % 1000000 := by
    unfold total
    omega
  have microseconds : ∃ u : Nat, u ≤ 1000000 ∧ ((u % 1000000 : Nat) : Int) = tv.tvUsec % 1000000 ∧
      tv.split.2 = .ofInt u := by
    unfold split
    split
    · refine ⟨(tv.tvUsec % 1000000).toNat, by omega, by omega, ?_⟩
      rw [Int.tmod_eq_emod_of_nonneg (by omega), Int.toNat_of_nonneg (Int.emod_nonneg _ (by decide))]
    · split
      · have carry : tv.carry = 0 ∧ tv.tvUsec % 1000000 = 0 ∨ tv.carry = 1 ∧ tv.tvUsec % 1000000 ≠ 0 := by
          unfold carry
          split <;> omega
        refine ⟨(1000000 + tv.tvUsec.tmod 1000000).toNat, ?_, ?_, ?_⟩
        · rw [tmod_eq]
          omega
        · rw [tmod_eq]
          omega
        · rw [tmod_eq, Int.toNat_of_nonneg (by omega)]
      · refine ⟨tv.tvUsec.toNat, by omega, by omega, ?_⟩
        rw [Int.toNat_of_nonneg (by omega)]
  obtain ⟨u, small, same, value⟩ := microseconds
  have number : tv.split.2.toNat = u := by
    rw [value, UInt32.ofInt, UInt32.toNat_ofNat']
    omega
  rw [number, part]
  exact ⟨small, same⟩

end Timeval

/-- Neither the shift nor the mask loses anything; a whole second leaves no fraction. -/
theorem fraction_toNat {usec : UInt32} (small : usec.toNat ≤ 1000000) :
    (fraction usec).toNat = usec.toNat % 1000000 * 32768 / 1000000 := by
  have shifted : (usec <<< 9).toNat = usec.toNat * 512 := by
    rw [UInt32.toNat_shiftLeft, Nat.shiftLeft_eq]
    exact Nat.mod_eq_of_lt (show usec.toNat * 512 < 2 ^ 32 by omega)
  calc (fraction usec).toNat = ((usec <<< 9) / 15625).toNat &&& (2 ^ 15 - 1) := UInt32.toNat_and _ _
    _ = usec.toNat * 512 / 15625 % 2 ^ 15 := by
        rw [Nat.and_two_pow_sub_one_eq_mod, UInt32.toNat_div, shifted]
        rfl
    _ = usec.toNat % 1000000 * 32768 / 1000000 := by
        rcases Nat.lt_or_eq_of_le small with less | whole
        · rw [Nat.mod_eq_of_lt less, Nat.mod_eq_of_lt (by omega)]
          exact (Nat.mul_div_mul_right (usec.toNat * 512) 15625 (show 0 < 64 by decide)).symm.trans
            (by rw [Nat.mul_assoc])
        · rw [whole]
          rfl

theorem registers_eq (sec : UInt32) {frac : UInt32} (small : frac.toNat < 2 ^ 15) :
    ((sec >>> 17) &&& 0x7fff).toNat * 2 ^ 32 + ((sec <<< 15) ||| frac).toNat = sec.toNat * 2 ^ 15 + frac.toNat := by
  have bound := sec.toNat_lt
  have high : ((sec >>> 17) &&& 0x7fff).toNat = sec.toNat / 2 ^ 17 := by
    calc ((sec >>> 17) &&& 0x7fff).toNat = (sec >>> 17).toNat &&& (2 ^ 15 - 1) := UInt32.toNat_and _ _
      _ = sec.toNat / 2 ^ 17 % 2 ^ 15 := by
          rw [Nat.and_two_pow_sub_one_eq_mod, UInt32.toNat_shiftRight, Nat.shiftRight_eq_div_pow]
          rfl
      _ = sec.toNat / 2 ^ 17 := Nat.mod_eq_of_lt (by omega)
  have low : ((sec <<< 15) ||| frac).toNat = sec.toNat % 2 ^ 17 * 2 ^ 15 + frac.toNat := by
    calc ((sec <<< 15) ||| frac).toNat = (sec <<< 15).toNat ||| frac.toNat := UInt32.toNat_or _ _
      _ = (sec.toNat % 2 ^ 17) <<< 15 ||| frac.toNat := by
          rw [UInt32.toNat_shiftLeft, Nat.shiftLeft_eq, Nat.shiftLeft_eq]
          congr 1
          show sec.toNat * 2 ^ 15 % 2 ^ 32 = _
          omega
      _ = sec.toNat % 2 ^ 17 * 2 ^ 15 + frac.toNat := by
          rw [← Nat.shiftLeft_add_eq_or_of_lt small, Nat.shiftLeft_eq]
  rw [high, low]
  omega

namespace Timeval

variable {tv : Timeval}

theorem split_fraction (tv : Timeval) :
    ((fraction tv.split.2).toNat : Int) = tv.total % 1000000 * 32768 / 1000000 := by
  obtain ⟨small, part⟩ := tv.split_usec
  rw [fraction_toNat small]
  omega

theorem split_sec_iff (inRange : tv.InRange) : (tv.split.1.toNat : Int) = tv.total / 1000000 ↔ tv.carry = 0 := by
  obtain ⟨nonneg, fits⟩ := inRange
  have some : tv.carry = 0 ∨ tv.carry = 1 := by
    unfold carry
    split <;> simp
  rw [split_sec, UInt32.ofInt, UInt32.toNat_ofNat']
  omega

theorem carry_eq_zero : tv.carry = 0 ↔ 0 ≤ tv.tvUsec ∨ 1000000 ∣ tv.tvUsec := by
  unfold carry
  split
  next none => exact iff_of_true rfl none
  next some => exact iff_of_false one_ne_zero some

/-- The time is set right unless negative microseconds are no whole number of seconds. No product overflows. -/
theorem settimeofday_right_iff (target : Target) (tv : Timeval) (inRange : tv.InRange) :
    tv.split.2.toNat * 2 ^ 9 < 2 ^ 32 ∧ (tv.Set target ↔ 0 ≤ tv.tvUsec ∨ 1000000 ∣ tv.tvUsec) := by
  have frac := tv.split_fraction
  have small := tv.split_usec.1
  refine ⟨by omega, ?_⟩
  rw [← carry_eq_zero, ← split_sec_iff inRange]
  cases target with
  | imxrt1062 =>
      have counter := registers_eq tv.split.1 (show (fraction tv.split.2).toNat < 2 ^ 15 by omega)
      have high : ((tv.split.1 >>> 17) &&& 0x7fff).toNat < 2 ^ 15 :=
        lt_of_le_of_lt Nat.and_le_right (by decide)
      have whole : tv.total * 32768 / 1000000 =
          tv.total / 1000000 * 32768 + tv.total % 1000000 * 32768 / 1000000 := by omega
      simp only [Set, settimeofday, forall_const, high, true_and, whole]
      omega
  | other =>
      simp only [Set, settimeofday, forall_const]
      exact and_iff_left frac

theorem settimeofday_right_wholeSeconds : (⟨5, -2000000⟩ : Timeval).Set .imxrt1062 :=
  (settimeofday_right_iff .imxrt1062 ⟨5, -2000000⟩ ⟨by decide, by decide⟩).2.mpr (.inr (by decide))

/-- One microsecond before five seconds is set to almost six. -/
theorem settimeofday_late :
    (⟨5, -1⟩ : Timeval).InRange ∧ ¬ (⟨5, -1⟩ : Timeval).Set .imxrt1062 ∧ ¬ (⟨5, -1⟩ : Timeval).Set .other :=
  ⟨⟨by decide, by decide⟩, fun right => absurd (right {}).2 (by decide), fun right => absurd (right {}).1 (by decide)⟩

end Timeval
end QNEthernet.Hal
