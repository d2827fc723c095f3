import Mathlib.Algebra.Polynomial.OfFn
import Mathlib.Algebra.Polynomial.Div
import Mathlib.Algebra.Field.ZMod
import Mathlib.Tactic

/-! Cyclic redundancy checks: a shift register with the least significant bit first, as a polynomial remainder. -/

namespace QNEthernet.Crc

open Polynomial

def bit (b : Bool) : ZMod 2 := if b then 1 else 0

@[simp] theorem bit_false : bit false = 0 := rfl

@[simp] theorem bit_true : bit true = 1 := rfl

theorem bit_xor (a b : Bool) : bit (a ^^ b) = bit a + bit b := by
  cases a <;> cases b <;> decide

section Words

variable {n k : Nat}

/-- The word as it is written down: bit `i` is the coefficient of `X ^ i`. -/
noncomputable def polynomial (word : BitVec n) : (ZMod 2)[X] := ofFn n fun i => bit (word.getLsbD i)

/-- The word read the other way around: its most significant bit is the constant term. -/
noncomputable def reflected (word : BitVec n) : (ZMod 2)[X] := ofFn n fun i => bit (word.getMsbD i)

theorem coeff_polynomial (word : BitVec n) (i : Nat) :
    (polynomial word).coeff i = bit (word.getLsbD i) := by
  by_cases inside : i < n
  · exact ofFn_coeff_eq_val_of_lt _ inside
  · rw [polynomial, ofFn_coeff_eq_zero_of_ge _ (by omega), BitVec.getLsbD_of_ge _ _ (by omega), bit_false]

theorem coeff_reflected (word : BitVec n) (i : Nat) :
    (reflected word).coeff i = bit (word.getMsbD i) := by
  by_cases inside : i < n
  · exact ofFn_coeff_eq_val_of_lt _ inside
  · rw [reflected, ofFn_coeff_eq_zero_of_ge _ (by omega), BitVec.getMsbD_of_ge _ _ (by omega), bit_false]

theorem degree_reflected_lt (word : BitVec n) : (reflected word).degree < n := ofFn_degree_lt _

theorem reflected_reverse (word : BitVec n) : reflected word.reverse = polynomial word := by
  ext i
  rw [coeff_reflected, coeff_polynomial, BitVec.getMsbD_reverse]

theorem reflected_xor (a b : BitVec n) : reflected (a ^^^ b) = reflected a + reflected b := by
  ext i
  rw [coeff_add, coeff_reflected, coeff_reflected, coeff_reflected, BitVec.getMsbD_xor, bit_xor]

theorem reflected_zero : reflected (0#n) = 0 := by
  ext i
  rw [coeff_reflected, BitVec.getMsbD_zero, bit_false, coeff_zero]

theorem reflected_setWidth (symbol : BitVec k) (narrow : k ≤ n) :
    reflected (symbol.setWidth n) = reflected symbol * X ^ (n - k) := by
  ext i
  rw [coeff_reflected, BitVec.getMsbD_setWidth, coeff_mul_X_pow']
  by_cases high : n - k ≤ i
  · rw [if_pos high, coeff_reflected, decide_eq_true high, Bool.true_and]
    congr 2
    omega
  · rw [if_neg high, decide_eq_false high, Bool.false_and, bit_false]

/-- The generator of degree `n` whose other coefficients are `taps`. -/
noncomputable def generator (taps : BitVec n) : (ZMod 2)[X] := X ^ n + polynomial taps

theorem monic_generator (taps : BitVec n) : (generator taps).Monic :=
  monic_X_pow_add (ofFn_degree_lt _)

theorem degree_generator (taps : BitVec n) : (generator taps).degree = n := by
  have below : (polynomial taps).degree < (X ^ n : (ZMod 2)[X]).degree := by
    rw [degree_X_pow]
    exact ofFn_degree_lt _
  rw [generator, degree_add_eq_left_of_degree_lt below, degree_X_pow]

end Words

section Shifting

variable {n : Nat} (taps : BitVec n)

/-- One shift, low bit out: when that bit is set, the taps go in from the other side. -/
def shift (register : BitVec n) : BitVec n :=
  (register >>> 1) ^^^ (if register.getLsbD 0 then taps.reverse else 0#n)

theorem reflected_ushiftRight_one (register : BitVec n) :
    reflected (register >>> 1) = X * reflected register - C (bit (register.getLsbD 0)) * X ^ n := by
  ext i
  rw [coeff_sub, coeff_C_mul, coeff_X_pow, coeff_reflected, BitVec.getMsbD_ushiftRight]
  cases i with
  | zero =>
    rw [coeff_X_mul_zero]
    by_cases empty : n = 0
    · subst empty
      simp
    · have apart : 0 ≠ n := Ne.symm empty
      simp [apart]
  | succ i =>
    rw [coeff_X_mul, coeff_reflected]
    by_cases last : i + 1 = n
    · have lowest : register.getMsbD i = register.getLsbD 0 := by
        rw [BitVec.getMsbD_eq_getLsbD, decide_eq_true (by omega), Bool.true_and]
        congr 1
        omega
      rw [if_pos last, lowest]
      simp [last]
    · rw [if_neg last, mul_zero, sub_zero]
      by_cases inside : i + 1 < n
      · simp [inside]
      · have past : register.getMsbD i = false := BitVec.getMsbD_of_ge _ _ (by omega)
        simp [inside, past]

/-- A shift multiplies by `X` and takes the generator off when the degree reaches `n`. -/
theorem reflected_shift (register : BitVec n) :
    reflected (shift taps register) =
      X * reflected register - C (bit (register.getLsbD 0)) * generator taps := by
  have taken : reflected (if register.getLsbD 0 then taps.reverse else 0#n) =
      - (C (bit (register.getLsbD 0)) * polynomial taps) := by
    rw [CharTwo.neg_eq]
    cases register.getLsbD 0 with
    | false => simp [reflected_zero]
    | true => simp [reflected_reverse]
  rw [shift, reflected_xor, reflected_ushiftRight_one, taken, generator]
  ring

theorem generator_dvd_shift (register : BitVec n) :
    generator taps ∣ X * reflected register - reflected (shift taps register) := by
  rw [reflected_shift, sub_sub_cancel]
  exact Dvd.intro_left _ rfl

theorem generator_dvd_shifts (register : BitVec n) (count : Nat) :
    generator taps ∣ X ^ count * reflected register - reflected ((shift taps)^[count] register) := by
  induction count with
  | zero => simp
  | succ count earlier =>
    have once := generator_dvd_shift taps ((shift taps)^[count] register)
    rw [Function.iterate_succ_apply']
    have split : X ^ (count + 1) * reflected register -
          reflected (shift taps ((shift taps)^[count] register)) =
        X * (X ^ count * reflected register - reflected ((shift taps)^[count] register)) +
          (X * reflected ((shift taps)^[count] register) -
            reflected (shift taps ((shift taps)^[count] register))) := by
      ring
    rw [split]
    exact dvd_add (Dvd.dvd.mul_left earlier X) once

end Shifting

/-- A stream of bits, the first one at the highest power. -/
noncomputable def ofBits : List Bool → (ZMod 2)[X]
  | [] => 0
  | b :: rest => C (bit b) * X ^ rest.length + ofBits rest

theorem ofBits_append (front back : List Bool) :
    ofBits (front ++ back) = ofBits front * X ^ back.length + ofBits back := by
  induction front with
  | nil => simp [ofBits]
  | cons b front step =>
    rw [List.cons_append, ofBits, ofBits, step, List.length_append, pow_add]
    ring

theorem coeff_ofBits (stream : List Bool) (i : Nat) :
    (ofBits stream).coeff i = bit (stream.reverse.getD i false) := by
  induction stream with
  | nil => simp [ofBits]
  | cons b rest step =>
    rw [ofBits, coeff_add, coeff_C_mul, coeff_X_pow, step, List.reverse_cons]
    rcases lt_trichotomy i rest.length with below | top | above
    · rw [if_neg (by omega), List.getD_append _ _ _ _ (by simpa using below), mul_zero, zero_add]
    · subst top
      simp [List.getD]
    · rw [if_neg (by omega), mul_zero, zero_add, List.getD_eq_default _ _ (by simp; omega),
        List.getD_eq_default _ _ (by simp; omega)]

section Symbols

variable {n k : Nat} (taps : BitVec n)

/-- The bits of a symbol in the order they are sent, least significant first. -/
def bits (symbol : BitVec k) : List Bool := List.ofFn fun i : Fin k => symbol.getLsbD i

@[simp] theorem length_bits (symbol : BitVec k) : (bits symbol).length = k := List.length_ofFn

theorem ofBits_bits (symbol : BitVec k) : ofBits (bits symbol) = reflected symbol := by
  ext i
  rw [coeff_ofBits, coeff_reflected]
  by_cases inside : i < k
  · rw [List.getD_eq_getElem _ _ (by simpa using inside), List.getElem_reverse]
    have place : k - 1 - i < k := by omega
    simp [bits, BitVec.getMsbD_eq_getLsbD, inside, BitVec.getLsbD_eq_getElem place]
  · rw [List.getD_eq_default _ _ (by simp; omega), BitVec.getMsbD_of_ge _ _ (by omega)]

/-- The polynomial of a whole message, symbol by symbol. -/
noncomputable def message (symbols : List (BitVec k)) : (ZMod 2)[X] := ofBits (symbols.flatMap bits)

theorem length_flatMap_bits (symbols : List (BitVec k)) :
    (symbols.flatMap bits).length = k * symbols.length := by
  simp [List.length_flatMap, Nat.mul_comm]

theorem message_cons (symbol : BitVec k) (rest : List (BitVec k)) :
    message (symbol :: rest) = reflected symbol * X ^ (k * rest.length) + message rest := by
  rw [message, List.flatMap_cons, ofBits_append, ofBits_bits, length_flatMap_bits, message]

def feed (register : BitVec n) (symbol : BitVec k) : BitVec n :=
  (shift taps)^[k] (register ^^^ symbol.setWidth n)

theorem generator_dvd_feed (register : BitVec n) (symbol : BitVec k) (narrow : k ≤ n) :
    generator taps ∣ X ^ k * reflected register + reflected symbol * X ^ n -
      reflected (feed taps register symbol) := by
  have whole : X ^ k * reflected (register ^^^ symbol.setWidth n) =
      X ^ k * reflected register + reflected symbol * X ^ n := by
    have powers : (X : (ZMod 2)[X]) ^ n = X ^ (n - k) * X ^ k := by
      rw [← pow_add, Nat.sub_add_cancel narrow]
    rw [reflected_xor, reflected_setWidth symbol narrow, powers]
    ring
  rw [← whole]
  exact generator_dvd_shifts taps _ k

theorem generator_dvd_run (symbols : List (BitVec k)) (register : BitVec n) (narrow : k ≤ n) :
    generator taps ∣
      reflected register * X ^ (k * symbols.length) + message symbols * X ^ n -
        reflected (symbols.foldl (feed taps) register) := by
  induction symbols generalizing register with
  | nil => simp [message, ofBits]
  | cons symbol rest later =>
    have first := generator_dvd_feed taps register symbol narrow
    have split : reflected register * X ^ (k * (symbol :: rest).length) +
          message (symbol :: rest) * X ^ n -
          reflected ((symbol :: rest).foldl (feed taps) register) =
        X ^ (k * rest.length) * (X ^ k * reflected register + reflected symbol * X ^ n -
            reflected (feed taps register symbol)) +
          (reflected (feed taps register symbol) * X ^ (k * rest.length) + message rest * X ^ n -
            reflected (rest.foldl (feed taps) (feed taps register symbol))) := by
      rw [message_cons, List.length_cons, Nat.mul_succ, pow_add, List.foldl_cons]
      ring
    rw [split]
    exact dvd_add (Dvd.dvd.mul_left first _) (later _)

/-- After a whole message the register holds the remainder of what it started with, moved up by the
message, and of the message times `X ^ n`. -/
theorem run_remainder (symbols : List (BitVec k)) (register : BitVec n) (narrow : k ≤ n) :
    reflected (symbols.foldl (feed taps) register) =
      (reflected register * X ^ (k * symbols.length) + message symbols * X ^ n) %ₘ
        generator taps := by
  have small : (reflected (symbols.foldl (feed taps) register)).degree < (generator taps).degree := by
    rw [degree_generator]
    exact degree_reflected_lt _
  rw [modByMonic_eq_of_dvd_sub (monic_generator taps) (generator_dvd_run taps symbols register narrow)]
  exact ((modByMonic_eq_self_iff (monic_generator taps)).2 small).symm

end Symbols
end QNEthernet.Crc
