import QNEthernet.Lib.Crc
import QNEthernet.Drivers.Teensy41Filter

/-! The hash filter's CRC register is the Ethernet CRC-32, least significant bit first. -/

namespace QNEthernet.Drivers.Teensy41

open Polynomial
open Crc (bit polynomial reflected shift feed generator message)

/-- The Ethernet polynomial without its leading term. -/
def ethernetTaps : BitVec 32 := 0x04C11DB7#32

theorem ethernetTaps_reverse : ethernetTaps.reverse = 0xEDB88320#32 := by decide +kernel

/-- The negated low bit is a mask of all ones or of none. -/
theorem crc32Bit_toBitVec (crc : UInt32) : (crc32Bit crc).toBitVec = shift ethernetTaps crc.toBitVec := by
  have low : (crc &&& 0x01).toBitVec = if crc.toBitVec.getLsbD 0 then 1#32 else 0#32 := by
    ext i inside
    cases i with
    | zero => cases first : crc.toBitVec.getLsbD 0 <;> simp_all
    | succ i => cases first : crc.toBitVec.getLsbD 0 <;> simp_all
  have mask : (-(crc &&& 0x01) &&& 0xEDB88320).toBitVec =
      if crc.toBitVec.getLsbD 0 then ethernetTaps.reverse else 0#32 := by
    rw [UInt32.toBitVec_and, UInt32.toBitVec_neg, low, ethernetTaps_reverse]
    cases crc.toBitVec.getLsbD 0 with
    | false => decide
    | true => decide
  have shifted : (crc >>> 1).toBitVec = crc.toBitVec >>> 1 := rfl
  rw [crc32Bit, UInt32.toBitVec_xor, shifted, mask, shift]

theorem crc32Byte_toBitVec (crc : UInt32) (data : UInt8) :
    (crc32Byte crc data).toBitVec = feed ethernetTaps crc.toBitVec data.toBitVec := by
  have bits (count : Nat) (register : UInt32) :
      (crc32Bit^[count] register).toBitVec = (shift ethernetTaps)^[count] register.toBitVec := by
    induction count generalizing register with
    | zero => rfl
    | succ count later => rw [Function.iterate_succ_apply, Function.iterate_succ_apply, later, crc32Bit_toBitVec]
  exact bits 8 (crc ^^^ data.toUInt32)

theorem crc32_toBitVec (data : List UInt8) :
    (crc32 data).toBitVec =
      (data.map UInt8.toBitVec).foldl (feed ethernetTaps) (BitVec.allOnes 32) := by
  have bytes (register : UInt32) :
      (data.foldl crc32Byte register).toBitVec =
        (data.map UInt8.toBitVec).foldl (feed ethernetTaps) register.toBitVec := by
    induction data generalizing register with
    | nil => rfl
    | cons byte rest later =>
      rw [List.foldl_cons, List.map_cons, List.foldl_cons, later, crc32Byte_toBitVec]
  exact bytes (~~~0)

/-- The CRC-32 remainder of a byte string, from an initial register of ones and not complemented. -/
noncomputable def ethernetRemainder (data : List UInt8) : (ZMod 2)[X] :=
  (reflected (BitVec.allOnes 32) * X ^ (8 * data.length) +
    message (data.map UInt8.toBitVec) * X ^ 32) %ₘ generator ethernetTaps

theorem reflected_crc32 (data : List UInt8) : reflected (crc32 data).toBitVec = ethernetRemainder data := by
  have remainder := Crc.run_remainder ethernetTaps (data.map UInt8.toBitVec) (BitVec.allOnes 32)
    (by decide)
  rw [List.length_map] at remainder
  rw [crc32_toBitVec, remainder, ethernetRemainder]

example : crc32 [0x31, 0x32, 0x33, 0x34, 0x35, 0x36, 0x37, 0x38, 0x39] = 0x340BC6D9 := by
  decide +kernel

/-- The hash is made of the six lowest coefficients, the constant one on top. -/
theorem bit_hash (mac : Mac) (i : Nat) :
    bit ((hash mac).toBitVec.getLsbD i) =
      if i < 6 then (ethernetRemainder mac.toList).coeff (5 - i) else 0 := by
  have field : (hash mac).toBitVec = ((crc32 mac.toList).toBitVec >>> 26) &&& 0x3f#32 := rfl
  have mask : (0x3f#32).getLsbD i = decide (i < 6) := by
    have ones : 0x3f#32 = (BitVec.allOnes 6).setWidth 32 := by decide
    rw [ones, BitVec.getLsbD_setWidth, BitVec.getLsbD_allOnes]
    by_cases inside : i < 6
    · simp [inside]
      omega
    · simp [inside]
  rw [field, BitVec.getLsbD_and, BitVec.getLsbD_ushiftRight, mask]
  by_cases inside : i < 6
  · have place : (crc32 mac.toList).toBitVec.getMsbD (5 - i) =
        (crc32 mac.toList).toBitVec.getLsbD (26 + i) := by
      rw [BitVec.getMsbD_eq_getLsbD, decide_eq_true (by omega), Bool.true_and]
      congr 1
      omega
    rw [if_pos inside, ← reflected_crc32, Crc.coeff_reflected, place, decide_eq_true inside,
      Bool.and_true]
  · rw [if_neg inside, decide_eq_false inside, Bool.and_false, Crc.bit_false]

theorem hash_lt (mac : Mac) : (hash mac).toNat < 64 := by
  have masked : (hash mac).toNat ≤ 0x3f := by
    rw [hash, UInt32.toNat_and]
    exact Nat.and_le_right
  omega

theorem bit_location_upper (mac : Mac) :
    bit (location mac).upper = (ethernetRemainder mac.toList).coeff 0 := by
  have top : (location mac).upper = (hash mac).toBitVec.getLsbD 5 := by
    have below := hash_lt mac
    have half : (location mac).upper = !decide ((hash mac).toNat < 32) := rfl
    have tested : (hash mac).toBitVec.getLsbD 5 = (hash mac).toNat.testBit 5 := rfl
    rw [half, tested, Nat.testBit_eq_decide_div_mod_eq, Bool.eq_iff_iff]
    simp only [Bool.not_eq_true', decide_eq_false_iff_not, decide_eq_true_eq]
    omega
  rw [top, bit_hash, if_pos (by decide)]

theorem bit_slot_bit (mac : Mac) (i : Nat) (low : i < 5) :
    bit ((slot mac).bit.val.testBit i) = (ethernetRemainder mac.toList).coeff (5 - i) := by
  have same : (slot mac).bit.val.testBit i = (hash mac).toBitVec.getLsbD i := by
    have number : (slot mac).bit.val = (hash mac).toNat &&& (2 ^ 5 - 1) := rfl
    rw [number, Nat.testBit_and, Nat.testBit_two_pow_sub_one, decide_eq_true low, Bool.and_true]
    rfl
  rw [same, bit_hash, if_pos (by omega)]

/-- For every byte string the register is the remainder. An address's hash is the six lowest
coefficients, and these choose its bit in the filter. -/
theorem crc32_is_ethernet_remainder :
    (∀ data : List UInt8, reflected (crc32 data).toBitVec = ethernetRemainder data) ∧
      ∀ mac : Mac,
        (∀ i, bit ((hash mac).toBitVec.getLsbD i) =
          if i < 6 then (ethernetRemainder mac.toList).coeff (5 - i) else 0) ∧
        bit (location mac).upper = (ethernetRemainder mac.toList).coeff 0 ∧
        ∀ i < 5, bit ((slot mac).bit.val.testBit i) = (ethernetRemainder mac.toList).coeff (5 - i) :=
  ⟨reflected_crc32, fun mac => ⟨bit_hash mac, bit_location_upper mac, bit_slot_bit mac⟩⟩

end QNEthernet.Drivers.Teensy41
