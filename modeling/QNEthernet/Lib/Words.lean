import Mathlib.Data.Nat.Digits.Defs
import Mathlib.Tactic

/-! Words in memory: the bytes of a number, from the least significant one on or the other way round. -/

namespace QNEthernet.Words

def number (bytes : List UInt8) : Nat := Nat.ofDigits 256 (bytes.map UInt8.toNat)

def digits (count n : Nat) : List UInt8 := (List.range count).map fun i => UInt8.ofNat (n / 256 ^ i)

theorem number_cons (b : UInt8) (bytes : List UInt8) : number (b :: bytes) = b.toNat + 256 * number bytes := by
  rw [number, List.map_cons, Nat.ofDigits_cons]
  rfl

theorem number_append (front back : List UInt8) :
    number (front ++ back) = number front + 256 ^ front.length * number back := by
  rw [number, List.map_append, Nat.ofDigits_append, List.length_map]
  rfl

theorem number_zeros (k : Nat) : number (List.replicate k 0) = 0 := by
  induction k with
  | zero => rfl
  | succ k ih => rw [List.replicate_succ, number_cons, ih, Nat.mul_zero]; rfl

theorem digits_succ (count n : Nat) : digits (count + 1) n = .ofNat n :: digits count (n / 256) := by
  rw [digits, List.range_succ_eq_map, List.map_cons, List.map_map, pow_zero, Nat.div_one]
  congr 1
  apply List.map_congr_left
  intro i _
  rw [Function.comp_apply, Nat.succ_eq_add_one, Nat.pow_succ', Nat.div_div_eq_div_mul]

theorem digits_number (bytes : List UInt8) : digits bytes.length (number bytes) = bytes := by
  induction bytes with
  | nil => rfl
  | cons b bytes ih =>
      have low := b.toNat_lt
      have rest : (b.toNat + 256 * number bytes) / 256 = number bytes := by omega
      have first : UInt8.ofNat (b.toNat + 256 * number bytes) = b := by
        apply UInt8.toNat_inj.mp
        rw [UInt8.toNat_ofNat']
        omega
      rw [List.length_cons, digits_succ, number_cons, rest, first, ih]

theorem number_digits (count n : Nat) : number (digits count n) = n % 256 ^ count := by
  induction count generalizing n with
  | zero => rw [pow_zero, Nat.mod_one]; rfl
  | succ count ih =>
      have low : (UInt8.ofNat n).toNat = n % 256 := UInt8.toNat_ofNat'
      rw [digits_succ, number_cons, ih, low, pow_succ', Nat.mod_mul]

theorem length_digits (count n : Nat) : (digits count n).length = count := by
  rw [digits, List.length_map, List.length_range]

inductive ByteOrder where
  | little | big
  deriving DecidableEq

namespace ByteOrder

/-- From the order in memory to the least significant byte first, and back. -/
def arrange : ByteOrder → List UInt8 → List UInt8
  | .little, bytes => bytes
  | .big, bytes => bytes.reverse

def load (order : ByteOrder) (bytes : List UInt8) : Nat := number (order.arrange bytes)

def store (order : ByteOrder) (count n : Nat) : List UInt8 := order.arrange (digits count n)

/-- A variable of so many bytes, after some bytes were copied over its first ones. -/
def overlay (order : ByteOrder) (count n : Nat) (bytes : List UInt8) : Nat :=
  order.load (bytes ++ (order.store count n).drop bytes.length)

def swap (count n : Nat) : Nat := load .big (store .little count n)

/-- A word that is meant to be little-endian, as the machine reads it once it has swapped what it must. -/
def fromLittle (order : ByteOrder) (count n : Nat) : Nat :=
  match order with
  | .little => n
  | .big => swap count n

theorem load_store (order : ByteOrder) (count n : Nat) : order.load (order.store count n) = n % 256 ^ count := by
  cases order with
  | little => exact number_digits count n
  | big =>
      show number (digits count n).reverse.reverse = n % 256 ^ count
      rw [List.reverse_reverse, number_digits]

theorem length_store (order : ByteOrder) (count n : Nat) : (order.store count n).length = count := by
  cases order with
  | little => exact length_digits count n
  | big =>
      show (digits count n).reverse.length = count
      rw [List.length_reverse, length_digits]

theorem fromLittle_load (order : ByteOrder) (bytes : List UInt8) :
    order.fromLittle bytes.length (order.load bytes) = number bytes := by
  cases order with
  | little => rfl
  | big =>
      show number (digits bytes.length (number bytes.reverse)).reverse = number bytes
      rw [← List.length_reverse, digits_number, List.reverse_reverse]

end ByteOrder
end QNEthernet.Words
