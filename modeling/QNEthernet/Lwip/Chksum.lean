import QNEthernet.Lib.OnesSum
import QNEthernet.Lwip.Pbuf

/-! `inet_chksum.c`: the checksum routine that is built in, two bytes at a time from any address. -/

namespace QNEthernet.Lwip

open Words (ByteOrder)
open OnesSum (wordSum carried fold swapped)

def foldU32T (u : Nat) : Nat := ((u >>> 16) + (u &&& 0x0000ffff)) % 2 ^ 32

def swapBytesInWord (w : Nat) : Nat := ((w &&& 0xff) <<< 8) ||| ((w &&& 0xff00) >>> 8)

/-- `while (len > 1) sum += *ps++`, and the byte that may be left over. -/
def sumWords (order : ByteOrder) (sum : Nat) : List Byte → Nat × List Byte
  | [] => (sum, [])
  | [b] => (sum, [b])
  | a :: b :: rest => sumWords order ((sum + order.load [a, b]) % 2 ^ 32) rest

/-- From an odd address the first byte is put aside, to go with the last one. -/
def endByte (odd : Bool) (data : List Byte) : Byte × List Byte :=
  match odd, data with
  | true, b :: rest => (b, rest)
  | _, _ => (0, data)

def lwipStandardChksum (order : ByteOrder) (odd : Bool) (data : List Byte) : Nat :=
  let (first, data) := endByte odd data
  let (sum, left) := sumWords order 0 data
  let t := order.load [left.headD 0, first]
  let sum := (sum + t) % 2 ^ 32
  let sum := foldU32T (foldU32T sum)
  let sum := if odd then swapBytesInWord sum else sum
  sum % 2 ^ 16

def inetChksum (order : ByteOrder) (odd : Bool) (data : List Byte) : Nat :=
  2 ^ 16 - 1 - lwipStandardChksum order odd data

theorem foldU32T_eq {u : Nat} (word : u < 2 ^ 32) : foldU32T u = fold u := by
  have low : u &&& 0x0000ffff = u % 2 ^ 16 := Nat.and_two_pow_sub_one_eq_mod u 16
  rw [foldU32T, low, Nat.shiftRight_eq_div_pow]
  exact Nat.mod_eq_of_lt (by omega)

theorem swapBytesInWord_eq {w : Nat} (word : w < 2 ^ 16) : swapBytesInWord w = swapped w := by
  have low : w &&& 0xff = w % 2 ^ 8 := Nat.and_two_pow_sub_one_eq_mod w 8
  have high : (w &&& 0xff00) >>> 8 = w / 2 ^ 8 := by
    have shifted : (w &&& 0xff00) >>> 8 = (w >>> 8) &&& 0xff := Nat.shiftRight_and_distrib
    rw [shifted, Nat.and_two_pow_sub_one_eq_mod (w >>> 8) 8, Nat.shiftRight_eq_div_pow]
    exact Nat.mod_eq_of_lt (by omega)
  have apart : w / 2 ^ 8 < 2 ^ 8 := by omega
  rw [swapBytesInWord, low, high, ← Nat.shiftLeft_add_eq_or_of_lt apart, Nat.shiftLeft_eq, swapped]
  omega

theorem load_pair_split (order : ByteOrder) (a b : Byte) :
    order.load [a, b] = order.load [a, 0] + order.load [0, b] := by
  rw [OnesSum.load_pair, OnesSum.load_pair, OnesSum.load_pair]
  cases order with
  | little => simp
  | big => simp [Nat.add_comm]

theorem sumWords_eq (order : ByteOrder) (sum : Nat) (data : List Byte)
    (room : sum + wordSum order data < 2 ^ 32) :
    (sumWords order sum data).1 + order.load [(sumWords order sum data).2.headD 0, 0] =
      sum + wordSum order data := by
  induction data using OnesSum.wordSum.induct generalizing sum with
  | case1 => cases order <;> rfl
  | case2 b => rfl
  | case3 a b rest later =>
    rw [wordSum, ← Nat.add_assoc] at room
    have next : (sum + order.load [a, b]) % 2 ^ 32 = sum + order.load [a, b] := Nat.mod_eq_of_lt (by omega)
    rw [sumWords, next, wordSum, ← Nat.add_assoc]
    exact later _ room

/-- The data as it lies in words; the byte before an odd address counts as zero. -/
def aligned (odd : Bool) (data : List Byte) : List Byte := if odd then 0 :: data else data

theorem wordSum_endByte (order : ByteOrder) (odd : Bool) (data : List Byte) :
    wordSum order (endByte odd data).2 + order.load [0, (endByte odd data).1] =
      wordSum order (aligned odd data) := by
  have nothing : order.load [0, 0] = 0 := by
    cases order <;> rfl
  cases odd with
  | false => exact nothing ▸ Nat.add_zero _
  | true =>
    cases data with
    | nil =>
      simp only [endByte, aligned, if_true, wordSum, nothing]
    | cons b rest =>
      simp only [endByte, aligned, if_true, wordSum]
      exact Nat.add_comm _ _

theorem wordSum_aligned_lt (order : ByteOrder) (odd : Bool) {data : List Byte} (short : data.length ≤ 0x20000) :
    wordSum order (aligned odd data) < 2 ^ 32 := by
  have bound := OnesSum.wordSum_le order (aligned odd data)
  have length : (aligned odd data).length ≤ data.length + 1 := by
    cases odd <;> simp [aligned]
  omega

theorem lwipStandardChksum_eq (order : ByteOrder) (odd : Bool) (data : List Byte)
    (short : data.length ≤ 0x20000) :
    lwipStandardChksum order odd data = carried (wordSum order data) := by
  have room := wordSum_aligned_lt order odd short
  have whole := wordSum_endByte order odd data
  have summed := sumWords_eq order 0 (endByte odd data).2 (by omega)
  have total : (sumWords order 0 (endByte odd data).2).1 +
      order.load [(sumWords order 0 (endByte odd data).2).2.headD 0, (endByte odd data).1] =
        wordSum order (aligned odd data) := by
    rw [load_pair_split, ← Nat.add_assoc, summed, Nat.zero_add, whole]
  have folded : foldU32T (foldU32T (wordSum order (aligned odd data))) =
      carried (wordSum order (aligned odd data)) := by
    have small : fold (wordSum order (aligned odd data)) < 2 ^ 32 := by
      unfold fold
      omega
    rw [foldU32T_eq room, foldU32T_eq small, OnesSum.fold_fold room]
  have le := OnesSum.carried_le (wordSum order data)
  simp only [lwipStandardChksum, total, Nat.mod_eq_of_lt room, folded]
  cases odd with
  | false =>
    simp only [aligned, Bool.false_eq_true, if_false]
    exact Nat.mod_eq_of_lt (by omega)
  | true =>
    have word := OnesSum.carried_le (wordSum order (0 :: data))
    simp only [aligned, if_true]
    rw [swapBytesInWord_eq (by omega), OnesSum.swapped_carried_shifted]
    exact Nat.mod_eq_of_lt (by omega)

/-- A whole that holds its own checksum, taken over zeros in its place, sums to all ones. -/
theorem carried_inetChksum (order : ByteOrder) (odd : Bool) (front back : List Byte)
    (even : front.length % 2 = 0) (some : ∃ b ∈ front ++ back, b ≠ 0)
    (short : front.length + 2 + back.length ≤ 0x20000) :
    carried (wordSum order (front ++
      order.store 2 (inetChksum order odd (front ++ [0, 0] ++ back)) ++ back)) = 65535 := by
  have length : (front ++ [0, 0] ++ back).length ≤ 0x20000 := by
    simp only [List.length_append, List.length_cons, List.length_nil]
    omega
  have parts (word : List Byte) (two : word.length = 2) :
      wordSum order (front ++ word ++ back) = wordSum order (front ++ back) + order.load word := by
    obtain ⟨a, b, rfl⟩ := List.length_eq_two.mp two
    rw [List.append_assoc, OnesSum.wordSum_append order front _ even,
      OnesSum.wordSum_append order front _ even, List.cons_append, List.cons_append, List.nil_append, wordSum]
    omega
  have zeros : order.load [0, 0] = 0 := by
    cases order <;> rfl
  have positive : 0 < wordSum order (front ++ back) := by
    rw [Nat.pos_iff_ne_zero, ne_eq, OnesSum.wordSum_eq_zero]
    obtain ⟨b, inside, nonzero⟩ := some
    exact fun all => nonzero (all b inside)
  have chksum : inetChksum order odd (front ++ [0, 0] ++ back) =
      65535 - carried (wordSum order (front ++ back)) := by
    rw [inetChksum, lwipStandardChksum_eq order odd _ length, parts _ rfl, zeros, Nat.add_zero]
    rfl
  have stored : order.load (order.store 2 (65535 - carried (wordSum order (front ++ back)))) =
      65535 - carried (wordSum order (front ++ back)) := by
    rw [ByteOrder.load_store]
    exact Nat.mod_eq_of_lt (by omega)
  rw [chksum, parts _ (ByteOrder.length_store ..), stored, OnesSum.carried_complement _ positive]

theorem inetChksum_eq_zero (order : ByteOrder) (odd : Bool) {data : List Byte} (short : data.length ≤ 0x20000) :
    inetChksum order odd data = 0 ↔ carried (wordSum order data) = 65535 := by
  have le := OnesSum.carried_le (wordSum order data)
  rw [inetChksum, lwipStandardChksum_eq order odd data short]
  omega

end QNEthernet.Lwip
