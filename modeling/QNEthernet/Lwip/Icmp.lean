import QNEthernet.Lwip.Chksum

/-! The echo messages of ICMP: lwIP's header structure, and what is on the wire. -/

namespace QNEthernet.Lwip

open Words (ByteOrder)
open OnesSum (wordSum carried swapped)

/-- `lwip_htons` and `lwip_ntohs`, which are the same. -/
def htons (order : ByteOrder) (n : UInt16) : UInt16 :=
  match order with
  | .little => ((n &&& 0x00ff) <<< 8) ||| ((n &&& 0xff00) >>> 8)
  | .big => n

structure IcmpEchoHdr where
  type : Byte
  code : Byte
  chksum : UInt16
  id : UInt16
  seqno : UInt16
  deriving DecidableEq

namespace IcmpEchoHdr

def bytes (order : ByteOrder) (echo : IcmpEchoHdr) : List Byte :=
  [echo.type, echo.code] ++ order.store 2 echo.chksum.toNat ++ order.store 2 echo.id.toNat ++
    order.store 2 echo.seqno.toNat

def ofBytes (order : ByteOrder) (memory : List Byte) : IcmpEchoHdr where
  type := memory.getD 0 0
  code := memory.getD 1 0
  chksum := .ofNat (order.load ((memory.drop 2).take 2))
  id := .ofNat (order.load ((memory.drop 4).take 2))
  seqno := .ofNat (order.load ((memory.drop 6).take 2))

end IcmpEchoHdr

theorem toNat_htons_little (n : UInt16) : (htons .little n).toNat = swapped n.toNat := by
  have word : n.toNat < 2 ^ 16 := n.toNat_lt
  have expanded : (htons .little n).toNat = ((n.toNat &&& 0xff) <<< 8) % 2 ^ 16 ||| ((n.toNat &&& 0xff00) >>> 8) :=
    rfl
  have low : (n.toNat &&& 0xff) <<< 8 < 2 ^ 16 := by
    have byte : n.toNat &&& 0xff ≤ 0xff := Nat.and_le_right
    rw [Nat.shiftLeft_eq]
    omega
  rw [expanded, Nat.mod_eq_of_lt low, ← swapBytesInWord_eq word, swapBytesInWord]

theorem digits_two (n : Nat) : Words.digits 2 n = [.ofNat n, .ofNat (n / 256)] := by
  rw [Words.digits_succ, Words.digits_succ]
  rfl

theorem store_htons (order : ByteOrder) (n : UInt16) :
    order.store 2 (htons order n).toNat = ByteOrder.store .big 2 n.toNat := by
  cases order with
  | big => rfl
  | little =>
    have word : n.toNat < 2 ^ 16 := n.toNat_lt
    have first : UInt8.ofNat (swapped n.toNat) = UInt8.ofNat (n.toNat / 256) := by
      apply UInt8.toNat_inj.mp
      rw [UInt8.toNat_ofNat', UInt8.toNat_ofNat', swapped]
      omega
    have second : swapped n.toNat / 256 = n.toNat % 256 := by
      rw [swapped]
      omega
    have low : UInt8.ofNat (n.toNat % 256) = UInt8.ofNat n.toNat := UInt8.ofNat_mod_size ..
    show Words.digits 2 (htons .little n).toNat = (Words.digits 2 n.toNat).reverse
    rw [toNat_htons_little, digits_two, digits_two, first, second, low]
    rfl

theorem htons_load (order : ByteOrder) (a b : Byte) :
    htons order (.ofNat (order.load [a, b])) = .ofNat (ByteOrder.load .big [a, b]) := by
  cases order with
  | big => rfl
  | little =>
    have first : a.toNat < 256 := a.toNat_lt
    have second : b.toNat < 256 := b.toNat_lt
    have little : ByteOrder.load .little [a, b] = a.toNat + 256 * b.toNat := OnesSum.load_pair ..
    have big : ByteOrder.load .big [a, b] = b.toNat + 256 * a.toNat := OnesSum.load_pair ..
    apply UInt16.toNat_inj.mp
    rw [toNat_htons_little, little, big, UInt16.toNat_ofNat', UInt16.toNat_ofNat',
      Nat.mod_eq_of_lt (by omega), Nat.mod_eq_of_lt (by omega), swapped]
    omega

def echoMessage (type : Byte) (chksum : List Byte) (id seq : UInt16) (data : List Byte) : List Byte :=
  [type, 0] ++ chksum ++ ByteOrder.store .big 2 id.toNat ++ ByteOrder.store .big 2 seq.toNat ++ data

theorem length_echoMessage (type : Byte) {chksum : List Byte} (two : chksum.length = 2) (id seq : UInt16)
    (data : List Byte) : (echoMessage type chksum id seq data).length = 8 + data.length := by
  simp only [echoMessage, List.length_append, List.length_cons, List.length_nil, two, ByteOrder.length_store]

theorem bytes_append (order : ByteOrder) (type : Byte) (id seq : UInt16) (data : List Byte) :
    IcmpEchoHdr.bytes order ⟨type, 0, 0, htons order id, htons order seq⟩ ++ data =
      echoMessage type [0, 0] id seq data := by
  have zeros : order.store 2 (0 : UInt16).toNat = [0, 0] := by
    cases order <;> rfl
  rw [IcmpEchoHdr.bytes, zeros, store_htons, store_htons, echoMessage]

/-- A message of any type but zero sums to all ones with the checksum that was taken before it was there. -/
theorem carried_echoMessage (order : ByteOrder) (odd : Bool) {type : Byte} (some : type ≠ 0) (id seq : UInt16)
    {data : List Byte} (short : 8 + data.length < 2 ^ 16) (reader : ByteOrder) :
    carried (wordSum reader (echoMessage type
      (order.store 2 (inetChksum order odd (echoMessage type [0, 0] id seq data))) id seq data)) = 65535 := by
  have split (chksum : List Byte) : echoMessage type chksum id seq data = [type, 0] ++ chksum ++
      (ByteOrder.store .big 2 id.toNat ++ ByteOrder.store .big 2 seq.toNat ++ data) := by
    simp only [echoMessage, List.append_assoc]
  rw [split, split]
  apply OnesSum.carried_wordSum_other reader
  apply carried_inetChksum order odd [type, 0] _ (by simp)
  · exact ⟨type, by simp, some⟩
  · simp only [List.length_append, List.length_cons, List.length_nil, ByteOrder.length_store]
    omega

end QNEthernet.Lwip
