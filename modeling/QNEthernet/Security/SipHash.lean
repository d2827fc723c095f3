import QNEthernet.Lib.Memory
import QNEthernet.Lib.Words

/-! `security/siphash.cpp`, and SipHash-c-d as its authors define it. -/

namespace QNEthernet.Security

open Words

abbrev Word := BitVec 64

/-- `v0` to `v3`. -/
structure SipState where
  v0 : Word
  v1 : Word
  v2 : Word
  v3 : Word
  deriving DecidableEq

def rotl (x : Word) (s : Nat) : Word := (x <<< s) ||| (x >>> (64 - s))

def sipround (s : SipState) : SipState :=
  let v0 := s.v0 + s.v1
  let v1 := rotl s.v1 13
  let v1 := v1 ^^^ v0
  let v0 := rotl v0 32
  let v2 := s.v2 + s.v3
  let v3 := rotl s.v3 16
  let v3 := v3 ^^^ v2
  let v0 := v0 + v3
  let v3 := rotl v3 21
  let v3 := v3 ^^^ v0
  let v2 := v2 + v1
  let v1 := rotl v1 17
  let v1 := v1 ^^^ v2
  let v2 := rotl v2 32
  ⟨v0, v1, v2, v3⟩

/-- The offsets into the message that were read go with the state. -/
structure Hashing where
  v : SipState
  pMsg : Nat := 0
  reads : List Nat := []

namespace Hashing

/-- `v3 ^= m`, the rounds, `v0 ^= m`. -/
def absorb (c : Nat) (m : Word) (h : Hashing) : Hashing :=
  let v := sipround^[c] { h.v with v3 := h.v.v3 ^^^ m }
  { h with v := { v with v0 := v.v0 ^^^ m } }

/-- The bytes that a `memcpy` from the message gets. -/
def fetch (msg : Nat → UInt8) (len : Nat) (h : Hashing) : List UInt8 × Hashing :=
  (Memory.window msg h.pMsg len, { h with reads := h.reads ++ (List.range len).map (h.pMsg + ·) })

def block (order : ByteOrder) (c : Nat) (msg : Nat → UInt8) (h : Hashing) : Hashing :=
  let (bytes, h) := h.fetch msg 8
  let m := order.fromLittle 8 (order.load bytes)
  let h := h.absorb c (.ofNat 64 m)
  { h with pMsg := h.pMsg + 8 }

/-- The bytes that are left are copied over the length. -/
def lastBlock (order : ByteOrder) (c : Nat) (msg : Nat → UInt8) (len : Nat) (h : Hashing) : Hashing :=
  let m := match order with
    | .little => (BitVec.ofNat 64 len <<< 56).toNat
    | .big => (BitVec.ofNat 64 len &&& 0xff).toNat
  let (bytes, h) := h.fetch msg (len % 8)
  h.absorb c (.ofNat 64 (order.fromLittle 8 (order.overlay 8 m bytes)))

end Hashing

def blockCount (sizeBits len : Nat) : Nat :=
  ((len + 8) % 2 ^ sizeBits / 8 + 2 ^ sizeBits - 1) % 2 ^ sizeBits

/-- The hash, and the offsets into the message that were read. -/
def siphash (order : ByteOrder) (sizeBits c d : Nat) (key msg : Nat → UInt8) (len : Nat) : Word × List Nat :=
  let k0 := .ofNat 64 (order.fromLittle 8 (order.load (Memory.window key 0 8)))
  let k1 := .ofNat 64 (order.fromLittle 8 (order.load (Memory.window key 8 8)))
  -- Initialization
  let v : SipState :=
    { v0 := k0 ^^^ 0x736f6d6570736575
      v1 := k1 ^^^ 0x646f72616e646f6d
      v2 := k0 ^^^ 0x6c7967656e657261
      v3 := k1 ^^^ 0x7465646279746573 }
  -- Compression
  let h := (Hashing.block order c msg)^[blockCount sizeBits len] { v := v }
  let h := h.lastBlock order c msg len
  -- Finalization
  let v := sipround^[d] { h.v with v2 := h.v.v2 ^^^ 0xff }
  (v.v0 ^^^ v.v1 ^^^ v.v2 ^^^ v.v3, h.reads)

/-! The definition. -/

namespace Reference

def word (bytes : List UInt8) : Word := .ofNat 64 (number bytes)

/-- The four additions, rotations and XORs of each half round side by side. -/
def sipRound (s : SipState) : SipState :=
  let a := s.v0 + s.v1
  let b := s.v1.rotateLeft 13 ^^^ a
  let c := s.v2 + s.v3
  let d := s.v3.rotateLeft 16 ^^^ c
  let e := c + b
  let f := a.rotateLeft 32 + d
  ⟨f, b.rotateLeft 17 ^^^ e, e.rotateLeft 32, d.rotateLeft 21 ^^^ f⟩

def compress (c : Nat) (v : SipState) (m : Word) : SipState :=
  let v := sipRound^[c] ⟨v.v0, v.v1, v.v2, v.v3 ^^^ m⟩
  ⟨v.v0 ^^^ m, v.v1, v.v2, v.v3⟩

/-- The message, zeros, and its length modulo 256, in whole words. -/
def padded (msg : List UInt8) : List UInt8 :=
  msg ++ List.replicate (7 - msg.length % 8) 0 ++ [.ofNat msg.length]

def words (msg : List UInt8) : List Word :=
  (List.range (msg.length / 8 + 1)).map fun i => word (((padded msg).drop (8 * i)).take 8)

def hash (c d : Nat) (key msg : List UInt8) : Word :=
  let k0 := word (key.take 8)
  let k1 := word (key.drop 8)
  let v : SipState :=
    ⟨k0 ^^^ 0x736f6d6570736575, k1 ^^^ 0x646f72616e646f6d, k0 ^^^ 0x6c7967656e657261, k1 ^^^ 0x7465646279746573⟩
  let v := (words msg).foldl (compress c) v
  let v := sipRound^[d] ⟨v.v0, v.v1, v.v2 ^^^ 0xff, v.v3⟩
  v.v0 ^^^ v.v1 ^^^ v.v2 ^^^ v.v3

end Reference

open Reference

theorem rotl_eq (x : Word) {s : Nat} (small : s < 64) : rotl x s = x.rotateLeft s := by
  rw [BitVec.rotateLeft_def, Nat.mod_eq_of_lt small, rotl]

theorem sipround_eq : sipround = sipRound := by
  funext s
  simp only [sipround, sipRound, rotl_eq _ (show 13 < 64 by decide), rotl_eq _ (show 16 < 64 by decide),
    rotl_eq _ (show 17 < 64 by decide), rotl_eq _ (show 21 < 64 by decide), rotl_eq _ (show 32 < 64 by decide)]

/-- The bytes of the variable before the message's are copied over them: the length's lowest one is the last. -/
theorem store_length (order : ByteOrder) (len : Nat) :
    order.store 8 (match order with
      | .little => (BitVec.ofNat 64 len <<< 56).toNat
      | .big => (BitVec.ofNat 64 len &&& 0xff).toNat) = List.replicate 7 0 ++ [.ofNat len] := by
  have byte : (UInt8.ofNat len).toNat = len % 256 := UInt8.toNat_ofNat'
  cases order with
  | little =>
      have top : (BitVec.ofNat 64 len <<< 56).toNat = number (List.replicate 7 0 ++ [.ofNat len]) := by
        rw [number_append, number_zeros, number_cons, byte, BitVec.toNat_shiftLeft, Nat.shiftLeft_eq,
          BitVec.toNat_ofNat]
        show len % 2 ^ 64 * 2 ^ 56 % 2 ^ 64 = 0 + 256 ^ 7 * (len % 256 + 256 * 0)
        omega
      have bytes := digits_number (List.replicate 7 0 ++ [UInt8.ofNat len])
      rw [← top, List.length_append, List.length_replicate, List.length_singleton] at bytes
      exact bytes
  | big =>
      have bottom : (BitVec.ofNat 64 len &&& 0xff).toNat = number (.ofNat len :: List.replicate 7 0) := by
        rw [number_cons, number_zeros, byte, BitVec.toNat_and]
        calc (BitVec.ofNat 64 len).toNat &&& (2 ^ 8 - 1) = len % 2 ^ 64 % 2 ^ 8 := by
              rw [Nat.and_two_pow_sub_one_eq_mod, BitVec.toNat_ofNat]
          _ = len % 256 + 256 * 0 := by omega
      have bytes := digits_number (UInt8.ofNat len :: List.replicate 7 0)
      rw [← bottom, List.length_cons, List.length_replicate] at bytes
      rw [ByteOrder.store, bytes]
      exact List.reverse_cons

namespace Hashing

theorem absorb_eq (c : Nat) (m : Word) (h : Hashing) : h.absorb c m = { h with v := compress c h.v m } := by
  simp only [absorb, compress, sipround_eq]

theorem block_eq (order : ByteOrder) (c : Nat) (msg : Nat → UInt8) (h : Hashing) :
    h.block order c msg =
      { v := compress c h.v (word (Memory.window msg h.pMsg 8))
        pMsg := h.pMsg + 8
        reads := h.reads ++ (List.range 8).map (h.pMsg + ·) } := by
  have value := order.fromLittle_load (Memory.window msg h.pMsg 8)
  rw [Memory.length_window] at value
  simp only [block, fetch, absorb_eq, value, word]

theorem range_append (k n : Nat) : List.range k ++ (List.range n).map (k + ·) = List.range (k + n) :=
  List.range_add.symm

theorem blocks_eq (order : ByteOrder) (c : Nat) (msg : Nat → UInt8) (v : SipState) (k : Nat) :
    (block order c msg)^[k] { v := v } =
      { v := ((List.range k).map fun i => word (Memory.window msg (8 * i) 8)).foldl (compress c) v
        pMsg := 8 * k
        reads := List.range (8 * k) } := by
  induction k with
  | zero => rfl
  | succ k ih =>
      rw [Function.iterate_succ_apply', ih, block_eq]
      simp only [range_append, @List.range_succ k, List.map_append, List.foldl_append, List.map_singleton,
        List.foldl_cons, List.foldl_nil, Nat.mul_succ]

theorem lastBlock_eq (order : ByteOrder) (c : Nat) (msg : Nat → UInt8) (len : Nat) (h : Hashing) :
    h.lastBlock order c msg len =
      { v := compress c h.v (word (Memory.window msg h.pMsg (len % 8) ++
          List.replicate (7 - len % 8) 0 ++ [.ofNat len]))
        pMsg := h.pMsg
        reads := h.reads ++ (List.range (len % 8)).map (h.pMsg + ·) } := by
  have short : len % 8 < 8 := Nat.mod_lt len (by decide)
  have kept : (List.replicate 7 0 ++ [UInt8.ofNat len]).drop (len % 8) =
      List.replicate (7 - len % 8) 0 ++ [.ofNat len] := by
    rw [List.drop_append_of_le_length (by rw [List.length_replicate]; omega), List.drop_replicate]
  have count : (Memory.window msg h.pMsg (len % 8) ++ (List.replicate (7 - len % 8) 0 ++ [UInt8.ofNat len])).length = 8 := by
    simp only [List.length_append, Memory.length_window, List.length_replicate, List.length_singleton]
    omega
  have value := order.fromLittle_load
    (Memory.window msg h.pMsg (len % 8) ++ (List.replicate (7 - len % 8) 0 ++ [.ofNat len]))
  rw [count] at value
  simp only [lastBlock, fetch, absorb_eq, ByteOrder.overlay, store_length, Memory.length_window, kept, value, word,
    List.append_assoc]

end Hashing

theorem blockCount_eq {sizeBits len : Nat} (small : len + 8 < 2 ^ sizeBits) : blockCount sizeBits len = len / 8 := by
  have count : (len + 8) / 8 + 2 ^ sizeBits - 1 = len / 8 + 2 ^ sizeBits := by omega
  rw [blockCount, Nat.mod_eq_of_lt small, count, Nat.add_mod_right]
  exact Nat.mod_eq_of_lt (by omega)

namespace Reference

variable (msg : Nat → UInt8) (len : Nat)

theorem padded_drop {start : Nat} (inside : start ≤ len) :
    (padded (Memory.window msg 0 len)).drop start =
      Memory.window msg start (len - start) ++ (List.replicate (7 - len % 8) 0 ++ [.ofNat len]) := by
  have parts : Memory.window msg 0 len = Memory.window msg 0 start ++ Memory.window msg start (len - start) := by
    have parts := Memory.window_add msg 0 start (len - start)
    rwa [Nat.zero_add, Nat.add_sub_cancel' inside] at parts
  have front := Memory.length_window msg 0 start
  rw [padded, Memory.length_window, parts, List.append_assoc, List.append_assoc]
  exact List.drop_left' front

theorem words_window :
    words (Memory.window msg 0 len) =
      ((List.range (len / 8)).map fun i => word (Memory.window msg (8 * i) 8)) ++
        [word (Memory.window msg (8 * (len / 8)) (len % 8) ++ List.replicate (7 - len % 8) 0 ++ [.ofNat len])] := by
  have short : len % 8 < 8 := Nat.mod_lt len (by decide)
  have whole := Nat.div_add_mod len 8
  have filled : ∀ i ∈ List.range (len / 8),
      word (((padded (Memory.window msg 0 len)).drop (8 * i)).take 8) = word (Memory.window msg (8 * i) 8) := by
    intro i member
    have inside := List.mem_range.mp member
    have parts := Memory.window_add msg (8 * i) 8 (len - 8 * i - 8)
    rw [Nat.add_sub_cancel' (by omega)] at parts
    rw [padded_drop msg len (by omega), parts, List.append_assoc,
      List.take_left' (Memory.length_window msg (8 * i) 8)]
  have count : (Memory.window msg (8 * (len / 8)) (len % 8) ++
      (List.replicate (7 - len % 8) 0 ++ [UInt8.ofNat len])).length ≤ 8 := by
    simp only [List.length_append, Memory.length_window, List.length_replicate, List.length_singleton]
    omega
  rw [words, Memory.length_window, List.range_succ, List.map_append, List.map_singleton,
    List.map_congr_left filled, padded_drop msg len (by omega), show len - 8 * (len / 8) = len % 8 by omega,
    List.take_of_length_le count, List.append_assoc]

end Reference

/-- `siphash` is SipHash-c-d on machines of either byte order, and reads the message's bytes once each. -/
theorem siphash_eq (order : ByteOrder) (sizeBits c d : Nat) (key msg : Nat → UInt8) (len : Nat)
    (small : len < (2 ^ sizeBits - 1) - 7) :
    siphash order sizeBits c d key msg len =
      (hash c d (Memory.window key 0 16) (Memory.window msg 0 len), List.range len) := by
  have halves := Memory.window_add key 0 8 8
  have first : (Memory.window key 0 16).take 8 = Memory.window key 0 8 := by
    rw [halves]
    exact List.take_left' (Memory.length_window key 0 8)
  have second : (Memory.window key 0 16).drop 8 = Memory.window key 8 8 := by
    rw [halves]
    exact List.drop_left' (Memory.length_window key 0 8)
  have half : ∀ start, BitVec.ofNat 64 (order.fromLittle 8 (order.load (Memory.window key start 8))) =
      Reference.word (Memory.window key start 8) := by
    intro start
    have value := order.fromLittle_load (Memory.window key start 8)
    rw [Memory.length_window] at value
    rw [value, Reference.word]
  have count : blockCount sizeBits len = len / 8 := blockCount_eq (by omega)
  have reads : List.range (8 * (len / 8)) ++ (List.range (len % 8)).map (8 * (len / 8) + ·) = List.range len := by
    rw [Hashing.range_append, Nat.div_add_mod]
  simp only [siphash, Reference.hash, count, Hashing.blocks_eq, Hashing.lastBlock_eq, half, first, second, reads,
    sipround_eq, words_window, List.foldl_append, List.foldl_cons, List.foldl_nil]

theorem siphash_eq_fifteenBytes : (siphash .big 32 2 4 UInt8.ofNat UInt8.ofNat 15).1 =
    hash 2 4 (Memory.window UInt8.ofNat 0 16) (Memory.window UInt8.ofNat 0 15) :=
  congrArg Prod.fst (siphash_eq .big 32 2 4 UInt8.ofNat UInt8.ofNat 15 (by decide))

/-- The test from the paper. -/
example : hash 2 4 ((List.range 16).map .ofNat) ((List.range 15).map .ofNat) = 0xa129ca6149be45e5 := by decide

end QNEthernet.Security
