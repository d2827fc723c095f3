import QNEthernet.Drivers.Cyw43Transmit
import QNEthernet.Drivers.Cyw43Upload

/-! The argument of CMD53 beside the transfer that the host makes: nine bits of the argument, thirteen of
`BLK_ATT` and a count of words stand for one size. -/

namespace QNEthernet.Drivers.Cyw43

open Lwip

/-- The CMD53 argument of `cardCMD53`, in byte mode and with an address that counts up. -/
def cmd53Arg (write : Bool) (functionNumber registerAddress size : BitVec 32) : BitVec 32 :=
  ((BitVec.ofBool write).setWidth 32 <<< 31) ||| (functionNumber <<< 28) ||| ((0 : BitVec 32) <<< 27) |||
    ((1 : BitVec 32) <<< 26) ||| ((registerAddress &&& 0x1FFFF) <<< 9) ||| (size &&& 0x1FF)

/-- What the card takes for the byte count. -/
def cardCount (arg : BitVec 32) : Nat := if arg &&& 0x1FF = 0 then 512 else (arg &&& 0x1FF).toNat

/-- `BLK_ATT` as `setBlockCountSize` programs it. -/
def blkAtt (size : BitVec 32) : BitVec 32 := (((1 : BitVec 32) &&& 0x1FFF) <<< 16) ||| (size &&& 0x1FFF)

def blkSize (att : BitVec 32) : Nat := (att &&& 0x1FFF).toNat

structure Agrees (write : Bool) (functionNumber registerAddress : BitVec 32) (size : Nat) : Prop where
  card : cardCount (cmd53Arg write functionNumber registerAddress (BitVec.ofNat 32 size)) = size
  controller : blkSize (blkAtt (BitVec.ofNat 32 size)) = size
  words : 4 * wordCount size = (size + 3) / 4 * 4
  small : size ≤ 512

inductive Caller where
  | eventNetTx (seq : Byte) (data : Nat → Byte) (len : Nat)
  | ioctlCmd (c : Ioctl)
  | ioctlGetEvent (pad : Byte) (maxlen : Nat) (f : Fifo) (fresh : f.requests = [])
  | ioctlCmdPollDevice (f : Fifo)
  | uploadFirmware (back : Backplane) (firmwareSize : Nat) (source : Nat → Byte)
  | uploadNVRAM (back : Backplane) (nvRAMSize : Nat) (source : Nat → Byte)

namespace Caller

/-- `CYW43_WRITE_BYTES_PAD`, which rounds up to a multiple of 64. -/
def writeBytesPad (len : Nat) : Nat := (len + 64 - 1) / 64 * 64

/-- The sizes that the call passes to `cardCMD53`. -/
def sizes : Caller → List Nat
  | .eventNetTx seq data len => [(Cyw43.eventNetTx seq data len).size]
  | .ioctlCmd c => [writeBytesPad (Ioctl.hdrlen + c.txdlen)]
  | .ioctlGetEvent pad maxlen f _ => (f.ioctlGetEvent pad maxlen).fifo.requests
  | .ioctlCmdPollDevice f => 4 :: if f.passes then [(Fifo.headerLen f.hdr + 2 ^ 32 - 4) % 2 ^ 32] else []
  | .uploadFirmware back firmwareSize source => (Device.uploadFirmware ⟨back, [], []⟩ firmwareSize source).bursts.map Burst.size
  | .uploadNVRAM back nvRAMSize source => (Device.uploadNVRAM ⟨back, [], []⟩ nvRAMSize source).bursts.map Burst.size

def Fits : Caller → Prop
  | .eventNetTx _ _ len => len ≤ 494
  | .ioctlCmd c => c.txdlen ≤ 484
  | .ioctlCmdPollDevice f => f.passes = true → 5 ≤ Fifo.headerLen f.hdr ∧ Fifo.headerLen f.hdr ≤ 516
  | _ => True

end Caller

section Fields

variable (write : Bool) (functionNumber registerAddress : BitVec 32)

theorem cardCount_cmd53Arg (size : BitVec 32) :
    cardCount (cmd53Arg write functionNumber registerAddress size) = byteCount size.toNat := by
  have mask : ∀ i < 32, (0x1FF : BitVec 32).getLsbD i = decide (i < 9) := by decide
  have low : cmd53Arg write functionNumber registerAddress size &&& 0x1FF = size &&& 0x1FF := by
    apply BitVec.eq_of_getLsbD_eq
    intro i inside
    unfold cmd53Arg
    simp only [BitVec.getLsbD_and, BitVec.getLsbD_or, BitVec.getLsbD_shiftLeft, mask i inside]
    -- The other fields begin at bit 9 or above.
    by_cases below : i < 9
    · have shifted (k : Nat) (above : 9 ≤ k) : i < k := Nat.lt_of_lt_of_le below above
      simp [below, shifted]
    · simp [below]
  have zero : size &&& 0x1FF = 0 ↔ size.toNat &&& 0x1FF = 0 := BitVec.toNat_inj.symm
  unfold cardCount byteCount
  rw [low]
  exact if_congr zero rfl (BitVec.toNat_and ..)

theorem blkSize_blkAtt (size : BitVec 32) : blkSize (blkAtt size) = size.toNat % 2 ^ 13 := by
  have mask : ∀ i < 32, (0x1FFF : BitVec 32).getLsbD i = decide (i < 13) := by decide
  have low : blkAtt size &&& 0x1FFF = size &&& 0x1FFF := by
    apply BitVec.eq_of_getLsbD_eq
    intro i inside
    unfold blkAtt
    simp only [BitVec.getLsbD_and, BitVec.getLsbD_or, BitVec.getLsbD_shiftLeft, mask i inside]
    by_cases below : i < 13
    · have shifted : i < 16 := by omega
      simp [below, shifted]
    · simp [below]
  rw [blkSize, low, BitVec.toNat_and]
  exact Nat.and_two_pow_sub_one_eq_mod size.toNat 13

theorem byteCount_pos (size : Nat) : 0 < byteCount size := by
  unfold byteCount
  split
  · decide
  · omega

theorem agrees_iff (size : Nat) :
    Agrees write functionNumber registerAddress size ↔ 1 ≤ size ∧ size ≤ 512 := by
  constructor
  · intro agrees
    have card := agrees.card
    have bound := agrees.small
    rw [cardCount_cmd53Arg, BitVec.toNat_ofNat, Nat.mod_eq_of_lt (by omega)] at card
    have pos := byteCount_pos size
    omega
  · intro bounds
    obtain ⟨some_bytes, small⟩ := bounds
    have word : (BitVec.ofNat 32 size).toNat = size := by
      rw [BitVec.toNat_ofNat, Nat.mod_eq_of_lt (by omega)]
    refine ⟨?_, ?_, ?_, small⟩
    · rw [cardCount_cmd53Arg, word, byteCount_eq some_bytes small]
    · rw [blkSize_blkAtt, word, Nat.mod_eq_of_lt (by omega)]
    · rw [wordCount_eq (by omega), Nat.mul_comm]

end Fields

namespace Device

def Small (d : Device) : Prop := ∀ b ∈ d.bursts, 1 ≤ b.size ∧ b.size ≤ 64

theorem Small.cardCMD53Write {d : Device} (small : d.Small) {size : Nat} (some_bytes : 1 ≤ size) (block : size ≤ 64)
    (registerAddress meant : BitVec 32) (source : Nat → Byte) :
    (d.cardCMD53Write registerAddress meant source size).Small := by
  intro b member
  rcases List.mem_append.mp member with earlier | last
  · exact small b earlier
  · rw [List.mem_singleton.mp last]
    exact ⟨some_bytes, block⟩

theorem Small.run {d : Device} (small : d.Small) {size : Nat} {send : Nat → Nat → Device → Device}
    (each : ∀ n len d, 1 ≤ len → len ≤ 64 → d.Small → (send n len d).Small) : (Chunks.run 64 size send d).Small := by
  have pos : 0 < 64 := by decide
  refine Chunks.run_induct pos (fun _ d => d.Small) (fun n d more _ small => ?_) d small
  exact each n _ d (by omega) (Nat.min_le_left _ _) small

theorem uploadFirmware_small {d : Device} (small : d.Small) (firmwareSize : Nat) (source : Nat → Byte) :
    (d.uploadFirmware firmwareSize source).Small := by
  refine small.run fun n len d some_bytes block small => ?_
  have moved : Small { d with back := d.back.setBackplaneWindow (BitVec.ofNat 32 n) {} } := small
  exact moved.cardCMD53Write some_bytes block _ _ _

theorem uploadNVRAM_small {d : Device} (small : d.Small) (nvRAMSize : Nat) (source : Nat → Byte) :
    (d.uploadNVRAM nvRAMSize source).Small := by
  have started : Small { d with back := d.back.setBackplaneWindow 0x078000 {} } := small
  have looped : (Chunks.run 64 nvRAMSize (nvramChunk source nvRAMSize) _).Small :=
    started.run fun _ _ _ some_bytes block small => small.cardCMD53Write some_bytes block _ _ _
  exact looped.cardCMD53Write (by decide) (by decide) _ _ _

end Device

theorem small_sizes {d : Device} (small : d.Small) : ∀ size ∈ d.bursts.map Burst.size, 1 ≤ size ∧ size ≤ 512 := by
  intro size member
  obtain ⟨b, burst, rfl⟩ := List.mem_map.mp member
  obtain ⟨some_bytes, block⟩ := small b burst
  exact ⟨some_bytes, by omega⟩

/-- A call's transfers agree with their arguments exactly if its lengths are in range. -/
theorem Caller.agree_iff (c : Caller) :
    (∀ size ∈ c.sizes, ∀ write functionNumber registerAddress, Agrees write functionNumber registerAddress size) ↔
      c.Fits := by
  have agrees (sizes : List Nat) : (∀ size ∈ sizes, ∀ write functionNumber registerAddress,
      Agrees write functionNumber registerAddress size) ↔ ∀ size ∈ sizes, 1 ≤ size ∧ size ≤ 512 := by
    simp only [agrees_iff, forall_const]
  rw [agrees]
  cases c with
  | eventNetTx seq data len =>
      simp only [Caller.sizes, List.forall_mem_singleton, eventNetTx_size, Caller.Fits, txDataOffset]
      omega
  | ioctlCmd c =>
      simp only [Caller.sizes, List.forall_mem_singleton, Caller.writeBytesPad, Caller.Fits, Ioctl.hdrlen]
      omega
  | ioctlGetEvent pad maxlen f fresh =>
      refine iff_of_true ?_ trivial
      obtain ⟨blocks, requests, bound⟩ := @Fifo.ioctlGetEvent_requests pad maxlen f
      intro size member
      rw [Caller.sizes, requests, fresh, List.nil_append] at member
      rcases List.mem_cons.mp member with rfl | block
      · decide
      · exact bound size block
  | ioctlCmdPollDevice f =>
      have short : Fifo.headerLen f.hdr < 2 ^ 16 := BitVec.isLt _
      simp only [Caller.sizes, Caller.Fits, List.forall_mem_cons]
      cases f.passes with
      | false => simp
      | true =>
          simp only [if_true, List.forall_mem_singleton, forall_const]
          omega
  | uploadFirmware back firmwareSize source =>
      exact iff_of_true (small_sizes (Device.uploadFirmware_small (by simp [Device.Small]) firmwareSize source)) trivial
  | uploadNVRAM back nvRAMSize source =>
      exact iff_of_true (small_sizes (Device.uploadNVRAM_small (by simp [Device.Small]) nvRAMSize source)) trivial

/-- A frame of 495 bytes is sent as 516 bytes, of which the card takes 4. -/
theorem Caller.disagree :
    let c := Caller.eventNetTx 0 (fun _ => 0) 495
    c.sizes = [516] ∧ cardCount (cmd53Arg true 2 0 516) = 4 ∧
      ¬ ∀ size ∈ c.sizes, ∀ write functionNumber registerAddress, Agrees write functionNumber registerAddress size := by
  intro c
  have sizes : c.sizes = [516] := by
    simp [c, Caller.sizes, eventNetTx_size, txDataOffset]
  refine ⟨sizes, by decide, fun agree => ?_⟩
  have bounds := (agrees_iff true 2 0 516).mp (agree 516 (by rw [sizes]; exact List.mem_singleton_self 516) true 2 0)
  exact absurd bounds.2 (by decide)

end QNEthernet.Drivers.Cyw43
