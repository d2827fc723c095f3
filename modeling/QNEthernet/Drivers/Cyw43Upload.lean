import QNEthernet.Lib.Chunks
import QNEthernet.Drivers.Cyw43Window
import QNEthernet.Drivers.Cyw43Fifo

/-! The upload of the firmware and of the NVRAM image: which byte of the chip's memory each byte of an
image goes to. -/

namespace QNEthernet.Drivers.Cyw43

open Lwip

/-- A CMD53 write to the backplane: the window and the register address that it is made with, the address
that the caller means, and its size. -/
structure Burst where
  window : BitVec 32
  register : BitVec 17
  meant : BitVec 32
  size : Nat
  deriving DecidableEq

/-- The card, and every byte that was written to its memory, in order. -/
structure Device where
  back : Backplane
  writes : List (Nat × Byte) := []
  bursts : List Burst := []

def wordBytes (x : BitVec 32) (i : Nat) : Byte := .ofBitVec ((x >>> (8 * i)).setWidth 8)

namespace Device

def ram (d : Device) (before : Nat → Byte) : Nat → Byte :=
  d.writes.foldl (fun ram write => Function.update ram write.1 write.2) before

/-- The address of a byte of a transfer: the window, and an offset in it that counts up. -/
def address (window : BitVec 32) (register : BitVec 17) (i : Nat) : Nat :=
  window.toNat + (register.toNat + i) % 2 ^ 15

/-- `cardCMD53_write` with the backplane function. -/
def cardCMD53Write (d : Device) (registerAddress meant : BitVec 32) (source : Nat → Byte) (size : Nat) : Device :=
  let window := d.back.reg.base
  let register := registerAddress.setWidth 17
  { back := d.back.cardCMD53 registerAddress meant
    writes := d.writes ++ (List.range (byteCount size)).map fun i => (address window register i, source i)
    bursts := d.bursts ++ [⟨window, register, meant, size⟩] }

/-- One pass of the loop of `uploadFirmware`. -/
def firmwareChunk (source : Nat → Byte) (nBytesSent len : Nat) (d : Device) : Device :=
  let sent := BitVec.ofNat 32 nBytesSent
  let (addr, back) := d.back.setBackplaneWindowRetOffset sent {}
  { d with back := back }.cardCMD53Write (sb32BitWin + addr) sent (fun i => source (nBytesSent + i)) len

def uploadFirmware (d : Device) (firmwareSize : Nat) (source : Nat → Byte) : Device :=
  Chunks.run 64 firmwareSize (firmwareChunk source) d

def nvramOffset (nvRAMSize : Nat) : BitVec 32 := 0x10000 - BitVec.ofNat 32 nvRAMSize - 4

/-- One pass of the loop of `uploadNVRAM`. -/
def nvramChunk (source : Nat → Byte) (nvRAMSize nBytesSent len : Nat) (d : Device) : Device :=
  d.cardCMD53Write (nvramOffset nvRAMSize + BitVec.ofNat 32 nBytesSent)
    (0x70000 + nvramOffset nvRAMSize + BitVec.ofNat 32 nBytesSent) (fun i => source (nBytesSent + i)) len

/-- The word behind the image: its length in words, and the complement of that. -/
def nvramToken (nvRAMSize : BitVec 32) : BitVec 32 := ((~~~(nvRAMSize / 4) &&& 0xffff) <<< 16) ||| (nvRAMSize / 4)

def uploadNVRAM (d : Device) (nvRAMSize : Nat) (source : Nat → Byte) : Device :=
  let d := { d with back := d.back.setBackplaneWindow 0x078000 {} }
  let d := Chunks.run sdBakBlkBytes nvRAMSize (nvramChunk source nvRAMSize) d
  d.cardCMD53Write (0x10000 - 4) (0x80000 - 4) (wordBytes (nvramToken (BitVec.ofNat 32 nvRAMSize))) 4

def Coherent (d : Device) : Prop := d.back.prevAddr = d.back.reg.base

end Device

/-- A transfer within one window, which is the window of its address, to that address. -/
structure Burst.Right (b : Burst) : Prop where
  window : b.window = b.meant &&& sbWinMask
  inside : b.meant.toNat % 2 ^ 15 + b.size ≤ 2 ^ 15
  reached : Device.address b.window b.register 0 = b.meant.toNat

theorem setBackplaneWindow_base {s : Backplane} (cached : s.prevAddr = s.reg.base) (addr : BitVec 32) :
    (s.setBackplaneWindow addr {}).reg.base = addr &&& sbWinMask ∧
      (s.setBackplaneWindow addr {}).prevAddr = addr &&& sbWinMask := by
  dsimp only [Backplane.setBackplaneWindow]
  split
  · exact ⟨Backplane.base_writeWindow s.reg addr, rfl⟩
  · next same =>
      have current := (not_not.mp same).symm
      exact ⟨cached ▸ current, current⟩

namespace Device

variable {d : Device} {source : Nat → Byte}

theorem cardCMD53Write_inside {registerAddress meant : BitVec 32} {size : Nat} (some_bytes : 0 < size)
    (small : size ≤ 512) (window : d.back.reg.base = meant &&& sbWinMask)
    (offset : registerAddress.toNat % 2 ^ 15 = meant.toNat % 2 ^ 15)
    (inside : meant.toNat % 2 ^ 15 + size ≤ 2 ^ 15) :
    (d.cardCMD53Write registerAddress meant source size).writes =
        d.writes ++ (List.range size).map (fun i => (meant.toNat + i, source i)) ∧
      Burst.Right ⟨d.back.reg.base, registerAddress.setWidth 17, meant, size⟩ := by
  have parts := Backplane.toNat_and_sbWinMask meant
  have place (i : Nat) (within : i < size) :
      address d.back.reg.base (registerAddress.setWidth 17) i = meant.toNat + i := by
    unfold address
    rw [window, BitVec.toNat_setWidth]
    omega
  constructor
  · simp only [cardCMD53Write, byteCount_eq some_bytes small, List.append_cancel_left_eq]
    apply List.map_congr_left
    intro i within
    rw [place i (List.mem_range.mp within)]
  · exact ⟨window, inside, place 0 some_bytes⟩

/-- Some bytes of an image have been written from an address on, by transfers that are all right. -/
structure Sent (source : Nat → Byte) (start n : Nat) (d d' : Device) : Prop where
  writes : d'.writes = d.writes ++ (List.range n).map fun i => (start + i, source i)
  bursts : ∃ bursts, d'.bursts = d.bursts ++ bursts ∧ ∀ b ∈ bursts, b.Right ∧ start ≤ b.meant.toNat ∧
    b.meant.toNat + b.size ≤ start + n

theorem Sent.none (start : Nat) : Sent source start 0 d d :=
  ⟨by simp, [], by simp⟩

theorem Sent.next {start n size : Nat} {d₁ d₂ : Device} {registerAddress meant : BitVec 32}
    (sent : Sent source start n d d₁) (same : d₂.writes = d₁.writes ∧ d₂.bursts = d₁.bursts)
    (some_bytes : 0 < size) (small : size ≤ 512) (window : d₂.back.reg.base = meant &&& sbWinMask)
    (offset : registerAddress.toNat % 2 ^ 15 = meant.toNat % 2 ^ 15)
    (inside : meant.toNat % 2 ^ 15 + size ≤ 2 ^ 15) (goes_on : meant.toNat = start + n) :
    Sent source start (n + size) d (d₂.cardCMD53Write registerAddress meant (fun i => source (n + i)) size) := by
  obtain ⟨written, right⟩ := @cardCMD53Write_inside d₂ (fun i => source (n + i)) registerAddress meant size
    some_bytes small window offset inside
  constructor
  · rw [written, same.1, sent.writes, List.append_assoc, List.range_add, List.map_append, List.map_map, goes_on]
    congr 2
    apply List.map_congr_left
    intro i _
    simp only [Function.comp_apply, Nat.add_assoc]
  · obtain ⟨bursts, before, all⟩ := sent.bursts
    refine ⟨bursts ++ [⟨d₂.back.reg.base, registerAddress.setWidth 17, meant, size⟩], ?_, ?_⟩
    · rw [← List.append_assoc, ← before, ← same.2]
      rfl
    · intro b member
      rcases List.mem_append.mp member with earlier | last
      · obtain ⟨good, low, high⟩ := all b earlier
        exact ⟨good, low, by omega⟩
      · rw [List.mem_singleton.mp last]
        exact ⟨right, by dsimp only; omega, by dsimp only; omega⟩

theorem Sent.firmwareChunk {n len : Nat} {d₁ : Device} (sent : Sent source 0 n d d₁) (coherent : d₁.Coherent)
    (some_bytes : 0 < len) (block : len ≤ 64) (aligned : n % 64 = 0) (word : n < 2 ^ 32) :
    Sent source 0 (n + len) d (d₁.firmwareChunk source n len) ∧ (d₁.firmwareChunk source n len).Coherent := by
  have meant : (BitVec.ofNat 32 n).toNat = n := by
    rw [BitVec.toNat_ofNat]
    omega
  obtain ⟨window, cached⟩ := setBackplaneWindow_base coherent (BitVec.ofNat 32 n)
  have offset : (sb32BitWin + (BitVec.ofNat 32 n &&& sbAddrMask)).toNat % 2 ^ 15 =
      (BitVec.ofNat 32 n).toNat % 2 ^ 15 := by
    rw [BitVec.toNat_add, Backplane.toNat_and_sbAddrMask, meant, show sb32BitWin.toNat = 2 ^ 15 from rfl]
    omega
  exact ⟨sent.next ⟨rfl, rfl⟩ some_bytes (by omega) window offset (by omega) (by omega), cached.trans window.symm⟩

theorem Sent.nvramChunk {nvRAMSize n len : Nat} {d₁ : Device} (sent : Sent source (0x7fffc - nvRAMSize) n d d₁)
    (window : d₁.back.reg.base = 0x78000) (fits : nvRAMSize ≤ 0x7ffc) (some_bytes : 0 < len) (block : len ≤ 64)
    (more : n + len ≤ nvRAMSize) :
    Sent source (0x7fffc - nvRAMSize) (n + len) d (d₁.nvramChunk source nvRAMSize n len) := by
  have size : (BitVec.ofNat 32 nvRAMSize).toNat = nvRAMSize := by
    rw [BitVec.toNat_ofNat]
    omega
  have done : (BitVec.ofNat 32 n).toNat = n := by
    rw [BitVec.toNat_ofNat]
    omega
  have register : (nvramOffset nvRAMSize + BitVec.ofNat 32 n).toNat = 0xfffc - nvRAMSize + n := by
    unfold nvramOffset
    bv_omega
  have meant : (0x70000 + nvramOffset nvRAMSize + BitVec.ofNat 32 n).toNat = 0x7fffc - nvRAMSize + n := by
    unfold nvramOffset
    bv_omega
  have top : d₁.back.reg.base = (0x70000 + nvramOffset nvRAMSize + BitVec.ofNat 32 n) &&& sbWinMask := by
    rw [window, Backplane.and_sbWinMask_top (by omega) (by omega)]
  exact sent.next ⟨rfl, rfl⟩ some_bytes (by omega) top (by omega) (by omega) meant

theorem uploadFirmware_sent (coherent : d.Coherent) {firmwareSize : Nat} (word : firmwareSize < 2 ^ 32) :
    Sent source 0 firmwareSize d (d.uploadFirmware firmwareSize source) := by
  have whole : Sent source 0 firmwareSize d (d.uploadFirmware firmwareSize source) ∧
      (d.uploadFirmware firmwareSize source).Coherent :=
    Chunks.run_induct (by decide) (fun n d₁ => Sent source 0 n d d₁ ∧ d₁.Coherent)
      (fun n d₁ more aligned kept =>
        kept.1.firmwareChunk kept.2 (by omega) (Nat.min_le_left _ _) aligned (by omega))
      d ⟨Sent.none 0, coherent⟩
  exact whole.1

theorem nvramLoop_sent {nvRAMSize : Nat} (fits : nvRAMSize ≤ 0x7ffc) {d₁ : Device}
    (window : d₁.back.reg.base = 0x78000) (start : Sent source (0x7fffc - nvRAMSize) 0 d d₁) :
    let loaded := Chunks.run sdBakBlkBytes nvRAMSize (nvramChunk source nvRAMSize) d₁
    Sent source (0x7fffc - nvRAMSize) nvRAMSize d loaded ∧ loaded.back.reg.base = 0x78000 :=
  Chunks.run_induct (by decide)
    (fun n d₁ => Sent source (0x7fffc - nvRAMSize) n d d₁ ∧ d₁.back.reg.base = 0x78000)
    (fun n d₁ more _ kept => by
      unfold sdBakBlkBytes
      exact ⟨kept.1.nvramChunk kept.2 fits (by omega) (Nat.min_le_left _ _) (by omega), kept.2⟩)
    d₁ ⟨start, window⟩

/-- The loops make the accesses that the model of the window has them make. -/
theorem uploads_back (d : Device) (source : Nat → Byte) (size : Nat) :
    (d.uploadFirmware size source).back = d.back.uploadFirmware size (fun _ => {}) ∧
      (d.uploadNVRAM size source).back = d.back.uploadNVRAM size {} := by
  constructor
  · rw [uploadFirmware, Chunks.run_eq_foldl (by decide)]
    exact (List.foldl_hom Device.back fun _ _ => rfl).symm
  · simp only [uploadNVRAM, cardCMD53Write]
    rw [Chunks.run_eq_foldl (by decide)]
    refine congrArg (fun back => Backplane.cardCMD53 back (0x10000 - 4) (0x80000 - 4)) ?_
    exact (List.foldl_hom Device.back fun _ _ => rfl).symm

theorem foldl_update_range (start n : Nat) (bytes : Nat → Byte) (before : Nat → Byte) (a : Nat) :
    ((List.range n).map fun i => (start + i, bytes i)).foldl
        (fun ram write => Function.update ram write.1 write.2) before a =
      if start ≤ a ∧ a < start + n then bytes (a - start) else before a := by
  induction n with
  | zero => rw [if_neg (by omega)]; rfl
  | succ n ih =>
      rw [List.range_succ, List.map_append, List.foldl_append, List.map_singleton, List.foldl_cons, List.foldl_nil]
      by_cases last : a = start + n
      · rw [last, Function.update_self, if_pos (by omega), Nat.add_sub_cancel_left]
      · rw [Function.update_of_ne last, ih]
        exact if_congr (by omega) rfl rfl

theorem Sent.ram {start n : Nat} {d' : Device} (sent : Sent source start n d d') (before : Nat → Byte) (a : Nat) :
    d'.ram before a = if start ≤ a ∧ a < start + n then source (a - start) else d.ram before a := by
  rw [Device.ram, sent.writes, List.foldl_append, foldl_update_range]
  rfl

theorem nvramToken_eq {nvRAMSize : Nat} (fits : nvRAMSize ≤ 0x7ffc) :
    nvramToken (BitVec.ofNat 32 nvRAMSize) =
      ~~~(BitVec.ofNat 16 (nvRAMSize / 4)) ++ BitVec.ofNat 16 (nvRAMSize / 4) := by
  have quarter : BitVec.ofNat 32 nvRAMSize / 4 = BitVec.ofNat 32 (nvRAMSize / 4) := by
    apply BitVec.eq_of_toNat_eq
    rw [BitVec.toNat_udiv, BitVec.toNat_ofNat, BitVec.toNat_ofNat, show (4 : BitVec 32).toNat = 4 from rfl]
    omega
  have small : nvRAMSize / 4 < 2 ^ 16 := by omega
  unfold nvramToken
  rw [quarter]
  generalize nvRAMSize / 4 = q at small
  have high (i : Nat) (above : 16 ≤ i) : q.testBit i = false :=
    Nat.testBit_lt_two_pow (Nat.lt_of_lt_of_le small (Nat.pow_le_pow_right (by decide) above))
  have mask : ∀ i < 16, (0xffff : BitVec 32).getLsbD i = true := by decide
  apply BitVec.eq_of_getLsbD_eq
  intro i inside
  simp only [BitVec.getLsbD_or, BitVec.getLsbD_shiftLeft, BitVec.getLsbD_and, BitVec.getLsbD_not, BitVec.getLsbD_append,
    BitVec.getLsbD_ofNat]
  by_cases low : i < 16
  · simp [low, inside]
  · have upper : i - 16 < 16 := by omega
    have within : i - 16 < 32 := by omega
    rw [mask _ upper, high i (by omega)]
    simp [low, inside, upper, within]

/-- The image is in the memory from address 0 on, each byte written once and within the right window. -/
structure FirmwarePlaced (source : Nat → Byte) (firmwareSize : Nat) (d d' : Device) : Prop where
  ram : ∀ before a, d'.ram before a = if a < firmwareSize then source a else d.ram before a
  once : d'.writes = d.writes ++ (List.range firmwareSize).map fun a => (a, source a)
  bursts : ∃ bursts, d'.bursts = d.bursts ++ bursts ∧ ∀ b ∈ bursts, b.Right

/-- The image ends where the token begins, which is the last word of the memory. -/
structure NvramPlaced (source : Nat → Byte) (nvRAMSize : Nat) (d d' : Device) : Prop where
  image : ∀ before, ∀ i < nvRAMSize, d'.ram before (0x7fffc - nvRAMSize + i) = source i
  token : ∀ before, ∀ i < 4, d'.ram before (0x7fffc + i) =
    wordBytes (~~~(BitVec.ofNat 16 (nvRAMSize / 4)) ++ BitVec.ofNat 16 (nvRAMSize / 4)) i
  halves : (BitVec.ofNat 16 (nvRAMSize / 4)).toNat = nvRAMSize / 4
  rest : ∀ before a, a < 0x7fffc - nvRAMSize ∨ 0x80000 ≤ a → d'.ram before a = d.ram before a
  once : d'.writes.map Prod.fst = d.writes.map Prod.fst ++ (List.range (nvRAMSize + 4)).map (0x7fffc - nvRAMSize + ·)
  bursts : ∃ chunks last, d'.bursts = d.bursts ++ chunks ++ [last] ∧ last.meant = 0x7fffc ∧ last.size = 4 ∧
    ∀ b ∈ chunks, b.Right ∧ b.window = 0x78000 ∧ 0x78000 ≤ b.meant.toNat ∧ b.meant.toNat + b.size ≤ 0x7fffc

theorem uploadFirmware_placed (coherent : d.Coherent) {firmwareSize : Nat} (word : firmwareSize < 2 ^ 32) :
    FirmwarePlaced source firmwareSize d (d.uploadFirmware firmwareSize source) := by
  have sent : Sent source 0 firmwareSize d (d.uploadFirmware firmwareSize source) := uploadFirmware_sent coherent word
  refine ⟨fun before a => ?_, ?_, ?_⟩
  · rw [sent.ram before a, Nat.zero_add, Nat.sub_zero]
    exact if_congr (by omega) rfl rfl
  · have writes := sent.writes
    simp only [Nat.zero_add] at writes
    exact writes
  · obtain ⟨bursts, all, right⟩ := sent.bursts
    exact ⟨bursts, all, fun b member => (right b member).1⟩

theorem uploadNVRAM_sent (coherent : d.Coherent) {nvRAMSize : Nat} (fits : nvRAMSize ≤ 0x7ffc) :
    ∃ d₁, Sent source (0x7fffc - nvRAMSize) nvRAMSize d d₁ ∧
      (d.uploadNVRAM nvRAMSize source).writes = d₁.writes ++
        (List.range 4).map (fun i => (0x7fffc + i, wordBytes (nvramToken (BitVec.ofNat 32 nvRAMSize)) i)) ∧
      ∃ last, (d.uploadNVRAM nvRAMSize source).bursts = d₁.bursts ++ [last] ∧ last.meant = 0x7fffc ∧
        last.size = 4 := by
  obtain ⟨window, -⟩ := setBackplaneWindow_base coherent 0x078000
  obtain ⟨sent, top⟩ := @nvramLoop_sent d source nvRAMSize fits
    { d with back := d.back.setBackplaneWindow 0x078000 {} } window ⟨by simp, [], by simp⟩
  have meant : (0x80000 : BitVec 32) - 4 = 0x7fffc := by decide
  have address : ((0x80000 : BitVec 32) - 4).toNat = 0x7fffc := by decide
  obtain ⟨token, -⟩ := @cardCMD53Write_inside _ (wordBytes (nvramToken (BitVec.ofNat 32 nvRAMSize))) (0x10000 - 4)
    (0x80000 - 4) 4 (by decide) (by decide) (by rw [top]; decide) (by decide) (by decide)
  rw [address] at token
  exact ⟨_, sent, token, _, rfl, meant, rfl⟩

theorem uploadNVRAM_ram (coherent : d.Coherent) {nvRAMSize : Nat} (fits : nvRAMSize ≤ 0x7ffc) (before : Nat → Byte)
    (a : Nat) :
    (d.uploadNVRAM nvRAMSize source).ram before a =
      if 0x7fffc ≤ a ∧ a < 0x7fffc + 4 then wordBytes (nvramToken (BitVec.ofNat 32 nvRAMSize)) (a - 0x7fffc)
      else if 0x7fffc - nvRAMSize ≤ a ∧ a < 0x7fffc - nvRAMSize + nvRAMSize then source (a - (0x7fffc - nvRAMSize))
      else d.ram before a := by
  obtain ⟨d₁, sent, writes, -⟩ := @uploadNVRAM_sent d source coherent nvRAMSize fits
  rw [Device.ram, writes, List.foldl_append, foldl_update_range, ← sent.ram before a, Device.ram]

theorem uploadNVRAM_placed (coherent : d.Coherent) {nvRAMSize : Nat} (fits : nvRAMSize ≤ 0x7ffc) :
    NvramPlaced source nvRAMSize d (d.uploadNVRAM nvRAMSize source) := by
  have ram := @uploadNVRAM_ram d source coherent nvRAMSize fits
  obtain ⟨d₁, sent, writes, last, bursts, meant, size⟩ := @uploadNVRAM_sent d source coherent nvRAMSize fits
  refine ⟨fun before i inside => ?_, fun before i inside => ?_, ?_, fun before a outside => ?_, ?_, ?_⟩
  · rw [ram, if_neg (by omega), if_pos (by omega), Nat.add_sub_cancel_left]
  · rw [ram, if_pos (by omega), Nat.add_sub_cancel_left, nvramToken_eq fits]
  · rw [BitVec.toNat_ofNat]
    omega
  · rw [ram, if_neg (by omega), if_neg (by omega)]
  · rw [writes, sent.writes, List.map_append, List.map_append, List.map_map, List.map_map, List.append_assoc,
      List.range_add, List.map_append, List.map_map]
    congr 2
    apply List.map_congr_left
    intro i _
    simp only [Function.comp_apply]
    omega
  · obtain ⟨chunks, all, right⟩ := sent.bursts
    refine ⟨chunks, last, by rw [bursts, all], meant, size, fun b member => ?_⟩
    obtain ⟨good, low, high⟩ := right b member
    refine ⟨good, ?_, by omega, by omega⟩
    rw [good.window, Backplane.and_sbWinMask_top (by omega) (by omega)]

/-- Both uploads place every byte, whatever the images are. -/
theorem uploads_place (d : Device) (coherent : d.back.prevAddr = d.back.reg.base) (source : Nat → Byte) :
    (∀ firmwareSize < 2 ^ 32, FirmwarePlaced source firmwareSize d (d.uploadFirmware firmwareSize source)) ∧
      ∀ nvRAMSize ≤ 0x7ffc, 4 ∣ nvRAMSize → NvramPlaced source nvRAMSize d (d.uploadNVRAM nvRAMSize source) :=
  ⟨fun _ word => uploadFirmware_placed coherent word, fun _ fits _ => uploadNVRAM_placed coherent fits⟩

theorem uploads_place_reset :
    FirmwarePlaced (fun _ => 7) 100 ⟨{}, [], []⟩ (uploadFirmware ⟨{}, [], []⟩ 100 fun _ => 7) ∧
      NvramPlaced (fun _ => 7) 8 ⟨{}, [], []⟩ (uploadNVRAM ⟨{}, [], []⟩ 8 fun _ => 7) :=
  have placed := uploads_place ⟨{}, [], []⟩ (by decide) fun _ => 7
  ⟨placed.1 100 (by decide), placed.2 8 (by decide) (by decide)⟩

end Device

end QNEthernet.Drivers.Cyw43
