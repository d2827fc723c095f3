import QNEthernet.Lib.Run

/-! The backplane window of `cyw43_T4_SDIO.cpp`: three bytes of the chip, and the static in
`setBackplaneWindow` that is meant to mirror them. -/

namespace QNEthernet.Drivers.Cyw43

def sb32BitWin : BitVec 32 := 0x8000
def sbAddrMask : BitVec 32 := 0x7fff
def sbWinMask : BitVec 32 := ~~~sbAddrMask
def sdBakBlkBytes : Nat := 64
def bakBaseAddr : BitVec 32 := 0x18000000

/-- The window register, from `BAK_WIN_ADDR_REG` on. -/
structure WindowReg where
  low : BitVec 8 := 0
  mid : BitVec 8 := 0
  high : BitVec 8 := 0
  deriving DecidableEq

def WindowReg.base (r : WindowReg) : BitVec 32 :=
  (r.high ++ r.mid ++ r.low ++ (0 : BitVec 8)) &&& sbWinMask

/-- Which of the three CMD52 writes succeed. -/
structure Acks where
  low : Bool := true
  mid : Bool := true
  high : Bool := true
  deriving DecidableEq

/-- A CMD53 access: its 17-bit register address, the cached and the real window at that time, and the
address that the caller meant. -/
structure Access where
  register : BitVec 17
  cached : BitVec 32
  window : BitVec 32
  meant : BitVec 32
  deriving DecidableEq

structure Backplane where
  prevAddr : BitVec 32 := 0
  reg : WindowReg := {}
  accesses : List Access := []
  deriving DecidableEq

namespace Backplane

def writeWindow (r : WindowReg) (addr : BitVec 32) (acks : Acks) : WindowReg where
  low := if acks.low then (addr >>> 8).setWidth 8 else r.low
  mid := if acks.mid then (addr >>> 16).setWidth 8 else r.mid
  high := if acks.high then (addr >>> 24).setWidth 8 else r.high

def setBackplaneWindow (s : Backplane) (addr : BitVec 32) (acks : Acks) : Backplane :=
  let addr := addr &&& sbWinMask
  if addr ≠ s.prevAddr then { s with reg := writeWindow s.reg addr acks, prevAddr := addr } else s

/-- `cardCMD53` with the backplane function; the argument has room for 17 bits of the address. -/
def cardCMD53 (s : Backplane) (registerAddress meant : BitVec 32) : Backplane :=
  { s with
    accesses := s.accesses ++ [{
      register := registerAddress.setWidth 17, cached := s.prevAddr, window := s.reg.base, meant := meant }] }

def setBackplaneWindowRetOffset (s : Backplane) (addr : BitVec 32) (acks : Acks) : BitVec 32 × Backplane :=
  (addr &&& sbAddrMask, s.setBackplaneWindow addr acks)

/-- `backplaneWindow_read32` and `backplaneWindow_write32`. -/
def backplaneWindow32 (s : Backplane) (addr : BitVec 32) (acks : Acks) : Backplane :=
  (s.setBackplaneWindow addr acks).cardCMD53 (addr ||| sb32BitWin) addr

/-- One pass of the loop of `uploadFirmware`, which loads the image at address 0. -/
def uploadChunk (s : Backplane) (nBytesSent : BitVec 32) (acks : Acks) : Backplane :=
  let (addr, s) := s.setBackplaneWindowRetOffset nBytesSent acks
  s.cardCMD53 (sb32BitWin + addr) nBytesSent

/-- `uploadFirmware`: every pass but the last sends 64 bytes. -/
def uploadFirmware (s : Backplane) (firmwareSize : Nat) (acks : Nat → Acks) : Backplane :=
  (List.range ((firmwareSize + 63) / 64)).foldl
    (fun s k => s.uploadChunk (BitVec.ofNat 32 (64 * k)) (acks k)) s

/-- `uploadNVRAM`. The image and its length fill the end of the RAM, which is at 0x80000. -/
def uploadNVRAM (s : Backplane) (nvRAMSize : Nat) (acks : Acks) : Backplane :=
  let offset := 0x10000 - BitVec.ofNat 32 nvRAMSize - 4
  let s := s.setBackplaneWindow 0x078000 acks
  let s := (List.range ((nvRAMSize + 63) / sdBakBlkBytes)).foldl
    (fun s k => s.cardCMD53 (offset + BitVec.ofNat 32 (sdBakBlkBytes * k))
      (0x70000 + offset + BitVec.ofNat 32 (sdBakBlkBytes * k))) s
  s.cardCMD53 (0x10000 - 4) (0x80000 - 4)

/-- `begin`: the card is restarted, so that its window register has the power-on value. Once it is ready the
chip's identity is read; until then `begin` gives up. -/
def begin (s : Backplane) (powerOn : WindowReg) (ready : Bool) (acks : Acks) : Backplane :=
  let s := { s with reg := powerOn }
  if ready then (s.setBackplaneWindow bakBaseAddr acks).cardCMD53 sb32BitWin bakBaseAddr else s

inductive Op where
  | setBackplaneWindow (addr : BitVec 32) (acks : Acks)
  | backplaneWindow32 (addr : BitVec 32) (acks : Acks)
  | uploadFirmware (firmwareSize : Nat) (acks : Nat → Acks)
  | uploadNVRAM (nvRAMSize : Nat) (acks : Acks)
  | begin (ready : Bool) (acks : Acks)

def step (powerOn : WindowReg) (s : Backplane) : Op → Backplane
  | .setBackplaneWindow addr acks => s.setBackplaneWindow addr acks
  | .backplaneWindow32 addr acks => s.backplaneWindow32 addr acks
  | .uploadFirmware firmwareSize acks => s.uploadFirmware firmwareSize acks
  | .uploadNVRAM nvRAMSize acks => s.uploadNVRAM nvRAMSize acks
  | .begin ready acks => s.begin powerOn ready acks

/-- The access relies on a cache that is right, and reaches the address that was meant. -/
def Access.Right (a : Access) : Prop :=
  a.cached = a.window ∧ a.register = (sb32BitWin ||| a.meant &&& sbAddrMask).setWidth 17 ∧
    a.window + (a.register.setWidth 32 &&& sbAddrMask) = a.meant

instance (a : Access) : Decidable (Access.Right a) := inferInstanceAs (Decidable (_ ∧ _ ∧ _))

/-- Each CMD52 write succeeds, or its byte has the value already; of the low byte the highest bit counts. -/
def Written (r : WindowReg) (window : BitVec 32) (acks : Acks) : Prop :=
  (acks.low = true ∨ r.low.msb = window.getLsbD 15) ∧
    (acks.mid = true ∨ r.mid = (window >>> 16).setWidth 8) ∧
    (acks.high = true ∨ r.high = (window >>> 24).setWidth 8)

instance (r : WindowReg) (window : BitVec 32) (acks : Acks) : Decidable (Written r window acks) :=
  inferInstanceAs (Decidable (_ ∧ _ ∧ _))

/-- The window of an address is cached and the register still has it, or it is not and is written. -/
def Reaches (s : Backplane) (addr : BitVec 32) (acks : Acks) : Prop :=
  if addr &&& sbWinMask = s.prevAddr then s.reg.base = s.prevAddr
  else Written s.reg (addr &&& sbWinMask) acks

instance (s : Backplane) (addr : BitVec 32) (acks : Acks) : Decidable (s.Reaches addr acks) :=
  inferInstanceAs (Decidable (if addr &&& sbWinMask = s.prevAddr then s.reg.base = s.prevAddr
    else Written s.reg (addr &&& sbWinMask) acks))

/-- Every access finds the register at its window; an address has no bit 16, and an image fits into the
window. Setting the window is not an access. -/
def Safe (powerOn : WindowReg) (s : Backplane) : Op → Prop
  | .setBackplaneWindow _ _ => True
  | .backplaneWindow32 addr acks => s.Reaches addr acks ∧ addr.getLsbD 16 = false
  | .uploadFirmware firmwareSize acks =>
      Run.Allowed (fun s k => s.Reaches (BitVec.ofNat 32 (64 * k)) (acks k))
        (fun s k => s.uploadChunk (BitVec.ofNat 32 (64 * k)) (acks k)) s (List.range ((firmwareSize + 63) / 64))
  | .uploadNVRAM nvRAMSize acks => s.Reaches 0x078000 acks ∧ nvRAMSize ≤ 0x7ffc
  | .begin ready acks => ready = true → Reaches { s with reg := powerOn } bakBaseAddr acks

instance (powerOn : WindowReg) (s : Backplane) : (op : Op) → Decidable (s.Safe powerOn op)
  | .setBackplaneWindow _ _ => .isTrue trivial
  | .backplaneWindow32 addr acks => inferInstanceAs (Decidable (s.Reaches addr acks ∧ addr.getLsbD 16 = false))
  | .uploadFirmware firmwareSize acks => Run.Allowed.decidable
      (fun s k => Reaches s (BitVec.ofNat 32 (64 * k)) (acks k)) _ s (List.range ((firmwareSize + 63) / 64))
  | .uploadNVRAM nvRAMSize acks => inferInstanceAs (Decidable (s.Reaches 0x078000 acks ∧ nvRAMSize ≤ 0x7ffc))
  | .begin ready acks =>
      inferInstanceAs (Decidable (ready = true → Reaches { s with reg := powerOn } bakBaseAddr acks))

def AllRight (s : Backplane) : Prop := ∀ a ∈ s.accesses, Access.Right a

theorem toNat_and_sbAddrMask (x : BitVec 32) : (x &&& sbAddrMask).toNat = x.toNat % 2 ^ 15 := by
  rw [BitVec.toNat_and]
  exact Nat.and_two_pow_sub_one_eq_mod x.toNat 15

theorem and_sbWinMask_add (x : BitVec 32) : (x &&& sbWinMask) + (x &&& sbAddrMask) = x := by
  rw [BitVec.add_eq_or_of_and_eq_zero, sbWinMask, ← BitVec.and_or_distrib_left]
  · rw [BitVec.or_comm, BitVec.or_not_self, BitVec.and_allOnes]
  · rw [BitVec.and_assoc, BitVec.and_comm sbWinMask, BitVec.and_assoc, sbWinMask, BitVec.and_not_self]
    simp

theorem getLsbD_sbWinMask {i : Nat} (inside : i < 32) : sbWinMask.getLsbD i = decide (15 ≤ i) := by
  have all : ∀ i < 32, sbWinMask.getLsbD i = decide (15 ≤ i) := by decide
  exact all i inside

theorem getLsbD_base (r : WindowReg) {i : Nat} (inside : i < 32) :
    r.base.getLsbD i = (decide (15 ≤ i) &&
      if i < 16 then r.low.getLsbD (i - 8) else if i < 24 then r.mid.getLsbD (i - 16) else r.high.getLsbD (i - 24)) := by
  simp only [WindowReg.base, BitVec.getLsbD_and, getLsbD_sbWinMask inside, BitVec.getLsbD_append]
  rw [Bool.and_comm]
  by_cases flag : 15 ≤ i
  · have low : ¬ i < 8 := by omega
    have first : i - 8 < 8 ↔ i < 16 := by omega
    have second : i - 16 < 8 ↔ i < 24 := by omega
    simp only [flag, low, decide_true, Bool.true_and, if_false, Nat.sub_sub, Nat.reduceAdd, first, second]
  · simp only [flag, decide_false, Bool.false_and]

theorem base_eq_iff (r : WindowReg) (addr : BitVec 32) :
    r.base = addr &&& sbWinMask ↔ r.low.msb = (addr &&& sbWinMask).getLsbD 15 ∧
      r.mid = ((addr &&& sbWinMask) >>> 16).setWidth 8 ∧ r.high = ((addr &&& sbWinMask) >>> 24).setWidth 8 := by
  constructor
  · intro same
    rw [← same]
    refine ⟨?_, ?_, ?_⟩
    · rw [getLsbD_base r (by decide)]
      rfl
    · apply BitVec.eq_of_getLsbD_eq
      intro i inside
      have first : ¬ 16 + i < 16 := by omega
      have second : 16 + i < 24 := by omega
      have flag : 15 ≤ 16 + i := by omega
      simp only [BitVec.getLsbD_setWidth, BitVec.getLsbD_ushiftRight, getLsbD_base r (show 16 + i < 32 by omega)]
      simp only [inside, first, second, flag, decide_true, Bool.true_and, if_true, if_false, Nat.add_sub_cancel_left]
    · apply BitVec.eq_of_getLsbD_eq
      intro i inside
      have first : ¬ 24 + i < 16 := by omega
      have second : ¬ 24 + i < 24 := by omega
      have flag : 15 ≤ 24 + i := by omega
      simp only [BitVec.getLsbD_setWidth, BitVec.getLsbD_ushiftRight, getLsbD_base r (show 24 + i < 32 by omega)]
      simp only [inside, first, second, flag, decide_true, Bool.true_and, if_false, Nat.add_sub_cancel_left]
  · rintro ⟨low, mid, high⟩
    apply BitVec.eq_of_getLsbD_eq
    intro i inside
    rw [getLsbD_base r inside]
    by_cases below : i < 15
    · rw [decide_eq_false (by omega), Bool.false_and, BitVec.getLsbD_and, getLsbD_sbWinMask inside,
        decide_eq_false (by omega), Bool.and_false]
    · rw [decide_eq_true (by omega), Bool.true_and]
      split
      · have last : i = 15 := by omega
        rw [last, ← low]
        rfl
      · split
        · rw [mid, BitVec.getLsbD_setWidth, BitVec.getLsbD_ushiftRight, decide_eq_true (by omega), Bool.true_and,
            show 16 + (i - 16) = i by omega]
        · rw [high, BitVec.getLsbD_setWidth, BitVec.getLsbD_ushiftRight, decide_eq_true (by omega), Bool.true_and,
            show 24 + (i - 24) = i by omega]

theorem base_writeWindow_iff (r : WindowReg) (addr : BitVec 32) (acks : Acks) :
    (writeWindow r (addr &&& sbWinMask) acks).base = addr &&& sbWinMask ↔ Written r (addr &&& sbWinMask) acks := by
  rw [base_eq_iff, writeWindow, Written]
  refine and_congr ?_ (and_congr ?_ ?_)
  · cases acks.low
    · simp
    · simp [BitVec.msb_eq_getLsbD_last]
  · cases acks.mid <;> simp
  · cases acks.high <;> simp

theorem base_writeWindow (r : WindowReg) (addr : BitVec 32) :
    (writeWindow r (addr &&& sbWinMask) {}).base = addr &&& sbWinMask :=
  (base_writeWindow_iff r addr {}).mpr ⟨.inl rfl, .inl rfl, .inl rfl⟩

theorem and_masks (x : BitVec 32) : x &&& sbWinMask &&& sbAddrMask = 0 := by
  rw [BitVec.and_assoc, BitVec.and_comm sbWinMask, sbWinMask, BitVec.and_not_self]
  simp

theorem aligned_and_sbWinMask (x : BitVec 32) : (x &&& sbWinMask).toNat % 2 ^ 15 = 0 := by
  rw [← toNat_and_sbAddrMask, and_masks]
  rfl

theorem toNat_and_sbWinMask (x : BitVec 32) : (x &&& sbWinMask).toNat + x.toNat % 2 ^ 15 = x.toNat := by
  have parts := congrArg BitVec.toNat (and_sbWinMask_add x)
  have aligned := aligned_and_sbWinMask x
  rw [BitVec.toNat_add, toNat_and_sbAddrMask] at parts
  omega

theorem and_sbWinMask_top {x : BitVec 32} (low : 0x78000 ≤ x.toNat) (high : x.toNat < 0x80000) :
    x &&& sbWinMask = 0x78000 := by
  have parts := toNat_and_sbWinMask x
  apply BitVec.eq_of_toNat_eq
  rw [show (0x78000 : BitVec 32).toNat = 0x78000 from rfl]
  omega

theorem or_offset {offset : BitVec 32} (inside : offset.toNat < 2 ^ 15) :
    sb32BitWin ||| offset = sb32BitWin + offset := by
  apply BitVec.eq_of_toNat_eq
  have joined := Nat.two_pow_add_eq_or_of_lt inside 1
  rw [BitVec.toNat_or, BitVec.toNat_add, Nat.mod_eq_of_lt]
  · exact joined.symm
  · exact Nat.lt_trans (Nat.add_lt_add_left inside _) (by decide)

theorem offset_inside (addr : BitVec 32) : (addr &&& sbAddrMask).toNat < 2 ^ 15 := by
  rw [toNat_and_sbAddrMask]
  exact Nat.mod_lt _ (by decide)

theorem register_eq_iff (addr : BitVec 32) :
    (addr ||| sb32BitWin).setWidth 17 = (sb32BitWin ||| addr &&& sbAddrMask).setWidth 17 ↔
      addr.getLsbD 16 = false := by
  have mask : ∀ i < 17, sbAddrMask.getLsbD i = decide (i < 15) := by decide
  have flag : ∀ i < 17, sb32BitWin.getLsbD i = decide (i = 15) := by decide
  constructor
  · intro same
    have last : ((addr ||| sb32BitWin).setWidth 17).getLsbD 16 =
        ((sb32BitWin ||| addr &&& sbAddrMask).setWidth 17).getLsbD 16 := by rw [same]
    simp only [BitVec.getLsbD_setWidth, BitVec.getLsbD_or, BitVec.getLsbD_and, mask 16 (by decide),
      flag 16 (by decide)] at last
    simpa using last
  · intro clear
    apply BitVec.eq_of_getLsbD_eq
    intro i inside
    simp only [BitVec.getLsbD_setWidth, BitVec.getLsbD_or, BitVec.getLsbD_and, mask i inside, flag i inside]
    by_cases low : i < 15
    · simp [low, Bool.or_comm]
    · by_cases bit : i = 15
      · simp [bit]
      · have last : i = 16 := by omega
        rw [last, clear]
        rfl

theorem right_iff (registerAddress base addr : BitVec 32) :
    Access.Right ⟨registerAddress.setWidth 17, addr &&& sbWinMask, base, addr⟩ ↔
      base = addr &&& sbWinMask ∧ registerAddress.setWidth 17 = (sb32BitWin ||| addr &&& sbAddrMask).setWidth 17 := by
  constructor
  · rintro ⟨cached, register, -⟩
    exact ⟨cached.symm, register⟩
  · rintro ⟨rfl, register⟩
    refine ⟨rfl, register, ?_⟩
    dsimp only
    have offset : (registerAddress.setWidth 17).setWidth 32 &&& sbAddrMask = addr &&& sbAddrMask := by
      rw [register, or_offset (offset_inside addr)]
      apply BitVec.eq_of_toNat_eq
      rw [toNat_and_sbAddrMask]
      have inside := offset_inside addr
      simp only [BitVec.toNat_setWidth, BitVec.toNat_add, show sb32BitWin.toNat = 2 ^ 15 from rfl]
      omega
    rw [offset]
    exact and_sbWinMask_add addr

variable {powerOn : WindowReg} {s : Backplane}

theorem prevAddr_setBackplaneWindow (s : Backplane) (addr : BitVec 32) (acks : Acks) :
    (s.setBackplaneWindow addr acks).prevAddr = addr &&& sbWinMask := by
  simp only [Backplane.setBackplaneWindow]
  split
  · rfl
  · next same => exact (not_not.mp same).symm

theorem accesses_setBackplaneWindow (s : Backplane) (addr : BitVec 32) (acks : Acks) :
    (s.setBackplaneWindow addr acks).accesses = s.accesses := by
  simp only [Backplane.setBackplaneWindow]
  split <;> rfl

theorem base_setBackplaneWindow_iff (s : Backplane) (addr : BitVec 32) (acks : Acks) :
    (s.setBackplaneWindow addr acks).reg.base = addr &&& sbWinMask ↔ s.Reaches addr acks := by
  by_cases same : addr &&& sbWinMask = s.prevAddr
  · rw [Backplane.setBackplaneWindow, Reaches, if_pos same, if_neg (not_not.mpr same), same]
  · rw [Backplane.setBackplaneWindow, Reaches, if_neg same, if_pos same]
    exact base_writeWindow_iff s.reg addr acks

theorem allRight_cardCMD53 (s : Backplane) (registerAddress meant : BitVec 32) :
    (s.cardCMD53 registerAddress meant).AllRight ↔
      s.AllRight ∧ Access.Right ⟨registerAddress.setWidth 17, s.prevAddr, s.reg.base, meant⟩ := by
  simp only [AllRight, cardCMD53, List.forall_mem_append, List.forall_mem_singleton]

theorem reach_iff (s : Backplane) (addr registerAddress : BitVec 32) (acks : Acks) :
    ((s.setBackplaneWindow addr acks).cardCMD53 registerAddress addr).AllRight ↔
      s.AllRight ∧ s.Reaches addr acks ∧
        registerAddress.setWidth 17 = (sb32BitWin ||| addr &&& sbAddrMask).setWidth 17 := by
  rw [allRight_cardCMD53, prevAddr_setBackplaneWindow, right_iff, base_setBackplaneWindow_iff, AllRight,
    accesses_setBackplaneWindow, AllRight]

theorem uploadChunk_iff (s : Backplane) (nBytesSent : BitVec 32) (acks : Acks) :
    (s.uploadChunk nBytesSent acks).AllRight ↔ s.AllRight ∧ s.Reaches nBytesSent acks := by
  have flagged : (sb32BitWin + (nBytesSent &&& sbAddrMask)).setWidth 17 =
      (sb32BitWin ||| nBytesSent &&& sbAddrMask).setWidth 17 := by
    rw [or_offset (offset_inside nBytesSent)]
  have reached := reach_iff s nBytesSent (sb32BitWin + (nBytesSent &&& sbAddrMask)) acks
  rwa [and_iff_left flagged] at reached

theorem foldl_cardCMD53_iff (register meant : Nat → BitVec 32) (ks : List Nat) (s : Backplane) :
    ((ks.foldl (fun s k => s.cardCMD53 (register k) (meant k)) s).AllRight ↔
        s.AllRight ∧ ∀ k ∈ ks, Access.Right ⟨(register k).setWidth 17, s.prevAddr, s.reg.base, meant k⟩) ∧
      (ks.foldl (fun s k => s.cardCMD53 (register k) (meant k)) s).prevAddr = s.prevAddr ∧
      (ks.foldl (fun s k => s.cardCMD53 (register k) (meant k)) s).reg = s.reg := by
  induction ks generalizing s with
  | nil => simp
  | cons k ks ih =>
      obtain ⟨right, cached, reg⟩ := ih (s.cardCMD53 (register k) (meant k))
      refine ⟨?_, cached, reg⟩
      rw [List.foldl_cons, right, allRight_cardCMD53, List.forall_mem_cons, and_assoc]
      rfl

theorem right_top_iff (r : BitVec 32) :
    Access.Right ⟨r.setWidth 17, 0x78000, 0x78000, 0x70000 + r⟩ ↔ 0x8000 ≤ r.toNat ∧ r.toNat < 0x10000 := by
  constructor
  · rintro ⟨-, -, reached⟩
    have sum := congrArg BitVec.toNat reached
    dsimp only at sum
    rw [BitVec.toNat_add, toNat_and_sbAddrMask, BitVec.toNat_setWidth, BitVec.toNat_setWidth, BitVec.toNat_add] at sum
    simp only [show (0x78000 : BitVec 32).toNat = 0x78000 from rfl,
      show (0x70000 : BitVec 32).toNat = 0x70000 from rfl] at sum
    omega
  · rintro ⟨low, high⟩
    have meant : ((0x70000 : BitVec 32) + r).toNat = 0x70000 + r.toNat := by bv_omega
    have window : (0x70000 + r) &&& sbWinMask = 0x78000 := and_sbWinMask_top (by omega) (by omega)
    have right := right_iff r 0x78000 (0x70000 + r)
    rw [window, and_iff_right rfl] at right
    rw [right, or_offset (offset_inside _)]
    apply BitVec.eq_of_toNat_eq
    rw [BitVec.toNat_setWidth, BitVec.toNat_setWidth, BitVec.toNat_add, toNat_and_sbAddrMask, meant,
      show sb32BitWin.toNat = 2 ^ 15 from rfl]
    omega

theorem toNat_nvramPass (nvRAMSize k : Nat) :
    (0x10000 - BitVec.ofNat 32 nvRAMSize - 4 + BitVec.ofNat 32 (sdBakBlkBytes * k)).toNat =
      (2 ^ 32 + 0xfffc - nvRAMSize % 2 ^ 32 + 64 * k) % 2 ^ 32 := by
  have start : (0x10000 - BitVec.ofNat 32 nvRAMSize - 4 : BitVec 32) = 0xfffc - BitVec.ofNat 32 nvRAMSize := by bv_omega
  rw [start, BitVec.toNat_add, BitVec.toNat_sub, BitVec.toNat_ofNat, BitVec.toNat_ofNat, sdBakBlkBytes,
    show (0xfffc : BitVec 32).toNat = 0xfffc from rfl]
  omega

theorem nvramPasses_inside (nvRAMSize : Nat) :
    (∀ k ∈ List.range ((nvRAMSize + 63) / sdBakBlkBytes),
        Access.Right ⟨(0x10000 - BitVec.ofNat 32 nvRAMSize - 4 + BitVec.ofNat 32 (sdBakBlkBytes * k)).setWidth 17,
          0x78000, 0x78000, 0x70000 + (0x10000 - BitVec.ofNat 32 nvRAMSize - 4) +
            BitVec.ofNat 32 (sdBakBlkBytes * k)⟩) ↔ nvRAMSize ≤ 0x7ffc := by
  have inside (k : Nat) := right_top_iff (0x10000 - BitVec.ofNat 32 nvRAMSize - 4 + BitVec.ofNat 32 (sdBakBlkBytes * k))
  simp only [← BitVec.add_assoc, toNat_nvramPass] at inside
  simp only [inside, List.mem_range]
  unfold sdBakBlkBytes
  constructor
  · intro all
    by_contra large
    have first := all 0 (by omega)
    by_cases image : nvRAMSize < 0x10000
    · omega
    · -- 512 passes go on by the size of the window, so that the first and the last cannot both be in it
      have later := all 512 (by omega)
      generalize 2 ^ 32 + 0xfffc - nvRAMSize % 2 ^ 32 = start at first later
      omega
  · intro fits k pass
    omega

theorem uploadNVRAM_iff (s : Backplane) (nvRAMSize : Nat) (acks : Acks) :
    (s.uploadNVRAM nvRAMSize acks).AllRight ↔ s.AllRight ∧ s.Reaches 0x078000 acks ∧ nvRAMSize ≤ 0x7ffc := by
  have cached : (s.setBackplaneWindow 0x078000 acks).prevAddr = 0x78000 := prevAddr_setBackplaneWindow s _ acks
  have reaches := base_setBackplaneWindow_iff s 0x078000 acks
  rw [show (0x078000 : BitVec 32) &&& sbWinMask = 0x78000 from rfl] at reaches
  obtain ⟨passes, samePrev, sameReg⟩ := foldl_cardCMD53_iff
    (fun k => 0x10000 - BitVec.ofNat 32 nvRAMSize - 4 + BitVec.ofNat 32 (sdBakBlkBytes * k))
    (fun k => 0x70000 + (0x10000 - BitVec.ofNat 32 nvRAMSize - 4) + BitVec.ofNat 32 (sdBakBlkBytes * k))
    (List.range ((nvRAMSize + 63) / sdBakBlkBytes)) (s.setBackplaneWindow 0x078000 acks)
  have token := right_iff (0x10000 - 4) (s.setBackplaneWindow 0x078000 acks).reg.base (0x80000 - 4)
  rw [show ((0x80000 : BitVec 32) - 4) &&& sbWinMask = 0x78000 from rfl, and_iff_left (by decide), reaches] at token
  rw [uploadNVRAM, allRight_cardCMD53, passes, samePrev, sameReg, cached, token, AllRight,
    accesses_setBackplaneWindow, and_assoc, ← AllRight]
  refine and_congr_right fun _ => ?_
  rw [and_comm]
  refine and_congr_right fun reached => ?_
  rw [reaches.mpr reached]
  exact nvramPasses_inside nvRAMSize

/-- A call keeps the accesses right exactly if it is safe. -/
theorem step_iff (powerOn : WindowReg) (s : Backplane) (op : Op) :
    (s.step powerOn op).AllRight ↔ s.AllRight ∧ s.Safe powerOn op := by
  cases op with
  | setBackplaneWindow addr acks =>
      rw [step, AllRight, accesses_setBackplaneWindow]
      exact (and_iff_left trivial).symm
  | backplaneWindow32 addr acks =>
      rw [step, backplaneWindow32, reach_iff, register_eq_iff]
      rfl
  | uploadFirmware firmwareSize acks =>
      exact Run.foldl_iff_allowed AllRight (fun s k => s.Reaches (BitVec.ofNat 32 (64 * k)) (acks k)) _
        (fun s k => s.uploadChunk_iff (BitVec.ofNat 32 (64 * k)) (acks k)) _ s
  | uploadNVRAM nvRAMSize acks => exact s.uploadNVRAM_iff nvRAMSize acks
  | begin ready acks =>
      cases ready with
      | false => simp [step, begin, AllRight, Safe]
      | true =>
          have flagged : sb32BitWin.setWidth 17 = (sb32BitWin ||| bakBaseAddr &&& sbAddrMask).setWidth 17 := by decide
          have reached := reach_iff { s with reg := powerOn } bakBaseAddr sb32BitWin acks
          rw [and_iff_left flagged] at reached
          rw [step, begin, if_pos rfl, reached, Safe, imp_iff_right rfl]
          rfl

/-- Every access of a run reaches the address that was meant exactly if the calls are safe where they are made. -/
theorem accesses_right (powerOn : WindowReg) (s : Backplane) (fresh : s.accesses = []) (run : List Op) :
    (∀ a ∈ (run.foldl (step powerOn) s).accesses,
      a.cached = a.window ∧ a.register = (sb32BitWin ||| a.meant &&& sbAddrMask).setWidth 17 ∧
        a.window + (a.register.setWidth 32 &&& sbAddrMask) = a.meant) ↔
      Run.Allowed (Safe powerOn) (step powerOn) s run := by
  have start : s.AllRight := by
    intro a performed
    rw [fresh] at performed
    cases performed
  have whole := Run.foldl_iff_allowed AllRight (Safe powerOn) (step powerOn) (step_iff powerOn) run s
  rwa [and_iff_right start] at whole

/-- The card is started, its firmware loaded, and a register of the backplane read; then the card is started
again with another window in the cache. -/
def setup : List Op :=
  [.begin true {}, .uploadFirmware 100 (fun _ => {}), .uploadNVRAM 70 {}, .begin true {}, .backplaneWindow32 0x18002020 {}]

theorem accesses_right_setup :
    (setup.foldl (step {}) {}).accesses.length = 8 ∧
      ∀ a ∈ (setup.foldl (step {}) {}).accesses,
        a.cached = a.window ∧ a.register = (sb32BitWin ||| a.meant &&& sbAddrMask).setWidth 17 ∧
          a.window + (a.register.setWidth 32 &&& sbAddrMask) = a.meant :=
  ⟨by decide, (accesses_right {} {} rfl setup).mpr (by decide)⟩

/-- An address with bit 16, a window byte that was not written, and a card that is started twice. -/
theorem accesses_go_astray :
    (¬ ∀ a ∈ ([Op.backplaneWindow32 0x10000 {}].foldl (step {}) {}).accesses, Access.Right a) ∧
    (¬ ∀ a ∈ ([Op.setBackplaneWindow 0x18000000 { high := false }, .backplaneWindow32 0x18000000 {}].foldl
      (step {}) {}).accesses, Access.Right a) ∧
    ¬ ∀ a ∈ ([Op.begin true {}, .begin true {}, .backplaneWindow32 0x18000000 {}].foldl
      (step {}) {}).accesses, Access.Right a := by
  decide

end Backplane
end QNEthernet.Drivers.Cyw43
