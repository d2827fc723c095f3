import Mathlib.Tactic
import QNEthernet.Lib.Run
import QNEthernet.Lib.StickyFilter

/-! The Teensy 4.1 driver's MAC address filter: the ENET hash registers and their collision masks. -/

namespace QNEthernet.Drivers.Teensy41

abbrev Mac := Vector UInt8 6

structure HashFilter where
  galr : UInt32 := 0
  gaur : UInt32 := 0
  ialr : UInt32 := 0
  iaur : UInt32 := 0
  collisionGALR : UInt32 := 0
  collisionGAUR : UInt32 := 0
  collisionIALR : UInt32 := 0
  collisionIAUR : UInt32 := 0
  deriving DecidableEq

structure Location where
  group : Bool
  upper : Bool
  deriving DecidableEq

/-- The loop body over the eight bits of a byte. -/
def crc32Bit (crc : UInt32) : UInt32 := (crc >>> 1) ^^^ (-(crc &&& 0x01) &&& 0xEDB88320)

def crc32Byte (crc : UInt32) (data : UInt8) : UInt32 :=
  Nat.iterate crc32Bit 8 (crc ^^^ data.toUInt32)

def crc32 (data : List UInt8) : UInt32 := data.foldl crc32Byte (~~~0)

def hash (mac : Mac) : UInt32 := (crc32 mac.toList >>> 26) &&& 0x3f

def hashValue (mac : Mac) : UInt32 := 1 <<< (hash mac &&& 0x1f)

def isGroup (mac : Mac) : Bool := (mac[0] &&& 0x01) != 0

def location (mac : Mac) : Location :=
  { group := isGroup mac, upper := !decide (hash mac < 0x20) }

namespace HashFilter

def reg (f : HashFilter) : Location → UInt32
  | ⟨true, false⟩ => f.galr
  | ⟨false, false⟩ => f.ialr
  | ⟨true, true⟩ => f.gaur
  | ⟨false, true⟩ => f.iaur

def setReg (f : HashFilter) (value : UInt32) : Location → HashFilter
  | ⟨true, false⟩ => { f with galr := value }
  | ⟨false, false⟩ => { f with ialr := value }
  | ⟨true, true⟩ => { f with gaur := value }
  | ⟨false, true⟩ => { f with iaur := value }

def collision (f : HashFilter) : Location → UInt32
  | ⟨true, false⟩ => f.collisionGALR
  | ⟨false, false⟩ => f.collisionIALR
  | ⟨true, true⟩ => f.collisionGAUR
  | ⟨false, true⟩ => f.collisionIAUR

def setCollision (f : HashFilter) (value : UInt32) : Location → HashFilter
  | ⟨true, false⟩ => { f with collisionGALR := value }
  | ⟨false, false⟩ => { f with collisionIALR := value }
  | ⟨true, true⟩ => { f with collisionGAUR := value }
  | ⟨false, true⟩ => { f with collisionIAUR := value }

def setIncomingMacAddressAllowed (f : HashFilter) (mac : Option Mac) (allow : Bool) :
    Bool × HashFilter :=
  match mac with
  | none => (false, f)
  | some mac =>
      let value := hashValue mac
      let loc := location mac
      if allow then
        if f.reg loc &&& value != 0 then
          (true, f.setCollision (f.collision loc ||| value) loc)
        else (true, f.setReg (f.reg loc ||| value) loc)
      else
        -- Keep collided bits set
        let f := f.setReg (f.reg loc &&& (~~~value ||| f.collision loc)) loc
        (f.collision loc &&& value == 0, f)

/-- Without stopping the hardware, only the bookkeeping is cleared. -/
def deinit (f : HashFilter) : HashFilter :=
  { f with collisionGALR := 0, collisionGAUR := 0, collisionIALR := 0, collisionIAUR := 0 }

end HashFilter

/-- An IPv4 address as its four octets, in network order. -/
abbrev Ip4Addr := Vector UInt8 4

def multicastMac (group : Ip4Addr) : Mac := #v[0x01, 0x00, 0x5e, group[1] &&& 0x7f, group[2], group[3]]

namespace HashFilter

def joinNotleaveGroup (f : HashFilter) (group : Option Ip4Addr) (flag : Bool) : Bool × HashFilter :=
  match group with
  | none => (false, f)
  | some group => f.setIncomingMacAddressAllowed (some (multicastMac group)) flag

def joinGroup (f : HashFilter) (group : Option Ip4Addr) : Bool × HashFilter :=
  f.joinNotleaveGroup group true

def leaveGroup (f : HashFilter) (group : Option Ip4Addr) : Bool × HashFilter :=
  f.joinNotleaveGroup group false

end HashFilter

structure Slot where
  location : Location
  bit : Fin 32
  deriving DecidableEq

def slot (mac : Mac) : Slot where
  location := location mac
  bit := ⟨(hash mac &&& 0x1f).toNat, by
    have le : (hash mac &&& 0x1f).toNat ≤ 0x1f := by
      rw [UInt32.toNat_and]
      exact Nat.and_le_right
    omega⟩

def bitAt (value : UInt32) (i : Fin 32) : Bool := value.toBitVec.getLsbD i

@[simp] theorem bitAt_and (a b : UInt32) (i : Fin 32) : bitAt (a &&& b) i = (bitAt a i && bitAt b i) := by
  simp only [bitAt, UInt32.toBitVec_and, BitVec.getLsbD_and]

@[simp] theorem bitAt_or (a b : UInt32) (i : Fin 32) : bitAt (a ||| b) i = (bitAt a i || bitAt b i) := by
  simp only [bitAt, UInt32.toBitVec_or, BitVec.getLsbD_or]

@[simp] theorem bitAt_not (a : UInt32) (i : Fin 32) : bitAt (~~~a) i = !bitAt a i := by
  simp only [bitAt, UInt32.toBitVec_not, BitVec.getLsbD_not, i.isLt, decide_true, Bool.true_and]

@[simp] theorem bitAt_zero (i : Fin 32) : bitAt 0 i = false := by
  simp [bitAt]

theorem eq_zero_iff_bitAt (a : UInt32) : a = 0 ↔ ∀ i, bitAt a i = false := by
  constructor
  · intro equal i
    subst equal
    exact bitAt_zero i
  · intro off
    rw [← UInt32.toBitVec_inj]
    apply BitVec.eq_of_getLsbD_eq
    intro i bound
    simpa [bitAt] using off ⟨i, bound⟩

theorem bitAt_one_shiftLeft (k : UInt32) (small : k.toNat < 32) (i : Fin 32) :
    bitAt ((1 : UInt32) <<< k) i = decide (i.val = k.toNat) := by
  have amount : k.toNat % 32 = k.toNat := Nat.mod_eq_of_lt small
  have shifted : ((1 : UInt32) <<< k).toBitVec = 1#32 <<< k.toNat := by
    simp [UInt32.toBitVec_shiftLeft, amount]
  have bound := i.isLt
  rw [bitAt, shifted, BitVec.getLsbD_shiftLeft, Bool.eq_iff_iff]
  simp
  omega

@[simp] theorem bitAt_hashValue (mac : Mac) (i : Fin 32) :
    bitAt (hashValue mac) i = decide (i = (slot mac).bit) := by
  rw [hashValue, bitAt_one_shiftLeft _ (slot mac).bit.isLt]
  simp [slot, Fin.ext_iff]

theorem and_hashValue_eq_zero (mac : Mac) (value : UInt32) :
    (value &&& hashValue mac == 0) = !bitAt value (slot mac).bit := by
  rw [Bool.eq_iff_iff, beq_iff_eq, eq_zero_iff_bitAt, Bool.not_eq_true']
  constructor
  · intro off
    simpa using off (slot mac).bit
  · intro off i
    by_cases same : i = (slot mac).bit <;> simp [same, off]

namespace HashFilter

variable {f : HashFilter}

/-- What the registers and the masks say about each bit. -/
def view (f : HashFilter) : StickyFilter Slot where
  set s := bitAt (f.reg s.location) s.bit
  kept s := bitAt (f.collision s.location) s.bit

theorem reg_setReg (value : UInt32) (loc other : Location) :
    (f.setReg value loc).reg other = if other = loc then value else f.reg other := by
  rcases loc with ⟨_ | _, _ | _⟩ <;> rcases other with ⟨_ | _, _ | _⟩ <;> rfl

theorem collision_setCollision (value : UInt32) (loc other : Location) :
    (f.setCollision value loc).collision other = if other = loc then value else f.collision other := by
  rcases loc with ⟨_ | _, _ | _⟩ <;> rcases other with ⟨_ | _, _ | _⟩ <;> rfl

@[simp] theorem collision_setReg (value : UInt32) (loc : Location) :
    (f.setReg value loc).collision = f.collision := by
  rcases loc with ⟨_ | _, _ | _⟩ <;> rfl

@[simp] theorem reg_setCollision (value : UInt32) (loc : Location) :
    (f.setCollision value loc).reg = f.reg := by
  rcases loc with ⟨_ | _, _ | _⟩ <;> rfl

theorem slot_eq_iff (s : Slot) (mac : Mac) :
    s = slot mac ↔ s.location = location mac ∧ s.bit = (slot mac).bit := by
  constructor
  · intro equal
    subst equal
    exact ⟨rfl, rfl⟩
  · intro same
    cases s
    simp_all [slot]

theorem view_setReg_set (value : UInt32) (mac : Mac) (s : Slot) :
    (f.setReg value (location mac)).view.set s =
      if s.location = location mac then bitAt value s.bit else f.view.set s := by
  simp only [view, reg_setReg, apply_ite (bitAt · s.bit)]

theorem view_setCollision_kept (value : UInt32) (mac : Mac) (s : Slot) :
    (f.setCollision value (location mac)).view.kept s =
      if s.location = location mac then bitAt value s.bit else f.view.kept s := by
  simp only [view, collision_setCollision, apply_ite (bitAt · s.bit)]

theorem view_allow (mac : Mac) :
    (f.setIncomingMacAddressAllowed (some mac) true).2.view = f.view.allow (slot mac) := by
  have taken : (f.reg (location mac) &&& hashValue mac != 0) = f.view.set (slot mac) := by
    rw [bne, and_hashValue_eq_zero, Bool.not_not]
    rfl
  simp only [setIncomingMacAddressAllowed, if_true, taken]
  cases set : f.view.set (slot mac)
  · ext s
    · rw [StickyFilter.allow_set, if_neg Bool.false_ne_true, view_setReg_set]
      by_cases here : s.location = location mac <;> simp [here, slot_eq_iff, view]
    · rw [StickyFilter.allow_kept, set]
      simp [view]
  · ext s
    · rw [StickyFilter.allow_set]
      by_cases same : s = slot mac
      · simp [view, same]
        exact set
      · simp [view, same]
    · rw [StickyFilter.allow_kept, set, if_pos rfl, view_setCollision_kept]
      by_cases here : s.location = location mac <;> simp [here, slot_eq_iff, view]

theorem view_remove (mac : Mac) :
    (f.setIncomingMacAddressAllowed (some mac) false).2.view = f.view.remove (slot mac) := by
  simp only [setIncomingMacAddressAllowed, Bool.false_eq_true, if_false]
  ext s
  · rw [StickyFilter.remove_set, view_setReg_set]
    by_cases here : s.location = location mac
    · simp [here, slot_eq_iff, view, Bool.and_comm, Bool.or_comm]
    · simp [here, slot_eq_iff]
  · simp [view]

theorem remove_answer (mac : Mac) :
    (f.setIncomingMacAddressAllowed (some mac) false).1 = !f.view.kept (slot mac) := by
  have same : location mac = (slot mac).location := rfl
  simp only [setIncomingMacAddressAllowed, Bool.false_eq_true, if_false, collision_setReg,
    and_hashValue_eq_zero, same]
  rfl

def passes (f : HashFilter) (mac : Mac) : Bool := bitAt (f.reg (slot mac).location) (slot mac).bit

end HashFilter

inductive FilterCall
  | setIncomingMacAddressAllowed (mac : Option Mac) (allow : Bool)
  | joinGroup (group : Option Ip4Addr)
  | leaveGroup (group : Option Ip4Addr)
  | deinit
  deriving DecidableEq

def FilterCall.address : FilterCall → Option (Mac × Bool)
  | .setIncomingMacAddressAllowed mac allow => mac.map (·, allow)
  | .joinGroup group => group.map fun group => (multicastMac group, true)
  | .leaveGroup group => group.map fun group => (multicastMac group, false)
  | .deinit => none

def HashFilter.call (f : HashFilter) : FilterCall → Bool × HashFilter
  | .setIncomingMacAddressAllowed mac allow => f.setIncomingMacAddressAllowed mac allow
  | .joinGroup group => f.joinGroup group
  | .leaveGroup group => f.leaveGroup group
  | .deinit => (true, f.deinit)

/-- The filter, and the addresses allowed so far, as often as they were allowed. -/
structure FilterState where
  filter : HashFilter
  allowed : List Mac := []

namespace FilterState

variable {s : FilterState} {c : FilterCall} {mac : Mac}

def recordAllowed (allowed : List Mac) (c : FilterCall) : List Mac :=
  match c, c.address with
  | .deinit, _ => []
  | _, some (mac, true) => mac :: allowed
  | _, some (mac, false) => allowed.erase mac
  | _, none => allowed

def step (s : FilterState) (c : FilterCall) : FilterState :=
  { filter := (s.filter.call c).2, allowed := recordAllowed s.allowed c }

/-- An address is disallowed only while it is allowed. -/
def Balanced (s : FilterState) (c : FilterCall) : Prop :=
  match c.address with
  | some (mac, false) => mac ∈ s.allowed
  | _ => True

/-- No allowed address uses the bit of one that is now allowed, and `deinit` finds none. -/
def Alone (s : FilterState) (c : FilterCall) : Prop :=
  match c.address with
  | some (mac, true) => ∀ other ∈ s.allowed, slot other ≠ slot mac
  | some (_, false) => True
  | none => c = .deinit → s.allowed = []

instance (s : FilterState) (c : FilterCall) : Decidable (s.Balanced c) := by
  unfold Balanced; split <;> infer_instance

instance (s : FilterState) (c : FilterCall) : Decidable (s.Alone c) := by
  unfold Alone
  split
  · exact List.decidableBAll _ _
  · infer_instance
  · infer_instance

theorem call_none (silent : c.address = none) (going : c ≠ .deinit) : s.step c = s := by
  rcases c with ⟨_ | mac, allow⟩ | ⟨_ | group⟩ | ⟨_ | group⟩ | _ <;>
    first | rfl | contradiction

theorem call_some {allow : Bool} (named : c.address = some (mac, allow)) :
    s.filter.call c = s.filter.setIncomingMacAddressAllowed (some mac) allow ∧
      recordAllowed s.allowed c = if allow then mac :: s.allowed else s.allowed.erase mac := by
  rcases c with ⟨_ | other, flag⟩ | ⟨_ | group⟩ | ⟨_ | group⟩ | _ <;>
    simp only [FilterCall.address, Option.map_none, Option.map_some, Option.some.injEq, Prod.mk.injEq,
      reduceCtorEq] at named <;>
    obtain ⟨rfl, rfl⟩ := named
  · cases flag <;> exact ⟨rfl, rfl⟩
  · exact ⟨rfl, rfl⟩
  · exact ⟨rfl, rfl⟩

/-- What a call does to the bits and to the allowed addresses. -/
theorem step_cases (s : FilterState) (c : FilterCall) :
    (s.step c = s) ∨
    (∃ mac, c.address = some (mac, true) ∧ (s.step c).allowed = mac :: s.allowed ∧
      (s.step c).filter.view = s.filter.view.allow (slot mac)) ∨
    (∃ mac, c.address = some (mac, false) ∧ (s.step c).allowed = s.allowed.erase mac ∧
      (s.step c).filter.view = s.filter.view.remove (slot mac)) ∨
    (c = .deinit ∧ s.step c = { filter := s.filter.deinit }) := by
  rcases named : c.address with _ | ⟨mac, _ | _⟩
  · by_cases going : c = .deinit
    · subst going
      exact .inr (.inr (.inr ⟨rfl, rfl⟩))
    · exact .inl (call_none named going)
  · refine .inr (.inr (.inl ⟨mac, rfl, (call_some named).2, ?_⟩))
    rw [step, (call_some named).1, HashFilter.view_remove]
  · refine .inr (.inl ⟨mac, rfl, (call_some named).2, ?_⟩)
    rw [step, (call_some named).1, HashFilter.view_allow]

def Covers (s : FilterState) : Prop := StickyFilter.Covers slot s.filter.view s.allowed

def Exact (s : FilterState) : Prop := StickyFilter.Exact slot s.filter.view s.allowed

theorem deinit_kept (f : HashFilter) (b : Slot) : f.deinit.view.kept b = false := by
  rcases b with ⟨⟨_ | _, _ | _⟩, bit⟩ <;> exact bitAt_zero bit

theorem deinit_covers (f : HashFilter) : Covers { filter := f.deinit } :=
  .of_unused fun b kept => by simp [deinit_kept] at kept

theorem Covers.step (covers : Covers s) (balanced : s.Balanced c) : Covers (s.step c) := by
  rcases s.step_cases c with same | ⟨mac, named, list, view⟩ | ⟨mac, named, list, view⟩ | ⟨rfl, fresh⟩
  · rw [same]
    exact covers
  · rw [Covers, list, view]
    exact StickyFilter.Covers.allow covers mac
  · rw [Covers, list, view]
    exact StickyFilter.Covers.remove covers (by simpa [Balanced, named] using balanced)
  · rw [fresh]
    exact deinit_covers s.filter

theorem Exact.step (exact : Exact s) (ok : s.Balanced c ∧ s.Alone c) : Exact (s.step c) := by
  rcases s.step_cases c with same | ⟨mac, named, list, view⟩ | ⟨mac, named, list, view⟩ | ⟨rfl, fresh⟩
  · rwa [same]
  · rw [Exact, list, view]
    exact StickyFilter.Exact.allow exact (by simpa [Alone, named] using ok.2)
  · rw [Exact, list, view]
    exact StickyFilter.Exact.remove exact (by simpa [Balanced, named] using ok.1)
  · have none : s.allowed = [] := by simpa [Alone, FilterCall.address] using ok.2
    rw [fresh]
    have same : s.filter.deinit.view = s.filter.view := by
      ext b
      · rfl
      · rw [deinit_kept, exact.free]
    rw [Exact, same]
    exact none ▸ exact

theorem cleared_exact (f : HashFilter) (cleared : ∀ loc, f.reg loc = 0) : Exact { filter := f.deinit } where
  free := deinit_kept f
  alone b := by simp [StickyFilter.users]
  set_iff b := by
    have off : f.deinit.view.set b = false := by
      show bitAt (f.reg b.location) b.bit = false
      rw [cleared, bitAt_zero]
    simp [off, StickyFilter.users]

def runFrom (start : HashFilter) (calls : List FilterCall) : FilterState :=
  calls.foldl step { filter := start.deinit }

theorem allowed_never_blocked (start : HashFilter) (calls : List FilterCall)
    (balanced : Run.Allowed Balanced step { filter := start.deinit } calls) :
    (∀ mac ∈ (runFrom start calls).allowed, (runFrom start calls).filter.passes mac = true) ∧
    (∀ c mac, c.address = some (mac, false) →
      (((runFrom start calls).filter.call c).1 = true ↔
        ((runFrom start calls).filter.call c).2.passes mac = false)) ∧
    ((∀ loc, start.reg loc = 0) → Run.Allowed Alone step { filter := start.deinit } calls →
      ∀ b : Slot, bitAt ((runFrom start calls).filter.reg b.location) b.bit = true ↔
        ∃ mac ∈ (runFrom start calls).allowed, slot mac = b) := by
  have covers : Covers (runFrom start calls) :=
    Run.allowed_preserves Covers Balanced step (fun s c ok covers => covers.step ok) calls _ balanced
      (deinit_covers start)
  refine ⟨?_, ?_, ?_⟩
  · intro mac mem
    exact covers.used (slot mac) ((StickyFilter.users_pos_iff _).mpr ⟨mac, mem, rfl⟩)
  · intro c mac named
    rw [(call_some named).1, HashFilter.remove_answer, Bool.not_eq_true', covers.released_iff,
      ← HashFilter.view_remove]
    rfl
  · intro cleared alone b
    have exact : Exact (runFrom start calls) :=
      Run.allowed_preserves Exact (fun s c => s.Balanced c ∧ s.Alone c) step
        (fun s c ok exact => exact.step ok) calls _ (balanced.and alone) (cleared_exact start cleared)
    exact (exact.set_iff b).trans (StickyFilter.users_pos_iff b)

/-- 224.0.0.251 is joined twice, once as 224.128.0.251, and left once; 224.0.0.1 is joined. -/
def sharedRun : List FilterCall :=
  [.joinGroup (some #v[224, 0, 0, 251]), .joinGroup (some #v[224, 128, 0, 251]),
    .setIncomingMacAddressAllowed (some #v[0x04, 0xe9, 0xe5, 0, 0, 1]) true,
    .leaveGroup (some #v[224, 0, 0, 251]), .joinGroup (some #v[224, 0, 0, 1])]

def aloneRun : List FilterCall :=
  [.joinGroup (some #v[224, 0, 0, 251]), .joinGroup (some #v[224, 0, 0, 1]),
    .leaveGroup (some #v[224, 0, 0, 251])]

theorem allowed_never_blocked_sharedRun :
    (runFrom { galr := 5 } sharedRun).filter.passes #v[0x01, 0x00, 0x5e, 0, 0, 251] = true ∧
      ∀ b : Slot, bitAt ((runFrom {} aloneRun).filter.reg b.location) b.bit = true ↔
        ∃ mac ∈ (runFrom {} aloneRun).allowed, slot mac = b :=
  ⟨(allowed_never_blocked { galr := 5 } sharedRun (by decide +kernel)).1 _ (by decide +kernel),
    (allowed_never_blocked {} aloneRun (by decide +kernel)).2.2
      (by rintro ⟨_ | _, _ | _⟩ <;> rfl) (by decide +kernel)⟩

end FilterState
end QNEthernet.Drivers.Teensy41
