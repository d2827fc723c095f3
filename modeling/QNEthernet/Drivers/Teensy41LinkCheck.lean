import QNEthernet.Drivers.Teensy41Mdio

/-! The link check's read stays in flight between calls; the blocking calls use the same register. -/

namespace QNEthernet.Drivers.Teensy41

namespace Mdio

variable {s : Mdio} {site : MdioSite} {point : MdioPoint}

/-- Whether a call starts a blocking transaction. -/
def blocks (s : Mdio) : MdioCall → Bool
  | .poll => false
  | .procInput => false
  | .setLink ls => s.phyUp && (ls.speed = 10 || ls.speed = 100)
  | .restartAutoNegotiation => true
  | .resetPhy => s.phyUp
  | .notifyManualLinkState _ => false

/-- Blocking calls are only made while no link check is to be continued. -/
def Undisturbed (s : Mdio) : MdioStep → Prop
  | .call c => s.blocks c = true → s.checkLinkStatusState = 0
  | _ => True

instance (s : Mdio) (e : MdioStep) : Decidable (s.Undisturbed e) := by
  unfold Undisturbed; split <;> infer_instance

/-- The transaction is under way, or complete and not yet taken. -/
def InFlight (s : Mdio) (t : Transaction) : Prop :=
  (s.outstanding = some t ∧ s.mii = false) ∨
    (s.outstanding = none ∧ s.mii = true ∧ ∀ reg, t = .read reg → s.mmfr.source = some reg)

/-- The read that `check_link_status` will continue. -/
def Suspended (s : Mdio) : Prop :=
  match s.checkLinkStatusState with
  | 0 => s.outstanding = none
  | 1 => s.InFlight (.read .bmsr)
  | 2 => s.InFlight (.read .physts)
  | _ => False

def PointInv (s : Mdio) (t : Transaction) : MdioPoint → Prop
  | .clear => s.outstanding = none
  | .start => s.outstanding = none ∧ s.mii = false
  | .test => s.InFlight t
  | .fetch => s.outstanding = none ∧ ∃ reg, t = .read reg ∧ s.mmfr.source = some reg
  | .ack _ => s.outstanding = none

/-- When a use of the interface can have been entered. -/
def Entered (s : Mdio) (site : MdioSite) : Prop :=
  if site.blocking then s.checkLinkStatusState = 0 else s.initState = .initialized

def PcInv (s : Mdio) : Prop :=
  match s.pc with
  | .idle => s.Suspended
  | .inCall site point =>
      s.PointInv site.transaction point ∧ s.Entered site

structure Inv (s : Mdio) : Prop where
  pc : s.PcInv
  down : s.initState ≠ .initialized → s.checkLinkStatusState = 0
  asked : ∀ f ∈ s.fetched, f.source = some f.asked

theorem InFlight.complete {t : Transaction} (flight : s.InFlight t) (value : BitVec 16) :
    (s.complete value).InFlight t := by
  rcases flight with ⟨out, off⟩ | ⟨none, on, source⟩
  · cases t with
    | read reg =>
        simp only [Mdio.complete, out]
        exact .inr ⟨rfl, rfl, fun other same => by cases same; rfl⟩
    | write reg data =>
        simp only [Mdio.complete, out]
        exact .inr ⟨rfl, rfl, fun other same => by cases same⟩
  · simp only [Mdio.complete, none]
    exact .inr ⟨none, on, source⟩

theorem complete_none (none : s.outstanding = none) (value : BitVec 16) : s.complete value = s := by
  simp only [Mdio.complete, none]

theorem complete_kept (value : BitVec 16) :
    (s.complete value).pc = s.pc ∧ (s.complete value).checkLinkStatusState = s.checkLinkStatusState ∧
      (s.complete value).initState = s.initState ∧ (s.complete value).fetched = s.fetched := by
  unfold Mdio.complete
  split <;> exact ⟨rfl, rfl, rfl, rfl⟩

theorem Suspended.complete (suspended : s.Suspended) (value : BitVec 16) :
    (s.complete value).Suspended := by
  unfold Suspended at suspended ⊢
  rw [(complete_kept value).2.1]
  split at suspended
  · rw [complete_none suspended]
    exact suspended
  · exact suspended.complete value
  · exact suspended.complete value
  · exact suspended

theorem PointInv.complete {t : Transaction} (inv : s.PointInv t point) (value : BitVec 16) :
    (s.complete value).PointInv t point := by
  cases point with
  | clear => rwa [complete_none inv]
  | start => rwa [complete_none inv.1]
  | test => exact InFlight.complete inv value
  | fetch => rwa [complete_none inv.1]
  | ack data => rwa [complete_none inv]

theorem Inv.complete (inv : Inv s) (value : BitVec 16) : Inv (s.complete value) := by
  obtain ⟨pc, state, init, fetched⟩ := complete_kept (s := s) value
  have at_pc := inv.pc
  constructor
  · unfold PcInv at at_pc ⊢
    rw [pc]
    split at at_pc
    · exact at_pc.complete value
    · refine ⟨at_pc.1.complete value, ?_⟩
      rw [Entered, state, init]
      exact at_pc.2
  · rw [init, state]
    exact inv.down
  · rw [fetched]
    exact inv.asked

theorem updateLink_kept :
    s.updateLink.outstanding = s.outstanding ∧ s.updateLink.fetched = s.fetched := by
  unfold Mdio.updateLink
  split
  · split
    · exact ⟨rfl, rfl⟩
    · split <;> exact ⟨rfl, rfl⟩
  · exact ⟨rfl, rfl⟩

structure Settled (s : Mdio) : Prop where
  free : s.outstanding = none
  down : s.initState ≠ .initialized → s.checkLinkStatusState = 0
  asked : ∀ f ∈ s.fetched, f.source = some f.asked

theorem Settled.checked (settled : s.Settled) : Inv (s.updateLink.checked 0) where
  pc := by
    show s.updateLink.outstanding = none
    rw [updateLink_kept.1]
    exact settled.free
  down _ := rfl
  asked := by
    show ∀ f ∈ s.updateLink.fetched, _
    rw [updateLink_kept.2]
    exact settled.asked

theorem Settled.begin (settled : s.Settled) (entered : s.Entered site) : Inv (s.goto site .clear) where
  pc := ⟨settled.free, entered⟩
  down := settled.down
  asked := settled.asked

theorem Settled.rest (settled : s.Settled) (idle : s.checkLinkStatusState = 0) (pc : s.pc = .idle) :
    Inv s where
  pc := by
    rw [PcInv, pc]
    show s.Suspended
    rw [Suspended, idle]
    exact settled.free
  down := settled.down
  asked := settled.asked

theorem Settled.resume (settled : s.Settled) (entered : s.Entered site) (data : BitVec 16) :
    Inv (s.resume site data) := by
  obtain ⟨free, down, asked⟩ := settled
  cases site with
  | checkBmsr =>
      have read : Settled { s with bmsr := data, isLinkUp := bits data kBmsrLinkStatus } :=
        ⟨free, down, asked⟩
      simp only [Mdio.resume]
      split
      · exact read.begin entered
      · exact read.checked
  | checkPhysts =>
      have read : Settled { s with physts := data } := ⟨free, down, asked⟩
      exact read.checked
  | setLinkRead ls =>
      simp only [Mdio.resume]
      split
      · exact Settled.begin ⟨free, down, asked⟩ entered
      · exact Settled.rest ⟨free, down, asked⟩ entered rfl
  | setLinkWrite value => exact Settled.rest ⟨free, down, asked⟩ entered rfl
  | restartRead => exact Settled.begin ⟨free, down, asked⟩ entered
  | restartWrite value => exact Settled.rest ⟨free, down, asked⟩ entered rfl
  | resetLedcr => exact Settled.begin ⟨free, down, asked⟩ entered
  | resetRcsr => exact Settled.rest ⟨free, down, asked⟩ entered rfl

theorem Inv.suspend (inv : Inv s) (waits : site.blocking = false) (entered : s.Entered site)
    (flight : s.InFlight site.transaction) : Inv (s.suspend site) := by
  cases site with
  | checkBmsr => exact ⟨flight, fun down => absurd entered down, inv.asked⟩
  | checkPhysts => exact ⟨flight, fun down => absurd entered down, inv.asked⟩
  | _ => cases waits

theorem Inv.advance (inv : Inv s) : Inv s.advance := by
  have at_pc := inv.pc
  unfold PcInv at at_pc
  unfold Mdio.advance
  split
  · exact inv
  · rename_i site pc
    rw [pc] at at_pc
    exact ⟨⟨⟨at_pc.1, rfl⟩, at_pc.2⟩, inv.down, inv.asked⟩
  · rename_i site pc
    rw [pc] at at_pc
    exact ⟨⟨.inl ⟨rfl, at_pc.1.2⟩, at_pc.2⟩, inv.down, inv.asked⟩
  · rename_i site pc
    rw [pc] at at_pc
    obtain ⟨flight, entered⟩ := at_pc
    split
    · rename_i on
      -- The flag is this transaction's own.
      rcases flight with ⟨-, off⟩ | ⟨free, -, source⟩
      · simp [off] at on
      · split
        · rename_i reg read
          exact ⟨⟨⟨free, reg, read, source reg read⟩, entered⟩, inv.down, inv.asked⟩
        · exact ⟨⟨free, entered⟩, inv.down, inv.asked⟩
    · split
      · exact inv
      · rename_i waits
        exact inv.suspend (by simpa using waits) entered flight
  · rename_i site pc
    rw [pc] at at_pc
    obtain ⟨⟨free, reg, read, source⟩, entered⟩ := at_pc
    rw [read]
    refine ⟨⟨free, entered⟩, inv.down, ?_⟩
    intro f mem
    rcases List.mem_append.mp mem with old | new
    · exact inv.asked f old
    · rw [List.mem_singleton.mp new]
      exact source
  · rename_i site data pc
    rw [pc] at at_pc
    have settled : s.clearMii.Settled := ⟨at_pc.1, inv.down, inv.asked⟩
    exact settled.resume at_pc.2 data

theorem Inv.suspended (inv : Inv s) (idle : s.pc = .idle) : s.Suspended := by
  have at_pc := inv.pc
  rwa [PcInv, idle] at at_pc

theorem Inv.free (inv : Inv s) (idle : s.pc = .idle) (zero : s.checkLinkStatusState = 0) :
    s.Settled where
  free := by
    have suspended := inv.suspended idle
    rwa [Suspended, zero] at suspended
  down := inv.down
  asked := inv.asked

theorem Inv.checkLinkStatus (inv : Inv s) (idle : s.pc = .idle) : Inv s.checkLinkStatus := by
  have suspended := inv.suspended idle
  unfold Mdio.checkLinkStatus
  split
  · rename_i off
    have settled := inv.free idle (inv.down off)
    exact ⟨settled.free, fun _ => rfl, inv.asked⟩
  · rename_i on
    rw [not_not] at on
    unfold Suspended at suspended
    split
    · rename_i zero
      exact (inv.free idle zero).begin on
    · rename_i one
      rw [one] at suspended
      exact ⟨⟨suspended, on⟩, inv.down, inv.asked⟩
    · rename_i two
      rw [two] at suspended
      exact ⟨⟨suspended, on⟩, inv.down, inv.asked⟩
    · split at suspended
      · contradiction
      · contradiction
      · contradiction
      · cases suspended

theorem Inv.call (inv : Inv s) (c : MdioCall) (undisturbed : s.Undisturbed (.call c)) :
    Inv (s.call c) := by
  unfold Mdio.call
  split
  · exact inv
  · rename_i idle
    have enter (blocks : s.blocks c = true) : s.Settled ∧ s.checkLinkStatusState = 0 :=
      ⟨inv.free idle (undisturbed blocks), undisturbed blocks⟩
    have suspended := inv.suspended idle
    cases c with
    | poll => exact inv.checkLinkStatus idle
    | procInput =>
        dsimp only
        split
        · exact inv.checkLinkStatus idle
        · exact inv
    | setLink ls =>
        dsimp only
        split
        · exact ⟨by rw [PcInv, idle]; exact suspended, inv.down, inv.asked⟩
        · rename_i up
          split
          · exact ⟨by rw [PcInv, idle]; exact suspended, inv.down, inv.asked⟩
          · rename_i valid
            have blocks : s.blocks (.setLink ls) = true := by
              have known : ls.speed = 10 ∨ ls.speed = 100 := by tauto
              simpa [Mdio.blocks, known] using up
            exact (enter blocks).1.begin (enter blocks).2
    | restartAutoNegotiation => exact (enter rfl).1.begin (enter rfl).2
    | resetPhy =>
        dsimp only
        split
        · exact inv
        · rename_i up
          have blocks : s.blocks .resetPhy = true := by simpa [Mdio.blocks] using up
          exact (enter blocks).1.begin (enter blocks).2
    | notifyManualLinkState flag => exact ⟨by rw [PcInv, idle]; exact suspended, inv.down, inv.asked⟩

theorem Inv.step (inv : Inv s) (e : MdioStep) (undisturbed : s.Undisturbed e) : Inv (s.step e) := by
  cases e with
  | call c => exact inv.call c undisturbed
  | advance => exact inv.advance
  | complete value => exact inv.complete value

/-- At rest, a link check is to be continued that nothing will ever complete. -/
def Stuck (s : Mdio) : Prop :=
  s.pc = .idle ∧ s.checkLinkStatusState ≠ 0 ∧ s.outstanding = none ∧ s.mii = false

instance (s : Mdio) : Decidable s.Stuck := inferInstanceAs (Decidable (_ ∧ _ ∧ _ ∧ _))

end Mdio

def advances (n : Nat) : List MdioStep := List.replicate n .advance

end QNEthernet.Drivers.Teensy41
