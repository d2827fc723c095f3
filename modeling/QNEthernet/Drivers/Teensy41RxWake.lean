import QNEthernet.Drivers.Teensy41Rx
import QNEthernet.Lib.Handoff
import QNEthernet.Lib.Run

/-! The wake-up of the receive loop: `s_rxNotAvail` is set once at the start of a call, and only the
interrupt clears it. -/

namespace QNEthernet.Drivers.Teensy41

open Lwip Handoff

namespace Rx

variable {n : Nat} {s : Rx}

/-- An interrupt has come since the flag was set, or is pending. -/
def Woken (s : Rx) : Prop := s.rxf = true ∨ s.rxNotAvail = false

instance (s : Rx) : Decidable s.Woken := inferInstanceAs (Decidable (_ ∨ _))

/-- Where the loop may end although `rxbd_next` has not gone round: after an error frame or a failed
allocation, and at the cap. Then nothing else waits, or there was an interrupt. -/
def QuietEnd (n : Nat) (s : Rx) : Prop :=
  match s.pc with
  | .setEmpty _ pBD input =>
      input.p = none → (∀ i < n, i ≠ pBD → (s.ring i).empty = true) ∨ s.Woken
  | .enter counter =>
      counter ≠ 0 → n * 2 ≤ counter → (∀ i < n, (s.ring i).empty = true) ∨ s.Woken
  | _ => True

def EndsQuietly (n : Nat) (s : Rx) : RxStep → Prop
  | .advance _ => s.QuietEnd n
  | _ => True

instance (n : Nat) : (s : Rx) → Decidable (s.QuietEnd n)
  | { pc := .setEmpty _ _ _, .. } => inferInstanceAs (Decidable (_ → _ ∨ _))
  | { pc := .enter _, .. } => inferInstanceAs (Decidable (_ → _ → _ ∨ _))
  | { pc := .idle, .. } | { pc := .scan _ _, .. } | { pc := .skip _ _, .. } | { pc := .found _ _, .. }
  | { pc := .lowLevelInput _ _, .. } => inferInstanceAs (Decidable True)

instance (n : Nat) (s : Rx) (e : RxStep) : Decidable (s.EndsQuietly n e) := by
  unfold EndsQuietly; split <;> infer_instance

/-- Every descriptor that `rxbd_next` would read in its first `count` reads is empty, unless there was
an interrupt. -/
def SeenEmpty (n : Nat) (s : Rx) (count : Nat) : Prop :=
  ∀ k < count, (s.ring ((s.pRxBD + k) % n)).empty = false → s.Woken

def Awake (n : Nat) (s : Rx) : Prop :=
  match s.pc with
  | .idle => s.SeenEmpty n n
  | .enter counter => counter = 0 → s.SeenEmpty n n
  | .scan _ pBD => ∃ j < n, pBD = (s.pRxBD + j) % n ∧ s.SeenEmpty n j
  | .skip _ pBD => ∃ j < n, pBD = (s.pRxBD + j) % n ∧ s.SeenEmpty n (j + 1)
  | _ => True

structure WakeInv (n : Nat) (s : Rx) : Prop where
  wraps : Wraps n s.ring
  inside : s.pRxBD < n
  awake : s.Awake n

theorem SeenEmpty.of_woken (woken : s.Woken) (count : Nat) : s.SeenEmpty n count :=
  fun _ _ _ => woken

theorem seenEmpty_all (pos : 0 < n) (inside : s.pRxBD < n) :
    s.SeenEmpty n n ↔ ∀ i < n, (s.ring i).empty = false → s.Woken := by
  constructor
  · intro seen i bound full
    have round : (s.pRxBD + (i + n - s.pRxBD) % n) % n = i := by
      rw [Nat.add_mod_mod, Nat.add_sub_cancel' (by omega), Nat.add_mod_right, Nat.mod_eq_of_lt bound]
    exact seen _ (Nat.mod_lt _ pos) (by rwa [round])
  · intro all k _ full
    exact all _ (Nat.mod_lt _ pos) full

/-- Once woken, nothing more is asked of the driver's place. -/
theorem Awake.of_woken (woken : s.Woken) (place : ∀ counter pBD,
    s.pc = .scan counter pBD ∨ s.pc = .skip counter pBD → ∃ j < n, pBD = (s.pRxBD + j) % n) :
    s.Awake n := by
  unfold Awake
  split
  · exact .of_woken woken n
  · exact fun _ => .of_woken woken n
  · rename_i counter pBD pc
    obtain ⟨j, bound, here⟩ := place counter pBD (.inl pc)
    exact ⟨j, bound, here, .of_woken woken j⟩
  · rename_i counter pBD pc
    obtain ⟨j, bound, here⟩ := place counter pBD (.inr pc)
    exact ⟨j, bound, here, .of_woken woken (j + 1)⟩
  · trivial

theorem Awake.place (awake : s.Awake n) (counter pBD : Nat)
    (pc : s.pc = .scan counter pBD ∨ s.pc = .skip counter pBD) : ∃ j < n, pBD = (s.pRxBD + j) % n := by
  rcases pc with pc | pc <;> rw [Awake, pc] at awake <;> obtain ⟨j, bound, here, -⟩ := awake <;>
    exact ⟨j, bound, here⟩

theorem WakeInv.fill (inv : WakeInv n s) (frame : RxFrame) : WakeInv n (s.fill frame) := by
  by_cases empty : (s.ring s.hw).empty = true
  · rw [s.fill_stored frame empty]
    exact ⟨inv.wraps.update s.hw (filledBD_wrap _ frame), inv.inside,
      .of_woken (.inl rfl) inv.awake.place⟩
  · rw [s.fill_dropped frame empty]
    exact inv

theorem WakeInv.enetIsr (inv : WakeInv n s) : WakeInv n s.enetIsr := by
  unfold Rx.enetIsr
  split
  · exact ⟨inv.wraps, inv.inside, .of_woken (.inr rfl) inv.awake.place⟩
  · exact inv

theorem WakeInv.enter (inv : WakeInv n s) (pos : 0 < n) {counter : Nat} (pc : s.pc = .enter counter)
    (quiet : s.QuietEnd n) (alloc : Bool) : WakeInv n (s.advance n alloc) := by
  have awake := inv.awake
  rw [Awake, pc] at awake
  rw [QuietEnd, pc] at quiet
  have start : s.pRxBD = (s.pRxBD + 0) % n := (Nat.mod_eq_of_lt inv.inside).symm
  rw [Rx.advance, pc]
  dsimp only
  split
  · rename_i first
    split
    · exact ⟨inv.wraps, inv.inside, awake first⟩
    · exact ⟨inv.wraps, inv.inside, 0, pos, start, fun k none => absurd none (Nat.not_lt_zero k)⟩
  · rename_i later
    split
    · rename_i cap
      refine ⟨inv.wraps, inv.inside, (seenEmpty_all pos inv.inside).mpr ?_⟩
      intro i bound full
      rcases quiet later cap with empty | woken
      · rw [empty i bound] at full
        cases full
      · exact woken
    · exact ⟨inv.wraps, inv.inside, 0, pos, start, fun k none => absurd none (Nat.not_lt_zero k)⟩

theorem WakeInv.scan (inv : WakeInv n s) {counter pBD : Nat} (pc : s.pc = .scan counter pBD)
    (alloc : Bool) : WakeInv n (s.advance n alloc) := by
  have awake := inv.awake
  rw [Awake, pc] at awake
  obtain ⟨j, bound, rfl, seen⟩ := awake
  rw [Rx.advance, pc]
  dsimp only
  split
  · rename_i empty
    refine ⟨inv.wraps, inv.inside, j, bound, rfl, ?_⟩
    intro k less full
    by_cases last : k = j
    · subst last
      rw [empty] at full
      cases full
    · exact seen k (by omega) full
  · exact ⟨inv.wraps, inv.inside, trivial⟩

theorem WakeInv.skip (inv : WakeInv n s) (pos : 0 < n) {counter pBD : Nat}
    (pc : s.pc = .skip counter pBD) (alloc : Bool) : WakeInv n (s.advance n alloc) := by
  have awake := inv.awake
  rw [Awake, pc] at awake
  obtain ⟨j, bound, rfl, seen⟩ := awake
  have next : nextBD (s.ring ((s.pRxBD + j) % n)) ((s.pRxBD + j) % n) = (s.pRxBD + (j + 1)) % n := by
    rw [inv.wraps.nextBD (Nat.mod_lt _ pos), ← Nat.add_assoc, next_mod pos]
  rw [Rx.advance, pc]
  dsimp only
  rw [next]
  split
  · rename_i round
    -- The scan is back where it started, so it has read every descriptor.
    have all : j + 1 = n := by
      have start : s.pRxBD % n = (s.pRxBD + (j + 1)) % n := by
        rw [round, Nat.mod_eq_of_lt inv.inside]
      by_contra less
      have := mod_inj (Nat.le_add_right _ (j + 1)) (by omega) start
      omega
    rw [all] at seen
    exact ⟨inv.wraps, inv.inside, seen⟩
  · rename_i going
    have inside : j + 1 < n := by
      by_contra last
      have last : j + 1 = n := by omega
      rw [last, Nat.add_mod_right, Nat.mod_eq_of_lt inv.inside] at going
      exact going rfl
    exact ⟨inv.wraps, inv.inside, j + 1, inside, rfl, seen⟩

theorem WakeInv.setEmpty (inv : WakeInv n s) (pos : 0 < n) {counter pBD : Nat} {input : Consumed}
    (pc : s.pc = .setEmpty counter pBD input) (quiet : s.QuietEnd n) (alloc : Bool) :
    WakeInv n (s.advance n alloc) := by
  rw [QuietEnd, pc] at quiet
  have emptied (control : BitVec 16) : ((control &&& kWrap) ||| kEmpty).getLsbD 15 = true := by
    simp [kEmpty]
  rw [Rx.advance, pc]
  refine ⟨?_, inv.inside, ?_⟩
  · apply inv.wraps.update
    rw [wrap_eq, wrap_eq]
    simp [kEmpty, kWrap]
  · unfold Awake
    dsimp only
    cases p : input.p with
    | some bytes => exact fun first => absurd first (Nat.succ_ne_zero counter)
    | none =>
        simp only [Option.isSome_none, Bool.false_eq_true, if_false]
        apply (seenEmpty_all pos ?_).mpr
        · intro i bound full
          dsimp only at full
          rcases quiet p with others | woken
          · by_cases here : i = pBD
            · rw [here, Function.update_self, empty_eq, emptied] at full
              cases full
            · rw [Function.update_of_ne here, others i bound here] at full
              cases full
          · exact woken
        · exact inv.inside

theorem WakeInv.advance (inv : WakeInv n s) (pos : 0 < n) (quiet : s.QuietEnd n) (alloc : Bool) :
    WakeInv n (s.advance n alloc) := by
  have awake := inv.awake
  cases pc : s.pc with
  | enter counter => exact inv.enter pos pc quiet alloc
  | scan counter pBD => exact inv.scan pc alloc
  | skip counter pBD => exact inv.skip pos pc alloc
  | setEmpty counter pBD input => exact inv.setEmpty pos pc quiet alloc
  | idle =>
      rw [Awake, pc] at awake
      rw [Rx.advance, pc]
      exact ⟨inv.wraps, inv.inside, fun _ => awake⟩
  | found counter pBD =>
      rw [Rx.advance, pc]
      refine ⟨inv.wraps, ?_, trivial⟩
      show nextBD (s.ring s.pRxBD) s.pRxBD < n
      rw [inv.wraps.nextBD inv.inside]
      have := inv.inside
      split <;> omega
  | lowLevelInput counter pBD =>
      rw [Rx.advance, pc]
      exact ⟨inv.wraps, inv.inside, trivial⟩

theorem WakeInv.step (inv : WakeInv n s) (pos : 0 < n) (e : RxStep) (quiet : s.EndsQuietly n e) :
    WakeInv n (s.step n e) := by
  cases e with
  | fill frame => exact inv.fill frame
  | enetIsr => exact inv.enetIsr
  | advance alloc => exact inv.advance pos quiet alloc

theorem WakeInv.init (pos : 0 < n) (bufs : Nat → Vector Byte kBufSize) : WakeInv n (Rx.init n bufs) where
  wraps i bound := by
    rw [wrap_eq]
    simp only [Rx.init]
    split <;> simp_all [kEmpty, kWrap]
  inside := pos
  awake k _ full := by
    rw [empty_eq] at full
    simp only [Rx.init] at full
    split at full <;> simp [kEmpty, kWrap] at full

end Rx

theorem no_lost_wakeup (n : ℕ+) (bufs : Nat → Vector Byte kBufSize) (run : List RxStep)
    (quiet : Run.Allowed (Rx.EndsQuietly n) (Rx.step n) (Rx.init n bufs) run) :
    let s := run.foldl (Rx.step n) (Rx.init n bufs)
    s.pc = .idle → s.rxf = false → (∃ i < (n : Nat), (s.ring i).empty = false) →
      s.rxNotAvail = false := by
  intro s idle served waiting
  have inv : Rx.WakeInv n s :=
    Run.allowed_preserves (Rx.WakeInv n) (Rx.EndsQuietly n) (Rx.step n)
      (fun s e ok inv => inv.step n.pos e ok) run _ quiet (Rx.WakeInv.init n.pos bufs)
  have seen := inv.awake
  rw [Rx.Awake, idle] at seen
  obtain ⟨i, bound, full⟩ := waiting
  rcases (Rx.seenEmpty_all n.pos inv.inside).mp seen i bound full with pending | clear
  · rw [served] at pending
    cases pending
  · exact clear

def byteFrame (status : BitVec 16) (b : Byte) : RxFrame where
  status := status
  data := [b]
  fits := one_le_kBufSize

/-- An error frame is consumed alone; then a good one comes, and its interrupt is served. -/
def quietRun : List RxStep :=
  List.flatten [[.fill (byteFrame kCrc 1), .enetIsr], List.replicate 6 (.advance true),
    [.fill (byteFrame 0 2), .enetIsr]]

theorem no_lost_wakeup_quietRun :
    let s := quietRun.foldl (Rx.step 5) (Rx.init 5 fun _ => Vector.replicate kBufSize 0)
    s.pc = .idle ∧ (s.ring 1).empty = false ∧ s.rxNotAvail = false :=
  ⟨by decide +kernel, by decide +kernel,
    no_lost_wakeup 5 _ quietRun (by decide +kernel) (by decide +kernel) (by decide +kernel)
      ⟨1, by decide, by decide +kernel⟩⟩

/-- Two frames wait, and the first one cannot be used. -/
def cutRun (status : BitVec 16) (alloc : Bool) : List RxStep :=
  List.flatten [[.fill (byteFrame status 1), .fill (byteFrame 0 2), .enetIsr],
    List.replicate 6 (.advance alloc)]

/-- The driver rests while a frame waits, and only another frame would wake it. -/
def Rx.Stalled (n : Nat) (s : Rx) : Prop :=
  s.pc = .idle ∧ s.rxf = false ∧ (∃ i < n, (s.ring i).empty = false) ∧ s.rxNotAvail = true

instance (n : Nat) (s : Rx) : Decidable (s.Stalled n) :=
  inferInstanceAs (Decidable (_ ∧ _ ∧ _ ∧ _))

theorem wakeup_lost :
    ((cutRun kCrc true).foldl (Rx.step 5) (Rx.init 5 fun _ => Vector.replicate kBufSize 0)).Stalled 5 ∧
      ((cutRun 0 false).foldl (Rx.step 5) (Rx.init 5 fun _ => Vector.replicate kBufSize 0)).Stalled 5 := by
  decide +kernel

end QNEthernet.Drivers.Teensy41
