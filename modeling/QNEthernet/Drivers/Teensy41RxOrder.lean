import QNEthernet.Drivers.Teensy41Rx
import QNEthernet.Lib.Handoff
import QNEthernet.Lib.Run

/-! The order of received frames. `rxbd_next` moves `s_pRxBD` by one wherever it found a frame, so it
relies on finding it at `s_pRxBD`. -/

namespace QNEthernet.Drivers.Teensy41

open Lwip Handoff

def RxFrame.pbuf (frame : RxFrame) (alloc : Bool) : Option (List Byte) :=
  if bits frame.status errMask then none else if alloc then some frame.data else none

/-- How far after `a` the descriptor `b` is, going round. -/
def distance (n a b : Nat) : Nat := (b + n - a) % n

theorem distance_add {n : Nat} (pos : 0 < n) (lo : Nat) {j : Nat} (bound : j < n) :
    distance n (lo % n) ((lo + j) % n) = j := by
  have low := Nat.mod_lt lo pos
  have split : (lo + j) % n = (lo % n + j) % n := (Nat.mod_add_mod lo n j).symm
  rw [distance, split]
  by_cases wraps : lo % n + j < n
  · rw [Nat.mod_eq_of_lt wraps, show lo % n + j + n - lo % n = j + n by omega, Nat.add_mod_right,
      Nat.mod_eq_of_lt bound]
  · have once : (lo % n + j) % n = lo % n + j - n := by
      rw [Nat.mod_eq_sub_mod (by omega), Nat.mod_eq_of_lt (by omega)]
    rw [once, show lo % n + j - n + n - lo % n = j by omega, Nat.mod_eq_of_lt bound]

namespace Rx

variable {n : Nat} {s : Rx}

/-- A scan that has gone on past an empty descriptor has already read the hardware's next one. -/
def AlreadyRead (n : Nat) (s : Rx) : Prop :=
  match s.pc with
  | .scan _ pBD => pBD ≠ s.pRxBD → distance n s.pRxBD s.hw < distance n s.pRxBD pBD
  | .skip _ pBD => distance n s.pRxBD s.hw ≤ distance n s.pRxBD pBD
  | _ => True

/-- While `rxbd_next` scans on, the hardware only fills descriptors behind it. -/
def BehindScan (n : Nat) (s : Rx) : RxStep → Prop
  | .fill _ => (s.ring s.hw).empty = true → s.AlreadyRead n
  | _ => True

instance (n : Nat) (s : Rx) : Decidable (s.AlreadyRead n) := by
  unfold AlreadyRead; split <;> infer_instance

instance (n : Nat) (s : Rx) (e : RxStep) : Decidable (s.BehindScan n e) := by
  unfold BehindScan; split <;> infer_instance

structure Stores (bd : BufferDescriptor) (frame : RxFrame) : Prop where
  length : bd.length = frame.data.length
  bytes : bd.buffer.take bd.length = frame.data
  status : bits bd.control errMask = bits frame.status errMask

theorem Stores.pbufOf {bd : BufferDescriptor} {frame : RxFrame} (stores : Stores bd frame) (alloc : Bool) :
    Rx.pbufOf bd alloc = frame.pbuf alloc := by
  rw [Rx.pbufOf, RxFrame.pbuf, stores.status, stores.bytes]

/-- The ring against the frames received and consumed so far. -/
structure Core (n : Nat) (s : Rx) : Prop where
  holds : Holds n s.consumed.length (List.range s.filled.length) (fun i => !(s.ring i).empty) s.tag
  stores : ∀ i < n, (s.ring i).empty = false →
    ∃ frame, s.filled[s.tag i]? = some frame ∧ Stores (s.ring i) frame
  hw : s.hw = s.filled.length % n
  wraps : Wraps n s.ring
  sized : Sized s.ring
  order : s.consumed.map Consumed.frame = List.range s.consumed.length
  pbufs : ∀ c ∈ s.consumed, ∃ frame, s.filled[c.frame]? = some frame ∧ c.p = frame.pbuf c.alloc
  examined : s.overlooked = false

def PcInv (n : Nat) (s : Rx) : Prop :=
  match s.pc with
  | .idle => s.pRxBD = s.consumed.length % n
  | .enter _ => s.pRxBD = s.consumed.length % n
  | .scan _ pBD =>
      s.pRxBD = s.consumed.length % n ∧ ∃ j < n, pBD = (s.consumed.length + j) % n ∧
        (j = 0 ∨ s.filled.length ≤ s.consumed.length + j)
  | .skip _ pBD =>
      s.pRxBD = s.consumed.length % n ∧ ∃ j < n, pBD = (s.consumed.length + j) % n ∧
        s.filled.length ≤ s.consumed.length + j + 1
  | .found _ pBD =>
      s.pRxBD = s.consumed.length % n ∧ pBD = s.pRxBD ∧ s.consumed.length < s.filled.length
  | .lowLevelInput _ pBD =>
      s.pRxBD = (s.consumed.length + 1) % n ∧ pBD = s.consumed.length % n ∧
        s.consumed.length < s.filled.length
  | .setEmpty _ pBD input =>
      s.pRxBD = (s.consumed.length + 1) % n ∧ pBD = s.consumed.length % n ∧
        s.consumed.length < s.filled.length ∧ input.frame = s.consumed.length ∧
        ∃ frame, s.filled[input.frame]? = some frame ∧ input.p = frame.pbuf input.alloc

def Inv (n : Nat) (s : Rx) : Prop := Core n s ∧ s.PcInv n

theorem Core.next (core : Core n s) (pos : 0 < n) (some : s.consumed.length < s.filled.length) :
    (s.ring (s.consumed.length % n)).empty = false ∧
      s.tag (s.consumed.length % n) = s.consumed.length := by
  have marks := core.holds.marks
  rw [List.length_range] at marks
  constructor
  · have flag := (marks.flag_lo pos).mpr some
    simpa using flag
  · have held := core.holds.held s.consumed.length (Nat.le_refl _) (by simpa using some)
    rw [List.getElem?_range some] at held
    exact (Option.some.inj held).symm

theorem filledBD_stores {bd : BufferDescriptor} (size : bd.buffer.length = kBufSize) (frame : RxFrame) :
    Stores (filledBD bd frame) frame where
  length := rfl
  bytes := by
    have inside : 0 + frame.data.length ≤ bd.buffer.length := by
      have := frame.fits
      omega
    have whole := Ring.take_overwrite bd.buffer 0 frame.data inside
    rwa [Nat.zero_add, List.take_zero, List.nil_append] at whole
  status := by
    have wrap : kWrap &&& errMask = 0 := by decide
    have others : ~~~(kEmpty ||| kWrap) &&& errMask = errMask := by decide
    simp only [bits, filledBD, BitVec.and_or_distrib_right, BitVec.and_assoc, wrap, others]
    simp

theorem filledBD_empty (bd : BufferDescriptor) (frame : RxFrame) : (filledBD bd frame).empty = false := by
  rw [empty_eq]
  simp [filledBD, kEmpty, kWrap]

theorem filledBD_size {bd : BufferDescriptor} (size : bd.buffer.length = kBufSize) (frame : RxFrame) :
    (filledBD bd frame).buffer.length = kBufSize := by
  have inside : 0 + frame.data.length ≤ bd.buffer.length := by
    have := frame.fits
    omega
  rw [filledBD, Ring.length_overwrite _ _ _ inside, size]

theorem Core.room (core : Core n s) (pos : 0 < n) (empty : (s.ring s.hw).empty = true) :
    s.filled.length < s.consumed.length + n := by
  have marks := core.holds.marks
  rw [List.length_range] at marks
  apply (marks.flag_hi pos).mp
  rw [← core.hw, empty]
  rfl

theorem Core.fill (core : Core n s) (pos : 0 < n) (frame : RxFrame)
    (empty : (s.ring s.hw).empty = true) : Core n (s.fill frame) := by
  have bound : s.hw < n := core.hw ▸ Nat.mod_lt _ pos
  have space := core.room pos empty
  rw [s.fill_stored frame empty]
  constructor
  · simp only [List.length_append, List.length_singleton, List.range_succ]
    have place : s.hw = (List.range s.filled.length).length % n := by
      rw [List.length_range]
      exact core.hw
    apply core.holds.push (by simpa using space)
    · simp only [← place, Function.update_self, filledBD_empty]
      rfl
    · simp only [← place, Function.update_self]
    · intro i _ other
      rw [← place] at other
      simp only [Function.update_of_ne other]
    · intro i other
      rw [← place] at other
      simp only [Function.update_of_ne other]
  · intro i inside full
    dsimp only at full ⊢
    by_cases here : i = s.hw
    · subst here
      refine ⟨frame, by simp, ?_⟩
      rw [Function.update_self]
      exact filledBD_stores (core.sized s.hw) frame
    · simp only [Function.update_of_ne here] at full ⊢
      obtain ⟨old, stored, stores⟩ := core.stores i inside full
      refine ⟨old, ?_, stores⟩
      rw [List.getElem?_append_left]
      · exact stored
      · exact (List.getElem?_eq_some_iff.mp stored).1
  · simp only [List.length_append, List.length_singleton]
    rw [core.wraps.nextBD bound, next_mod pos, ← core.hw]
  · exact core.wraps.update s.hw (filledBD_wrap _ frame)
  · exact core.sized.update s.hw (filledBD_size (core.sized s.hw) frame)
  · exact core.order
  · intro c mem
    obtain ⟨old, stored, same⟩ := core.pbufs c mem
    refine ⟨old, ?_, same⟩
    rw [List.getElem?_append_left]
    · exact stored
    · exact (List.getElem?_eq_some_iff.mp stored).1
  · exact core.examined

theorem Inv.fill (inv : Inv n s) (pos : 0 < n) (frame : RxFrame)
    (behind : s.BehindScan n (.fill frame)) : Inv n (s.fill frame) := by
  obtain ⟨core, pc⟩ := inv
  by_cases empty : (s.ring s.hw).empty = true
  · refine ⟨core.fill pos frame empty, ?_⟩
    have behind := behind empty
    have space := core.room pos empty
    have le : s.consumed.length ≤ s.filled.length := by
      have := core.holds.marks.le
      rwa [List.length_range] at this
    -- The hardware is as far from `s_pRxBD` as there are frames waiting.
    have ahead : distance n (s.consumed.length % n) s.hw = s.filled.length - s.consumed.length := by
      have far := distance_add pos s.consumed.length
        (show s.filled.length - s.consumed.length < n by omega)
      rwa [Nat.add_sub_cancel' le, ← core.hw] at far
    rw [s.fill_stored frame empty]
    unfold AlreadyRead at behind
    unfold PcInv at pc ⊢
    simp only [List.length_append, List.length_singleton]
    revert pc behind
    cases s.pc with
    | idle => exact fun pc _ => pc
    | enter counter => exact fun pc _ => pc
    | scan counter pBD =>
        intro given behind
        obtain ⟨place, j, bound, rfl, read⟩ := given
        refine ⟨place, j, bound, rfl, ?_⟩
        by_cases first : j = 0
        · exact .inl first
        · have moved : (s.consumed.length + j) % n ≠ s.pRxBD := by
            rw [place]
            intro same
            have := mod_inj (Nat.le_add_right _ j) (by omega) same.symm
            omega
          have near := behind moved
          rw [place, ahead, distance_add pos _ bound] at near
          omega
    | skip counter pBD =>
        intro given behind
        obtain ⟨place, j, bound, rfl, read⟩ := given
        refine ⟨place, j, bound, rfl, ?_⟩
        dsimp only at behind
        rw [place, ahead, distance_add pos _ bound] at behind
        omega
    | found counter pBD =>
        intro given _
        obtain ⟨place, here, some⟩ := given
        exact ⟨place, here, by omega⟩
    | lowLevelInput counter pBD =>
        intro given _
        obtain ⟨place, here, some⟩ := given
        exact ⟨place, here, by omega⟩
    | setEmpty counter pBD input =>
        intro given _
        obtain ⟨place, here, some, examined, old, stored, p⟩ := given
        refine ⟨place, here, by omega, examined, old, ?_, p⟩
        rw [List.getElem?_append_left]
        · exact stored
        · exact (List.getElem?_eq_some_iff.mp stored).1
  · rw [s.fill_dropped frame empty]
    exact ⟨core, pc⟩

theorem Inv.enetIsr (inv : Inv n s) : Inv n s.enetIsr := by
  unfold Rx.enetIsr
  split
  · exact ⟨{ inv.1 with }, inv.2⟩
  · exact inv

theorem Inv.scan (inv : Inv n s) {counter pBD : Nat} (pc : s.pc = .scan counter pBD) :
    Inv n (if (s.ring pBD).empty then { s with pc := .skip counter pBD }
      else { s with pc := .found counter pBD }) := by
  obtain ⟨core, at_pc⟩ := inv
  rw [PcInv, pc] at at_pc
  obtain ⟨place, j, bound, rfl, read⟩ := at_pc
  have marks := core.holds.marks
  rw [List.length_range] at marks
  have waiting : (s.ring ((s.consumed.length + j) % n)).empty = false ↔
      s.consumed.length + j < s.filled.length := by
    rw [← marks.flag_add bound, Bool.not_eq_true']
  split
  · rename_i empty
    refine ⟨{ core with }, place, j, bound, rfl, ?_⟩
    have := mt waiting.mpr (by simp [empty])
    show s.filled.length ≤ s.consumed.length + j + 1
    omega
  · rename_i full
    have some := waiting.mp (by simpa using full)
    have first : j = 0 := by
      rcases read with first | passed
      · exact first
      · omega
    subst first
    exact ⟨{ core with }, place, by rw [place, Nat.add_zero], some⟩

theorem Inv.skip (inv : Inv n s) (pos : 0 < n) {counter pBD : Nat} (pc : s.pc = .skip counter pBD) :
    Inv n (if nextBD (s.ring pBD) pBD = s.pRxBD then { s with pc := .idle }
      else { s with pc := .scan counter (nextBD (s.ring pBD) pBD) }) := by
  obtain ⟨core, at_pc⟩ := inv
  rw [PcInv, pc] at at_pc
  obtain ⟨place, j, bound, rfl, read⟩ := at_pc
  have next : nextBD (s.ring ((s.consumed.length + j) % n)) ((s.consumed.length + j) % n) =
      (s.consumed.length + (j + 1)) % n := by
    rw [core.wraps.nextBD (Nat.mod_lt _ pos), ← Nat.add_assoc, next_mod pos]
  rw [next]
  split
  · exact ⟨{ core with }, place⟩
  · rename_i going
    have inside : j + 1 < n := by
      by_contra last
      have last : j + 1 = n := by omega
      rw [last, Nat.add_mod_right] at going
      exact going place.symm
    exact ⟨{ core with }, place, j + 1, inside, rfl, .inr read⟩

theorem Inv.setEmpty (inv : Inv n s) (pos : 0 < n) {counter pBD : Nat} {input : Consumed}
    (pc : s.pc = .setEmpty counter pBD input) (alloc : Bool) : Inv n (s.advance n alloc) := by
  obtain ⟨core, at_pc⟩ := inv
  rw [PcInv, pc] at at_pc
  obtain ⟨place, rfl, some, examined, pbuf⟩ := at_pc
  obtain ⟨full, tag⟩ := core.next pos some
  have emptied (control : BitVec 16) : ((control &&& kWrap) ||| kEmpty).getLsbD 15 = true := by
    simp [kEmpty]
  rw [Rx.advance, pc]
  constructor
  · constructor
    · simp only [List.length_append, List.length_singleton]
      apply core.holds.pop (by simpa using some)
      · rw [Function.update_self, empty_eq, emptied]
        rfl
      · intro i _ other
        rw [Function.update_of_ne other]
      · intro i _
        rfl
    · intro i inside filled
      dsimp only at filled ⊢
      by_cases here : i = s.consumed.length % n
      · rw [here, Function.update_self, empty_eq, emptied] at filled
        cases filled
      · rw [Function.update_of_ne here] at filled ⊢
        exact core.stores i inside filled
    · exact core.hw
    · apply core.wraps.update
      rw [wrap_eq, wrap_eq]
      simp [kEmpty, kWrap]
    · exact core.sized.update _ (core.sized _)
    · simp [core.order, examined, List.range_succ]
    · intro c mem
      rcases List.mem_append.mp mem with old | new
      · exact core.pbufs c old
      · rw [List.mem_singleton.mp new]
        exact pbuf
    · simp [core.examined, full, tag, examined]
  · have moved : s.pRxBD = (s.consumed ++ [input]).length % n := by
      rw [place, List.length_append, List.length_singleton]
    unfold PcInv
    dsimp only
    cases input.p <;> exact moved

theorem Inv.advance (inv : Inv n s) (pos : 0 < n) (alloc : Bool) : Inv n (s.advance n alloc) := by
  have core := inv.1
  cases pc : s.pc with
  | setEmpty counter pBD input => exact inv.setEmpty pos pc alloc
  | scan counter pBD =>
      rw [Rx.advance, pc]
      exact inv.scan pc
  | skip counter pBD =>
      rw [Rx.advance, pc]
      exact inv.skip pos pc
  | idle =>
      have place := inv.2
      rw [PcInv, pc] at place
      rw [Rx.advance, pc]
      exact ⟨{ core with }, place⟩
  | enter counter =>
      have place := inv.2
      rw [PcInv, pc] at place
      have start : s.pRxBD = (s.consumed.length + 0) % n := place
      rw [Rx.advance, pc]
      dsimp only
      split
      · split
        · exact ⟨{ core with }, place⟩
        · exact ⟨{ core with }, place, 0, pos, start, .inl rfl⟩
      · split
        · exact ⟨{ core with }, place⟩
        · exact ⟨{ core with }, place, 0, pos, start, .inl rfl⟩
  | found counter pBD =>
      have at_pc := inv.2
      rw [PcInv, pc] at at_pc
      obtain ⟨place, here, some⟩ := at_pc
      have next : nextBD (s.ring s.pRxBD) s.pRxBD = (s.consumed.length + 1) % n := by
        rw [place, core.wraps.nextBD (Nat.mod_lt _ pos), next_mod pos]
      rw [Rx.advance, pc]
      exact ⟨{ core with }, next, here.trans place, some⟩
  | lowLevelInput counter pBD =>
      have at_pc := inv.2
      rw [PcInv, pc] at at_pc
      obtain ⟨place, rfl, some⟩ := at_pc
      obtain ⟨full, tag⟩ := core.next pos some
      obtain ⟨frame, stored, stores⟩ := core.stores _ (Nat.mod_lt _ pos) full
      rw [Rx.advance, pc]
      exact ⟨{ core with }, place, rfl, some, tag, frame, stored, stores.pbufOf alloc⟩

theorem Inv.step (inv : Inv n s) (pos : 0 < n) (e : RxStep) (behind : s.BehindScan n e) :
    Inv n (s.step n e) := by
  cases e with
  | fill frame => exact inv.fill pos frame behind
  | enetIsr => exact inv.enetIsr
  | advance alloc => exact inv.advance pos alloc

theorem Inv.init (bufs : Nat → Vector Byte kBufSize) : Inv n (init n bufs) := by
  have empty (i : Nat) : ((Rx.init n bufs).ring i).empty = true := by
    rw [empty_eq]
    simp only [Rx.init]
    split <;> simp [kEmpty, kWrap]
  refine ⟨?_, rfl⟩
  constructor
  · apply Holds.start
    intro i _
    rw [empty i]
    rfl
  · intro i _ full
    rw [empty i] at full
    cases full
  · simp [Rx.init]
  · intro i bound
    rw [wrap_eq]
    simp only [Rx.init]
    split <;> simp_all [kEmpty, kWrap]
  · intro i
    simp [Rx.init]
  · rfl
  · intro c mem
    cases mem
  · rfl

/-- Frames are consumed once each and in order, with what they hold; the others are in the ring. -/
structure InOrder (n : Nat) (s : Rx) : Prop where
  once : s.consumed.map Consumed.frame = List.range s.consumed.length
  pbufs : ∀ c ∈ s.consumed, ∃ frame, s.filled[c.frame]? = some frame ∧ c.p = frame.pbuf c.alloc
  waiting : ∀ k, s.consumed.length ≤ k → k < s.filled.length →
    ∃ i < n, (s.ring i).empty = false ∧ s.tag i = k
  examined : s.overlooked = false

theorem Core.inOrder (core : Core n s) (pos : 0 < n) : InOrder n s where
  once := core.order
  pbufs := core.pbufs
  waiting k from_lo to_hi := by
    have held := core.holds.held k from_lo (by simpa using to_hi)
    rw [List.getElem?_range to_hi] at held
    have flag := (core.holds.marks.flag_iff _ (Nat.mod_lt k pos)).mpr
      ⟨k, from_lo, by simpa using to_hi, rfl⟩
    exact ⟨k % n, Nat.mod_lt k pos, by simpa using flag, (Option.some.inj held).symm⟩
  examined := core.examined

end Rx

theorem received_in_order (n : ℕ+) (bufs : Nat → Vector Byte kBufSize) (run : List RxStep)
    (behind : Run.Allowed (Rx.BehindScan n) (Rx.step n) (Rx.init n bufs) run) :
    Rx.InOrder n (run.foldl (Rx.step n) (Rx.init n bufs)) := by
  have inv : Rx.Inv n (run.foldl (Rx.step n) (Rx.init n bufs)) :=
    Run.allowed_preserves (Rx.Inv n) (Rx.BehindScan n) (Rx.step n)
      (fun s e ok inv => inv.step n.pos e ok) run _ behind (Rx.Inv.init bufs)
  exact inv.1.inOrder n.pos

def shortFrame (b : Byte) : RxFrame := { status := 0x0800, data := [b], fits := one_le_kBufSize }

/-- A frame is consumed, and the loop's next scan goes on past the empty descriptor 1. -/
def scanningRun : List RxStep :=
  List.flatten [[.fill (shortFrame 1), .enetIsr], List.replicate 8 (.advance true)]

/-- The descriptor it has read is filled; it goes on to the end, and the next call finds the frame. -/
def behindRun : List RxStep :=
  List.flatten [scanningRun, [.fill (shortFrame 2)], List.replicate 9 (.advance true),
    [.enetIsr, .fill (shortFrame 3)], List.replicate 12 (.advance true)]

theorem received_in_order_behindRun :
    let s := behindRun.foldl (Rx.step 5) (Rx.init 5 fun _ => Vector.replicate kBufSize 0)
    Rx.InOrder 5 s ∧ s.consumed.map Consumed.frame = [0, 1, 2] :=
  ⟨received_in_order 5 _ behindRun (by decide +kernel), by decide +kernel⟩

/-- The next two descriptors are filled then, and the scan finds the second one first. -/
def overtakingRun : List RxStep :=
  List.flatten [scanningRun, [.fill (shortFrame 2), .fill (shortFrame 3)],
    List.replicate 20 (.advance true)]

theorem received_out_of_order :
    let s := overtakingRun.foldl (Rx.step 5) (Rx.init 5 fun _ => Vector.replicate kBufSize 0)
    s.filled.map RxFrame.data = [[1], [2], [3]] ∧
      s.consumed.map Consumed.p = [some [1], some [3], some [2]] ∧ ¬ Rx.InOrder 5 s := by
  refine ⟨by decide +kernel, by decide +kernel, ?_⟩
  intro ordered
  exact absurd ordered.once (by decide +kernel)

end QNEthernet.Drivers.Teensy41
