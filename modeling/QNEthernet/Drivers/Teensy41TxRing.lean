import QNEthernet.Drivers.Teensy41Tx
import QNEthernet.Lib.Handoff
import QNEthernet.Lib.Run

/-! The hardware sends what the driver copied, in call order: the ring is a hand-off of the frames. -/

namespace QNEthernet.Drivers.Teensy41

open Lwip Handoff

/-- What a call asks to have sent, if its copy succeeds. -/
def TxCall.frame : TxCall → Option Frame
  | .output p =>
      if p.totLen ≤ p.links.flatten.length then
        some { length := p.totLen, bytes := (p.links.flatten.take p.totLen).drop ethPadSize }
      else none
  | .outputFrame frame =>
      if frame.length ≤ kBufSize - ethPadSize then
        some { length := frame.length + ethPadSize, bytes := frame }
      else none

theorem ready_eq (bd : BufferDescriptor) : bd.ready = bd.control.getLsbD 15 :=
  bits_twoPow bd.control 15

namespace Tx

variable {n : Nat} {s : Tx} {items : List Frame} {pBD : Nat} {bd : BufferDescriptor}

/-- The ring against the frames handed to the hardware so far. -/
structure Core (n : Nat) (s : Tx) (items : List Frame) : Prop where
  holds : Holds n s.sent.length items (fun i => (s.ring i).ready) (fun i => (s.ring i).frame)
  sent : s.sent = items.take s.sent.length
  hw : s.hw = s.sent.length % n
  wraps : Wraps n s.ring
  sized : Sized s.ring
  clean : s.wroteReady = false
  up : s.initState = .initialized
  last : s.lastReady = if items.length = 0 then none else some ((items.length - 1) % n)

theorem Core.goto (core : Core n s items) (c : TxCall) (pBD : Nat) (point : TxPoint) :
    Core n (s.goto c pBD point) items := { core with }

theorem Core.ret (core : Core n s items) (c : TxCall) (ok : Bool) : Core n (s.ret c ok) items :=
  { core with }

theorem Core.send (core : Core n s items) (pos : 0 < n) : Core n s.send items := by
  by_cases ready : (s.ring s.hw).ready = true
  · rw [show s.send = { s with
      ring := Function.update s.ring s.hw
        { s.ring s.hw with control := (s.ring s.hw).control &&& ~~~kReady }
      sent := s.sent ++ [(s.ring s.hw).frame]
      hw := nextBD (s.ring s.hw) s.hw } from if_pos ready]
    have hw := core.hw
    have bound : s.hw < n := hw ▸ Nat.mod_lt _ pos
    have some : s.sent.length < items.length := by
      rw [hw] at ready
      exact (core.holds.marks.flag_lo pos).mp ready
    have content : items[s.sent.length]? = Option.some (s.ring s.hw).frame := by
      rw [hw]
      exact core.holds.held _ (Nat.le_refl _) some
    constructor
    · simp only [List.length_append, List.length_singleton]
      apply core.holds.pop some
      · rw [← hw, Function.update_self, ready_eq]
        simp [kReady]
      · intro i _ other
        rw [← hw] at other
        rw [Function.update_of_ne other]
      · intro i other
        rw [← hw] at other
        rw [Function.update_of_ne other]
    · simp only [List.length_append, List.length_singleton]
      rw [List.take_add_one, content, ← core.sent]
      rfl
    · simp only [List.length_append, List.length_singleton]
      rw [core.wraps.nextBD bound, next_mod pos, ← hw]
    · apply core.wraps.update
      rw [wrap_eq, wrap_eq]
      simp [kReady]
    · exact core.sized.update s.hw (core.sized s.hw)
    · exact core.clean
    · exact core.up
    · exact core.last
  · rw [show s.send = s from if_neg ready]
    exact core

theorem Core.write (core : Core n s items) (pos : 0 < n) (place : pBD = items.length % n)
    (free : (s.ring pBD).ready = false) (control : bd.control = (s.ring pBD).control)
    (size : bd.buffer.length = kBufSize) : Core n (s.write pBD bd) items where
  holds := by
    apply core.holds.write
    · rw [place] at free
      exact (core.holds.marks.flag_hi pos).mp free
    · intro i _
      by_cases here : i = pBD
      · simp only [here, Tx.write, Function.update_self]
        rw [ready_eq, ready_eq, control]
      · simp only [Tx.write, Function.update_of_ne here]
    · intro i other
      rw [← place] at other
      simp only [Tx.write, Function.update_of_ne other]
  sent := core.sent
  hw := core.hw
  wraps := core.wraps.update pBD (by rw [control])
  sized := core.sized.update pBD size
  clean := by simp [Tx.write, core.clean, free]
  up := core.up
  last := core.last

theorem Core.hand (core : Core n s items) (pos : 0 < n) (place : pBD = items.length % n)
    (free : (s.ring pBD).ready = false) :
    Core n { s.write pBD { s.ring pBD with control := readyControl (s.ring pBD).control } with
      lastReady := some pBD } (items ++ [(s.ring pBD).frame]) where
  holds := by
    have space : items.length < s.sent.length + n := by
      rw [place] at free
      exact (core.holds.marks.flag_hi pos).mp free
    apply core.holds.push space
    · simp only [← place, Tx.write, Function.update_self]
      rw [ready_eq]
      simp [readyControl, kReady, kWrap, kLast, kTxCrc]
    · simp only [← place, Tx.write, Function.update_self]
      rfl
    · intro i _ other
      rw [← place] at other
      simp only [Tx.write, Function.update_of_ne other]
    · intro i other
      rw [← place] at other
      simp only [Tx.write, Function.update_of_ne other]
  sent := by
    have le := core.holds.marks.le
    simp only [Tx.write]
    rw [List.take_append_of_le_length le]
    exact core.sent
  hw := core.hw
  wraps := core.wraps.update pBD (by
    rw [wrap_eq, wrap_eq]
    simp [readyControl, kReady, kWrap, kLast, kTxCrc])
  sized := core.sized.update pBD (core.sized pBD)
  clean := by simp [Tx.write, core.clean, free]
  up := core.up
  last := by simp [place]

def reply (c : TxCall) : TxAnswer := answer c c.frame.isSome

/-- What a call has done so far to the descriptor it has. -/
def PointInv (c : TxCall) (bd : BufferDescriptor) : TxPoint → Prop
  | .getBufdesc => ∀ frame, c = .outputFrame frame → frame.length ≤ kBufSize - ethPadSize
  | .copyPartial totLen rest left len =>
      bd.ready = false ∧ ∃ p done, c = .output p ∧ totLen = p.totLen ∧ p.links = done ++ rest ∧
        left = min p.totLen done.flatten.length ∧ left + len = p.totLen ∧
        bd.buffer.take left = done.flatten.take left
  | .memcpy frame =>
      bd.ready = false ∧ c = .outputFrame frame ∧ frame.length ≤ kBufSize - ethPadSize
  | .setLength len =>
      bd.ready = false ∧
        c.frame = some { length := len, bytes := (bd.buffer.take len).drop ethPadSize }
  | .readControl => bd.ready = false ∧ c.frame = some bd.frame
  | .setControl control =>
      bd.ready = false ∧ c.frame = some bd.frame ∧ control = readyControl bd.control
  | .advance => True

/-- Where the driver is, against the frames handed over so far. -/
def PcInv (n : Nat) (s : Tx) (items : List Frame) : Prop :=
  match s.pc with
  | .idle =>
      s.pTxBD = items.length % n ∧ items = s.calls.filterMap TxCall.frame ∧
        s.answers = s.calls.map reply
  | .inCall c pBD .advance =>
      pBD = s.pTxBD ∧ 0 < items.length ∧ s.pTxBD = (items.length - 1) % n ∧ c.frame.isSome ∧
        ∃ prev, s.calls = prev ++ [c] ∧ items = s.calls.filterMap TxCall.frame ∧
          s.answers = prev.map reply
  | .inCall c pBD point =>
      pBD = s.pTxBD ∧ s.pTxBD = items.length % n ∧ PointInv c (s.ring pBD) point ∧
        ∃ prev, s.calls = prev ++ [c] ∧ items = prev.filterMap TxCall.frame ∧
          s.answers = prev.map reply

def Inv (n : Nat) (s : Tx) : Prop := ∃ items, Core n s items ∧ s.PcInv n items

structure Filling (n : Nat) (s : Tx) (items : List Frame) (c : TxCall) (pBD : Nat) : Prop where
  core : Core n s items
  pointer : pBD = s.pTxBD
  place : s.pTxBD = items.length % n
  history : ∃ prev, s.calls = prev ++ [c] ∧ items = prev.filterMap TxCall.frame ∧
    s.answers = prev.map reply

variable {c : TxCall} {point : TxPoint} {p : Chain}

@[simp] theorem write_ring_self : (s.write pBD bd).ring pBD = bd := Function.update_self ..

theorem Filling.goto (filling : Filling n s items c pBD) (going : point ≠ .advance)
    (inv : PointInv c (s.ring pBD) point) : Inv n (s.goto c pBD point) := by
  refine ⟨items, filling.core.goto c pBD point, ?_⟩
  cases point with
  | advance => exact absurd rfl going
  | _ => exact ⟨filling.pointer, filling.place, inv, filling.history⟩

theorem Filling.write (filling : Filling n s items c pBD) (pos : 0 < n)
    (free : (s.ring pBD).ready = false) (control : bd.control = (s.ring pBD).control)
    (size : bd.buffer.length = kBufSize) (going : point ≠ .advance) (inv : PointInv c bd point) :
    Inv n ((s.write pBD bd).goto c pBD point) := by
  have written : Filling n (s.write pBD bd) items c pBD :=
    { core := filling.core.write pos (filling.pointer.trans filling.place) free control size
      pointer := filling.pointer
      place := filling.place
      history := filling.history }
  apply written.goto going
  rwa [write_ring_self]

theorem Filling.ret (filling : Filling n s items c pBD) (failed : c.frame = none) :
    Inv n (s.ret c false) := by
  obtain ⟨prev, calls, handed, answers⟩ := filling.history
  refine ⟨items, filling.core.ret c false, filling.place, ?_, ?_⟩
  · show items = s.calls.filterMap TxCall.frame
    simp [calls, handed, failed]
  · show s.answers ++ [answer c false] = s.calls.map reply
    simp [calls, answers, reply, failed]

theorem Filling.copied (filling : Filling n s items (.output p) pBD) {done rest : List (List Byte)}
    {left : Nat} (free : (s.ring pBD).ready = false) (links : p.links = done ++ rest)
    (low : left = min p.totLen done.flatten.length) (ended : rest = [] ∨ left = p.totLen)
    (copied : (s.ring pBD).buffer.take left = done.flatten.take left) :
    Inv n (if left ≠ p.totLen then s.ret (.output p) false
      else s.goto (.output p) pBD (.setLength left)) := by
  split
  · rename_i short
    apply filling.ret
    rcases ended with rfl | full
    · have few : p.links.flatten.length < p.totLen := by
        rw [links, List.append_nil]
        omega
      simp only [TxCall.frame, if_neg (Nat.not_le.mpr few)]
    · exact absurd full short
  · rename_i full
    rw [not_not] at full
    have enough : p.totLen ≤ done.flatten.length := by omega
    have all : p.links.flatten = done.flatten ++ rest.flatten := by
      rw [links, List.flatten_append]
    apply filling.goto (by simp)
    refine ⟨free, ?_⟩
    rw [copied, full, TxCall.frame, all, List.take_append_of_le_length enough,
      if_pos (by rw [List.length_append]; omega)]

theorem Filling.copyPartial (filling : Filling n s items c pBD) (pos : 0 < n) {totLen left len : Nat}
    {rest : List (List Byte)} (inv : PointInv c (s.ring pBD) (.copyPartial totLen rest left len)) :
    Inv n (s.copyPartial c pBD totLen rest left len) := by
  obtain ⟨free, p, done, rfl, rfl, links, low, total, copied⟩ := inv
  rcases rest with _ | ⟨link, rest⟩
  · exact filling.copied free links low (.inl rfl) copied
  rcases len with _ | len
  · exact filling.copied free links low (.inr total) copied
  have size := filling.core.sized pBD
  have fits := p.fits
  -- Nothing was cut off so far, since bytes are still wanted.
  have whole : left = done.flatten.length := by omega
  have taken : (link.take (min link.length (len + 1))).length = min link.length (len + 1) := by
    rw [List.length_take]
    omega
  have inside : left + (link.take (min link.length (len + 1))).length ≤ (s.ring pBD).buffer.length := by
    omega
  apply filling.write pos free
  · rfl
  · rw [Ring.length_overwrite _ _ _ inside, size]
  · simp
  refine ⟨free, p, done ++ [link], rfl, rfl, by simp [links], ?_, by omega, ?_⟩
  · simp only [List.flatten_append, List.flatten_cons, List.flatten_nil, List.append_nil,
      List.length_append]
    omega
  · have written := Ring.take_overwrite _ _ _ inside
    rw [taken] at written
    rw [written, copied, whole]
    simp only [List.flatten_append, List.flatten_cons, List.flatten_nil, List.append_nil,
      List.take_length, List.take_length_add_append]

theorem Inv.filling (inv : Inv n s) (pc : s.pc = .inCall c pBD point) (going : point ≠ .advance) :
    ∃ items, Filling n s items c pBD ∧ PointInv c (s.ring pBD) point := by
  obtain ⟨items, core, at_pc⟩ := inv
  rw [PcInv, pc] at at_pc
  cases point with
  | advance => exact absurd rfl going
  | _ =>
      obtain ⟨pointer, place, at_point, history⟩ := at_pc
      exact ⟨items, ⟨core, pointer, place, history⟩, at_point⟩

theorem Filling.getBufdesc (filling : Filling n s items c pBD) (free : (s.ring pBD).ready = false)
    (inv : PointInv c (s.ring pBD) .getBufdesc) :
    Inv n (s.goto c pBD (copyPoint c)) := by
  cases c with
  | output p =>
      apply filling.goto (by simp [copyPoint])
      exact ⟨free, p, [], rfl, rfl, rfl, by simp, Nat.zero_add _, by simp⟩
  | outputFrame frame =>
      apply filling.goto (by simp [copyPoint])
      exact ⟨free, rfl, inv frame rfl⟩

theorem Filling.memcpy (filling : Filling n s items c pBD) (pos : 0 < n) {frame : List Byte}
    (inv : PointInv c (s.ring pBD) (.memcpy frame)) :
    Inv n ((s.write pBD { s.ring pBD with
        buffer := Ring.overwrite (s.ring pBD).buffer ethPadSize frame }).goto c pBD
      (.setLength ((frame.length + ethPadSize) % 2 ^ 16))) := by
  obtain ⟨free, rfl, short⟩ := inv
  have size := filling.core.sized pBD
  have room : ethPadSize + frame.length ≤ (s.ring pBD).buffer.length := by
    rw [size]
    have : ethPadSize ≤ kBufSize := by decide
    omega
  have small : (frame.length + ethPadSize) % 2 ^ 16 = ethPadSize + frame.length := by
    have : kBufSize < 2 ^ 16 := by decide
    rw [Nat.add_comm]
    exact Nat.mod_eq_of_lt (by omega)
  apply filling.write pos free
  · rfl
  · rw [Ring.length_overwrite _ _ _ room, size]
  · simp
  refine ⟨free, ?_⟩
  have front : ((s.ring pBD).buffer.take ethPadSize).length = ethPadSize := by
    rw [List.length_take]
    omega
  rw [small, Ring.take_overwrite _ _ _ room, List.drop_append_of_le_length (by omega),
    List.drop_eq_nil_of_le (by omega), TxCall.frame, if_pos short, Nat.add_comm]
  rfl

theorem Filling.hand (filling : Filling n s items c pBD) (pos : 0 < n) {control : BitVec 16}
    (inv : PointInv c (s.ring pBD) (.setControl control)) :
    Inv n (({ s.write pBD { s.ring pBD with control := control } with lastReady := some pBD }).goto c
      pBD .advance) := by
  obtain ⟨free, frame, rfl⟩ := inv
  obtain ⟨prev, calls, handed, answers⟩ := filling.history
  have place : pBD = items.length % n := filling.pointer.trans filling.place
  refine ⟨items ++ [(s.ring pBD).frame], (filling.core.hand pos place free).goto c pBD .advance,
    filling.pointer, by simp, ?_, by simp [frame], prev, calls, ?_, answers⟩
  · show s.pTxBD = _
    simp [filling.place]
  · show _ = s.calls.filterMap TxCall.frame
    simp [calls, handed, frame]

theorem Inv.advanced (inv : Inv n s) (pos : 0 < n) (pc : s.pc = .inCall c pBD .advance) :
    Inv n (({ s with pTxBD := nextBD (s.ring pBD) s.pTxBD }).ret c true) := by
  obtain ⟨items, core, at_pc⟩ := inv
  rw [PcInv, pc] at at_pc
  obtain ⟨rfl, some, place, copied, prev, calls, handed, answers⟩ := at_pc
  have bound : s.pTxBD < n := place ▸ Nat.mod_lt _ pos
  refine ⟨items, { core with }, ?_, handed, ?_⟩
  · show nextBD (s.ring s.pTxBD) s.pTxBD = items.length % n
    rw [core.wraps.nextBD bound, place, ← next_mod pos, Nat.sub_add_cancel some]
  · show s.answers ++ [answer c true] = s.calls.map reply
    simp [calls, answers, reply, copied]

theorem Inv.advance (inv : Inv n s) (pos : 0 < n) : Inv n s.advance := by
  unfold Tx.advance
  split
  · exact inv
  · rename_i c pBD point pc
    cases point with
    | advance => exact inv.advanced pos pc
    | getBufdesc =>
        obtain ⟨items, filling, at_point⟩ := inv.filling pc (by simp)
        dsimp only
        split
        · exact inv
        · rename_i free
          exact filling.getBufdesc (by simpa using free) at_point
    | copyPartial totLen rest left len =>
        obtain ⟨items, filling, at_point⟩ := inv.filling pc (by simp)
        exact filling.copyPartial pos at_point
    | memcpy frame =>
        obtain ⟨items, filling, at_point⟩ := inv.filling pc (by simp)
        exact filling.memcpy pos at_point
    | setLength len =>
        obtain ⟨items, filling, free, frame⟩ := inv.filling pc (by simp)
        apply filling.write pos free
        · rfl
        · exact filling.core.sized pBD
        · simp
        · exact ⟨free, frame⟩
    | readControl =>
        obtain ⟨items, filling, free, frame⟩ := inv.filling pc (by simp)
        apply filling.goto (by simp)
        exact ⟨free, frame, rfl⟩
    | setControl control =>
        obtain ⟨items, filling, at_point⟩ := inv.filling pc (by simp)
        exact filling.hand pos at_point

theorem Inv.call (inv : Inv n s) (c : TxCall) : Inv n (s.call c) := by
  unfold Tx.call
  split
  · exact inv
  · rename_i pc
    obtain ⟨items, core, at_pc⟩ := inv
    rw [PcInv, pc] at at_pc
    obtain ⟨place, handed, answers⟩ := at_pc
    have filling : Filling n { s with calls := s.calls ++ [c] } items c s.pTxBD :=
      { core := { core with }
        pointer := rfl
        place := place
        history := ⟨s.calls, rfl, handed, answers⟩ }
    cases c with
    | output p =>
        apply filling.goto (by simp)
        simp [PointInv]
    | outputFrame frame =>
        dsimp only
        rw [if_neg (by simp [core.up])]
        split
        · rename_i long
          apply filling.ret
          simp only [TxCall.frame, if_neg (Nat.not_le.mpr long)]
        · rename_i short
          apply filling.goto (by simp)
          intro other same
          cases same
          exact Nat.not_lt.mp short

theorem send_ring (free : (s.ring pBD).ready = false) : s.send.ring pBD = s.ring pBD := by
  unfold Tx.send
  dsimp only
  split
  · rename_i ready
    have other : pBD ≠ s.hw := by
      intro equal
      subst equal
      simp [free] at ready
    exact Function.update_of_ne other ..
  · rfl

theorem Inv.send (inv : Inv n s) (pos : 0 < n) : Inv n s.send := by
  have kept : s.send.pc = s.pc ∧ s.send.calls = s.calls ∧ s.send.answers = s.answers ∧
      s.send.pTxBD = s.pTxBD := by
    unfold Tx.send
    dsimp only
    split <;> exact ⟨rfl, rfl, rfl, rfl⟩
  obtain ⟨pc, calls, answers, pointer⟩ := kept
  obtain ⟨items, core, at_pc⟩ := inv
  refine ⟨items, core.send pos, ?_⟩
  unfold PcInv at at_pc ⊢
  rw [pc, calls, answers, pointer]
  revert at_pc
  split
  · exact id
  · exact id
  · rename_i c pBD point going state
    intro given
    obtain ⟨here, place, at_point, history⟩ := given
    refine ⟨here, place, ?_, history⟩
    -- Only a descriptor that is waited for can be the one that is sent.
    cases point with
    | getBufdesc => exact at_point
    | advance => trivial
    | _ =>
        rw [send_ring at_point.1]
        exact at_point

theorem Inv.step (inv : Inv n s) (pos : 0 < n) (action : TxStep) : Inv n (s.step action) := by
  cases action with
  | call c => exact inv.call c
  | advance => exact inv.advance pos
  | send => exact inv.send pos

theorem Inv.init (bufs : Nat → Vector Byte kBufSize) : Inv n (init n bufs) := by
  refine ⟨[], ?_, rfl, rfl, rfl⟩
  constructor
  · apply Holds.start
    intro i _
    rw [ready_eq]
    simp only [Tx.init]
    split <;> simp [kTxCrc, kWrap]
  · rfl
  · simp [Tx.init]
  · intro i bound
    rw [wrap_eq]
    simp only [Tx.init]
    split <;> simp_all [kTxCrc, kWrap]
  · intro i
    simp [Tx.init]
  · rfl
  · rfl
  · rfl

/-- The calls of a run that find the driver free, which are those that enter it. -/
def entered : Tx → List TxStep → List TxCall
  | _, [] => []
  | s, .call c :: run => (if s.pc = .idle then [c] else []) ++ entered (s.call c) run
  | s, .advance :: run => entered s.advance run
  | s, .send :: run => entered s.send run

/-- Of the calls, those that are past their hand-over, or never get to it. -/
def handed (s : Tx) (calls : List TxCall) : List TxCall :=
  match s.pc with
  | .idle => calls
  | .inCall _ _ .advance => calls
  | .inCall _ _ _ => calls.dropLast

def returned (s : Tx) (calls : List TxCall) : List TxCall :=
  match s.pc with
  | .idle => calls
  | .inCall _ _ _ => calls.dropLast

/-- The accesses that a call still makes at most, those aside in which it waits for its descriptor. -/
def left (s : Tx) : Nat :=
  match s.pc with
  | .idle => 0
  | .inCall (.output p) _ .getBufdesc => p.links.length + 7
  | .inCall (.outputFrame _) _ .getBufdesc => 7
  | .inCall _ _ (.copyPartial _ rest _ _) => rest.length + 6
  | .inCall _ _ (.memcpy _) => 6
  | .inCall _ _ (.setLength _) => 5
  | .inCall _ _ .readControl => 4
  | .inCall _ _ (.setControl _) => 3
  | .inCall _ _ .advance => 2

/-- The call waits for a descriptor that the hardware has. -/
def Waits (s : Tx) : Prop := ∃ c pBD, s.pc = .inCall c pBD .getBufdesc ∧ (s.ring pBD).ready = true

/-- The descriptor after the last one made ready; `update_bufdesc` moves there last. -/
def afterLast (n : Nat) (s : Tx) : Nat :=
  match s.lastReady, s.pc with
  | none, _ => 0
  | some last, .inCall _ _ .advance => last
  | some last, _ => (last + 1) % n

/-- What is seen of the ring once these calls have entered the driver. -/
structure Transmits (n : Nat) (calls : List TxCall) (s : Tx) : Prop where
  owned : s.wroteReady = false
  wraps : ∀ i < n, bits (s.ring i).control kWrap = true ↔ i + 1 = n
  pointer : s.pTxBD = s.afterLast n
  frames : ∃ waiting ≤ n,
    (∀ i < n, (s.ring i).ready = true ↔ ∃ j < waiting, (s.hw + j) % n = i) ∧
    s.sent ++ (List.range waiting).map (fun j => (s.ring ((s.hw + j) % n)).frame) =
      (s.handed calls).filterMap TxCall.frame
  answers : s.answers = (s.returned calls).map reply
  goesOn : s.pc ≠ .idle → ¬ s.Waits → s.advance.left < s.left

/-- A call that does not wait comes nearer to its end. -/
theorem left_advance (busy : s.pc ≠ .idle) (works : ¬ s.Waits) : s.advance.left < s.left := by
  unfold Tx.advance
  split
  · next idle => exact absurd idle busy
  · next c pBD point pc =>
      cases point with
      | getBufdesc =>
          dsimp only
          rw [if_neg fun ready => works ⟨c, pBD, pc, ready⟩]
          cases c <;> simp [left, pc, goto, copyPoint]
      | copyPartial totLen rest left len =>
          dsimp only [copyPartial]
          split
          · simp [Tx.left, pc, goto]
          · split <;> simp [Tx.left, pc, goto, ret]
      | memcpy frame => simp [left, pc, goto]
      | setLength len => simp [left, pc, goto]
      | readControl => simp [left, pc, goto]
      | setControl control => simp [left, pc, goto]
      | advance => simp [left, pc, ret]

theorem calls_advance (s : Tx) : s.advance.calls = s.calls := by
  unfold Tx.advance
  split
  · rfl
  · next c pBD point pc =>
      cases point with
      | getBufdesc =>
          dsimp only
          split <;> rfl
      | copyPartial totLen rest left len =>
          dsimp only [copyPartial]
          split
          · rfl
          · split <;> rfl
      | memcpy | setLength | readControl | setControl | advance => rfl

theorem calls_call (s : Tx) (c : TxCall) : (s.call c).calls = s.calls ++ if s.pc = .idle then [c] else [] := by
  unfold Tx.call
  split
  · next pc => rw [if_neg (by rw [pc]; exact nofun), List.append_nil]
  · next pc =>
      rw [if_pos pc]
      cases c with
      | output p => rfl
      | outputFrame frame =>
          dsimp only
          split
          · rfl
          · split <;> rfl

theorem calls_send (s : Tx) : s.send.calls = s.calls := by
  unfold Tx.send
  dsimp only
  split <;> rfl

theorem calls_run (run : List TxStep) (s : Tx) : (run.foldl step s).calls = s.calls ++ s.entered run := by
  induction run generalizing s with
  | nil => exact (List.append_nil _).symm
  | cons e run ih =>
      rw [List.foldl_cons, ih]
      cases e with
      | call c => rw [step, calls_call, entered, List.append_assoc]
      | advance => rw [step, calls_advance, entered]
      | send => rw [step, calls_send, entered]

theorem PcInv.handed (pc : s.PcInv n items) : items = (s.handed s.calls).filterMap TxCall.frame := by
  unfold PcInv at pc
  unfold Tx.handed
  split at pc
  · exact pc.2.1
  · obtain ⟨-, -, -, -, prev, -, handed, -⟩ := pc
    exact handed
  · obtain ⟨-, -, -, prev, calls, handed, -⟩ := pc
    simp_all

theorem PcInv.answers (pc : s.PcInv n items) : s.answers = (s.returned s.calls).map reply := by
  unfold PcInv at pc
  unfold returned
  split at pc
  · simp_all
  · obtain ⟨-, -, -, -, prev, calls, -, answers⟩ := pc
    simp_all
  · obtain ⟨-, -, -, prev, calls, -, answers⟩ := pc
    simp_all

theorem Core.afterLast (core : Core n s items) (pc : s.PcInv n items) : s.pTxBD = s.afterLast n := by
  have last := core.last
  unfold PcInv at pc
  unfold Tx.afterLast
  by_cases none : items.length = 0
  · rw [if_pos none] at last
    rw [last]
    split at pc
    · rw [pc.1, none, Nat.zero_mod]
    · omega
    · rw [pc.2.1, none, Nat.zero_mod]
  · rw [if_neg none] at last
    have next : ((items.length - 1) % n + 1) % n = items.length % n := by
      rw [Nat.mod_add_mod, Nat.sub_add_cancel (Nat.pos_of_ne_zero none)]
    rw [last]
    split at pc
    · rename_i state
      rw [state, pc.1, ← next]
    · rename_i state
      rw [state, pc.2.2.1]
    · rename_i c pBD point going state
      rw [state, pc.2.1, ← next]
      cases point with
      | advance => exact absurd rfl going
      | _ => rfl

theorem Inv.transmits (inv : Inv n s) (pos : 0 < n) : Transmits n s.calls s := by
  obtain ⟨items, core, pc⟩ := inv
  have marks := core.holds.marks
  refine ⟨core.clean, core.wraps, core.afterLast pc, ?_, pc.answers, left_advance⟩
  refine ⟨items.length - s.sent.length, ?_, ?_, ?_⟩
  · have := marks.room
    omega
  · intro i bound
    rw [marks.flag_iff i bound, core.hw]
    constructor
    · intro given
      obtain ⟨k, from_lo, to_hi, same⟩ := given
      refine ⟨k - s.sent.length, by omega, ?_⟩
      rw [Nat.mod_add_mod, Nat.add_sub_cancel' from_lo, same]
    · intro given
      obtain ⟨j, inside, same⟩ := given
      refine ⟨s.sent.length + j, by omega, by omega, ?_⟩
      rwa [Nat.mod_add_mod] at same
  · have rest := core.holds.drop_eq
    simp only [core.hw, Nat.mod_add_mod]
    rw [← pc.handed, ← rest]
    calc s.sent ++ items.drop s.sent.length
        = items.take s.sent.length ++ items.drop s.sent.length := by rw [← core.sent]
      _ = items := List.take_append_drop ..

end Tx

/-- Any calls and any hardware steps between the driver's accesses, from `init` on. -/
theorem transmit_ring (n : ℕ+) (bufs : Nat → Vector Byte kBufSize) (run : List TxStep) :
    Tx.Transmits n ((Tx.init n bufs).entered run) (run.foldl Tx.step (Tx.init n bufs)) := by
  have inv : Tx.Inv n (run.foldl Tx.step (Tx.init n bufs)) :=
    Run.foldl_preserves (Tx.Inv n) Tx.step (fun s action inv => inv.step n.pos action) run _
      (Tx.Inv.init bufs)
  have calls : (run.foldl Tx.step (Tx.init n bufs)).calls = (Tx.init n bufs).entered run := Tx.calls_run run _
  rw [← calls]
  exact inv.transmits n.pos

end QNEthernet.Drivers.Teensy41
