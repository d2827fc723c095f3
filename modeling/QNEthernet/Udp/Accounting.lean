import QNEthernet.Udp.Queue
import QNEthernet.RawFrame.Model

/-! Receive accounting: what the counters of `EthernetUDP` and `EthernetFrame` add up to. -/

namespace QNEthernet.Udp

open Internal Lwip RawFrame

/-- Every packet counted is returned, queued or dropped. The counters are 32 bits wide. -/
def Balanced (queued returned size : Nat) (total dropped : UInt32) : Prop :=
  UInt32.ofNat queued + total = UInt32.ofNat returned + UInt32.ofNat size + dropped

namespace Balanced

variable {α : Type} [Inhabited α] {queued returned : Nat} {total dropped : UInt32}

omit [Inhabited α] in
theorem arrive {q : CircularBuffer α} (balanced : Balanced queued returned q.size total dropped)
    (slot : Nat) (x : α) :
    Balanced queued returned (q.put.2.store slot x).size (total + 1)
      (if q.full then dropped + 1 else dropped) := by
  have size := q.put_store_size slot x
  unfold Balanced at *
  by_cases full : q.full = true
  · simp only [full, if_true, Nat.add_right_cancel_iff] at size ⊢
    rw [size]
    grind
  · simp only [full, Bool.false_eq_true, if_false, Nat.add_zero] at size ⊢
    rw [size, UInt32.ofNat_add]
    grind

theorem parse {q : CircularBuffer α} (balanced : Balanced queued returned q.size total dropped)
    (moved : α → α) (some : q.empty = false) :
    Balanced queued (returned + 1) (q.get moved).2.size total dropped := by
  have size := q.get_size moved some
  unfold Balanced at *
  rw [← size, UInt32.ofNat_add] at balanced
  rw [UInt32.ofNat_add]
  grind

theorem resize {q : CircularBuffer α} (balanced : Balanced queued returned q.size total dropped)
    (wf : q.WF) (capacity : Nat) (fits : q.size ≤ max capacity 1) :
    Balanced queued returned (q.setCapacity capacity).size total dropped := by
  rw [q.setCapacity_size wf capacity fits]
  exact balanced

theorem restart (size : Nat) : Balanced size 0 size 0 0 := by
  unfold Balanced
  simp

end Balanced

structure Tally where
  queued : Nat := 0
  returned : Nat := 0

def Tally.count (t : Tally) : Event → Tally
  | .started queued => { queued := queued, returned := 0 }
  | .parsed _ _ => { t with returned := t.returned + 1 }
  | _ => t

def tally (events : List Event) : Tally := events.foldl Tally.count {}

@[simp] theorem tally_append (events : List Event) (event : Event) :
    tally (events ++ [event]) = (tally events).count event := by
  simp [tally]

def Rx.balanced (s : Rx) : Prop :=
  Balanced (tally s.events).queued (tally s.events).returned s.inBuf.size
    s.totalReceiveCount s.droppedReceiveCount

structure Accounted (s : Rx) : Prop where
  wf : s.inBuf.WF
  balanced : s.balanced

theorem accounted_of_event {s t : Rx} (event : Event) (wf : t.inBuf.WF) (recorded : t.events = s.events ++ [event])
    (balanced : Balanced ((tally s.events).count event).queued ((tally s.events).count event).returned
      t.inBuf.size t.totalReceiveCount t.droppedReceiveCount) : Accounted t := by
  refine ⟨wf, ?_⟩
  rw [Rx.balanced, recorded, tally_append]
  exact balanced

theorem emit_accounted {s : Rx} (accounted : Accounted s) (event : Event)
    (uncounted : (tally s.events).count event = tally s.events) : Accounted (s.emit event) := by
  refine accounted_of_event event accounted.wf rfl ?_
  rw [uncounted]
  exact accounted.balanced

theorem accounted_of_same {s t : Rx} (accounted : Accounted s) (inBuf : t.inBuf = s.inBuf)
    (total : t.totalReceiveCount = s.totalReceiveCount)
    (dropped : t.droppedReceiveCount = s.droppedReceiveCount)
    (same : tally t.events = tally s.events) : Accounted t := by
  refine ⟨inBuf ▸ accounted.wf, ?_⟩
  rw [Rx.balanced, same, inBuf, total, dropped]
  exact accounted.balanced

theorem parse_accounted {s : Rx} (accounted : Accounted s) : Accounted (s.act .parse) := by
  by_cases empty : s.inBuf.empty = true
  · simp only [Rx.act, empty, if_true]
    exact accounted_of_same accounted rfl rfl rfl (by simp [Tally.count])
  · have present : s.inBuf.empty = false := by simpa using empty
    simp only [Rx.act, present, Bool.false_eq_true, if_false]
    exact accounted_of_event _ (CircularBuffer.get_wf Packet.movedFrom s.inBuf accounted.wf) rfl
      (accounted.balanced.parse Packet.movedFrom present)

theorem readOne_accounted {s : Rx} (accounted : Accounted s) : Accounted (s.act .readOne) := by
  simp only [Rx.act]
  split
  · exact accounted_of_same accounted rfl rfl rfl (by simp [Tally.count])
  · exact emit_accounted accounted _ rfl

theorem read_accounted {s : Rx} (accounted : Accounted s) (len : Nat) :
    Accounted (s.act (.read len)) := by
  simp only [Rx.act]
  split
  · exact emit_accounted accounted _ rfl
  · exact accounted_of_same accounted rfl rfl rfl (by simp [Tally.count])

theorem act_accounted {s : Rx} (accounted : Accounted s) (action : Action)
    (fits : ∀ capacity, action = .resize capacity → s.inBuf.size ≤ max capacity 1) :
    Accounted (s.act action) := by
  cases action with
  | arrive q d =>
      exact accounted_of_event _ (CircularBuffer.put_store_wf s.inBuf accounted.wf _) rfl
        (accounted.balanced.arrive _ _)
  | resize capacity =>
      exact accounted_of_event _ (CircularBuffer.setCapacity_wf s.inBuf accounted.wf capacity) rfl
        (accounted.balanced.resize accounted.wf capacity (fits capacity rfl))
  | restart =>
      exact accounted_of_event _ accounted.wf rfl (Balanced.restart s.inBuf.size)
  | parse => exact parse_accounted accounted
  | noPcb | available | peek => exact emit_accounted accounted _ rfl
  | readOne => exact readOne_accounted accounted
  | read len => exact read_accounted accounted len

theorem acts_accounted {s : Rx} (accounted : Accounted s) {actions : List Action}
    (sized : ∀ action ∈ actions, ∀ capacity, action ≠ .resize capacity) : Accounted (s.acts actions) := by
  induction actions generalizing s with
  | nil => exact accounted
  | cons action actions ih =>
      have first := act_accounted accounted action fun capacity same =>
        absurd same (sized action List.mem_cons_self capacity)
      exact ih first fun action' member => sized action' (List.mem_cons_of_mem action member)

namespace World

/-- Everything in the object's queue fits the new capacity. -/
def fitsCapacity (o : ObjId) (w : World) (entry : ObjId × Call) : Prop :=
  ∀ capacity, entry = (o, .setReceiveQueueCapacity capacity) → (w.obj o).inBuf.size ≤ max capacity 1

theorem call_accounted (o : ObjId) (w : World) (entry : ObjId × Call) (fits : fitsCapacity o w entry)
    (accounted : Accounted (w.rx o)) : Accounted ((w.call entry.1 entry.2).rx o) := by
  rw [call_rx]
  by_cases asked : ∃ capacity, entry = (o, .setReceiveQueueCapacity capacity)
  · obtain ⟨capacity, rfl⟩ := asked
    rw [actions, own_self]
    refine act_accounted accounted (.resize capacity) fun capacity' same => ?_
    cases same
    exact fits capacity rfl
  · apply acts_accounted accounted
    intro action member capacity same
    exact asked ⟨capacity, actions_resizes (same ▸ member)⟩

theorem boot_accounted (capacity : ObjId → Nat) (o : ObjId) : Accounted ((boot capacity).rx o) :=
  ⟨CircularBuffer.make_wf _, Balanced.restart 0⟩

theorem calls_accounted (capacity : ObjId → Nat) (run : List (ObjId × Call)) (o : ObjId)
    (fits : Run.Allowed (fitsCapacity o) (fun w entry => w.call entry.1 entry.2) (boot capacity) run) :
    Accounted (((boot capacity).calls run).rx o) :=
  Run.allowed_preserves (fun w => Accounted (w.rx o)) _ _ (call_accounted o) run _ fits
    (boot_accounted capacity o)

end World

/-- The counters of `EthernetFrame`, which start with the object. -/
structure FrameAccounted (f : EthernetFrame) : Prop where
  wf : f.inBuf.WF
  balanced : Balanced 0 f.returned f.inBuf.size f.totalReceiveCount f.droppedReceiveCount

theorem recvFunc_frameAccounted (f : EthernetFrame) (arrival : Pbuf × UInt32)
    (accounted : FrameAccounted f) : FrameAccounted (f.recvFunc arrival) := by
  have arrived := accounted.balanced.arrive
  by_cases full : f.inBuf.full = true
  · simp only [full, if_true] at arrived
    simp only [EthernetFrame.recvFunc, full, if_true]
    exact ⟨CircularBuffer.put_store_wf f.inBuf accounted.wf _, arrived _ _⟩
  · simp only [full, Bool.false_eq_true, if_false] at arrived
    simp only [EthernetFrame.recvFunc, full, Bool.false_eq_true, if_false]
    exact ⟨CircularBuffer.put_store_wf f.inBuf accounted.wf _, arrived _ _⟩

theorem loop_frameAccounted (f : EthernetFrame) (arrivals : List (Pbuf × UInt32))
    (accounted : FrameAccounted f) : FrameAccounted (f.loop arrivals) :=
  Run.foldl_preserves FrameAccounted _ recvFunc_frameAccounted arrivals f accounted

theorem parseFrame_frameAccounted (f : EthernetFrame) (arrivals : List (Pbuf × UInt32))
    (accounted : FrameAccounted f) : FrameAccounted (f.parseFrame arrivals).2 := by
  unfold EthernetFrame.parseFrame
  split
  · exact ⟨accounted.wf, accounted.balanced⟩
  next some =>
    have present : f.inBuf.empty = false := by simpa using some
    have popped : FrameAccounted { f with
        frame := (f.inBuf.get Frame.movedFrom).1
        inBuf := (f.inBuf.get Frame.movedFrom).2
        returned := f.returned + 1 } :=
      ⟨CircularBuffer.get_wf Frame.movedFrom f.inBuf accounted.wf,
        accounted.balanced.parse Frame.movedFrom present⟩
    have looped := loop_frameAccounted _ arrivals popped
    dsimp only
    split <;> exact ⟨looped.wf, looped.balanced⟩

def frameFits (f : EthernetFrame) (c : RawFrame.Call) : Prop :=
  ∀ capacity, c = .setReceiveQueueCapacity capacity → f.inBuf.size ≤ max capacity 1

theorem call_frameAccounted (f : EthernetFrame) (c : RawFrame.Call) (fits : frameFits f c)
    (accounted : FrameAccounted f) : FrameAccounted (f.call c) := by
  cases c with
  | loop arrivals => exact loop_frameAccounted f arrivals accounted
  | parseFrame arrivals => exact parseFrame_frameAccounted f arrivals accounted
  | setReceiveQueueCapacity capacity =>
      exact ⟨CircularBuffer.setCapacity_wf f.inBuf accounted.wf capacity,
        accounted.balanced.resize accounted.wf capacity (fits capacity rfl)⟩

theorem calls_frameAccounted (run : List RawFrame.Call)
    (fits : Run.Allowed frameFits EthernetFrame.call {} run) :
    FrameAccounted (run.foldl EthernetFrame.call {}) :=
  Run.allowed_preserves FrameAccounted _ _ call_frameAccounted run _ fits
    ⟨CircularBuffer.make_wf 1, Balanced.restart 0⟩

/-- As long as no call makes a queue smaller than what it holds, every packet received since the
counters were reset is counted once, as returned, queued or dropped. -/
theorem receive_counts_balance (capacity : ObjId → Nat) (run : List (ObjId × Call)) (o : ObjId)
    (frames : List RawFrame.Call) :
    (Run.Allowed (World.fitsCapacity o) (fun w entry => w.call entry.1 entry.2)
        (World.boot capacity) run →
      let w := (World.boot capacity).calls run
      let counted := tally (eventsOf w.trace o)
      Balanced counted.queued counted.returned (w.obj o).inBuf.size
        (w.obj o).totalReceiveCount (w.obj o).droppedReceiveCount) ∧
    (Run.Allowed frameFits EthernetFrame.call {} frames →
      let f := frames.foldl EthernetFrame.call {}
      Balanced 0 f.returned f.inBuf.size f.totalReceiveCount f.droppedReceiveCount) := by
  constructor
  · intro fits
    exact (World.calls_accounted capacity run o fits).balanced
  · intro fits
    exact (calls_frameAccounted frames fits).balanced

def oneByte : Datagram :=
  { p := { links := [[1]], short := by decide }, addr := 1, port := 2, dest := 3, now := 4 }

/-- A full queue that drops, grows, and shrinks to what is left in it. -/
def fittingRun : List (ObjId × Call) :=
  [(0, .begin 7 false {}), (0, .loop [(0, some oneByte), (0, some oneByte), (0, some oneByte)]),
    (0, .setReceiveQueueCapacity 3), (0, .parsePacket [(0, some oneByte)]), (0, .parsePacket []),
    (0, .setReceiveQueueCapacity 1)]

def fittingFrames : List RawFrame.Call :=
  [.setReceiveQueueCapacity 2, .loop [(oneByte.p, 1), (oneByte.p, 2), (oneByte.p, 3)],
    .setReceiveQueueCapacity 3, .parseFrame [(oneByte.p, 4)], .setReceiveQueueCapacity 2]

theorem receive_counts_balance_fittingRun :
    (let w := (World.boot fun _ => 2).calls fittingRun
    let counted := tally (eventsOf w.trace 0)
    (w.obj 0).inBuf.size = 1 ∧ (w.obj 0).droppedReceiveCount = 1 ∧
    Balanced counted.queued counted.returned (w.obj 0).inBuf.size
      (w.obj 0).totalReceiveCount (w.obj 0).droppedReceiveCount) ∧
    let f := fittingFrames.foldl EthernetFrame.call {}
    f.inBuf.size = 2 ∧ f.droppedReceiveCount = 1 ∧
    Balanced 0 f.returned f.inBuf.size f.totalReceiveCount f.droppedReceiveCount := by
  have balance := receive_counts_balance (fun _ => 2) fittingRun 0 fittingFrames
  refine ⟨⟨by decide, by decide, balance.1 ⟨?_, ?_, ?_, ?_, ?_, ?_, trivial⟩⟩,
    by decide, by decide, balance.2 ⟨?_, ?_, ?_, ?_, ?_, trivial⟩⟩
  all_goals
    intro capacity same
    cases same
  all_goals decide

/-- Two packets are received, one is cut by the smaller capacity, and none is counted as dropped. -/
theorem receive_counts_cut_unbalanced :
    let w := (World.boot fun _ => 2).calls [(0, .begin 7 false {}),
      (0, .loop [(0, some oneByte), (0, some oneByte)]), (0, .setReceiveQueueCapacity 1)]
    let counted := tally (eventsOf w.trace 0)
    ¬ Balanced counted.queued counted.returned (w.obj 0).inBuf.size
      (w.obj 0).totalReceiveCount (w.obj 0).droppedReceiveCount := by
  unfold Balanced
  decide

end QNEthernet.Udp
