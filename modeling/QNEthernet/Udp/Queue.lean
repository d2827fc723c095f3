import QNEthernet.Udp.Mailbox
import QNEthernet.Udp.Receive

/-! The receive side refines the mailbox: along every run each answer is the mailbox's. -/

namespace QNEthernet.Udp

open Internal Lwip

theorem fillPacket_eq (slot : Packet) (q : UdpPcb) (d : Datagram) :
    World.fillPacket slot q d = .ofDatagram q d := by
  by_cases some : d.p.totLen > 0
  · simp [World.fillPacket, some, Packet.clear, Packet.ofDatagram, Pbuf.bytes]
  · have none : d.p.bytes = [] := by
      simpa [Pbuf.totLen] using some
    simp only [World.fillPacket, some, if_false, Packet.clear, Packet.ofDatagram, none]

/-- The members of an object stand for a mailbox. -/
structure Refines (s : Rx) (m : Mailbox) : Prop where
  wf : s.inBuf.WF
  queue : m.queue = s.inBuf.abstract wf
  packet : m.packet = s.packet
  unread : m.unread = s.unread

namespace Refines

variable {s : Rx} {m : Mailbox}

theorem items (refines : Refines s m) : m.queue.items = s.inBuf.contents := by
  rw [refines.queue]
  rfl

theorem capacity (refines : Refines s m) : m.queue.capacity = s.inBuf.capacity := by
  rw [refines.queue]
  rfl

theorem empty_iff (refines : Refines s m) : s.inBuf.empty = true ↔ m.queue.items = [] := by
  rw [refines.items, ← List.length_eq_zero_iff, CircularBuffer.length_contents s.inBuf refines.wf]
  simp [CircularBuffer.empty]

theorem emit (refines : Refines s m) (event : Event) : Refines (s.emit event) m :=
  ⟨refines.wf, refines.queue, refines.packet, refines.unread⟩

end Refines

theorem unread_available {s : Rx} (available : s.isAvailable = true) :
    0 ≤ s.packetPos ∧ s.packetPos.toNat < s.packet.data.length ∧
      s.unread = s.packet.data.drop s.packetPos.toNat := by
  simp only [Rx.isAvailable, Bool.and_eq_true, decide_eq_true_eq] at available
  refine ⟨available.1, available.2, ?_⟩
  rw [Rx.unread, if_neg (by omega)]

theorem unread_unavailable {s : Rx} (unavailable : ¬ s.isAvailable = true) : s.unread = [] := by
  simp only [Rx.isAvailable, Bool.and_eq_true, decide_eq_true_eq, not_and] at unavailable
  unfold Rx.unread
  split
  · rfl
  next started =>
    have past := unavailable (by omega)
    exact List.drop_eq_nil_of_le (by omega)

theorem headOr_unread (s : Rx) :
    headOr s.unread =
      if s.isAvailable then ((s.packet.data.getD s.packetPos.toNat 0).toNat : Int) else -1 := by
  by_cases available : s.isAvailable = true
  · obtain ⟨-, inside, unread⟩ := unread_available available
    rw [if_pos available, unread, List.drop_eq_getElem_cons inside,
      List.getD_eq_getElem?_getD, List.getElem?_eq_getElem inside, Option.getD_some]
    rfl
  · rw [if_neg available, unread_unavailable available]
    rfl

theorem length_unread (s : Rx) :
    (s.unread.length : Int) = if s.isAvailable then s.packet.data.length - s.packetPos else 0 := by
  by_cases available : s.isAvailable = true
  · obtain ⟨started, inside, unread⟩ := unread_available available
    rw [if_pos available, unread, List.length_drop]
    omega
  · rw [if_neg available, unread_unavailable available]
    rfl

theorem unread_advance {s : Rx} (available : s.isAvailable = true) (n : Nat) :
    ({ s with packetPos := s.packetPos + n } : Rx).unread = s.unread.drop n := by
  obtain ⟨started, -, unread⟩ := unread_available available
  rw [unread, List.drop_drop, Rx.unread, if_neg (by dsimp only; omega)]
  dsimp only
  congr 1
  omega

theorem arrive_refines {s : Rx} {m : Mailbox} (refines : Refines s m) (q : UdpPcb) (d : Datagram) :
    Refines (s.act (.arrive q d)) (m.serve (.arrive q d)) := by
  refine ⟨CircularBuffer.put_store_wf s.inBuf refines.wf _, ?_, refines.packet, refines.unread⟩
  dsimp only [Rx.act, Mailbox.serve]
  rw [refines.queue]
  simp only [fillPacket_eq]
  exact (CircularBuffer.put_store_refines s.inBuf refines.wf _).symm

theorem resize_refines {s : Rx} {m : Mailbox} (refines : Refines s m) (capacity : Nat) :
    Refines (s.act (.resize capacity)) (m.serve (.resize capacity)) := by
  refine ⟨CircularBuffer.setCapacity_wf s.inBuf refines.wf capacity, ?_, refines.packet, refines.unread⟩
  dsimp only [Rx.act, Mailbox.serve]
  rw [refines.queue]
  exact (CircularBuffer.setCapacity_refines s.inBuf refines.wf capacity).symm

theorem parse_popped {s : Rx} {m : Mailbox} (refines : Refines s m) (present : s.inBuf.empty = false) :
    m.queue.pop = some ((s.inBuf.get Packet.movedFrom).1,
      (s.inBuf.get Packet.movedFrom).2.abstract
        (CircularBuffer.get_wf Packet.movedFrom s.inBuf refines.wf)) := by
  rw [refines.queue]
  exact CircularBuffer.get_refines Packet.movedFrom s.inBuf refines.wf present

theorem parse_refines {s : Rx} {m : Mailbox} (refines : Refines s m) :
    Refines (s.act .parse) (m.serve .parse) := by
  by_cases empty : s.inBuf.empty = true
  · have none : m.queue.pop = none := Mailbox.pop_empty (refines.empty_iff.mp empty)
    simp only [Rx.act, empty, if_true, Mailbox.serve, none]
    exact ⟨refines.wf, refines.queue, refines.packet, rfl⟩
  · have present : s.inBuf.empty = false := by simpa using empty
    simp only [Rx.act, present, Bool.false_eq_true, if_false, Mailbox.serve, parse_popped refines present]
    exact ⟨CircularBuffer.get_wf Packet.movedFrom s.inBuf refines.wf, rfl, rfl, by simp [Rx.unread]⟩

theorem readOne_refines {s : Rx} {m : Mailbox} (refines : Refines s m) :
    Refines (s.act .readOne) (m.serve .readOne) := by
  by_cases available : s.isAvailable = true
  · simp only [Rx.act, available, if_true]
    refine ⟨refines.wf, refines.queue, refines.packet, ?_⟩
    rw [Mailbox.serve, refines.unread]
    exact (unread_advance available 1).symm
  · simp only [Rx.act, available, Bool.false_eq_true, if_false, Rx.emit]
    refine ⟨refines.wf, refines.queue, refines.packet, ?_⟩
    simp only [Mailbox.serve, refines.unread, unread_unavailable available, List.drop_nil]
    exact (unread_unavailable available).symm

theorem read_refines {s : Rx} {m : Mailbox} (refines : Refines s m) (len : Nat) :
    Refines (s.act (.read len)) (m.serve (.read len)) := by
  by_cases skip : (len = 0 || !s.isAvailable) = true
  · have nothing : m.unread.drop len = m.unread := by
      simp only [Bool.or_eq_true, decide_eq_true_eq, Bool.not_eq_true'] at skip
      rcases skip with zero | unavailable
      · simp [zero]
      · simp [refines.unread, unread_unavailable (s := s) (by simp [unavailable])]
    simp only [Rx.act, skip, if_true, Rx.emit, Mailbox.serve, nothing]
    exact ⟨refines.wf, refines.queue, refines.packet, refines.unread⟩
  · have available : s.isAvailable = true := by
      simp only [Bool.or_eq_true, Bool.not_eq_true', not_or, Bool.not_eq_false] at skip
      exact skip.2
    obtain ⟨-, -, unread⟩ := unread_available available
    have count : s.packet.data.length - s.packetPos.toNat = s.unread.length := by
      rw [unread, List.length_drop]
    simp only [Rx.act, skip, Bool.false_eq_true, if_false, count]
    refine ⟨refines.wf, refines.queue, refines.packet, ?_⟩
    have advanced := unread_advance available (min len s.unread.length)
    dsimp only [Rx.unread, Mailbox.serve] at advanced ⊢
    rw [refines.unread]
    refine Eq.trans ?_ advanced.symm
    exact List.drop_eq_drop_min

theorem act_refines {s : Rx} {m : Mailbox} (refines : Refines s m) (action : Action) :
    Refines (s.act action) (m.serve action) := by
  cases action with
  | arrive q d => exact arrive_refines refines q d
  | resize capacity => exact resize_refines refines capacity
  | parse => exact parse_refines refines
  | readOne => exact readOne_refines refines
  | read len => exact read_refines refines len
  | restart => exact ⟨refines.wf, refines.queue, refines.packet, refines.unread⟩
  | noPcb | available | peek => exact refines.emit _

theorem acts_refines {s : Rx} {m : Mailbox} (refines : Refines s m) (actions : List Action) :
    Refines (s.acts actions) (m.run actions) := by
  induction actions generalizing s m with
  | nil => exact refines
  | cons action actions ih => exact ih (act_refines refines action)

namespace World

/-- Every object constructed, none of them bound. -/
def boot (capacity : ObjId → Nat) : World :=
  { obj := fun o => { inBuf := CircularBuffer.make (max (capacity o) 1) } }

def calls (w : World) (run : List (ObjId × Call)) : World :=
  run.foldl (fun w entry => w.call entry.1 entry.2) w

/-- What a run asks of the receive side of one object. -/
def requests (w : World) (o : ObjId) (run : List (ObjId × Call)) : List Action :=
  Run.outputs (fun w entry => w.call entry.1 entry.2) (fun w entry => w.actions o entry) w run

def answer (w : World) (o : ObjId) (entry : ObjId × Call) : List Answer :=
  if entry.1 = o then
    match entry.2 with
    | .parsePacket arrivals => [.parsed (w.parsePacket o arrivals).1]
    | .available => [.available (w.available o).1]
    | .peek => [.peeked (w.peek o).1]
    | .read => [.readOne (w.read o).1]
    | .readBuf len => [.read (w.readBuf o len).1]
    | _ => []
  else []

/-- What the calls of one object return in a run. -/
def answers (w : World) (o : ObjId) (run : List (ObjId × Call)) : List Answer :=
  Run.outputs (fun w entry => w.call entry.1 entry.2) (fun w entry => w.answer o entry) w run

/-- The packet that a `parsePacket` leaves current when it does not return -1. -/
def makes (w : World) (o : ObjId) (entry : ObjId × Call) : List Packet :=
  match entry with
  | (o', .parsePacket arrivals) =>
      if o' = o ∧ (w.parsePacket o arrivals).1 ≠ -1 then [((w.parsePacket o arrivals).2.obj o).packet]
      else []
  | _ => []

/-- The packets that a run makes current, in order. -/
def current (w : World) (o : ObjId) (run : List (ObjId × Call)) : List Packet :=
  Run.outputs (fun w entry => w.call entry.1 entry.2) (fun w entry => w.makes o entry) w run

theorem boot_refines (capacity : ObjId → Nat) (o : ObjId) :
    Refines ((boot capacity).rx o) (Mailbox.init (capacity o)) := by
  refine ⟨CircularBuffer.make_wf _, ?_, rfl, rfl⟩
  apply Fifo.ext_items
  · simp [Mailbox.init, CircularBuffer.abstract, rx, boot, EthernetUDP.side, CircularBuffer.make,
      CircularBuffer.capacity]
  · exact (CircularBuffer.make_contents (max (capacity o) 1)).symm

theorem call_refines {w : World} {o : ObjId} {m : Mailbox} (refines : Refines (w.rx o) m)
    (entry : ObjId × Call) :
    Refines ((w.call entry.1 entry.2).rx o) (m.run (w.actions o entry)) := by
  rw [call_rx]
  exact acts_refines refines (w.actions o entry)

theorem parsePacket_ret (w : World) (o : ObjId) (arrivals : List (PcbId × Option Datagram)) :
    (w.parsePacket o arrivals).1 = -1 ↔
      (w.obj o).pcb = none ∨ ((w.loop arrivals).obj o).inBuf.empty = true := by
  unfold parsePacket
  by_cases unbound : (w.obj o).pcb = none
  · simp [unbound]
  · by_cases empty : ((w.loop arrivals).obj o).inBuf.empty = true
    · simp [unbound, empty]
    · simp only [unbound, if_false, empty, Bool.false_eq_true, or_self, iff_false]
      exact fun negative => by simp at negative

theorem parsePacket_found (w : World) (o : ObjId) (arrivals : List (PcbId × Option Datagram))
    (found : (w.parsePacket o arrivals).1 ≠ -1) :
    (w.parsePacket o arrivals).1 = ((w.parsePacket o arrivals).2.obj o).packet.data.length ∧
      ((w.parsePacket o arrivals).2.obj o).packetPos = 0 := by
  unfold parsePacket at found ⊢
  split_ifs at found ⊢
  · exact absurd rfl found
  · dsimp only at found ⊢
    split_ifs at found ⊢
    · exact absurd rfl found
    · simp [emit, setObj]

theorem heard_answers (w : World) (o o' : ObjId) (c : Call) (m : Mailbox) :
    m.answers (w.heard o o' c) = [] ∧ m.current (w.heard o o' c) = [] := by
  have silent := heard_all (fun action => ∀ m : Mailbox, m.answer action = [] ∧ m.makes action = [])
    (fun _ _ _ => ⟨rfl, rfl⟩) (fun _ => ⟨rfl, rfl⟩) w o o' c
  constructor
  · exact Run.outputs_nil _ _ _ (fun m action member => (silent action member m).1) m
  · exact Run.outputs_nil _ _ _ (fun m action member => (silent action member m).2) m

theorem actions_answers (w : World) (o : ObjId) (entry : ObjId × Call) (m : Mailbox) :
    m.answers (w.actions o entry) =
        (m.run (w.heard o entry.1 entry.2)).answers (own o entry.1 (asked (w.obj o) entry.2)) ∧
      m.current (w.actions o entry) =
        (m.run (w.heard o entry.1 entry.2)).current (own o entry.1 (asked (w.obj o) entry.2)) := by
  obtain ⟨answers, current⟩ := heard_answers w o entry.1 entry.2 m
  constructor
  · rw [actions, Mailbox.answers, Run.outputs_append]
    exact congrArg (· ++ _) answers
  · rw [actions, Mailbox.current, Run.outputs_append]
    exact congrArg (· ++ _) current

theorem parsePacket_answer {w : World} {o : ObjId} {m : Mailbox} (refines : Refines (w.rx o) m)
    (arrivals : List (PcbId × Option Datagram)) :
    w.answer o (o, .parsePacket arrivals) = m.answers (w.actions o (o, .parsePacket arrivals)) ∧
      w.makes o (o, .parsePacket arrivals) = m.current (w.actions o (o, .parsePacket arrivals)) := by
  obtain ⟨answers, current⟩ := actions_answers w o (o, .parsePacket arrivals) m
  rw [answers, current, own_self]
  by_cases unbound : (w.obj o).pcb = none
  · simp [answer, makes, asked, unbound, parsePacket, Mailbox.answers, Mailbox.current, Run.outputs,
      Mailbox.answer, Mailbox.makes]
  · have looped : Refines ((w.loop arrivals).rx o) (m.run (w.heard o o (.parsePacket arrivals))) := by
      rw [heard, if_neg unbound, loop_rx]
      exact acts_refines refines (w.handed o arrivals)
    dsimp only
    generalize m.run (w.heard o o (.parsePacket arrivals)) = m₁ at looped
    by_cases empty : ((w.loop arrivals).obj o).inBuf.empty = true
    · have none : m₁.queue.items = [] := looped.empty_iff.mp empty
      simp [answer, makes, asked, unbound, parsePacket, empty, Mailbox.answers, Mailbox.current,
        Run.outputs, Mailbox.answer, Mailbox.makes, none]
    · have present : ((w.loop arrivals).obj o).inBuf.empty = false := by simpa using empty
      have popped := Mailbox.pop_some (parse_popped looped present)
      change m₁.queue.items = (((w.loop arrivals).obj o).inBuf.get Packet.movedFrom).1 :: _ at popped
      have some : ((((w.loop arrivals).obj o).inBuf.get Packet.movedFrom).1.data.length : Int) ≠ -1 := by
        omega
      simp [answer, makes, asked, unbound, parsePacket, present, Mailbox.answers, Mailbox.current,
        Run.outputs, Mailbox.answer, Mailbox.makes, popped, some, emit, setObj]

theorem available_answer {w : World} {o : ObjId} {m : Mailbox} (refines : Refines (w.rx o) m) :
    (w.available o).1 = m.unread.length := by
  rw [refines.unread, length_unread]
  rfl

theorem peek_answer {w : World} {o : ObjId} {m : Mailbox} (refines : Refines (w.rx o) m) :
    (w.peek o).1 = headOr m.unread := by
  rw [refines.unread, headOr_unread]
  rfl

theorem read_answer {w : World} {o : ObjId} {m : Mailbox} (refines : Refines (w.rx o) m) :
    (w.read o).1 = headOr m.unread := by
  rw [refines.unread, headOr_unread, isAvailable_rx, read]
  dsimp only
  split <;> rfl

theorem readBuf_answer {w : World} {o : ObjId} {m : Mailbox} (refines : Refines (w.rx o) m) (len : Nat) :
    (w.readBuf o len).1 = m.unread.take len := by
  rw [refines.unread, readBuf]
  dsimp only
  by_cases skip : (len = 0 || !isAvailable (w.obj o)) = true
  · rw [if_pos skip]
    simp only [Bool.or_eq_true, decide_eq_true_eq, Bool.not_eq_true'] at skip
    rcases skip with zero | unavailable
    · rw [zero, List.take_zero]
    · have none : (w.rx o).unread = [] := unread_unavailable (by rw [isAvailable_rx, unavailable]; simp)
      rw [none, List.take_nil]
  · rw [if_neg skip]
    have available : (w.rx o).isAvailable = true := by
      simp only [Bool.or_eq_true, Bool.not_eq_true', not_or, Bool.not_eq_false] at skip
      exact skip.2
    obtain ⟨-, -, unread⟩ := unread_available available
    have count : (w.obj o).packet.data.length - (w.obj o).packetPos.toNat = (w.rx o).unread.length := by
      rw [unread, List.length_drop]
      rfl
    rw [count]
    change List.take _ ((w.rx o).packet.data.drop (w.rx o).packetPos.toNat) = _
    rw [← unread]
    exact List.take_eq_take_min.symm

/-- Every call answers what the mailbox answers to the actions that the call stands for. -/
theorem call_answer {w : World} {o : ObjId} {m : Mailbox} (refines : Refines (w.rx o) m)
    (entry : ObjId × Call) :
    w.answer o entry = m.answers (w.actions o entry) ∧ w.makes o entry = m.current (w.actions o entry) := by
  obtain ⟨o', c⟩ := entry
  obtain ⟨answers, current⟩ := actions_answers w o (o', c) m
  by_cases target : o' = o
  · subst target
    cases c with
    | parsePacket arrivals => exact parsePacket_answer refines arrivals
    | available =>
        rw [answers, current, own_self, answer, if_pos rfl]
        exact ⟨congrArg (fun ret => [Answer.available ret]) (available_answer refines), rfl⟩
    | peek =>
        rw [answers, current, own_self, answer, if_pos rfl]
        exact ⟨congrArg (fun ret => [Answer.peeked ret]) (peek_answer refines), rfl⟩
    | read =>
        rw [answers, current, own_self, answer, if_pos rfl]
        exact ⟨congrArg (fun ret => [Answer.readOne ret]) (read_answer refines), rfl⟩
    | readBuf len =>
        rw [answers, current, own_self, answer, if_pos rfl]
        exact ⟨congrArg (fun bytes => [Answer.read bytes]) (readBuf_answer refines len), rfl⟩
    | setReceiveQueueCapacity | loop | «begin» | beginMulticast | stop | setOutgoingDiffServ
      | setOutgoingTTL | beginPacket | write | endPacket | send =>
        rw [answers, current, own_self, answer, if_pos rfl]
        exact ⟨rfl, rfl⟩
  · rw [answers, current, own, if_neg target, answer, if_neg target]
    refine ⟨rfl, ?_⟩
    cases c with
    | parsePacket arrivals => exact if_neg fun made => target made.1
    | _ => rfl

/-- Along every run the answers and the state of an object are the mailbox's. -/
theorem calls_refine {w : World} {o : ObjId} {m : Mailbox} (refines : Refines (w.rx o) m)
    (run : List (ObjId × Call)) :
    w.answers o run = m.answers (w.requests o run) ∧ w.current o run = m.current (w.requests o run) ∧
      Refines ((w.calls run).rx o) (m.run (w.requests o run)) := by
  obtain ⟨answers, last⟩ := Run.outputs_refine (fun (w : World) m => Refines (w.rx o) m) _
    (fun w entry => w.answer o entry) Mailbox.serve Mailbox.answer (fun w entry => w.actions o entry)
    (fun w m entry refines => ⟨(call_answer refines entry).1, call_refines refines entry⟩) run w m refines
  obtain ⟨current, -⟩ := Run.outputs_refine (fun (w : World) m => Refines (w.rx o) m) _
    (fun w entry => w.makes o entry) Mailbox.serve Mailbox.makes (fun w entry => w.actions o entry)
    (fun w m entry refines => ⟨(call_answer refines entry).2, call_refines refines entry⟩) run w m refines
  exact ⟨answers, current, last⟩

theorem reads_after_parsePacket {w : World} {o : ObjId} {m : Mailbox} (refines : Refines (w.rx o) m)
    (arrivals : List (PcbId × Option Datagram)) (after : List (ObjId × Call))
    (found : (w.parsePacket o arrivals).1 ≠ -1)
    (same : ∀ entry ∈ after, ∀ more, entry ≠ (o, .parsePacket more)) :
    ((w.parsePacket o arrivals).2.answers o after).flatMap Answer.bytes <+:
      ((w.parsePacket o arrivals).2.obj o).packet.data := by
  have parsed : Refines ((w.parsePacket o arrivals).2.rx o) (m.run (w.actions o (o, .parsePacket arrivals))) :=
    call_refines refines (o, .parsePacket arrivals)
  obtain ⟨started, position⟩ := parsePacket_found w o arrivals found
  generalize m.run (w.actions o (o, .parsePacket arrivals)) = m' at parsed
  generalize (w.parsePacket o arrivals).2 = w' at parsed position ⊢
  have silent : ∀ action ∈ w'.requests o after, action.parses = false :=
    Run.mem_outputs _ _ (fun action : Action => action.parses = false) after
      (fun w entry member => actions_parses (same entry member)) w'
  have fresh : (w'.obj o).packet.data = m'.unread := by
    rw [parsed.unread]
    change _ = if (w'.obj o).packetPos < 0 then [] else (w'.obj o).packet.data.drop (w'.obj o).packetPos.toNat
    rw [position]
    rfl
  rw [(calls_refine parsed after).1, fresh, Mailbox.run_unread m' _ silent]
  exact List.prefix_append _ _

/-- Along every run the receive side of every object is a mailbox moved by the object's arrivals and
calls: each call answers what the mailbox answers, the queue holds the arrivals that have not gone,
the packets made current are those taken from its front, and reads return the bytes of the current
packet in order. -/
theorem receive_queue_refines (capacity : ObjId → Nat) (run : List (ObjId × Call)) (o : ObjId) :
    let start := boot capacity
    let w := start.calls run
    let requests := start.requests o run
    let m := (Mailbox.init (capacity o)).run requests
    start.answers o run = (Mailbox.init (capacity o)).answers requests ∧
    (w.obj o).inBuf.contents = m.queue.items ∧ (w.obj o).inBuf.capacity = m.queue.capacity ∧
    (w.obj o).packet = m.packet ∧
    m.gone.map Prod.snd ++ (w.obj o).inBuf.contents = requests.filterMap Action.arrival ∧
    returned m.gone = start.current o run ∧
    (start.current o run).Sublist (requests.filterMap Action.arrival) ∧
    (∀ arrivals, (w.parsePacket o arrivals).1 = -1 ↔
      (w.obj o).pcb = none ∨ ((w.loop arrivals).obj o).inBuf.empty = true) ∧
    ∀ arrivals, (w.parsePacket o arrivals).1 ≠ -1 →
      let parsed := (w.parsePacket o arrivals).2
      (w.parsePacket o arrivals).1 = (parsed.obj o).packet.data.length ∧
      ∀ after, (∀ entry ∈ after, ∀ more, entry ≠ (o, .parsePacket more)) →
        (parsed.answers o after).flatMap Answer.bytes <+: (parsed.obj o).packet.data := by
  intro start w requests m
  obtain ⟨answers, current, refines⟩ := calls_refine (boot_refines capacity o) run
  have items : m.queue.items = (w.obj o).inBuf.contents := refines.items
  have arrivals := Mailbox.run_arrivals (Mailbox.init (capacity o)) requests
  have made := Mailbox.run_returned (Mailbox.init (capacity o)) requests
  simp only [Mailbox.init, List.map_nil, List.nil_append] at arrivals
  have gone : returned m.gone = start.current o run := made.trans current.symm
  refine ⟨answers, items.symm, refines.capacity.symm, refines.packet.symm, items ▸ arrivals, gone, ?_,
    parsePacket_ret w o, ?_⟩
  · rw [← gone, ← arrivals]
    exact (returned_sublist m.gone).trans (List.sublist_append_left _ _)
  · intro arrivals found parsed
    refine ⟨(parsePacket_found w o arrivals found).1, ?_⟩
    intro after same
    exact reads_after_parsePacket refines arrivals after found same

end World
end QNEthernet.Udp
