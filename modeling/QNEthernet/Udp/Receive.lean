import QNEthernet.Udp.Calls
import QNEthernet.Udp.Mailbox

/-! The receive side of one object, and what each call does to it. -/

namespace QNEthernet.Udp

open Internal Lwip

/-- The members of an object that reception uses, with its events so far. -/
structure Rx where
  inBuf : CircularBuffer Packet
  packet : Packet
  packetPos : Int
  droppedReceiveCount : UInt32
  totalReceiveCount : UInt32
  events : List Event

def EthernetUDP.side (u : EthernetUDP) (events : List Event) : Rx where
  inBuf := u.inBuf
  packet := u.packet
  packetPos := u.packetPos
  droppedReceiveCount := u.droppedReceiveCount
  totalReceiveCount := u.totalReceiveCount
  events := events

def eventsOf (trace : List (ObjId × Event)) (o : ObjId) : List Event :=
  trace.filterMap fun entry => if entry.1 = o then some entry.2 else none

def World.rx (w : World) (o : ObjId) : Rx := (w.obj o).side (eventsOf w.trace o)

namespace Rx

def emit (s : Rx) (event : Event) : Rx := { s with events := s.events ++ [event] }

/-- The bytes of the current packet that no read has returned. -/
def unread (s : Rx) : List Byte := if s.packetPos < 0 then [] else s.packet.data.drop s.packetPos.toNat

def isAvailable (s : Rx) : Bool :=
  decide (0 ≤ s.packetPos) && decide (s.packetPos.toNat < s.packet.data.length)

def act (s : Rx) : Action → Rx
  | .arrive q d =>
      { s with
        inBuf := s.inBuf.put.2.store s.inBuf.put.1
          (World.fillPacket (s.inBuf.put.2.buf.getD s.inBuf.put.1 default) q d)
        droppedReceiveCount := if s.inBuf.full then s.droppedReceiveCount + 1 else s.droppedReceiveCount
        totalReceiveCount := s.totalReceiveCount + 1
        events := s.events ++ [.arrived q d] }
  | .resize capacity =>
      { s with inBuf := s.inBuf.setCapacity capacity, events := s.events ++ [.resized capacity] }
  | .restart =>
      { s with
        droppedReceiveCount := 0
        totalReceiveCount := 0
        events := s.events ++ [.started s.inBuf.size] }
  | .parse =>
      if s.inBuf.empty then { s with packetPos := -1, events := s.events ++ [.noPacket] }
      else
        let popped := s.inBuf.get Packet.movedFrom
        { s with
          packet := popped.1
          inBuf := popped.2
          packetPos := 0
          events := s.events ++ [.parsed popped.1 popped.1.data.length] }
  | .noPcb => s.emit .noPcb
  | .available =>
      s.emit (.available (if s.isAvailable then s.packet.data.length - s.packetPos else 0))
  | .peek =>
      s.emit (.peeked (if s.isAvailable then (s.packet.data.getD s.packetPos.toNat 0).toNat else -1))
  | .readOne =>
      if s.isAvailable then
        { s with
          packetPos := s.packetPos + 1
          events := s.events ++ [.readOne (s.packet.data.getD s.packetPos.toNat 0).toNat] }
      else s.emit (.readOne (-1))
  | .read len =>
      if len = 0 || !s.isAvailable then s.emit (.read len [])
      else
        let actualLen := min len (s.packet.data.length - s.packetPos.toNat)
        { s with
          packetPos := s.packetPos + actualLen
          events := s.events ++ [.read len ((s.packet.data.drop s.packetPos.toNat).take actualLen)] }

def acts (s : Rx) (actions : List Action) : Rx := actions.foldl act s

@[simp] theorem acts_nil (s : Rx) : s.acts [] = s := rfl

theorem acts_append (s : Rx) (actions more : List Action) :
    s.acts (actions ++ more) = (s.acts actions).acts more := List.foldl_append

end Rx

namespace World

@[simp] theorem setObj_obj_self (w : World) (o : ObjId) (u : EthernetUDP) :
    (w.setObj o u).obj o = u := Function.update_self ..

theorem setObj_obj_ne (w : World) (o o' : ObjId) (u : EthernetUDP) (other : o' ≠ o) :
    (w.setObj o u).obj o' = w.obj o' := Function.update_of_ne other ..

theorem setObj_rx (w : World) (o o' : ObjId) (u : EthernetUDP) (same : u.side = (w.obj o').side) :
    (w.setObj o' u).rx o = w.rx o := by
  by_cases target : o = o'
  · subst target
    simp only [rx, setObj_obj_self, same]
    rfl
  · simp only [rx, setObj_obj_ne w o' o u target]
    rfl

theorem emit_rx_self (w : World) (o : ObjId) (u : EthernetUDP) (event : Event) :
    ((w.setObj o u).emit o event).rx o = u.side (eventsOf w.trace o ++ [event]) := by
  simp only [rx, emit, setObj, Function.update_self, eventsOf, List.filterMap_append]
  simp

theorem emit_rx_ne (w : World) (o o' : ObjId) (u : EthernetUDP) (event : Event) (other : o' ≠ o) :
    ((w.setObj o u).emit o event).rx o' = w.rx o' := by
  simp only [rx, emit, setObj, Function.update_of_ne other, eventsOf, List.filterMap_append]
  simp [other.symm]

theorem emit_rx (w : World) (o : ObjId) (event : Event) :
    (w.emit o event).rx o = (w.rx o).emit event := by
  simp only [rx, emit, eventsOf, List.filterMap_append]
  simp [EthernetUDP.side, Rx.emit]

theorem emit_only_rx_ne (w : World) (o o' : ObjId) (event : Event) (other : o' ≠ o) :
    (w.emit o event).rx o' = w.rx o' := by
  simp only [rx, emit, eventsOf, List.filterMap_append]
  simp [other.symm]

theorem leaveMulticast_rx (w : World) (o o' : ObjId) : (w.leaveMulticast o').rx o = w.rx o := by
  unfold leaveMulticast
  dsimp only
  split
  · exact setObj_rx { w with groups := _ } o o' _ rfl
  · rfl

theorem stop_rx (w : World) (o o' : ObjId) : (w.stop o').rx o = w.rx o := by
  unfold stop
  split
  · rfl
  next p held =>
    have left := leaveMulticast_rx w o o'
    have removed := setObj_rx ((w.leaveMulticast o').udpRemove p) o o'
      { (w.leaveMulticast o').obj o' with pcb := none, listening := false, listenReuse := false } rfl
    exact removed.trans left

/-! The actions that a call stands for at the object `o`, told from the call and the blocks. -/

/-- Actions of the called object's own receive side. -/
def own (o o' : ObjId) (actions : List Action) : List Action := if o' = o then actions else []

/-- lwIP gives a datagram to the object that its block is registered for. -/
def given (w : World) (o : ObjId) (arrival : PcbId × Option Datagram) : List Action :=
  match w.pcbs arrival.1, arrival.2 with
  | some q, some d => if q.recvArg = some o then [.arrive q d] else []
  | _, _ => []

/-- What reaches the object while `Ethernet.loop()` takes in the datagrams. -/
def handed (w : World) (o : ObjId) (arrivals : List (PcbId × Option Datagram)) : List Action :=
  Run.outputs deliver (fun w arrival => w.given o arrival) w arrivals

/-- A call that gets no block runs the stack once. -/
def created (w : World) (o o' : ObjId) (env : Env) : List Action :=
  if (w.obj o').pcb = none ∧ env.alloc = false then w.handed o env.loop else []

def started (w : World) (o o' : ObjId) (env : Env) : List Action :=
  if (w.obj o').pcb = none ∧ env.alloc = false then w.handed o env.loop
  else if env.bindErr = .ok then own o o' [.restart] else []

def begun (w : World) (o o' : ObjId) (localPort : UInt16) (reuse : Bool) (env : Env) : List Action :=
  if (w.obj o').listening then
    if w.alreadyListening o' localPort reuse then [] else (w.stop o').started o o' env
  else w.started o o' env

/-- What the call's own `Ethernet.loop()` hands to the object, and the start of its counters. -/
def heard (w : World) (o o' : ObjId) : Call → List Action
  | .loop arrivals => w.handed o arrivals
  | .begin localPort reuse env | .beginMulticast _ localPort reuse env => w.begun o o' localPort reuse env
  | .setOutgoingDiffServ _ env | .setOutgoingTTL _ env | .beginPacket _ _ env => w.created o o' env
  | .parsePacket arrivals => if (w.obj o').pcb = none then [] else w.handed o arrivals
  | .endPacket env =>
      if (w.obj o').outPacket.hasValue = true ∧ env.pbufAlloc = false then
        (w.dropOutPacket o').handed o env.loop
      else []
  | .send len env =>
      if len > kMaxPossiblePayloadSize then []
      else if (w.obj o').pcb = none ∧ env.alloc = false then w.handed o env.loop
      else if env.pbufAlloc = false then (w.tryCreatePCB o' env).2.handed o env.loop
      else []
  | _ => []

def asked (u : EthernetUDP) : Call → List Action
  | .setReceiveQueueCapacity capacity => [.resize capacity]
  | .parsePacket _ => if u.pcb = none then [.noPcb] else [.parse]
  | .available => [.available]
  | .read => [.readOne]
  | .readBuf len => [.read len]
  | .peek => [.peek]
  | _ => []

def actions (w : World) (o : ObjId) (entry : ObjId × Call) : List Action :=
  w.heard o entry.1 entry.2 ++ own o entry.1 (asked (w.obj o) entry.2)

theorem own_self (o : ObjId) (actions : List Action) : own o o actions = actions := if_pos rfl

theorem own_other {o o' : ObjId} (other : ¬ o = o') (actions : List Action) : own o o' actions = [] :=
  if_neg fun same => other same.symm

theorem recvFunc_rx (w : World) (o o' : ObjId) (p : PcbId) (d : Datagram) :
    (w.recvFunc o' (some p) (some d)).rx o =
      (w.rx o).acts (own o o' [.arrive ((w.pcbs p).getD {}) d]) := by
  by_cases target : o = o'
  · subst target
    rw [own_self]
    change _ = (w.rx o).act (.arrive ((w.pcbs p).getD {}) d)
    by_cases full : (w.obj o).inBuf.full = true
    · simp only [recvFunc, full, if_true, emit_rx_self]
      simp [Rx.act, rx, EthernetUDP.side, full]
    · simp only [recvFunc, full, emit_rx_self]
      simp [Rx.act, rx, EthernetUDP.side, full]
  · rw [own_other target]
    exact emit_rx_ne w o' o _ _ target

theorem deliver_rx (w : World) (o : ObjId) (arrival : PcbId × Option Datagram) :
    (w.deliver arrival).rx o = (w.rx o).acts (w.given o arrival) := by
  obtain ⟨p, d⟩ := arrival
  unfold deliver given
  cases block : w.pcbs p with
  | none => rfl
  | some q =>
      dsimp only [Option.bind_some]
      cases d with
      | none =>
          cases registered : q.recvArg with
          | none => rfl
          | some o' => exact stop_rx w o o'
      | some d =>
          dsimp only
          cases registered : q.recvArg with
          | none => rfl
          | some o' =>
              have received := recvFunc_rx w o o' p d
              rw [block, Option.getD_some] at received
              simpa [own] using received

theorem loop_rx (w : World) (o : ObjId) (arrivals : List (PcbId × Option Datagram)) :
    (w.loop arrivals).rx o = (w.rx o).acts (w.handed o arrivals) := by
  induction arrivals generalizing w with
  | nil => rfl
  | cons arrival arrivals ih =>
      change ((w.deliver arrival).loop arrivals).rx o =
        (w.rx o).acts (w.given o arrival ++ (w.deliver arrival).handed o arrivals)
      rw [ih, deliver_rx, Rx.acts_append]

theorem udpNew_rx (w : World) (o o' : ObjId) : (w.udpNew o').rx o = w.rx o :=
  setObj_rx (setPcb { w with nextPcb := _ } _ _) o o' _ rfl

theorem tryCreatePCB_rx (w : World) (o o' : ObjId) (env : Env) :
    (w.tryCreatePCB o' env).2.rx o = (w.rx o).acts (w.created o o' env) := by
  unfold tryCreatePCB created
  cases held : (w.obj o').pcb with
  | some p => rfl
  | none =>
      cases alloc : env.alloc with
      | true => exact udpNew_rx w o o'
      | false => exact loop_rx w o env.loop

theorem udpBind_rx (w : World) (o : ObjId) (p : PcbId) (reuse : Bool) (port : UInt16) (env : Env) :
    (w.udpBind p reuse port env).2.rx o = w.rx o := by
  unfold udpBind
  dsimp only
  split <;> split <;> (try split) <;> rfl

theorem udpBind_err (w : World) (p : PcbId) (reuse : Bool) (port : UInt16) (env : Env) :
    (w.udpBind p reuse port env).1 = env.bindErr := by
  unfold udpBind
  dsimp only
  by_cases bound : env.bindErr = .ok
  · rw [if_pos bound, bound]
    split <;> split <;> rfl
  · rw [if_neg bound]

theorem udpRecv_rx (w : World) (o o' : ObjId) (p : PcbId) : (w.udpRecv p o').rx o = w.rx o := by
  unfold udpRecv
  split <;> rfl

theorem restart_rx (w : World) (o o' : ObjId) :
    ((w.setObj o' { w.obj o' with
      droppedReceiveCount := 0, totalReceiveCount := 0 }).emit o'
        (.started (w.obj o').inBuf.size)).rx o = (w.rx o).acts (own o o' [.restart]) := by
  by_cases target : o = o'
  · subst target
    rw [emit_rx_self, own_self]
    rfl
  · rw [own_other target]
    exact emit_rx_ne w o' o _ _ target

theorem listen_rx {w w₁ : World} {o' : ObjId} {env : Env} {p : PcbId} (o : ObjId) (port : UInt16) (reuse : Bool)
    (created : w.tryCreatePCB o' env = (true, w₁)) (held : (w₁.obj o').pcb = some p) :
    (w.beginNew o' port reuse env).2.rx o =
      (w₁.rx o).acts (if env.bindErr = .ok then own o o' [.restart] else []) := by
  have same := udpBind_rx w₁ o p reuse port env
  have err := udpBind_err w₁ p reuse port env
  rw [beginNew, created]
  dsimp only
  rw [held]
  dsimp only
  split
  next w₂ bound =>
    rw [bound] at same err
    rw [if_pos err.symm, restart_rx, udpRecv_rx]
    have listens := setObj_rx w₂ o o' { w₂.obj o' with listening := true, listenReuse := reuse } rfl
    rw [listens.trans same]
  next failed w₂ other bound =>
    rw [bound] at same err
    have refused : env.bindErr ≠ .ok := fun ok => other (err.trans ok)
    rw [if_neg refused, Rx.acts_nil, stop_rx, same]

theorem tryCreatePCB_held {w : World} {o : ObjId} {p : PcbId} (env : Env) (held : (w.obj o).pcb = some p) :
    w.tryCreatePCB o env = (true, w) := by
  rw [tryCreatePCB, held]

theorem tryCreatePCB_new {w : World} {o : ObjId} {env : Env} (unbound : (w.obj o).pcb = none)
    (alloc : env.alloc = true) : w.tryCreatePCB o env = (true, w.udpNew o) := by
  rw [tryCreatePCB, unbound]
  exact if_pos alloc

theorem tryCreatePCB_failed {w : World} {o : ObjId} {env : Env} (unbound : (w.obj o).pcb = none)
    (alloc : env.alloc = false) : w.tryCreatePCB o env = (false, w.loop env.loop) := by
  rw [tryCreatePCB, unbound, alloc]
  rfl

theorem beginNew_rx (w : World) (o o' : ObjId) (port : UInt16) (reuse : Bool) (env : Env) :
    (w.beginNew o' port reuse env).2.rx o = (w.rx o).acts (w.started o o' env) := by
  unfold started
  cases held : (w.obj o').pcb with
  | some p =>
      rw [listen_rx o port reuse (tryCreatePCB_held env held) held]
      simp
  | none =>
      cases alloc : env.alloc with
      | true =>
          have new : ((w.udpNew o').obj o').pcb = some w.nextPcb := by simp [udpNew]
          rw [listen_rx o port reuse (tryCreatePCB_new held alloc) new, udpNew_rx]
          simp
      | false =>
          rw [if_pos ⟨rfl, rfl⟩, ← loop_rx, beginNew, tryCreatePCB_failed held alloc]

theorem begin_rx (w : World) (o o' : ObjId) (port : UInt16) (reuse : Bool) (env : Env) :
    (w.begin o' port reuse env).2.rx o = (w.rx o).acts (w.begun o o' port reuse env) := by
  unfold «begin» begun
  split
  next =>
    split
    next => rfl
    next => rw [beginNew_rx, stop_rx]
  next => exact beginNew_rx w o o' port reuse env

theorem beginMulticast_rx (w : World) (o o' : ObjId) (ip : IpAddr) (port : UInt16) (reuse : Bool)
    (env : Env) :
    (w.beginMulticast o' ip port reuse env).2.rx o = (w.rx o).acts (w.begun o o' port reuse env) := by
  have begins := begin_rx w o o' port reuse env
  obtain ⟨w₁, begun, same | stopped | ⟨_, _, joined⟩⟩ := beginMulticast_cases w o' env ip port reuse
  · rw [same, begun, begins]
  · rw [stopped, stop_rx, begun, begins]
  · have groups := setObj_rx { w₁ with groups := ip :: w₁.groups } o o'
      { w₁.obj o' with listeningMulticast := true, multicastIP := ip } rfl
    rw [joined, ← begins, ← begun]
    exact groups

theorem setOutgoing_rx (w : World) (o o' : ObjId) (change : UdpPcb → UdpPcb) (env : Env) :
    (w.setOutgoing o' change env).2.rx o = (w.rx o).acts (w.created o o' env) := by
  rw [← tryCreatePCB_rx]
  obtain ⟨w₁, created, same | ⟨p, _, changed⟩⟩ := setOutgoing_cases w o' env change
  · rw [same, created]
  · rw [changed, ← created]
    rfl

theorem beginPacket_rx (w : World) (o o' : ObjId) (addr : IpAddr) (port : UInt16) (env : Env) :
    (w.beginPacket o' addr port env).2.rx o = (w.rx o).acts (w.created o o' env) := by
  rw [← tryCreatePCB_rx]
  obtain ⟨w₁, created, same | ⟨packet, begun⟩⟩ := beginPacket_cases w o' env addr port
  · rw [same, created]
  · rw [begun, ← created]
    exact setObj_rx w₁ o o' _ rfl

theorem parsePacket_rx (w : World) (o o' : ObjId) (arrivals : List (PcbId × Option Datagram)) :
    (w.parsePacket o' arrivals).2.rx o =
      (w.rx o).acts (w.actions o (o', .parsePacket arrivals)) := by
  unfold parsePacket actions heard asked own
  dsimp only
  by_cases target : o' = o
  · subst target
    rw [if_pos rfl]
    by_cases unbound : (w.obj o').pcb = none
    · simp only [unbound, if_true]
      exact emit_rx w o' .noPcb
    · simp only [unbound, if_false]
      rw [Rx.acts_append, ← loop_rx]
      generalize w.loop arrivals = w₁
      change _ = (w₁.rx o').act .parse
      by_cases empty : (w₁.obj o').inBuf.empty = true
      · simp only [empty, if_true, emit_rx_self]
        simp [Rx.act, rx, EthernetUDP.side, empty]
      · simp only [empty, Bool.false_eq_true, if_false, emit_rx_self]
        simp [Rx.act, rx, EthernetUDP.side, empty]
  · have other : o ≠ o' := fun same => target same.symm
    rw [if_neg target, List.append_nil]
    by_cases unbound : (w.obj o').pcb = none
    · simp only [unbound, if_true]
      exact emit_only_rx_ne w o' o _ other
    · simp only [unbound, if_false]
      rw [← loop_rx]
      split <;> exact emit_rx_ne (w.loop arrivals) o' o _ _ other

theorem isAvailable_rx (w : World) (o : ObjId) : (w.rx o).isAvailable = isAvailable (w.obj o) := rfl

theorem read_rx (w : World) (o o' : ObjId) :
    (w.read o').2.rx o = (w.rx o).acts (own o o' [.readOne]) := by
  unfold read
  by_cases target : o = o'
  · subst target
    rw [own_self]
    change _ = (w.rx o).act .readOne
    by_cases available : isAvailable (w.obj o) = true
    · simp only [Rx.act, isAvailable_rx, available, if_true, emit_rx_self]
      rfl
    · simp only [Rx.act, isAvailable_rx, available, Bool.false_eq_true, if_false, emit_rx]
  · rw [own_other target]
    dsimp only
    split
    · exact emit_rx_ne w o' o _ _ target
    · exact emit_only_rx_ne w o' o _ target

theorem readBuf_rx (w : World) (o o' : ObjId) (len : Nat) :
    (w.readBuf o' len).2.rx o = (w.rx o).acts (own o o' [.read len]) := by
  unfold readBuf
  by_cases target : o = o'
  · subst target
    rw [own_self]
    change _ = (w.rx o).act (.read len)
    by_cases none : (len = 0 || !isAvailable (w.obj o)) = true
    · simp only [Rx.act, isAvailable_rx, none, if_true, emit_rx]
    · simp only [Rx.act, isAvailable_rx, none, Bool.false_eq_true, if_false, emit_rx_self]
      rfl
  · rw [own_other target]
    dsimp only
    split
    · exact emit_only_rx_ne w o' o _ target
    · exact emit_rx_ne w o' o _ _ target

theorem answer_rx (w : World) (o o' : ObjId) (event : Event) (action : Action)
    (same : (w.rx o').act action = (w.rx o').emit event) :
    (w.emit o' event).rx o = (w.rx o).acts (own o o' [action]) := by
  by_cases target : o = o'
  · subst target
    rw [own_self]
    exact (emit_rx w o event).trans same.symm
  · rw [own_other target]
    exact emit_only_rx_ne w o' o event target

theorem setReceiveQueueCapacity_rx (w : World) (o o' : ObjId) (capacity : Nat) :
    (w.setReceiveQueueCapacity o' capacity).rx o = (w.rx o).acts (own o o' [.resize capacity]) := by
  by_cases target : o = o'
  · subst target
    rw [own_self]
    exact emit_rx_self w o _ _
  · rw [own_other target]
    exact emit_rx_ne w o' o _ _ target

theorem write_rx (w : World) (o o' : ObjId) (buffer : List Byte) :
    (w.write o' buffer).2.rx o = w.rx o := by
  unfold write
  dsimp only
  split
  · rfl
  · exact setObj_rx w o o' _ rfl

theorem dropOutPacket_rx (w : World) (o o' : ObjId) : (w.dropOutPacket o').rx o = w.rx o :=
  setObj_rx w o o' _ rfl

theorem endPacket_rx (w : World) (o o' : ObjId) (env : Env) :
    (w.endPacket o' env).2.rx o = (w.rx o).acts (w.heard o o' (.endPacket env)) := by
  unfold endPacket heard
  dsimp only
  cases assembled : (w.obj o').outPacket.hasValue with
  | false => rfl
  | true =>
      cases alloc : env.pbufAlloc with
      | true => exact dropOutPacket_rx (w.udpSendto _) o o'
      | false =>
          have looped := loop_rx (w.dropOutPacket o') o env.loop
          rwa [dropOutPacket_rx] at looped

theorem sendHeld_rx {w w₁ : World} {o' : ObjId} {env : Env} (o : ObjId) (len : Nat)
    (fits : ¬ len > kMaxPossiblePayloadSize) (created : w.tryCreatePCB o' env = (true, w₁)) :
    (w.send o' len env).2.rx o =
      (w₁.rx o).acts (if env.pbufAlloc = false then w₁.handed o env.loop else []) := by
  rw [send, if_neg fits, created]
  cases alloc : env.pbufAlloc with
  | true => rfl
  | false => exact loop_rx w₁ o env.loop

theorem send_rx (w : World) (o o' : ObjId) (len : Nat) (env : Env) :
    (w.send o' len env).2.rx o = (w.rx o).acts (w.heard o o' (.send len env)) := by
  unfold heard
  dsimp only
  by_cases long : len > kMaxPossiblePayloadSize
  · rw [send, if_pos long, if_pos long]
    rfl
  · rw [if_neg long]
    cases held : (w.obj o').pcb with
    | some p =>
        have created := tryCreatePCB_held env held
        rw [sendHeld_rx o len long created, created]
        simp
    | none =>
        cases alloc : env.alloc with
        | true =>
            have created := tryCreatePCB_new held alloc
            rw [sendHeld_rx o len long created, created, udpNew_rx]
            simp
        | false =>
            rw [if_pos ⟨rfl, rfl⟩, ← loop_rx, send, if_neg long, tryCreatePCB_failed held alloc]

theorem silent_rx {w : World} {o o' : ObjId} {c : Call} (silent : asked (w.obj o) c = [])
    (same : (w.call o' c).rx o = (w.rx o).acts (w.heard o o' c)) :
    (w.call o' c).rx o = (w.rx o).acts (w.actions o (o', c)) := by
  rw [same]
  simp [actions, silent, own]

/-- What a call does to the receive side of an object are the actions it stands for. -/
theorem call_rx (w : World) (o : ObjId) (entry : ObjId × Call) :
    (w.call entry.1 entry.2).rx o = (w.rx o).acts (w.actions o entry) := by
  obtain ⟨o', c⟩ := entry
  cases c with
  | loop arrivals => exact silent_rx rfl (loop_rx w o arrivals)
  | setReceiveQueueCapacity capacity => exact setReceiveQueueCapacity_rx w o o' capacity
  | begin port reuse env => exact silent_rx rfl (begin_rx w o o' port reuse env)
  | beginMulticast ip port reuse env =>
      exact silent_rx rfl (beginMulticast_rx w o o' ip port reuse env)
  | stop => exact silent_rx rfl (stop_rx w o o')
  | setOutgoingDiffServ ds env => exact silent_rx rfl (setOutgoing_rx w o o' _ env)
  | setOutgoingTTL ttl env => exact silent_rx rfl (setOutgoing_rx w o o' _ env)
  | parsePacket arrivals => exact parsePacket_rx w o o' arrivals
  | available => exact answer_rx w o o' _ .available rfl
  | read => exact read_rx w o o'
  | readBuf len => exact readBuf_rx w o o' len
  | peek => exact answer_rx w o o' _ .peek rfl
  | beginPacket addr port env => exact silent_rx rfl (beginPacket_rx w o o' addr port env)
  | write buffer => exact silent_rx rfl (write_rx w o o' buffer)
  | endPacket env => exact silent_rx rfl (endPacket_rx w o o' env)
  | send len env => exact silent_rx rfl (send_rx w o o' len env)

theorem mem_given {w : World} {o : ObjId} {arrival : PcbId × Option Datagram} {action : Action}
    (member : action ∈ w.given o arrival) : ∃ q d, action = .arrive q d := by
  unfold given at member
  split at member
  next q d _ _ =>
    split at member
    · exact ⟨q, d, List.mem_singleton.mp member⟩
    · cases member
  next => cases member

theorem mem_handed {w : World} {o : ObjId} {arrivals : List (PcbId × Option Datagram)} {action : Action}
    (member : action ∈ w.handed o arrivals) : ∃ q d, action = .arrive q d :=
  Run.mem_outputs deliver _ (fun action => ∃ q d, action = .arrive q d) arrivals
    (fun _ _ _ _ given => mem_given given) w action member

theorem heard_all (P : Action → Prop) (arrive : ∀ q d, P (.arrive q d)) (restart : P .restart) (w : World)
    (o o' : ObjId) (c : Call) : ∀ action ∈ w.heard o o' c, P action := by
  have handed (w : World) (arrivals) : ∀ action ∈ w.handed o arrivals, P action := by
    intro action member
    obtain ⟨q, d, rfl⟩ := mem_handed member
    exact arrive q d
  have started (w : World) (env) : ∀ action ∈ w.started o o' env, P action := by
    intro action member
    unfold World.started own at member
    split_ifs at member
    · exact handed _ _ action member
    · exact List.mem_singleton.mp member ▸ restart
    · cases member
    · cases member
  intro action member
  cases c with
  | «begin» port reuse env | beginMulticast ip port reuse env =>
      simp only [heard, begun] at member
      split_ifs at member
      · cases member
      · exact started _ _ action member
      · exact started _ _ action member
  | loop | setOutgoingDiffServ | setOutgoingTTL | beginPacket | parsePacket | endPacket | send =>
      simp only [heard, created] at member
      first
        | exact handed _ _ action member
        | split_ifs at member <;> first | exact handed _ _ action member | cases member
  | setReceiveQueueCapacity | stop | available | read | readBuf | peek | write => cases member

theorem actions_parses {w : World} {o : ObjId} {entry : ObjId × Call}
    (other : ∀ arrivals, entry ≠ (o, .parsePacket arrivals)) :
    ∀ action ∈ w.actions o entry, action.parses = false := by
  obtain ⟨o', c⟩ := entry
  intro action member
  rcases List.mem_append.mp member with heard | own
  · exact heard_all (fun action => action.parses = false) (fun _ _ => rfl) rfl w o o' c action heard
  · unfold World.own at own
    split at own
    next same =>
      subst same
      cases c <;> simp [asked] at own
      case parsePacket arrivals => exact absurd rfl (other arrivals)
      all_goals
        rw [own]
        rfl
    next => cases own

theorem actions_resizes {w : World} {o : ObjId} {entry : ObjId × Call} {capacity : Nat}
    (member : .resize capacity ∈ w.actions o entry) :
    entry = (o, .setReceiveQueueCapacity capacity) := by
  obtain ⟨o', c⟩ := entry
  rcases List.mem_append.mp member with heard | own
  · have never := heard_all (fun action => action ≠ .resize capacity) (fun _ _ same => by cases same)
      (fun same => by cases same) w o o' c _ heard
    exact absurd rfl never
  · unfold World.own at own
    split at own
    next same =>
      subst same
      cases c <;> simp [asked] at own
      case setReceiveQueueCapacity => rw [own]
      case parsePacket => split_ifs at own <;> simp at own
    next => cases own

end World
end QNEthernet.Udp
