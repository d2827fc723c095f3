import Mathlib.Data.List.Basic
import Mathlib.Logic.Relation
import QNEthernet.Tcp.Blocks

/-! The changes that lwIP, its callbacks and the library's own functions are made of, and what all of
them keep. With `safe`, no block is released while a state refers to it; with `clean`, no function is
applied to a released block. -/

namespace QNEthernet.Tcp

open Lwip

namespace World

def Attached (w : World) (p : Nat) : Prop :=
  ∃ h state, (w.holder h).state = some state ∧ state.pcb = p

/-- The block has left CLOSED and SYN-SENT. -/
def begun (w : World) (p : Nat) : Prop :=
  (w.pcb p).state ≠ .closed ∧ (w.pcb p).state ≠ .synSent

/-- The destructor of a state, without the record of misuse. -/
def detach (w : World) (h : Nat) : World := { w.destroyState h with misuse := w.misuse }

theorem detach_none {w : World} {h : Nat} (gone : (w.holder h).state = none) : w.detach h = w := by
  simp [detach, destroyState, gone]

theorem detach_some {w : World} {h : Nat} {state : ConnectionState}
    (there : (w.holder h).state = some state) :
    w.detach h =
      { w with
        holder := Function.update w.holder h { w.holder h with state := none }
        pcb := Function.update w.pcb state.pcb { w.pcb state.pcb with callbackArg := .null }
        connections := if state.removeFunc then w.connections.erase h else w.connections } := by
  simp only [detach, destroyState, there, altcpArg, touch, setHolder, setPcb]
  split <;> rfl

theorem makeHolder_eq {w : World} {p : Nat} (x : ConnectionHolder) (there : p ∈ w.pool) :
    w.makeHolder p x =
      (w.nextHolder,
        { w with
          nextHolder := w.nextHolder + 1
          holder := Function.update w.holder w.nextHolder { x with state := some { pcb := p, capacity := tcpWnd w.mtu } }
          pcb := Function.update w.pcb p
            { w.pcb p with callbackArg := .holder w.nextHolder, errf := true, recv := true } }) := by
  simp [makeHolder, altcpArg, altcpErr, altcpRecv, touch, setHolder, setPcb, there]

theorem addConnection_eq {w : World} {h : Nat} {state : ConnectionState}
    (there : (w.holder h).state = some state) :
    w.addConnection h =
      { w with
        connections := w.connections ++ [h]
        holder := Function.update w.holder h
          { w.holder h with state := some { state with removeFunc := true } } } := by
  simp [addConnection, setHolder, there]

theorem arrive_eq {w : World} {p : Nat} (finOk : Bool) (there : p ∈ w.pool) :
    ((w.enter p .established).acceptFunc (some p) .ok finOk).2 =
      { w with
        nextHolder := w.nextHolder + 1
        holder := Function.update w.holder w.nextHolder
          { connected := true, state := some { pcb := p, capacity := tcpWnd w.mtu, removeFunc := true } }
        pcb := Function.update w.pcb p
          { w.pcb p with
            state := .established, callbackArg := .holder w.nextHolder, errf := true, recv := true }
        connections := w.connections ++ [w.nextHolder]
        trace := w.trace ++ [.arrived w.nextHolder (w.pcb p).localPort] } := by
  have entered : p ∈ (w.enter p .established).pool := there
  simp only [acceptFunc, ne_eq, not_true_eq_false, if_false, makeHolder_eq _ entered]
  simp [addConnection, setHolder, emit, enter, setPcb]

end World

open World

/-- The states a block can be in after another. -/
def TcpState.follows (new old : TcpState) : Bool :=
  new == old ||
    match new with
    | .closed | .listen | .synRcvd => false
    | .synSent => old == .closed
    | _ => old != .listen

@[simp] theorem TcpState.follows_self (state : TcpState) : state.follows state = true := by
  simp [TcpState.follows]

theorem TcpState.follows_listen {new : TcpState} (follows : new.follows .listen = true) :
    new = .listen := by
  revert follows
  cases new <;> decide

theorem TcpState.follows_synRcvd {old : TcpState} (follows : TcpState.synRcvd.follows old = true) :
    old = .synRcvd := by
  revert follows
  cases old <;> decide

theorem TcpState.follows_begun {new old : TcpState} (follows : new.follows old = true)
    (begun : old ≠ .closed ∧ old ≠ .synSent) : new ≠ .closed ∧ new ≠ .synSent := by
  revert follows begun
  cases new <;> cases old <;> decide

inductive Change (safe clean : Prop) : World → World → Prop where
  | flags {w : World} (misuse nullArg : Bool) (client : Nat → EthernetClient)
      (server : Nat → EthernetServer) (kept : clean → misuse = w.misuse) :
      Change safe clean w
        { w with misuse := misuse, nullArg := nullArg, client := client, server := server }
  | event {w : World} (e : Event) (bytes : (∃ h b, e = .stored h b) ∨ ∃ h b, e = .consumed h b) :
      Change safe clean w (w.emit e)
  | pcb {w : World} (p : Nat) (q : TcpPcb) (arg : q.callbackArg = (w.pcb p).callbackArg)
      (errf : q.errf = (w.pcb p).errf) (recv : q.recv = (w.pcb p).recv)
      (port : ∀ h, (w.pcb p).callbackArg = .holder h → q.localPort = (w.pcb p).localPort)
      (follows : q.state.follows (w.pcb p).state)
      (rxClosed : q.state = .synRcvd → q.rxClosed = (w.pcb p).rxClosed) :
      Change safe clean w (w.setPcb p q)
  | free {w : World} (p : Nat) (unused : safe → ¬ w.Attached p) : Change safe clean w (w.tcpFree p)
  | closeListener {w : World} (l : Nat) (stopped : l ∉ w.listeners) :
      Change safe clean w (w.tcpListenClosed l)
  | holder {w : World} (h : Nat) (x : ConnectionHolder) (accepted : x.accepted = (w.holder h).accepted)
      (pcb : x.state.map (·.pcb) = (w.holder h).state.map (·.pcb))
      (removeFunc : x.state.map (·.removeFunc) = (w.holder h).state.map (·.removeFunc)) :
      Change safe clean w (w.setHolder h x)
  | detach {w : World} (h : Nat) : Change safe clean w (w.detach h)
  | alloc {w : World} (q : TcpPcb) (place : Nat) (free : List Nat) (room : w.free = place :: free)
      (arg : ∀ h, q.callbackArg ≠ .holder h) (rxOpen : q.rxClosed = false) :
      Change safe clean w ((w.newBlock place free).setPcb w.nextPcb q)
  | listen {w : World} (q : TcpPcb) (room : w.listenPool.length < mempNumTcpPcbListen)
      (state : q.state = .listen) (arg : ∀ h, q.callbackArg ≠ .holder h) :
      Change safe clean w
        ({ w with
            nextPcb := w.nextPcb + 1
            listenPool := w.nextPcb :: w.listenPool
            listeners := w.listeners ++ [w.nextPcb] }.setPcb w.nextPcb q)
  | stopListening {w : World} (l : Nat) :
      Change safe clean w { w with listeners := w.listeners.erase l }
  | make {w : World} (p : Nat) (x : ConnectionHolder) (there : p ∈ w.pool)
      (free : ∀ h, (w.pcb p).callbackArg ≠ .holder h) (open_ : (w.pcb p).state ≠ .synRcvd)
      (accepted : x.accepted = true) : Change safe clean w (w.makeHolder p x).2
  | add {w : World} (h : Nat) (last : h + 1 = w.nextHolder) (accepted : (w.holder h).accepted = true)
      (state : ∃ state, (w.holder h).state = some state ∧ state.removeFunc = false) :
      Change safe clean w (w.addConnection h)
  | arrive {w : World} (p : Nat) (finOk : Bool) (there : p ∈ w.pool)
      (handshake : (w.pcb p).state = .synRcvd) :
      Change safe clean w ((w.enter p .established).acceptFunc (some p) .ok finOk).2

def Changes (safe clean : Prop) : World → World → Prop := Relation.ReflTransGen (Change safe clean)

structure Pools (w : World) : Prop where
  poolNodup : w.pool.Nodup
  whole : w.pool.length + w.free.length = mempNumTcpPcb
  places : (w.pool.map w.place ++ w.free).Nodup
  poolBelow : ∀ p ∈ w.pool, p < w.nextPcb
  listenNodup : w.listenPool.Nodup
  listenBound : w.listenPool.length ≤ mempNumTcpPcbListen
  listenBelow : ∀ l ∈ w.listenPool, l < w.nextPcb
  listening : ∀ l ∈ w.listenPool, (w.pcb l).state = .listen ∧ l ∉ w.pool
  listenersNodup : w.listeners.Nodup
  listenersIn : ∀ l ∈ w.listeners, l ∈ w.listenPool

theorem Pools.poolBound {w : World} (pools : Pools w) : w.pool.length ≤ mempNumTcpPcb := by
  have whole := pools.whole
  omega

theorem Pools.of_same {w w' : World} (pools : Pools w) (pool : w'.pool = w.pool)
    (place : w'.place = w.place) (free : w'.free = w.free) (listenPool : w'.listenPool = w.listenPool)
    (next : w'.nextPcb = w.nextPcb) (listeners : w'.listeners = w.listeners)
    (state : ∀ l ∈ w.listenPool, (w'.pcb l).state = (w.pcb l).state) : Pools w' where
  poolNodup := pool ▸ pools.poolNodup
  whole := by
    rw [pool, free]
    exact pools.whole
  places := by
    rw [pool, place, free]
    exact pools.places
  poolBelow := by
    rw [pool, next]
    exact pools.poolBelow
  listenNodup := listenPool ▸ pools.listenNodup
  listenBound := listenPool ▸ pools.listenBound
  listenBelow := by
    rw [listenPool, next]
    exact pools.listenBelow
  listening := by
    rw [listenPool, pool]
    intro l member
    rw [state l member]
    exact pools.listening l member
  listenersNodup := listeners ▸ pools.listenersNodup
  listenersIn := by
    rw [listenPool, listeners]
    exact pools.listenersIn

variable {safe clean : Prop} {w w' : World}

theorem Pools.fresh (pools : Pools w) : w.nextPcb ∉ w.pool ∧ w.nextPcb ∉ w.listenPool :=
  ⟨fun member => absurd (pools.poolBelow _ member) (lt_irrefl _),
    fun member => absurd (pools.listenBelow _ member) (lt_irrefl _)⟩

/-- A place is free once its block is released. -/
theorem Pools.whole_tcpFree (pools : Pools w) (p : Nat) :
    (w.tcpFree p).pool.length + (w.tcpFree p).free.length = mempNumTcpPcb := by
  have whole := pools.whole
  by_cases there : p ∈ w.pool
  · have length := List.length_erase_of_mem there
    have some := List.length_pos_of_mem there
    simp only [tcpFree, if_pos there, List.length_cons]
    omega
  · simpa [tcpFree, there, List.erase_of_not_mem there] using whole

theorem Pools.places_tcpFree (pools : Pools w) (p : Nat) :
    ((w.tcpFree p).pool.map (w.tcpFree p).place ++ (w.tcpFree p).free).Nodup := by
  by_cases there : p ∈ w.pool
  · have split : (w.pool.map w.place).Perm (w.place p :: (w.pool.erase p).map w.place) :=
      (List.perm_cons_erase there).map w.place
    simp only [tcpFree, if_pos there]
    exact ((split.append_right w.free).trans List.perm_middle.symm).nodup_iff.mp pools.places
  · simpa [tcpFree, there, List.erase_of_not_mem there] using pools.places

theorem Pools.whole_newBlock (pools : Pools w) {place : Nat} {free : List Nat} (room : w.free = place :: free) :
    (w.newBlock place free).pool.length + (w.newBlock place free).free.length = mempNumTcpPcb := by
  have whole := pools.whole
  rw [room, List.length_cons] at whole
  simp only [newBlock, List.length_cons]
  omega

theorem Pools.places_newBlock (pools : Pools w) {place : Nat} {free : List Nat} (room : w.free = place :: free) :
    ((w.newBlock place free).pool.map (w.newBlock place free).place ++ (w.newBlock place free).free).Nodup := by
  have old : w.pool.map (Function.update w.place w.nextPcb place) = w.pool.map w.place := by
    apply List.map_congr_left
    exact fun p there => Function.update_of_ne (pools.poolBelow p there).ne place w.place
  have places := pools.places
  rw [room] at places
  simp only [newBlock, List.map_cons, Function.update_self, old]
  exact List.perm_middle.nodup_iff.mp places

theorem Pools.apart (pools : Pools w) {p l : Nat} (there : p ∈ w.pool) (listening : l ∈ w.listenPool) :
    l ≠ p := by
  intro equal
  subst equal
  exact (pools.listening l listening).2 there

theorem Change.pools (change : Change safe clean w w') (pools : Pools w) : Pools w' := by
  cases change with
  | flags misuse nullArg client server kept => exact pools.of_same rfl rfl rfl rfl rfl rfl fun _ _ => rfl
  | event e bytes => exact pools.of_same rfl rfl rfl rfl rfl rfl fun _ _ => rfl
  | pcb p q arg errf recv port follows rxClosed =>
      refine pools.of_same rfl rfl rfl rfl rfl rfl ?_
      intro l member
      by_cases same : l = p
      · subst same
        have listening := (pools.listening l member).1
        rw [listening] at follows
        simp [setPcb, listening, TcpState.follows_listen follows]
      · simp [setPcb, Function.update_of_ne same]
  | free p unused =>
      exact { pools with
        poolNodup := pools.poolNodup.erase p
        whole := pools.whole_tcpFree p
        places := pools.places_tcpFree p
        poolBelow := fun p' member => pools.poolBelow p' (List.mem_of_mem_erase member)
        listening := fun l member => ⟨(pools.listening l member).1, fun used =>
          (pools.listening l member).2 (List.mem_of_mem_erase used)⟩ }
  | closeListener l stopped =>
      have state (p : Nat) : ((w.tcpListenClosed l).pcb p).state = (w.pcb p).state := by
        simp only [tcpListenClosed]
        split <;> rfl
      exact { pools with
        listenNodup := pools.listenNodup.erase l
        listenBound := (List.length_erase_le).trans pools.listenBound
        listenBelow := fun l' member => pools.listenBelow l' (List.mem_of_mem_erase member)
        listening := fun l' member => by
          rw [state l']
          exact pools.listening l' (List.mem_of_mem_erase member)
        listenersIn := fun l' member => by
          have other : l' ≠ l := by
            intro equal
            subst equal
            exact stopped member
          exact (List.mem_erase_of_ne other).mpr (pools.listenersIn l' member) }
  | holder h x accepted pcb removeFunc => exact pools.of_same rfl rfl rfl rfl rfl rfl fun _ _ => rfl
  | detach h =>
      cases there : (w.holder h).state with
      | none => rwa [detach_none there]
      | some state =>
          rw [detach_some there]
          refine pools.of_same rfl rfl rfl rfl rfl rfl ?_
          intro l _
          by_cases same : l = state.pcb
          · simp [same]
          · simp [Function.update_of_ne same]
  | alloc q place free room arg rxOpen =>
      exact { pools with
        poolNodup := List.nodup_cons.mpr ⟨pools.fresh.1, pools.poolNodup⟩
        whole := pools.whole_newBlock room
        places := pools.places_newBlock room
        poolBelow := by
          intro p member
          rcases List.mem_cons.mp member with rfl | old
          · exact Nat.lt_succ_self _
          · exact Nat.lt_succ_of_lt (pools.poolBelow p old)
        listenBelow := fun l member => Nat.lt_succ_of_lt (pools.listenBelow l member)
        listening := by
          intro l member
          have older : l ≠ w.nextPcb := (pools.listenBelow l member).ne
          simp only [newBlock, setPcb, Function.update_of_ne older, List.mem_cons, not_or]
          exact ⟨(pools.listening l member).1, older, (pools.listening l member).2⟩ }
  | listen q room state arg =>
      exact { pools with
        poolBelow := fun p member => Nat.lt_succ_of_lt (pools.poolBelow p member)
        listenNodup := List.nodup_cons.mpr ⟨pools.fresh.2, pools.listenNodup⟩
        listenBound := room
        listenBelow := by
          intro l member
          rcases List.mem_cons.mp member with rfl | old
          · exact Nat.lt_succ_self _
          · exact Nat.lt_succ_of_lt (pools.listenBelow l old)
        listening := by
          intro l member
          rcases List.mem_cons.mp member with rfl | old
          · simp [setPcb, state, pools.fresh.1]
          · have older : l ≠ w.nextPcb := (pools.listenBelow l old).ne
            simp only [setPcb, Function.update_of_ne older]
            exact pools.listening l old
        listenersNodup := by
          apply List.Nodup.append pools.listenersNodup (List.nodup_singleton _)
          rw [List.disjoint_singleton]
          exact fun member => pools.fresh.2 (pools.listenersIn _ member)
        listenersIn := by
          intro l member
          rcases List.mem_append.mp member with old | new
          · exact List.mem_cons_of_mem _ (pools.listenersIn l old)
          · rw [List.mem_singleton.mp new]
            exact List.mem_cons_self }
  | stopListening l =>
      exact { pools with
        listenersNodup := pools.listenersNodup.erase l
        listenersIn := fun l' member => pools.listenersIn l' (List.mem_of_mem_erase member) }
  | make p x there free open_ accepted =>
      rw [makeHolder_eq x there]
      refine pools.of_same rfl rfl rfl rfl rfl rfl ?_
      intro l member
      simp [Function.update_of_ne (pools.apart there member)]
  | add h last accepted state => exact pools.of_same rfl rfl rfl rfl rfl rfl fun _ _ => rfl
  | arrive p finOk there handshake =>
      rw [arrive_eq finOk there]
      refine pools.of_same rfl rfl rfl rfl rfl rfl ?_
      intro l member
      simp [Function.update_of_ne (pools.apart there member)]

end QNEthernet.Tcp
