import QNEthernet.Tcp.Clients
import QNEthernet.Tcp.Server

/-! The listeners of `internal/ConnectionManager.cpp` and the `EthernetServer` objects that own them,
from construction to destruction. -/

namespace QNEthernet.Tcp

open Lwip World

/-- The live objects. `opened` and `stopped` are history variables: the blocks that were put on the
manager's list of listeners, and those that were closed and taken off it. -/
structure Servers where
  world : World
  live : List Nat := []
  opened : List Nat := []
  stopped : List Nat := []

/-- Without a port, `begin` and `beginWithReuse` use the one that is set. -/
inductive ServerOp where
  | construct (s : Nat) (port : Option UInt16)
  | beginListening (s : Nat) (port : Option UInt16) (reuse : Bool) (attempt : Attempt)
  | endListening (s : Nat)
  | moveConstruct (s s' : Nat)
  | moveAssign (s s' : Nat)
  | destroy (s : Nat)

namespace ServerOp

def call : ServerOp → World → TcpCall Unit
  | .construct s port, w => .done () (w.setServer s { port := port })
  | .beginListening s port reuse attempt, w =>
      match port <|> (w.server s).port with
      | none => .done () w
      | some port => (EthernetServer.beginListening s port reuse attempt w).forget
  | .endListening s, w => EthernetServer.endListening s w
  -- The defaulted moves copy every field
  | .moveConstruct s s', w => .done () (w.setServer s' (w.server s))
  | .moveAssign s s', w => .done () (w.setServer s' (w.server s))
  | .destroy s, w => EthernetServer.endListening s w

/-- Objects are used while they are alive. lwIP binds no block to port zero: `tcp_bind` chooses
another port, or fails. -/
def possible (live : List Nat) : ServerOp → Bool
  | .construct s _ => s ∉ live
  | .beginListening s _ _ attempt => s ∈ live && attempt.localPort != 0
  | .endListening s => s ∈ live
  | .moveConstruct s s' => s ∈ live && s' ∉ live
  | .moveAssign s s' => s ∈ live && s' ∈ live
  | .destroy s => s ∈ live

def after (live : List Nat) : ServerOp → List Nat
  | .construct s _ => s :: live
  | .moveConstruct _ s' => s' :: live
  | .destroy s => live.erase s
  | _ => live

end ServerOp

structure ServerStep where
  op : ServerOp
  turns : List Turn := []

def World.listenerPorts (w : World) : List UInt16 := w.listeners.map fun l => (w.pcb l).localPort

/-- The non-zero listening ports of the live objects. -/
def World.serverPorts (w : World) (live : List Nat) : List UInt16 :=
  (live.map fun s => (w.server s).listeningPort).filter (· ≠ 0)

namespace Servers

def start (mtu : Nat) : Servers := { world := { mtu } }

def step (s : Servers) (e : ServerStep) : Servers :=
  if e.op.possible s.live then
    let w := ((e.op.call s.world).run answer e.turns).2
    { world := w
      live := e.op.after s.live
      opened := s.opened ++ w.listeners.filter (· ∉ s.world.listeners)
      stopped := s.stopped ++ s.world.listeners.filter (· ∉ w.listeners) }
  else s

def operatorBool (s : Servers) (i : Nat) : Bool := 0 < (s.world.server i).listeningPort

/-- Every listener belongs to one live object. -/
structure Owned (s : Servers) : Prop where
  ports : s.world.listenerPorts.Perm (s.world.serverPorts s.live)
  operatorBool : ∀ i ∈ s.live, s.operatorBool i ↔
    ∃ l ∈ s.world.listeners, (s.world.pcb l).localPort = (s.world.server i).listeningPort
  once : s.opened.Nodup ∧ s.opened.Perm (s.stopped ++ s.world.listeners)

/-- A moved object is not listening, and neither is the one assigned to. -/
def Unshared (s : Servers) (e : ServerStep) : Prop :=
  match e.op with
  | .moveConstruct i _ => (s.world.server i).listeningPort = 0
  | .moveAssign i i' =>
      i = i' ∨ (s.world.server i).listeningPort = 0 ∧ (s.world.server i').listeningPort = 0
  | _ => True

instance (s : Servers) (e : ServerStep) : Decidable (s.Unshared e) := by
  unfold Unshared
  split <;> infer_instance

end Servers

/-- What the calls keep, between objects that are alive and listeners that are listed. -/
structure Matched (w : World) (live : List Nat) : Prop where
  alive : live.Nodup
  listed : w.listeners.Nodup
  below : ∀ l ∈ w.listeners, l < w.nextPcb
  ports : w.listenerPorts.Perm (w.serverPorts live)

structure Extends (w w' : World) : Prop where
  nextPcb : w.nextPcb ≤ w'.nextPcb
  listeners : ∀ l ∈ w'.listeners, l ∈ w.listeners ∨ w.nextPcb ≤ l

variable {w w' w'' : World} {live : List Nat}

theorem Extends.trans (first : Extends w w') (second : Extends w' w'') : Extends w w'' where
  nextPcb := first.nextPcb.trans second.nextPcb
  listeners := by
    intro l member
    rcases second.listeners l member with old | new
    · exact first.listeners l old
    · exact .inr (first.nextPcb.trans new)

theorem Serves.extends (serves : Serves w w') : Extends w w' :=
  ⟨serves.nextPcb, fun _ member => .inl (serves.listeners ▸ member)⟩

theorem Serves.listenerPorts (serves : Serves w w') (below : ∀ l ∈ w.listeners, l < w.nextPcb) :
    w'.listenerPorts = w.listenerPorts := by
  rw [World.listenerPorts, World.listenerPorts, serves.listeners]
  exact List.map_congr_left fun l member => serves.localPort l (below l member)

theorem Matched.serves (matched : Matched w live) (serves : Serves w w') : Matched w' live where
  alive := matched.alive
  listed := serves.listeners ▸ matched.listed
  below := by
    rw [serves.listeners]
    exact fun l member => (matched.below l member).trans_le serves.nextPcb
  ports := by
    rw [serves.listenerPorts matched.below, World.serverPorts, serves.server]
    exact matched.ports

section Ports

theorem serverPorts_cons (w : World) (i : Nat) (live : List Nat) :
    w.serverPorts (i :: live) =
      if (w.server i).listeningPort = 0 then w.serverPorts live
      else (w.server i).listeningPort :: w.serverPorts live := by
  by_cases idle : (w.server i).listeningPort = 0 <;> simp [World.serverPorts, idle]

theorem serverPorts_perm {live' : List Nat} (w : World) (same : live.Perm live') :
    (w.serverPorts live).Perm (w.serverPorts live') :=
  (same.map _).filter _

theorem serverPorts_setServer (w : World) (i : Nat) (x : EthernetServer) (absent : i ∉ live) :
    (w.setServer i x).serverPorts live = w.serverPorts live := by
  have same : (live.map fun s => ((w.setServer i x).server s).listeningPort) =
      live.map fun s => (w.server s).listeningPort := by
    apply List.map_congr_left
    intro s member
    have other : s ≠ i := by
      intro equal
      subst equal
      exact absent member
    simp [setServer, Function.update_of_ne other]
  rw [World.serverPorts, same, World.serverPorts]

theorem serverPorts_split (w : World) {i : Nat} (there : i ∈ live) :
    (w.serverPorts live).Perm (w.serverPorts (i :: live.erase i)) :=
  serverPorts_perm w (List.perm_cons_erase there)

theorem setServer_split (w : World) {i : Nat} (x : EthernetServer) (alive : live.Nodup)
    (there : i ∈ live) : ((w.setServer i x).serverPorts live).Perm
      (if x.listeningPort = 0 then w.serverPorts (live.erase i)
        else x.listeningPort :: w.serverPorts (live.erase i)) := by
  have split := serverPorts_split (w.setServer i x) there
  rw [serverPorts_cons, serverPorts_setServer w i x alive.not_mem_erase] at split
  simpa [setServer] using split

end Ports

section Calls

/-- What lwIP does during a call leaves servers and listeners alone; the call ends with `goal`. -/
def Serving {α : Type} (goal : α → World → Prop) (call : TcpCall α) : Prop :=
  call.Keeps (fun _ _ => True) (fun _ s _ s' => Serves s s') goal

theorem answer_serves (i : Request) (turn : Turn) (w : World) : Serves w (answer i turn w).2 := by
  cases i with
  | loop => exact (loop_aside w turn.events).serves
  | alloc => exact (loop_aside w _).serves
  | close p => exact (altcpClose_blocksOnly w p turn.finOk).serves
  | abort p => exact (altcpAbort_aside w p).serves

theorem Serving.run {α : Type} {goal : α → World → Prop} {call : TcpCall α}
    (serving : Serving goal call) (turns : List Turn) :
    goal (call.run answer turns).1 (call.run answer turns).2 :=
  Call.Keeps.run serving (fun i turn s _ _ => answer_serves i turn s) turns
    (Call.meets_of_forall (fun _ _ _ => trivial) call turns)

/-- The listener that `stopListening` finds. -/
def World.listenerAt (w : World) (port : UInt16) : Option Nat :=
  w.listeners.find? fun l => (w.pcb l).localPort == port

theorem findListener_eq (w : World) (port : UInt16) : ∃ misuse,
    w.findListener port = (w.listenerAt port, { w with misuse := misuse }) := by
  refine findIf_eq ?_ w.listeners w.misuse
  intro l misuse
  exact ⟨misuse || decide (l ∉ w.pool ∧ l ∉ w.listenPool), rfl⟩

/-- The list of listeners without the one at a port. -/
def World.unlisten (w : World) (port : UInt16) : World :=
  match w.listenerAt port with
  | none => w
  | some l => { w with listeners := w.listeners.erase l }

theorem stopListening_serving (w : World) (port : UInt16) :
    Serving (fun _ w' => Serves (w.unlisten port) w') (ConnectionManager.stopListening port w) := by
  rcases findListener_eq w port with ⟨misuse, looked⟩
  unfold ConnectionManager.stopListening World.unlisten
  rw [looked]
  cases w.listenerAt port with
  | none => exact ⟨rfl, rfl, le_refl _, fun _ _ => rfl⟩
  | some l =>
      have listed : Serves { w with listeners := w.listeners.erase l }
          { w with misuse := misuse, listeners := w.listeners.erase l } :=
        ⟨rfl, rfl, le_refl _, fun _ _ => rfl⟩
      refine ⟨trivial, ?_⟩
      intro err w' closed
      dsimp only
      split
      · exact ⟨trivial, fun _ w'' aborted => (listed.trans closed).trans aborted⟩
      · exact listed.trans closed

/-- The port that lwIP binds a block to. -/
def Attempt.portFor (attempt : Attempt) (port : UInt16) : UInt16 :=
  if port = 0 then attempt.localPort else port

structure Opens (w w' : World) (l : Nat) (port : UInt16) : Prop where
  server : w'.server = w.server
  listeners : w'.listeners = w.listeners ++ [l]
  fresh : w.nextPcb ≤ l
  below : l < w'.nextPcb
  localPort : ∀ p < w.nextPcb, (w'.pcb p).localPort = (w.pcb p).localPort
  port : (w'.pcb l).localPort = port

theorem tcpAlloc_serves {p : Nat} {q : TcpPcb} (room : w.tcpAlloc q = some (p, w')) :
    Serves w w' ∧ p = w.nextPcb := by
  obtain ⟨place, free, space, rfl, rfl⟩ := tcpAlloc_some room
  refine ⟨⟨rfl, rfl, Nat.le_succ _, ?_⟩, rfl⟩
  intro p old
  simp [setPcb, Function.update_of_ne old.ne]

theorem Serves.bind {p : Nat} (serves : Serves w w') (fresh : w.nextPcb ≤ p) (q : TcpPcb) :
    Serves w (w'.setPcb p q) := by
  refine ⟨serves.server, serves.listeners, serves.nextPcb, ?_⟩
  intro p' old
  have other : p' ≠ p := by omega
  simpa [setPcb, Function.update_of_ne other] using serves.localPort p' old

theorem tcpListen_opens {p l : Nat} (serves : Serves w w') (room : w'.tcpListen p = some (l, w'')) :
    Opens w ({ w'' with listeners := w''.listeners ++ [l] }.altcpArg l .manager) l
      (w'.pcb p).localPort := by
  obtain ⟨-, rfl, rfl⟩ := tcpListen_some room
  refine ⟨serves.server, ?_, serves.nextPcb, Nat.lt_succ_self _, ?_, ?_⟩
  · simp [altcpArg, touch, setPcb, tcpFree, serves.listeners]
  · intro p' old
    have other : p' ≠ w'.nextPcb := (old.trans_le serves.nextPcb).ne
    simpa [altcpArg, touch, setPcb, tcpFree, Function.update_of_ne other] using
      serves.localPort p' old
  · simp [altcpArg, touch, setPcb, tcpFree]

theorem failed_serving {α : Type} (value : α) {goal : α → World → Prop} (serves : Serves w w')
    (reached : ∀ w'', Serves w w'' → goal value w'') :
    Serving goal (Ethernet.loop w' (.done value)) :=
  ⟨trivial, fun _ _ later => reached _ (serves.trans later)⟩

theorem listen_serving (w : World) (port : UInt16) (attempt : Attempt) :
    Serving (fun result w' =>
      match result with
      | none => Serves w w'
      | some value => value = attempt.portFor port ∧ ∃ l, Opens w w' l value)
      (ConnectionManager.listen port attempt w) := by
  refine ⟨trivial, ?_⟩
  intro _ s answered
  dsimp only
  split
  · exact failed_serving none answered fun _ serves => serves
  next p s' room =>
    rcases tcpAlloc_serves room with ⟨allocated, rfl⟩
    have kept := answered.trans (allocated.trans (touch_blocksOnly s' s.nextPcb).serves)
    split
    · refine ⟨trivial, fun _ s'' aborted => ?_⟩
      exact failed_serving none (kept.trans aborted) fun _ serves => serves
    · generalize bound : ({ (s'.touch s.nextPcb).pcb s.nextPcb with
        localPort := if port = 0 then attempt.localPort else port } : TcpPcb) = q
      have ready := (kept.bind answered.nextPcb q).trans (touch_blocksOnly _ s.nextPcb).serves
      split
      · refine ⟨trivial, fun _ s'' aborted => ?_⟩
        exact failed_serving none (ready.trans aborted) fun _ serves => serves
      next l s'' found =>
        split at found
        · have opens := tcpListen_opens ready found
          have value : (((s'.touch s.nextPcb).setPcb s.nextPcb q).touch s.nextPcb).pcb s.nextPcb =
              q := by simp [touch, setPcb]
          rw [value, ← bound] at opens
          by_cases any : port = 0
          · rw [if_pos any] at opens ⊢
            refine ⟨?_, l, ?_⟩
            · rw [Attempt.portFor, if_pos any]
              exact opens.port
            · rw [getLocalPort, opens.port]
              exact ⟨opens.server, opens.listeners, opens.fresh, opens.below, opens.localPort,
                opens.port⟩
          · rw [if_neg any] at opens ⊢
            exact ⟨(if_neg any).symm, l, opens⟩
        · exact absurd found (by simp)

/-- The effect of `end` on servers and listeners. -/
def World.ended (w : World) (i : Nat) : World :=
  if 0 < (w.server i).listeningPort then
    (w.unlisten (w.server i).listeningPort).setServer i { w.server i with listeningPort := 0 }
  else w

theorem unlisten_server (w : World) (port : UInt16) : (w.unlisten port).server = w.server := by
  unfold World.unlisten
  split <;> rfl

theorem Serves.setServer (serves : Serves w w') (i : Nat) (x : EthernetServer) :
    Serves (w.setServer i x) (w'.setServer i x) :=
  ⟨by simp [World.setServer, serves.server], serves.listeners, serves.nextPcb, serves.localPort⟩

theorem endListening_serving (w : World) (i : Nat) :
    Serving (fun _ w' => Serves (w.ended i) w') (EthernetServer.endListening i w) := by
  unfold EthernetServer.endListening World.ended
  split
  · apply Call.Keeps.bind (stopListening_serving w _)
    intro _ s serves
    have same : s.server = w.server := serves.server.trans (unlisten_server w _)
    rw [same]
    exact serves.setServer i _
  · exact Serves.refl w

theorem Matched.ended {i : Nat} (matched : Matched w live) (there : i ∈ live) :
    Matched (w.ended i) live ∧ Extends w (w.ended i) ∧
      ((w.ended i).server i).listeningPort = 0 := by
  by_cases listening : 0 < (w.server i).listeningPort
  · generalize own : (w.server i).listeningPort = port at listening
    have nonzero : port ≠ 0 := by
      intro equal
      subst equal
      exact absurd listening (by decide)
    have split := serverPorts_split w there
    rw [serverPorts_cons, own, if_neg nonzero] at split
    have held : port ∈ w.listenerPorts :=
      (matched.ports.trans split).symm.subset List.mem_cons_self
    rcases List.mem_map.mp held with ⟨l₀, member₀, port₀⟩
    cases found : w.listenerAt port with
    | none =>
        have absent := List.find?_eq_none.mp found l₀ member₀
        exact absurd port₀ (by simpa using absent)
    | some l =>
        have member : l ∈ w.listeners := List.mem_of_find?_eq_some found
        have here : (w.pcb l).localPort = port := by simpa using List.find?_some found
        have ended : w.ended i = ({ w with listeners := w.listeners.erase l } : World).setServer i
            { w.server i with listeningPort := 0 } := by
          simp only [World.ended, own, listening, if_true, World.unlisten, found]
        rw [ended]
        refine ⟨⟨matched.alive, matched.listed.erase l, ?_, ?_⟩, ⟨le_refl _, ?_⟩, by simp [World.setServer]⟩
        · exact fun l' old => matched.below l' (List.mem_of_mem_erase old)
        · have rest : (port :: (w.listeners.erase l).map fun l => (w.pcb l).localPort).Perm
              (port :: w.serverPorts (live.erase i)) := by
            have taken := ((List.perm_cons_erase member).map fun l => (w.pcb l).localPort).symm
            rw [List.map_cons, here] at taken
            exact taken.trans (matched.ports.trans split)
          have left := setServer_split ({ w with listeners := w.listeners.erase l } : World)
            { w.server i with listeningPort := 0 } matched.alive there
          rw [if_pos rfl] at left
          exact (List.Perm.cons_inv rest).trans left.symm
        · exact fun l' old => .inl (List.mem_of_mem_erase old)
  · have idle : (w.server i).listeningPort = 0 := by
      simpa [UInt16.pos_iff_ne_zero] using listening
    have ended : w.ended i = w := if_neg listening
    rw [ended]
    exact ⟨matched, ⟨le_refl _, fun _ old => .inl old⟩, idle⟩

theorem Matched.opens {i l : Nat} {port : UInt16} (matched : Matched w live) (there : i ∈ live)
    (idle : (w.server i).listeningPort = 0) (opens : Opens w w' l port) (nonzero : port ≠ 0)
    (x : EthernetServer) (own : x.listeningPort = port) :
    Matched (w'.setServer i x) live ∧ Extends w (w'.setServer i x) := by
  have listeners : (w'.setServer i x).listeners = w.listeners ++ [l] := opens.listeners
  have later : w.nextPcb ≤ w'.nextPcb := opens.fresh.trans opens.below.le
  refine ⟨⟨matched.alive, ?_, ?_, ?_⟩, ⟨later, ?_⟩⟩
  · rw [listeners]
    apply List.Nodup.append matched.listed (List.nodup_singleton l)
    rw [List.disjoint_singleton]
    intro old
    exact absurd (matched.below l old) (not_lt.mpr opens.fresh)
  · rw [listeners]
    intro l' member
    rcases List.mem_append.mp member with old | new
    · exact (matched.below l' old).trans_le later
    · rw [List.mem_singleton.mp new]
      exact opens.below
  · have ports : (w'.setServer i x).listenerPorts = w.listenerPorts ++ [port] := by
      rw [World.listenerPorts, listeners, List.map_append, List.map_singleton]
      congr 1
      · exact List.map_congr_left fun l' old => opens.localPort l' (matched.below l' old)
      · rw [← opens.port]
        rfl
    have others : w'.serverPorts (live.erase i) = w.serverPorts (live.erase i) := by
      rw [World.serverPorts, opens.server, World.serverPorts]
    have own' := setServer_split w' x matched.alive there
    rw [own, if_neg nonzero, others] at own'
    have split := serverPorts_split w there
    rw [serverPorts_cons, if_pos idle] at split
    rw [ports]
    exact (List.perm_append_singleton port _).trans
      (((matched.ports.trans split).cons port).trans own'.symm)
  · rw [listeners]
    intro l' member
    rcases List.mem_append.mp member with old | new
    · exact .inl old
    · rw [List.mem_singleton.mp new]
      exact .inr opens.fresh

end Calls
end QNEthernet.Tcp
