import QNEthernet.Lib.Run
import QNEthernet.Tcp.Clients
import QNEthernet.Tcp.Stream

/-! The receive functions of a client, with the callbacks of its connection called in any order,
between the calls and in the loop of each call. -/

namespace QNEthernet.Tcp

open Lwip

inductive Callback where
  | recv (h tpcb : Nat) (p : Option Pbuf) (err : Err) (finOk : Bool)
  | err (h : Nat) (err : Err)

namespace World

def callback (w : World) : Callback → World
  | .recv h tpcb p err finOk => (w.recvFunc h tpcb p err finOk).2
  | .err h err => w.errFunc (.holder h) err

/-- The receive functions call lwIP through `Ethernet.loop()` only. -/
def receiveAnswer : Request → List Callback → World → Err × World
  | .loop, callbacks, w => (.ok, callbacks.foldl callback w)
  | .alloc, _, w | .close _, _, w | .abort _, _, w => (.ok, w)

theorem keepRemaining_trace (w : World) (h : Nat) (p : Option Pbuf) (err : Err) :
    (w.keepRemaining h p err).trace =
      w.trace ++ if (w.holder h).state.isSome then (p.map fun p => .stored h p.bytes).toList
        else [] := by
  cases there : (w.holder h).state <;> cases p <;> simp [keepRemaining, there, setHolder, emit]

@[simp] theorem recvClosed_fst (w : World) (h tpcb : Nat) (p : Option Pbuf) (err : Err)
    (finOk : Bool) : (w.recvClosed h tpcb p err finOk).1 = .ok := by
  unfold recvClosed
  dsimp only
  split <;> rfl

/-- The chain that a call of `recvFunc` puts in the stream: one it takes while there is a state. -/
def acceptedEvents (w : World) (h : Nat) (p : Option Pbuf) (result : Err) : List Event :=
  if (w.holder h).state.isSome ∧ (result = .ok ∨ result = .abrt) then
    (p.map fun p => Event.stored h p.bytes).toList
  else []

theorem recvFunc_trace (w : World) (h tpcb : Nat) (p : Option Pbuf) (err : Err) (finOk : Bool) :
    (w.recvFunc h tpcb p err finOk).2.trace =
      w.trace ++ w.acceptedEvents h p (w.recvFunc h tpcb p err finOk).1 := by
  have closed : (w.recvClosed h tpcb p err finOk).2.trace =
      w.trace ++ w.acceptedEvents h p (w.recvClosed h tpcb p err finOk).1 := by
    rcases recvClosed_eq w h tpcb p err finOk with ⟨w', before, after⟩
    rw [after.trace, destroyState_trace, before.trace, keepRemaining_trace, recvClosed_fst]
    simp [acceptedEvents]
  unfold recvFunc
  cases p with
  | none => exact closed
  | some p =>
      dsimp only
      split
      · exact closed
      · split
        next gone =>
          simp [acceptedEvents, show (w.holder h).state = none from gone, touch, setHolder]
        next state there =>
          have there : (w.holder h).state = some state := there
          split
          · simp [acceptedEvents, setHolder]
          · simp [acceptedEvents, there, touch, emit, setHolder]

/-- The world goes on without a read, and no connection becomes pending. -/
structure Heard (w w' : World) : Prop where
  consumed : ∀ h, consumedBytes h w'.trace = consumedBytes h w.trace
  settled : ∀ c, (w'.client c).pendingConnect = (w.client c).pendingConnect

theorem Heard.refl (w : World) : Heard w w := ⟨fun _ => rfl, fun _ => rfl⟩

theorem Heard.trans {w w' w'' : World} (first : Heard w w') (second : Heard w' w'') : Heard w w'' :=
  ⟨fun h => (second.consumed h).trans (first.consumed h),
    fun c => (second.settled c).trans (first.settled c)⟩

theorem dropConn_heard (w : World) (c : Nat) : Heard w (w.dropConn c) := by
  refine ⟨fun _ => rfl, fun c' => ?_⟩
  by_cases same : c' = c
  · subst same
    simp [dropConn, setClient]
  · simp [dropConn, setClient, Function.update_of_ne same]

theorem callback_heard (w : World) (callback : Callback) : Heard w (w.callback callback) := by
  have aside : Aside w (w.callback callback) := by
    cases callback with
    | recv h tpcb p err finOk => exact recvFunc_aside w h tpcb p err finOk
    | err h err => exact errFunc_aside w (.holder h) err
  exact ⟨aside.consumed, fun c => by rw [aside.client]⟩

theorem callback_streams (w : World) (callback : Callback) (streams : Streams w) :
    Streams (w.callback callback) := by
  cases callback with
  | recv h tpcb p err finOk => exact recvFunc_streams w h tpcb p err finOk streams
  | err h err => exact errFunc_streams w (.holder h) err streams

theorem receiveAnswer_heard (i : Request) (callbacks : List Callback) (w : World)
    (streams : Streams w) :
    Streams (receiveAnswer i callbacks w).2 ∧ Heard w (receiveAnswer i callbacks w).2 := by
  cases i with
  | loop =>
      apply Run.foldl_preserves (fun w' => Streams w' ∧ Heard w w') callback _ callbacks w
        ⟨streams, Heard.refl w⟩
      intro w' callback kept
      exact ⟨callback_streams w' callback kept.1, kept.2.trans (callback_heard w' callback)⟩
  | alloc => exact ⟨streams, Heard.refl w⟩
  | close p => exact ⟨streams, Heard.refl w⟩
  | abort p => exact ⟨streams, Heard.refl w⟩

end World

open World

/-- What holds at each request of a receive function, and after the answer. -/
def Listening (w : World) (α : Type) (call : TcpCall α) (goal : α → World → Prop) : Prop :=
  call.Keeps (fun _ w' => Streams w' ∧ Heard w w')
    (fun _ _ _ w' => Streams w' ∧ Heard w w') goal

theorem Listening.run {w : World} {α : Type} {call : TcpCall α} {goal : α → World → Prop}
    (listening : Listening w α call goal) (turns : List (List Callback)) :
    goal (call.run receiveAnswer turns).1 (call.run receiveAnswer turns).2 := by
  have meets : call.Meets receiveAnswer (fun _ _ _ => True) turns :=
    Call.meets_of_forall (fun _ _ _ => trivial) call turns
  apply Call.Keeps.run listening _ turns meets
  intro i callbacks w' _ kept
  have answered := receiveAnswer_heard i callbacks w' kept.1
  exact ⟨answered.1, kept.2.trans answered.2⟩

/-- The connection was there before a call and is not any more. -/
def Ended (w w' : World) (h : Nat) : Prop :=
  (w.holder h).state.isSome ∧ (w'.holder h).state = none

instance (w w' : World) (h : Nat) : Decidable (Ended w w' h) := by
  unfold Ended
  infer_instance

/-- A receive function without a pending connect. It gives up only if nothing is pending, or if the
state went away in its own loop. -/
theorem EthernetClient.receive_listening {α : Type} {w : World} {c h : Nat} {missing : α}
    {fromRemaining : Nat → World → α × World}
    {fromState : Nat → ConnectionState → World → α × World} {goal : α → World → Prop}
    (streams : Streams w) (owned : (w.client c).conn = some h)
    (settled : (w.client c).pendingConnect = false)
    (onMissing : ∀ w', Streams w' → Heard w w' →
      (w'.holder h).pending = [] ∨ Ended w w' h → goal missing w')
    (onRemaining : (w.holder h).remaining ≠ [] →
      goal (fromRemaining h w).1 (fromRemaining h w).2)
    (onState : ∀ w' state, Streams w' → Heard w w' → (w'.holder h).state = some state →
      state.isAvailable → goal (fromState h state w').1 (fromState h state w').2) :
    Listening w α (EthernetClient.receive c missing fromRemaining fromState w) goal := by
  have intact := streams.intact h
  have checked : EthernetClient.checkState c w = .done (some h) w := by
    simp [EthernetClient.checkState, owned, settled]
  unfold EthernetClient.receive
  rw [checked]
  simp only [Call.bind]
  split
  next some => exact onRemaining (by simpa using some)
  next empty =>
    have empty : (w.holder h).remaining = [] := by simpa using empty
    unfold EthernetClient.getStateAndLoopOrClose
    split
    next closed =>
      -- a state that has heard data is connected, so nothing can be pending here
      simp only [Call.bind, Bool.false_eq_true, if_false]
      apply onMissing (w.dropConn c) (streams.of_same rfl rfl rfl) (dropConn_heard w c)
      left
      change (w.holder h).pending = []
      unfold ConnectionHolder.pending
      split
      next state there =>
        have unheard : state.buf = [] := by
          by_contra data
          simp [intact.heard state there data] at closed
        simp [unheard]
      next => simp [empty]
    next =>
      split
      next gone =>
        simp only [Call.bind, Bool.false_eq_true, if_false]
        apply onMissing w streams (Heard.refl w)
        left
        simp [ConnectionHolder.pending, gone, empty]
      next state there =>
        refine ⟨⟨streams, Heard.refl w⟩, ?_⟩
        intro _ w' given
        obtain ⟨streams', heard⟩ := given
        simp only [Call.bind, if_true]
        split
        next gone =>
          exact onMissing w' streams' heard (.inr ⟨by simp [there], gone⟩)
        next state' there' =>
          split
          next drained =>
            apply onMissing w' streams' heard
            left
            simpa [ConnectionHolder.pending, there', ConnectionState.isAvailable] using drained
          next available =>
            exact onState w' state' streams' heard there' (by simpa using available)

namespace World

/-- The steps of a connection's life: a holder is made, a client gets it, a callback is called, or a
receive function is, with the callbacks in its loop. -/
inductive StreamStep where
  | make (p : Nat) (connected accepted : Bool)
  | attach (c h : Nat)
  | callback (callback : Callback)
  | available (c : Nat) (loop : List Callback)
  | read (c : Nat) (loop : List Callback)
  | readBuf (c : Nat) (buf : Bool) (size : Nat) (loop : List Callback)
  | peek (c : Nat) (loop : List Callback)

def streamStep (w : World) : StreamStep → World
  | .make p connected accepted =>
      (w.makeHolder p { connected := connected, accepted := accepted }).2
  | .attach c h => w.setClient c { conn := some h }
  | .callback callback => w.callback callback
  | .available c loop => ((EthernetClient.available c w).run receiveAnswer [loop]).2
  | .read c loop => ((EthernetClient.read c w).run receiveAnswer [loop]).2
  | .readBuf c buf size loop => ((EthernetClient.readBuf c buf size w).run receiveAnswer [loop]).2
  | .peek c loop => ((EthernetClient.peek c w).run receiveAnswer [loop]).2

def streamRun (mtu : Nat) (steps : List StreamStep) : World := steps.foldl streamStep { mtu }

def Settled (w : World) : Prop := ∀ c, (w.client c).pendingConnect = false

theorem Heard.all_settled {w w' : World} (heard : Heard w w') (settled : Settled w) : Settled w' :=
  fun c => (heard.settled c).trans (settled c)

end World

namespace EthernetClient

variable {w : World} {c h : Nat}

theorem receive_unowned {α : Type} (missing : α) (fromRemaining : Nat → World → α × World)
    (fromState : Nat → ConnectionState → World → α × World) (unowned : (w.client c).conn = none) :
    receive c missing fromRemaining fromState w = .done missing w := by
  simp [receive, checkState, unowned, Call.bind]

/-- Exactly these bytes were taken from the connection, and none from another. -/
structure Took (w w' : World) (h : Nat) (bytes : List Byte) : Prop where
  streams : Streams w'
  consumed : ∀ h', consumedBytes h' w'.trace =
    consumedBytes h' w.trace ++ if h' = h then bytes else []
  settled : ∀ c, (w'.client c).pendingConnect = (w.client c).pendingConnect

theorem Took.nothing {w' : World} (streams : Streams w') (heard : Heard w w') : Took w w' h [] :=
  ⟨streams, fun h' => by simp [heard.consumed h'], heard.settled⟩

theorem takeRemaining_took (streams : Streams w) (some : (w.holder h).remaining ≠ []) (n : Nat) :
    Took w (w.takeRemaining h n) h
      (((w.holder h).remaining.drop (w.holder h).remainingPos).take n) := by
  refine ⟨takeRemaining_streams w h n streams some, ?_, ?_⟩
  · intro h'
    simp only [takeRemaining]
    split <;> simp [consumedBytes, Event.consumedBytes, emit, setHolder, eq_comm]
  · intro c
    simp only [takeRemaining]
    split <;> rfl

theorem takeBuffered_took {w' : World} {state : ConnectionState} (streams : Streams w')
    (heard : Heard w w') (there : (w'.holder h).state = some state) (n : Nat)
    (inside : n ≤ state.buf.length - state.bufPos) :
    Took w (w'.takeBuffered h state n) h ((state.buf.drop state.bufPos).take n) := by
  refine ⟨takeBuffered_streams w' h state n streams there inside, ?_, ?_⟩
  · intro h'
    rw [← heard.consumed h']
    simp [takeBuffered, consumedBytes, Event.consumedBytes, emit, setHolder, eq_comm]
  · intro c
    exact heard.settled c

theorem look_listening {α : Type} (look : List Byte → α) {fromRemaining : Nat → World → α × World}
    {fromState : Nat → ConnectionState → World → α × World} (streams : Streams w)
    (owned : (w.client c).conn = some h) (settled : (w.client c).pendingConnect = false)
    (ofRemaining : (w.holder h).state = none → fromRemaining h w = (look (w.holder h).pending, w))
    (ofState : ∀ w' state, (w'.holder h).state = some state →
      fromState h state w' = (look (w'.holder h).pending, w')) :
    Listening w α (receive c (look []) fromRemaining fromState w) fun value w' => Streams w' ∧ Heard w w' ∧
      value = if Ended w w' h then look [] else look (w'.holder h).pending := by
  apply receive_listening streams owned settled
  · intro w' streams' heard either
    rcases either with none | ended
    · exact ⟨streams', heard, by rw [none, ite_self]⟩
    · exact ⟨streams', heard, by rw [if_pos ended]⟩
  · intro some
    have gone := (streams.intact h).handover some
    rw [ofRemaining gone]
    exact ⟨streams, Heard.refl w, by simp [Ended, gone]⟩
  · intro w' state streams' heard there _
    rw [ofState w' state there]
    exact ⟨streams', heard, by simp [Ended, there]⟩

theorem available_listening (streams : Streams w) (owned : (w.client c).conn = some h)
    (settled : (w.client c).pendingConnect = false) :
    Listening w Nat (available c w) fun n w' => Streams w' ∧ Heard w w' ∧
      n = if Ended w w' h then 0 else (w'.holder h).pending.length := by
  apply look_listening List.length streams owned settled
  · intro gone
    simp [gone, ConnectionHolder.pending]
  · intro w' state there
    simp [there, ConnectionHolder.pending]

theorem peek_listening (streams : Streams w) (owned : (w.client c).conn = some h)
    (settled : (w.client c).pendingConnect = false) :
    Listening w (Option Byte) (peek c w) fun value w' => Streams w' ∧ Heard w w' ∧
      value = if Ended w w' h then none else (w'.holder h).pending.head? := by
  apply look_listening List.head? streams owned settled
  · intro gone
    simp [gone, ConnectionHolder.pending]
  · intro w' state there
    simp [there, ConnectionHolder.pending]

theorem read_listening (streams : Streams w) (owned : (w.client c).conn = some h)
    (settled : (w.client c).pendingConnect = false) :
    Listening w (Option Byte) (read c w) fun value w' => Took w w' h value.toList ∧
      (value = none → (w'.holder h).pending = [] ∨ Ended w w' h) := by
  apply receive_listening streams owned settled
  · intro w' streams' heard missing
    exact ⟨Took.nothing streams' heard, fun _ => missing⟩
  · intro some
    have taken := takeRemaining_took streams some 1
    rw [List.take_one, List.head?_drop] at taken
    refine ⟨taken, fun none => ?_⟩
    rcases (streams.intact h).position with inside | ⟨-, empty⟩
    · exact absurd (List.getElem?_eq_none_iff.mp none) (by omega)
    · exact absurd empty some
  · intro w' state streams' heard there available
    have inside : state.bufPos < state.buf.length := by
      simpa [ConnectionState.isAvailable] using available
    have taken := takeBuffered_took streams' heard there 1 (by omega)
    rw [List.take_one, List.head?_drop] at taken
    exact ⟨taken, fun none => absurd (List.getElem?_eq_none_iff.mp none) (by omega)⟩

theorem readBuf_listening (buf : Bool) (size : Nat) (streams : Streams w)
    (owned : (w.client c).conn = some h) (settled : (w.client c).pendingConnect = false) :
    Listening w (Nat × List Byte) (readBuf c buf size w) fun value w' =>
      ∃ bytes, Took w w' h bytes ∧ value = (bytes.length, if buf then bytes else []) ∧
        bytes.length ≤ size ∧
        (bytes.length < size → (w'.holder h).pending = [] ∨ Ended w w' h) := by
  apply receive_listening streams owned settled
  · intro w' streams' heard missing
    exact ⟨[], Took.nothing streams' heard, by simp, Nat.zero_le _, fun _ => missing⟩
  · intro some
    have gone := (streams.intact h).handover some
    dsimp only
    split
    next zero => exact ⟨[], Took.nothing streams (Heard.refl w), by simp, Nat.zero_le _, by omega⟩
    next =>
      refine ⟨_, takeRemaining_took streams some _, ?_, ?_, ?_⟩
      · simp
      · simp
      · intro fewer
        left
        have drained : (w.holder h).remaining.length ≤ (w.holder h).remainingPos +
            min size ((w.holder h).remaining.length - (w.holder h).remainingPos) := by
          simp only [List.length_take, List.length_drop] at fewer
          omega
        simp [takeRemaining, drained, setHolder, ConnectionHolder.pending, gone]
  · intro w' state streams' heard there available
    have inside : state.bufPos < state.buf.length := by
      simpa [ConnectionState.isAvailable] using available
    dsimp only
    split
    next zero => exact ⟨[], Took.nothing streams' heard, by simp, Nat.zero_le _, by omega⟩
    next =>
      refine ⟨_, takeBuffered_took streams' heard there _ (Nat.min_le_right _ _), ?_, ?_, ?_⟩
      · simp
      · simp
      · intro fewer
        left
        simp only [List.length_take, List.length_drop] at fewer
        simp only [takeBuffered, setHolder, Function.update_self, ConnectionHolder.pending]
        apply List.drop_eq_nil_of_le
        omega

theorem receive_kept {α : Type} (missing : α) (fromRemaining : Nat → World → α × World)
    (fromState : Nat → ConnectionState → World → α × World) (loop : List Callback)
    (streams : Streams w) (settled : Settled w)
    (owned : ∀ h, (w.client c).conn = some h →
      Listening w α (receive c missing fromRemaining fromState w) fun _ w' =>
        Streams w' ∧ Settled w') :
    Streams ((receive c missing fromRemaining fromState w).run receiveAnswer [loop]).2 ∧
      Settled ((receive c missing fromRemaining fromState w).run receiveAnswer [loop]).2 := by
  cases conn : (w.client c).conn with
  | none =>
      rw [receive_unowned missing fromRemaining fromState conn]
      exact ⟨streams, settled⟩
  | some h => exact (owned h conn).run [loop]

end EthernetClient

open EthernetClient

theorem World.streamStep_kept (w : World) (step : StreamStep) (kept : Streams w ∧ Settled w) :
    Streams (w.streamStep step) ∧ Settled (w.streamStep step) := by
  rcases kept with ⟨streams, settled⟩
  cases step with
  | make p connected accepted => exact ⟨makeHolder_streams w p connected accepted streams, settled⟩
  | attach c h =>
      refine ⟨streams.of_same rfl rfl rfl, fun c' => ?_⟩
      by_cases same : c' = c
      · simp [streamStep, setClient, same]
      · simpa [streamStep, setClient, Function.update_of_ne same] using settled c'
  | callback callback =>
      exact ⟨callback_streams w callback streams, (callback_heard w callback).all_settled settled⟩
  | available c loop =>
      apply receive_kept _ _ _ loop streams settled
      intro h owned
      apply (available_listening streams owned (settled c)).mono
      exact fun _ w' kept => ⟨kept.1, kept.2.1.all_settled settled⟩
  | read c loop =>
      apply receive_kept _ _ _ loop streams settled
      intro h owned
      apply (read_listening streams owned (settled c)).mono
      exact fun _ w' kept => ⟨kept.1.streams, fun c => (kept.1.settled c).trans (settled c)⟩
  | readBuf c buf size loop =>
      apply receive_kept _ _ _ loop streams settled
      intro h owned
      apply (readBuf_listening buf size streams owned (settled c)).mono
      intro _ w' given
      obtain ⟨_, kept, -⟩ := given
      exact ⟨kept.streams, fun c => (kept.settled c).trans (settled c)⟩
  | peek c loop =>
      apply receive_kept _ _ _ loop streams settled
      intro h owned
      apply (peek_listening streams owned (settled c)).mono
      exact fun _ w' kept => ⟨kept.1, kept.2.1.all_settled settled⟩

/-- The stream of each connection, and what a call of a receive function makes of it: `loop` is any
list of callbacks, and a read that finds less than it asks for has taken all that is pending, or its
connection ended in its own loop. -/
structure World.StreamIntegrity (w : World) : Prop where
  balance : ∀ h, consumedBytes h w.trace ++ (w.holder h).pending = storedBytes h w.trace
  handover : ∀ h, (w.holder h).remaining ≠ [] → (w.holder h).state = none
  position : ∀ h, (w.holder h).remainingPos < (w.holder h).remaining.length ∨
    (w.holder h).remainingPos = 0 ∧ (w.holder h).remaining = []
  accepted : ∀ h tpcb p err finOk, (w.recvFunc h tpcb p err finOk).2.trace =
    w.trace ++ w.acceptedEvents h p (w.recvFunc h tpcb p err finOk).1
  available : ∀ c h loop, (w.client c).conn = some h →
    let (n, w') := (available c w).run receiveAnswer [loop]
    Took w w' h [] ∧ n = if Ended w w' h then 0 else (w'.holder h).pending.length
  peek : ∀ c h loop, (w.client c).conn = some h →
    let (value, w') := (peek c w).run receiveAnswer [loop]
    Took w w' h [] ∧ value = if Ended w w' h then none else (w'.holder h).pending.head?
  read : ∀ c h loop, (w.client c).conn = some h →
    let (value, w') := (read c w).run receiveAnswer [loop]
    Took w w' h value.toList ∧ (value = none → (w'.holder h).pending = [] ∨ Ended w w' h)
  readBuf : ∀ c h buf size loop, (w.client c).conn = some h →
    let (value, w') := (readBuf c buf size w).run receiveAnswer [loop]
    ∃ bytes, Took w w' h bytes ∧ value = (bytes.length, if buf then bytes else []) ∧
      bytes.length ≤ size ∧
      (bytes.length < size → (w'.holder h).pending = [] ∨ Ended w w' h)

theorem World.receive_stream_integrity (mtu : Nat) (steps : List StreamStep) :
    StreamIntegrity (streamRun mtu steps) := by
  have kept : Streams (streamRun mtu steps) ∧ Settled (streamRun mtu steps) := by
    apply Run.foldl_preserves (fun w => Streams w ∧ Settled w) streamStep streamStep_kept
    refine ⟨⟨fun h => ?_, fun h _ => ⟨rfl, rfl, rfl⟩⟩, fun c => rfl⟩
    exact ⟨rfl, by simp, .inr ⟨rfl, rfl⟩, by simp, by simp⟩
  rcases kept with ⟨streams, settled⟩
  constructor
  · exact fun h => (streams.intact h).balance
  · exact fun h => (streams.intact h).handover
  · exact fun h => (streams.intact h).position
  · exact recvFunc_trace (streamRun mtu steps)
  · intro c h loop owned
    have called := (available_listening streams owned (settled c)).run [loop]
    exact ⟨Took.nothing called.1 called.2.1, called.2.2⟩
  · intro c h loop owned
    have called := (peek_listening streams owned (settled c)).run [loop]
    exact ⟨Took.nothing called.1 called.2.1, called.2.2⟩
  · exact fun c h loop owned => (read_listening streams owned (settled c)).run [loop]
  · exact fun c h buf size loop owned =>
      (readBuf_listening buf size streams owned (settled c)).run [loop]

end QNEthernet.Tcp
