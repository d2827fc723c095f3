import QNEthernet.Tcp.Accept
import QNEthernet.Tcp.TidyMoves
import QNEthernet.Tcp.Waiting

/-! Sketches that listen, connect and accept. Their clients have connections that were started here or
returned by `accept()`, so no block is closed that belongs to another one. -/

namespace QNEthernet.Tcp

open Lwip World

/-- The answers of lwIP as they are. -/
def Answers (request : Request) (w : World) (err : Err) (w' : World) : Prop :=
  ∃ turn, err = (w.answer request turn).1 ∧ w' = (w.answer request turn).2

/-- What the calls of such a sketch keep. -/
structure Accepting (w : World) : Prop where
  ordered : Ordered w
  tidy : Tidy (fun _ => False) [] w
  waiting : w.Waiting
  claimed : ∀ c h, (w.client c).conn = some h → (w.holder h).accepted = true

variable {w w' : World} {α : Type}

theorem Accepting.move (accepting : Accepting w) (move : Move .between w w') (waiting : w'.Waiting)
    (client : w'.client = w.client) : Accepting w' where
  ordered := accepting.ordered.moves move.moves
  tidy := move.tidy accepting.ordered.good accepting.tidy
  waiting := waiting
  claimed := by
    intro c h owned
    rw [client] at owned
    rw [(accepting.ordered.since move.moves).accepted h (accepting.ordered.held c h owned)]
    exact accepting.claimed c h owned

theorem Accepting.setClient (accepting : Accepting w) (c : Nat) (x : EthernetClient)
    (given : ∀ h, x.conn = some h → h < w.nextHolder ∧ (w.holder h).accepted = true) :
    Accepting (w.setClient c x) where
  ordered := accepting.ordered.setClient c x fun h own => (given h own).1
  tidy := accepting.tidy.of_same rfl rfl fun _ => id
  waiting := accepting.waiting.of_same rfl rfl rfl
  claimed := by
    intro c' h owned
    by_cases same : c' = c
    · subst same
      simp only [World.setClient, Function.update_self] at owned
      exact (given h owned).2
    · simp only [World.setClient, Function.update_of_ne same] at owned
      exact accepting.claimed c' h owned

theorem Accepting.dropConn (accepting : Accepting w) (c : Nat) : Accepting (w.dropConn c) :=
  accepting.setClient c _ fun _ none => by cases none

theorem Accepting.touch (accepting : Accepting w) (p : Nat) : Accepting (w.touch p) :=
  accepting.move (.use p False.elim) (touch_waiting accepting.waiting p) rfl

theorem Accepting.loop (accepting : Accepting w) (events : List LwipEvent) : Accepting (w.loop events) := by
  apply Run.foldl_preserves Accepting lwip _ events w accepting
  intro w event accepting
  exact accepting.move (.event event ⟨False.elim, False.elim⟩)
    (lwip_waiting accepting.ordered.good accepting.tidy accepting.waiting event) (lwip_aside w event).client

theorem Accepting.abort (accepting : Accepting w) (p : Nat) : Accepting (w.altcpAbort p) := by
  have touched := accepting.touch p
  exact accepting.move (.abort p False.elim False.elim False.elim)
    (tcpAbandon_waiting touched.ordered.good touched.waiting p) (altcpAbort_aside w p).client

/-- The block of a connection that was given to a client is none that `accept()` may return. -/
theorem Accepting.unused (accepting : Accepting w) {h : Nat} {state : ConnectionState}
    (there : (w.holder h).state = some state) (accepted : (w.holder h).accepted = true) :
    ¬ w.Unclaimed state.pcb := by
  intro unclaimed
  rcases unclaimed with ⟨h', state', there', unaccepted, block⟩
  cases accepting.ordered.good.linked.unique there' there block
  rw [accepted] at unaccepted
  cases unaccepted

theorem Accepting.close (accepting : Accepting w) {h : Nat} {state : ConnectionState}
    (there : (w.holder h).state = some state) (accepted : (w.holder h).accepted = true) (finOk : Bool) :
    Accepting (w.altcpClose state.pcb finOk).2 :=
  accepting.move (.close state.pcb finOk ⟨h, state, there, rfl⟩ False.elim)
    (altcpClose_waiting accepting.waiting (accepting.unused there accepted) finOk)
    (altcpClose_blocksOnly w state.pcb finOk).client

theorem Accepting.closePending (accepting : Accepting w) {h : Nat} {state : ConnectionState}
    (there : (w.holder h).state = some state) (accepted : (w.holder h).accepted = true) (finOk : Bool) :
    Accepting ((w.altcpClose state.pcb finOk).2.destroyState h) := by
  apply accepting.move (.closePending h state finOk there False.elim)
  · exact destroyState_waiting
      (altcpClose_waiting accepting.waiting (accepting.unused there accepted) finOk) h
  · rw [destroyState_client]
    exact (altcpClose_blocksOnly w state.pcb finOk).client

/-- A call that ends with `goal` as lwIP answers. -/
abbrev Ending (call : TcpCall α) (goal : α → World → Prop) : Prop :=
  call.Keeps (fun _ _ => True) Answers goal

/-- A call that keeps what such a sketch does. -/
abbrev Accepts (call : TcpCall α) : Prop := Ending call fun _ w' => Accepting w'

theorem Ending.loop {goal : α → World → Prop} {next : World → TcpCall α} (accepting : Accepting w)
    (rest : ∀ w', Accepting w' → w'.client = w.client → Ending (next w') goal) :
    Ending (Ethernet.loop w next) goal := by
  refine ⟨trivial, ?_⟩
  intro _ w' answered
  obtain ⟨turn, -, rfl⟩ := answered
  exact rest _ (accepting.loop turn.events) (loop_aside w turn.events).client

theorem Ending.abort {goal : α → World → Prop} {next : World → TcpCall α} (accepting : Accepting w) (p : Nat)
    (rest : ∀ w', Accepting w' → Ending (next w') goal) : Ending (altcpAbort p w next) goal := by
  refine ⟨trivial, ?_⟩
  intro _ w' answered
  obtain ⟨turn, -, rfl⟩ := answered
  exact rest _ (accepting.abort p)

theorem Ending.closeOrAbort {goal : α → World → Prop} {next : Err → World → TcpCall α} (p : Nat)
    (rest : ∀ finOk, Ending (next .ok (w.altcpClose p finOk).2) goal) :
    Ending (altcpCloseOrAbort p w next) goal := by
  refine ⟨trivial, ?_⟩
  intro err w' answered
  obtain ⟨turn, rfl, rfl⟩ := answered
  simp only [World.answer, altcpClose_fst, ne_eq, not_true_eq_false, if_false]
  exact rest turn.finOk

namespace EthernetClient

theorem closeState_accepts (accepting : Accepting w) (c : Nat) {h : Nat}
    (accepted : (w.holder h).accepted = true) (clock : List UInt32) :
    Accepts (closeState c h false clock w) := by
  unfold closeState
  split
  · exact accepting.dropConn c
  next state there =>
    apply Ending.closeOrAbort
    intro finOk
    simp only [Bool.false_eq_true, and_false, if_false]
    exact (accepting.close there accepted finOk).dropConn c

theorem close_accepts (accepting : Accepting w) (c : Nat) (clock : List UInt32) :
    Accepts (close c false clock w) := by
  unfold close
  split
  · exact accepting
  next h own =>
    split
    · exact accepting.dropConn c
    next state there =>
      have accepted := accepting.claimed c h own
      split
      · split
        · apply Ending.loop (accepting.touch state.pcb)
          intro w' accepting' client
          apply closeState_accepts accepting' c
          apply accepting'.claimed c
          rw [client]
          exact own
        · exact accepting.dropConn c
      · split
        · apply Ending.closeOrAbort
          intro finOk
          exact (accepting.closePending there accepted finOk).dropConn c
        · exact closeState_accepts accepting c accepted clock

end EthernetClient

theorem makeHolder_waiting (waiting : w.Waiting) {p : Nat} (there : p ∈ w.pool) :
    (w.makeHolder p { accepted := true }).2.Waiting := by
  rw [makeHolder_eq _ there]
  refine waiting.of_fields ?_ (fun _ _ => id) ?_
  · intro p' after
    rcases after with ⟨h, state, present, unaccepted, block⟩
    by_cases new : h = w.nextHolder
    · subst new
      simp at unaccepted
    · simp only [Function.update_of_ne new] at present unaccepted
      exact ⟨h, state, present, unaccepted, block⟩
  · intro p' _ open_
    by_cases same : p' = p
    · subst same
      simpa [TcpPcb.Receiving] using open_
    · simpa [Function.update_of_ne same] using open_

theorem addConnection_waiting (waiting : w.Waiting) (h : Nat) : (w.addConnection h).Waiting := by
  refine World.Waiting.setHolder (w := { w with connections := w.connections ++ [h] }) ?_ h _ id ?_
  · exact waiting.of_same rfl rfl rfl
  · simp [Function.comp_def]

namespace ConnectionManager

theorem createAltcpPcb_ending {goal : α → World → Prop} {next : Option Nat → World → TcpCall α}
    (accepting : Accepting w) (without : ∀ w', Accepting w' → Ending (next none w') goal)
    (with_ : ∀ p w', Accepting w' → p ∈ w'.pool → w'.pcb p = {} → Ending (next (some p) w') goal) :
    Ending (createAltcpPcb w next) goal := by
  refine ⟨trivial, ?_⟩
  intro _ w' answered
  obtain ⟨turn, -, rfl⟩ := answered
  have later : Accepting (w.answer .alloc turn).2 := accepting.loop _
  dsimp only
  cases room : (w.answer .alloc turn).2.tcpAlloc {} with
  | none => exact without _ later
  | some result =>
      rcases result with ⟨p, w''⟩
      have given : Accepting w'' ∧ p ∈ w''.pool ∧ w''.pcb p = {} := by
        have moved := fun client => later.move (.alloc p room)
          (tcpAlloc_waiting later.ordered.good later.waiting room) client
        obtain ⟨place, free, space, rfl, rfl⟩ := tcpAlloc_some room
        exact ⟨moved rfl, by simp [World.setPcb], by simp [World.setPcb]⟩
      exact with_ p w'' given.1 given.2.1 given.2.2

theorem failed_ending {goal : α → World → Prop} {value : α} (accepting : Accepting w)
    (ended : ∀ w', Accepting w' → goal value w') : Ending (Ethernet.loop w (.done value)) goal :=
  Ending.loop accepting fun w' accepting' _ => ended w' accepting'

theorem connect_ending (accepting : Accepting w) (ipaddr : Option UInt32) (attempt : Attempt) :
    Ending (connect ipaddr attempt w) fun conn w' => Accepting w' ∧
      ∀ h, conn = some h → h < w'.nextHolder ∧ (w'.holder h).accepted = true := by
  have failed (w : World) (accepting : Accepting w) : Ending (Ethernet.loop w (.done none) : TcpCall (Option Nat))
      fun conn w' => Accepting w' ∧
        ∀ h, conn = some h → h < w'.nextHolder ∧ (w'.holder h).accepted = true :=
    failed_ending accepting fun w' accepting' => ⟨accepting', fun h none => by cases none⟩
  unfold connect
  cases ipaddr with
  | none => exact failed w accepting
  | some ipaddr =>
      apply createAltcpPcb_ending accepting failed
      intro p s accepting there blank
      have used := accepting.touch p
      dsimp only
      split
      · exact Ending.abort used p failed
      · have blank' : (s.touch p).pcb p = {} := blank
        have bound := used.move (.bind p attempt.localPort (by simp [blank']))
          (used.waiting.setPcb _ fun _ => id) rfl
        have there' : p ∈ ((s.touch p).setPcb p
            { (s.touch p).pcb p with localPort := attempt.localPort }).pool := there
        have made := fun client => bound.move (.make p there' (by simp [World.setPcb, blank']))
          (makeHolder_waiting bound.waiting there') client
        rw [makeHolder_eq _ there'] at made ⊢
        have used' := (made rfl).touch p
        split
        · exact Ending.abort used' p failed
        · have started := used'.move (.connect _ p (tcpWnd s.mtu) rfl (by simp [World.touch, World.setPcb])
            (by simp [World.touch, World.setPcb, blank]))
            (addConnection_waiting (used'.waiting.setPcb _ (by
              simp [World.touch, World.setPcb, blank, TcpPcb.Receiving])) _) rfl
          refine ⟨started, ?_⟩
          intro h same
          cases same
          exact ⟨Nat.lt_succ_self _, by simp [addConnection, World.setHolder, World.touch, World.setPcb]⟩

theorem tcpListen_waiting (accepting : Accepting w) {p l : Nat} (closed : (w.pcb p).state = .closed)
    (room : w.tcpListen p = some (l, w')) :
    ({ w' with listeners := w'.listeners ++ [l] }.altcpArg l .manager).Waiting := by
  have waiting := accepting.waiting
  obtain ⟨space, rfl, rfl⟩ := tcpListen_some room
  refine World.Waiting.setPcb (w := World.touch _ _) ?_ _ fun _ => id
  have fresh : ¬ w.Unclaimed w.nextPcb := fun unclaimed =>
    accepting.ordered.good.pools.fresh.1 (waiting w.nextPcb unclaimed).1
  have unused : ¬ w.Unclaimed p := waiting.unused_of_state (by simp [closed])
  have listening : (({ w with nextPcb := w.nextPcb + 1, listenPool := w.nextPcb :: w.listenPool } : World).setPcb
      w.nextPcb { state := .listen, localPort := (w.pcb p).localPort, callbackArg := (w.pcb p).callbackArg }).Waiting :=
    World.Waiting.setPcb (waiting.of_same rfl rfl rfl) _ fun unclaimed => absurd unclaimed fresh
  exact (tcpFree_waiting listening unused).of_same rfl rfl rfl

theorem listen_accepts (accepting : Accepting w) (port : UInt16) (attempt : Attempt) :
    Accepts (listen port attempt w) := by
  have failed (w : World) (accepting : Accepting w) :
      Accepts (Ethernet.loop w (.done none) : TcpCall (Option UInt16)) :=
    failed_ending accepting fun _ => id
  unfold listen
  apply createAltcpPcb_ending accepting failed
  intro p s accepting there blank
  have used := accepting.touch p
  dsimp only
  split
  · exact Ending.abort used p failed
  · have blank' : (s.touch p).pcb p = {} := blank
    have bound := used.move
      (.bind p (if port = 0 then attempt.localPort else port) (by simp [blank']))
      (used.waiting.setPcb _ fun _ => id) rfl
    have used' := bound.touch p
    split
    · exact Ending.abort used' p failed
    next l s' result =>
      have room := (Option.ite_none_right_eq_some.mp result).2
      have closed : ((((s.touch p).setPcb p { (s.touch p).pcb p with
          localPort := if port = 0 then attempt.localPort else port }).touch p).pcb p).state = .closed := by
        simp [World.touch, World.setPcb, blank]
      have listening := used'.move (.listen p l (by simp [World.touch, World.setPcb, blank]) room)
        (tcpListen_waiting used' closed room) (by
          obtain ⟨-, -, rfl⟩ := tcpListen_some room
          rfl)
      by_cases any : port = 0
      · simp only [any, if_true]
        exact listening.touch l
      · simp only [any, if_false]
        exact listening

theorem findListener_accepting (accepting : Accepting w) (port : UInt16) :
    Accepting (w.findListener port).2 ∧ (w.findListener port).2.listeners = w.listeners := by
  apply findIf_keeps (fun s => Accepting s ∧ s.listeners = w.listeners) w.listeners _ ⟨accepting, rfl⟩
  intro l _ s given
  exact ⟨given.1.touch l, given.2⟩

theorem stopListening_accepts (accepting : Accepting w) (port : UInt16) :
    Accepts (stopListening port w) := by
  have looked := findListener_accepting accepting port
  unfold stopListening
  split
  next s result =>
    rw [result] at looked
    exact looked.1
  next l s result =>
    rw [result] at looked
    have pools := looked.1.ordered.good.pools
    have member : l ∈ s.listeners := by
      rw [looked.2]
      exact findIf_mem (congrArg Prod.fst result)
    have stopped := looked.1.move (.stopListening l) (looked.1.waiting.of_same rfl rfl rfl) rfl
    have unused : ¬ s.Unclaimed l := fun unclaimed =>
      (pools.listening l (pools.listenersIn l member)).2 (looked.1.waiting l unclaimed).1
    apply Ending.closeOrAbort
    intro finOk
    apply stopped.move (.closeListener l finOk (pools.listenersIn l member) pools.listenersNodup.not_mem_erase)
    · exact altcpClose_waiting stopped.waiting unused finOk
    · exact (altcpClose_blocksOnly _ l finOk).client

end ConnectionManager

namespace EthernetClient

theorem connectWait_accepts (accepting : Accepting w) (c : Nat) (t : UInt32) (clock : List UInt32) :
    Accepts (connectWait c t clock w) := by
  have finished (w : World) (accepting : Accepting w) : Accepts (connectDone c w) := by
    unfold connectDone
    split
    · exact accepting
    · exact (close_accepts accepting c []).bind fun _ _ => id
  induction clock generalizing w with
  | nil =>
      unfold connectWait
      split
      · exact accepting
      · exact finished w accepting
  | cons now clock ih =>
      unfold connectWait
      split
      · exact Ending.loop accepting fun w' accepting' _ => ih accepting'
      · exact finished w accepting

theorem connect_accepts (accepting : Accepting w) (c : Nat) (ipaddr : Option UInt32) (attempt : Attempt)
    (wait : Bool) (clock : List UInt32) : Accepts (connect c ipaddr attempt wait clock w) := by
  unfold connect
  apply Call.Keeps.bind (close_accepts accepting c [])
  intro _ w₁ accepting₁
  apply Call.Keeps.bind (ConnectionManager.connect_ending accepting₁ ipaddr attempt)
  intro conn w₂ given
  have owned := given.1.setClient c { w₂.client c with conn := conn } given.2
  cases conn with
  | none => exact owned
  | some h =>
      have pending : Accepting ((w₂.setClient c { w₂.client c with conn := some h }).setClient c
          { (w₂.setClient c { w₂.client c with conn := some h }).client c with pendingConnect := !wait }) := by
        apply owned.setClient
        intro h' same
        simp only [World.setClient, Function.update_self, Option.some.injEq] at same
        subst same
        exact given.2 h rfl
      dsimp only
      split
      · split
        · exact pending
        · exact connectWait_accepts pending c _ _
      · exact pending

end EthernetClient

namespace EthernetServer

theorem endListening_accepts (accepting : Accepting w) (i : Nat) : Accepts (endListening i w) := by
  unfold endListening
  split
  · apply Call.Keeps.bind (ConnectionManager.stopListening_accepts accepting _)
    exact fun _ s accepting => accepting.move (.server i _) (accepting.waiting.of_same rfl rfl rfl) rfl
  · exact accepting

theorem beginListening_accepts (accepting : Accepting w) (i : Nat) (port : UInt16) (reuse : Bool)
    (attempt : Attempt) : Accepts (beginListening i port reuse attempt w) := by
  have started (w : World) (accepting : Accepting w) : Accepts (startListening i port reuse attempt w) := by
    unfold startListening
    apply Call.Keeps.bind (ConnectionManager.listen_accepts accepting port attempt)
    intro p s accepting
    cases p with
    | none => exact accepting
    | some value =>
        dsimp only
        split
        · exact accepting.move (.server i _) (accepting.waiting.of_same rfl rfl rfl) rfl
        · exact accepting
  unfold beginListening
  split
  · split
    · exact accepting
    · exact (endListening_accepts accepting i).bind fun _ => started
  · exact started w accepting

end EthernetServer

theorem Accepting.returned (accepting : Accepting w) {h : Nat} {port : UInt16}
    (ordered : Ordered ((w.setHolder h { w.holder h with accepted := true }).emit (.returned h port))) :
    Accepting ((w.setHolder h { w.holder h with accepted := true }).emit (.returned h port)) where
  ordered := ordered
  tidy := by
    refine Tidy.of_same (w := w.setHolder h { w.holder h with accepted := true }) ?_ rfl rfl fun _ => id
    exact accepting.tidy.setHolder h _ rfl (fun _ => rfl) (accepting.tidy.connected h)
  waiting := by
    refine World.Waiting.of_same (w := w.setHolder h { w.holder h with accepted := true }) ?_ rfl rfl rfl
    exact accepting.waiting.setHolder h _ (by simp) rfl
  claimed := by
    intro c h' owned
    by_cases same : h' = h
    · simp [emit, World.setHolder, same]
    · simpa [emit, World.setHolder, same] using accepting.claimed c h' owned

theorem EthernetServer.accept_accepts (accepting : Accepting w) (i c : Nat) :
    Accepts (EthernetServer.accept i c w) := by
  unfold EthernetServer.accept
  by_cases listening : 0 < (w.server i).listeningPort
  · rcases findUnacknowledged_eq w (w.server i).listeningPort with ⟨misuse, looked⟩
    have used : Moves .between w { w with misuse := misuse } := by
      have moves := findUnacknowledged_moves (w.server i).listeningPort
        (Moves.refl w : Moves .between w w)
      rwa [looked] at moves
    have seen : Accepting { w with misuse := misuse } :=
      ⟨accepting.ordered.moves used, accepting.tidy.of_same rfl rfl fun _ => id,
        accepting.waiting.of_same rfl rfl rfl, accepting.claimed⟩
    simp only [listening, if_true, looked]
    refine ⟨trivial, ?_⟩
    intro _ w' answered
    obtain ⟨turn, -, rfl⟩ := answered
    have later := seen.loop turn.events
    have moves := used.trans (loop_between _ turn.events)
    cases found : w.connections.find? (w.waitsAt (w.server i).listeningPort) with
    | none => exact later.setClient c {} (by simp)
    | some h =>
        have handed := accepting.ordered.hand_out moves found
        apply (later.returned handed.1).setClient c
        intro h' same
        cases same
        exact ⟨handed.2, by simp [emit, World.setHolder]⟩
  · simp only [listening, if_false]
    exact accepting.setClient c {} (by simp)

/-- Servers listen, connections are started, and connections are accepted; what lwIP does meanwhile is
in the turns. -/
def Op.incoming : Op → Bool
  | .loop | .connect _ _ _ _ _ | .beginListening _ _ _ _ | .endListening _ | .accept _ _ => true
  | _ => false

theorem step_accepting (s : Step) (calls : s.op.incoming) (accepting : Accepting w) :
    Accepting (w.step s) := by
  rcases s with ⟨op, turns⟩
  have forgotten {α : Type} {call : TcpCall α} (kept : Accepts call) : Accepts call.forget :=
    kept.bind fun _ _ => id
  have kept : Accepts (op.call w) := by
    cases op with
    | loop => exact Ending.loop accepting fun _ accepting' _ => accepting'
    | connect c ipaddr attempt wait clock =>
        exact forgotten (EthernetClient.connect_accepts accepting c ipaddr attempt wait clock)
    | beginListening i port reuse attempt =>
        exact forgotten (EthernetServer.beginListening_accepts accepting i port reuse attempt)
    | endListening i => exact EthernetServer.endListening_accepts accepting i
    | accept i c => exact forgotten (EthernetServer.accept_accepts accepting i c)
    | _ => cases calls
  exact kept.run (fun _ turn _ _ _ => ⟨turn, rfl, rfl⟩) turns
    (Call.meets_of_forall (fun _ _ _ => trivial) _ turns)

theorem foldl_accepting (steps : List Step) (calls : ∀ s ∈ steps, s.op.incoming) (accepting : Accepting w) :
    Accepting (steps.foldl step w) := by
  induction steps generalizing w with
  | nil => exact accepting
  | cons s steps ih =>
      apply ih fun s' member => calls s' (List.mem_cons_of_mem s member)
      exact step_accepting s (calls s List.mem_cons_self) accepting

theorem exec_accepting (mtu : Nat) (steps : List Step) (calls : ∀ s ∈ steps, s.op.incoming) :
    Accepting (exec mtu steps) := by
  apply foldl_accepting steps calls
  refine ⟨exec_ordered mtu [], start_tidy mtu, ?_, by simp⟩
  intro p unclaimed
  obtain ⟨h, state, there, -⟩ := unclaimed
  cases there

/-- What was returned so far, and what the next `accept()` of any server does. The blocks it looks at
are allocated. -/
structure World.InOrder (w : World) : Prop where
  subsequence : ∀ port, (w.returns.filter (·.2 = port)).Sublist (w.arrivals.filter (·.2 = port))
  once : (w.returns.map (·.1)).Nodup
  accept : ∀ s c turns,
    let (result, w') := (EthernetServer.accept s c w).run answer turns
    result = w.nextFor s ∧ w'.returns = w.returns ++ result.toList.map (·, (w.server s).listeningPort)
  skipped : ∀ port h, (h, port) ∈ w.arrivals → (h, port) ∉ w.returns →
    (∀ next, (w.findUnacknowledged port).1 = some next → h < next) → (w.holder h).state = none
  allocated : ∀ h state, (w.holder h).state = some state → (w.holder h).accepted = false →
    state.pcb ∈ w.pool
  started : ∀ c ipaddr attempt wait clock turns (after : List Step) h,
    (∀ s ∈ after, s.op.incoming) →
    let w' := w.step ⟨.connect c ipaddr attempt wait clock, turns⟩
    (w'.client c).conn = some h → ∀ port, (h, port) ∉ (after.foldl step w').returns

theorem Accepting.inOrder (accepting : Accepting w) : w.InOrder := by
  have ordered := accepting.ordered
  have queue := ordered.queue
  constructor
  · intro port
    have apart : Std.Antisymm fun a b : Nat × UInt16 => a.1 < b.1 :=
      ⟨fun a b before after => absurd (before.trans after) (lt_irrefl _)⟩
    have distinct : (w.returns.filter (·.2 = port)).Nodup :=
      (queue.returnOrder port).imp fun before same => absurd (same ▸ before) (lt_irrefl _)
    apply List.sublist_of_subperm_of_pairwise _ (queue.returnOrder port) (queue.order.filter _)
    apply distinct.subperm
    intro a member
    rw [List.mem_filter] at member ⊢
    exact ⟨queue.returned member.1, member.2⟩
  · exact queue.once
  · intro s c turns
    have ended := (EthernetServer.accept_ends ordered s c).run turns
    exact ⟨ended.1, ended.2.1⟩
  · intro port h arrived unreturned earlier
    rcases findUnacknowledged_eq w port with ⟨misuse, looked⟩
    rw [looked] at earlier
    cases found : w.connections.find? (w.waitsAt port) with
    | none => exact queue.unfound ordered.good.linked found arrived unreturned
    | some next =>
        exact (queue.found ordered.good.linked found).2.2.2 h arrived unreturned (earlier next found)
  · exact fun h state there unaccepted => (accepting.waiting state.pcb ⟨h, state, there, unaccepted, rfl⟩).1
  · intro c ipaddr attempt wait clock turns after h _ w' owned port member
    have ended := (EthernetClient.connect_ends ordered c ipaddr attempt wait clock).run turns
    have same : w' = ((EthernetClient.connect c ipaddr attempt wait clock w).run answer turns).2 :=
      Call.run_forget answer _ turns
    have here : w'.Local h := by
      rw [same] at owned ⊢
      exact ended h owned
    have kept := foldl_ordered after (step_ordered ⟨.connect c ipaddr attempt wait clock, turns⟩ ordered).1
    exact (kept.2 h here).2 port (kept.1.queue.returned member)

theorem accept_in_order (mtu : Nat) (steps : List Step) (calls : ∀ s ∈ steps, s.op.incoming) :
    (exec mtu steps).InOrder :=
  (exec_accepting mtu steps calls).inOrder

/-- Three connections come in on two ports, the first of which is reset before it is accepted, and a
fourth is started. -/
def twoPorts : List Step :=
  [⟨.beginListening 0 80 false {}, []⟩,
    ⟨.beginListening 1 81 false {}, []⟩,
    ⟨.loop, [{ events := [.syn 1, .input 4 { ack := true } true, .syn 3, .input 5 { ack := true } true,
      .syn 1, .input 6 { ack := true } true] }]⟩,
    ⟨.connect 0 (some 1) {} false [], []⟩,
    ⟨.loop, [{ events := [.input 7 { synAck := true } true, .input 4 { rst := true } true] }]⟩,
    ⟨.accept 1 1, []⟩,
    ⟨.accept 0 2, []⟩]

theorem accept_in_order_twoPorts :
    (exec 1500 twoPorts).arrivals = [(0, 80), (1, 81), (2, 80)] ∧
      (exec 1500 twoPorts).returns = [(1, 81), (2, 80)] ∧ (exec 1500 twoPorts).connections = [1, 2, 3] ∧
      (exec 1500 twoPorts).InOrder :=
  ⟨by decide, by decide, by decide, accept_in_order 1500 twoPorts (by simp [twoPorts, Op.incoming])⟩

end QNEthernet.Tcp
