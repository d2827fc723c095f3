import QNEthernet.Tcp.Queue
import QNEthernet.Tcp.Sketch

/-! `accept()` hands out the connections of a port once and in the order they arrived. -/

namespace QNEthernet.Tcp

open Lwip World

namespace World

/-- What `findUnacknowledged` looks for. -/
def waitsAt (w : World) (port : UInt16) (h : Nat) : Bool :=
  match (w.holder h).state with
  | none => false
  | some state => !(w.holder h).accepted && (w.pcb state.pcb).localPort == port

def Local (w : World) (h : Nat) : Prop := h < w.nextHolder ∧ ∀ port, (h, port) ∉ w.arrivals

end World

variable {w w' : World}

theorem waitsAt_iff {port : UInt16} {h : Nat} : w.waitsAt port h ↔
    ∃ state, (w.holder h).state = some state ∧ (w.holder h).accepted = false ∧
      (w.pcb state.pcb).localPort = port := by
  unfold waitsAt
  cases (w.holder h).state <;> simp

theorem findUnacknowledged_eq (w : World) (port : UInt16) : ∃ misuse,
    w.findUnacknowledged port = (w.connections.find? (w.waitsAt port), { w with misuse := misuse }) := by
  refine findIf_eq ?_ w.connections w.misuse
  intro h misuse
  cases there : (w.holder h).state with
  | none => exact ⟨misuse, by simp [there, waitsAt]⟩
  | some state =>
      cases accepted : (w.holder h).accepted with
      | true => exact ⟨misuse, by simp [there, waitsAt, accepted]⟩
      | false =>
          refine ⟨misuse || decide (state.pcb ∉ w.pool ∧ state.pcb ∉ w.listenPool), ?_⟩
          simp [there, waitsAt, accepted, getLocalPort, touch]

theorem Queue.listed (queue : Queue w) (linked : Linked w) {h : Nat} {port : UInt16}
    (arrived : (h, port) ∈ w.arrivals) (unreturned : (h, port) ∉ w.returns)
    (present : (w.holder h).state ≠ none) : h ∈ w.connections ∧ w.waitsAt port h := by
  rcases Option.ne_none_iff_exists'.mp present with ⟨state, there⟩
  have place := (queue.arrived h port arrived).2 state there
  have unaccepted : (w.holder h).accepted = false := by
    rw [← Bool.not_eq_true, queue.accepted h port arrived]
    exact unreturned
  exact ⟨(linked.listed h).mpr ⟨state, there, place.1⟩,
    waitsAt_iff.mpr ⟨state, there, unaccepted, place.2⟩⟩

/-- The connection that is found waits at the port, and those that arrived before it are returned or
gone. -/
theorem Queue.found (queue : Queue w) (linked : Linked w) {h : Nat} {port : UInt16}
    (found : w.connections.find? (w.waitsAt port) = some h) :
    (w.holder h).state ≠ none ∧ (h, port) ∈ w.arrivals ∧ (h, port) ∉ w.returns ∧
      ∀ h', (h', port) ∈ w.arrivals → (h', port) ∉ w.returns → h' < h →
        (w.holder h').state = none := by
  rcases List.find?_eq_some_iff_append.mp found with ⟨waits, before, after, split, skipped⟩
  rcases waitsAt_iff.mp waits with ⟨state, there, unaccepted, here⟩
  rcases queue.waiting h state there unaccepted with ⟨port', arrived⟩
  have same : port' = port := ((queue.arrived h port' arrived).2 state there).2.symm.trans here
  subst same
  refine ⟨by simp [there], arrived, ?_, ?_⟩
  · rw [← queue.accepted h port' arrived, unaccepted]
    simp
  · intro h' arrived' unreturned' earlier
    by_contra present
    have listed := queue.listed linked arrived' unreturned' present
    have ordered := linked.sorted
    rw [split] at listed ordered
    rcases List.mem_append.mp listed.1 with old | rest
    · exact absurd listed.2 (by simpa using skipped h' old)
    · rcases List.mem_cons.mp rest with rfl | late
      · exact absurd earlier (lt_irrefl _)
      · have later := (List.pairwise_cons.mp (List.pairwise_append.mp ordered).2.1).1 h' late
        exact absurd earlier (by omega)

theorem Queue.unfound (queue : Queue w) (linked : Linked w) {port : UInt16}
    (unfound : w.connections.find? (w.waitsAt port) = none) {h : Nat}
    (arrived : (h, port) ∈ w.arrivals) (unreturned : (h, port) ∉ w.returns) :
    (w.holder h).state = none := by
  by_contra present
  have listed := queue.listed linked arrived unreturned present
  exact absurd listed.2 (List.find?_eq_none.mp unfound h listed.1)

theorem Queue.arrival_unique (queue : Queue w) {h : Nat} {port port' : UInt16}
    (first : (h, port) ∈ w.arrivals) (second : (h, port') ∈ w.arrivals) : port = port' := by
  have distinct : (w.arrivals.map (·.1)).Nodup := List.pairwise_map.mpr (queue.order.imp ne_of_lt)
  have same := List.inj_on_of_nodup_map distinct first second rfl
  exact congrArg Prod.snd same

theorem Queue.hand_out (queue : Queue w) (since : Since w w') (later : Later w w') (queue' : Queue w')
    {h : Nat} {port : UInt16} (present : (w.holder h).state ≠ none)
    (arrived : (h, port) ∈ w.arrivals) (unreturned : (h, port) ∉ w.returns)
    (first : ∀ h', (h', port) ∈ w.arrivals → (h', port) ∉ w.returns → h' < h →
      (w.holder h').state = none) :
    Queue ((w'.setHolder h { w'.holder h with accepted := true }).emit (.returned h port)) := by
  have arrived' : (h, port) ∈ w'.arrivals := since.arrived_after arrived
  have elsewhere (port' : UInt16) : (h, port') ∉ w.returns := by
    intro member
    have same := queue.arrival_unique arrived (queue.returned member)
    exact unreturned (same ▸ member)
  have arrivals : ((w'.setHolder h { w'.holder h with accepted := true }).emit
      (.returned h port)).arrivals = w'.arrivals := by
    simp [World.arrivals, emit, setHolder, Event.arrival]
  have returns : ((w'.setHolder h { w'.holder h with accepted := true }).emit
      (.returned h port)).returns = w.returns ++ [(h, port)] := by
    rw [← since.returns]
    simp [World.returns, emit, setHolder, Event.handout]
  have state (h' : Nat) : (((w'.setHolder h { w'.holder h with accepted := true }).emit
      (.returned h port)).holder h').state = (w'.holder h').state := by
    by_cases same : h' = h
    · simp [emit, setHolder, same]
    · simp [emit, setHolder, Function.update_of_ne same]
  constructor
  · rw [arrivals]
    exact queue'.order
  · rw [arrivals]
    intro h' port' member
    rw [state h']
    exact queue'.arrived h' port' member
  · rw [arrivals]
    intro h' state' there unaccepted
    rw [state h'] at there
    by_cases same : h' = h
    · simp [emit, setHolder, same] at unaccepted
    · simp only [emit, setHolder, Function.update_of_ne same] at unaccepted
      exact queue'.waiting h' state' there unaccepted
  · rw [arrivals, returns]
    intro h' port' member
    by_cases same : h' = h
    · subst same
      cases queue'.arrival_unique arrived' member
      simp [emit, setHolder]
    · simp only [emit, setHolder, Function.update_of_ne same]
      rw [queue'.accepted h' port' member, since.returns]
      simp [same]
  · rw [arrivals, returns, ← since.returns]
    apply List.append_subset.mpr
    exact ⟨queue'.returned, by simpa using arrived'⟩
  · intro port'
    rw [returns, List.filter_append]
    apply List.pairwise_append.mpr
    refine ⟨queue.returnOrder port', ?_, ?_⟩
    · exact (List.pairwise_singleton _ (h, port)).sublist List.filter_sublist
    · intro a member b new
      have last := List.mem_filter.mp new
      cases List.mem_singleton.mp last.1
      rcases List.mem_filter.mp member with ⟨returned, here⟩
      rcases a with ⟨h', port''⟩
      have here : port'' = port := (of_decide_eq_true here).trans (of_decide_eq_true last.2).symm
      rw [here] at returned
      -- Had a later one been returned, this one would be gone.
      rcases Nat.lt_trichotomy h' h with before | same | after
      · exact before
      · exact absurd (same ▸ returned) unreturned
      · exact absurd (queue.passed h h' port arrived returned after unreturned) present
  · rw [returns, List.map_append]
    apply List.Nodup.append queue.once (List.nodup_singleton _)
    rw [List.disjoint_singleton]
    intro member
    rcases List.mem_map.mp member with ⟨⟨_, port'⟩, returned, rfl⟩
    exact elsewhere port' returned
  · rw [arrivals, returns]
    intro h₁ h₂ port' member returned before skipped
    rw [state h₁]
    have unreturned₁ : (h₁, port') ∉ w.returns := fun old => skipped (List.mem_append_left _ old)
    rcases List.mem_append.mp returned with old | new
    · apply queue'.passed h₁ h₂ port' member _ before
      · rwa [since.returns]
      · rwa [since.returns]
    · cases List.mem_singleton.mp new
      have below : h₁ < w.nextHolder := before.trans (queue.arrived h port arrived).1
      have gone := first h₁ (since.arrived_before below member) unreturned₁ before
      cases there : (w'.holder h₁).state with
      | none => rfl
      | some state₁ =>
          rcases later.state h₁ below state₁ there with ⟨old, present₁, -⟩
          rw [gone] at present₁
          exact absurd present₁ (by simp)

/-- Nothing is asked but that no connection is returned. -/
def Rules.between : Rules where
  safe := False
  clean := False
  strict := id
  accepts := False
  halfCloses := True
  owns := fun _ _ => True

/-- What the calls of a sketch keep, whatever lwIP does. -/
structure Ordered (w : World) : Prop where
  good : Good False False w
  held : Held w
  queue : Queue w

theorem Ordered.moves (ordered : Ordered w) (moves : Moves .between w w') : Ordered w' :=
  ⟨moves.good ordered.good, moves.held ordered.good ordered.held,
    (moves.changes id ordered.good).queue ordered.good ordered.queue⟩

theorem Ordered.since (ordered : Ordered w) (moves : Moves .between w w') : Since w w' :=
  (moves.changes id ordered.good).since

theorem Ordered.ready (ordered : Ordered w) : Ready .between w :=
  ⟨ordered.good, ordered.held, fun secure => secure.elim, Owning.of_all fun _ _ => trivial⟩

theorem Ordered.setClient (ordered : Ordered w) (c : Nat) (x : EthernetClient)
    (born : ∀ h, x.conn = some h → h < w.nextHolder) : Ordered (w.setClient c x) :=
  ordered.moves (Move.client c x fun h own => .inr ⟨born h own, trivial⟩).moves

theorem Since.started_here (since : Since w w') {h : Nat} (here : w.Local h) : w'.Local h :=
  ⟨here.1.trans_le since.nextHolder, fun port member => here.2 port (since.arrived_before here.1 member)⟩

theorem loop_between (w : World) (events : List LwipEvent) : Moves .between w (w.loop events) :=
  loop_moves events (Run.allowed_of_forall _ _ (fun _ _ => ⟨False.elim, False.elim⟩) _ w)

theorem permitted_always (request : Request) (turn : Turn) (w : World) :
    Permitted False False request turn w := by
  cases request with
  | loop => exact Run.allowed_of_forall _ _ (fun _ _ => ⟨False.elim, False.elim⟩) _ w
  | alloc => exact Run.allowed_of_forall _ _ (fun _ _ => ⟨False.elim, False.elim⟩) _ w
  | close p => exact ⟨False.elim, False.elim⟩
  | abort p => exact ⟨False.elim, False.elim⟩

/-- A call that keeps its goal while lwIP does anything. -/
abbrev Ends {α : Type} (call : TcpCall α) (goal : α → World → Prop) : Prop :=
  call.Keeps (fun _ _ => True) (Answered .between) goal

theorem Ends.run {α : Type} {call : TcpCall α} {goal : α → World → Prop} (ends : Ends call goal)
    (turns : List Turn) : goal (call.run answer turns).1 (call.run answer turns).2 :=
  Call.Keeps.run ends (fun request turn w _ _ => answer_answered request turn w
    (permitted_always request turn w)) turns (Call.meets_of_forall (fun _ _ _ => trivial) call turns)

/-- `accept()` returns the connection it found before lwIP moved on. -/
theorem Ordered.hand_out (ordered : Ordered w) (moves : Moves .between w w') {port : UInt16} {h : Nat}
    (found : w.connections.find? (w.waitsAt port) = some h) :
    Ordered ((w'.setHolder h { w'.holder h with accepted := true }).emit (.returned h port)) ∧
      h < w'.nextHolder := by
  rcases ordered.queue.found ordered.good.linked found with ⟨present, arrived, unreturned, first⟩
  have since := ordered.since moves
  have ordered' := ordered.moves moves
  have queue := ordered.queue.hand_out since (moves.later ordered.good) ordered'.queue present arrived
    unreturned first
  exact ⟨Ordered.mk (accept_good ordered'.good h port) ordered'.held queue,
    (ordered.queue.arrived h port arrived).1.trans_le since.nextHolder⟩

/-- The connection that `accept()` is about to return. -/
def World.nextFor (w : World) (s : Nat) : Option Nat :=
  if 0 < (w.server s).listeningPort then (w.findUnacknowledged (w.server s).listeningPort).1 else none

theorem EthernetServer.accept_ends (ordered : Ordered w) (s c : Nat) :
    Ends (accept s c w) fun result w' =>
      result = w.nextFor s ∧
        w'.returns = w.returns ++ result.toList.map (·, (w.server s).listeningPort) ∧
        Ordered w' ∧ ∀ h, w.Local h → w'.Local h := by
  unfold accept nextFor
  by_cases listening : 0 < (w.server s).listeningPort
  · rcases findUnacknowledged_eq w (w.server s).listeningPort with ⟨misuse, looked⟩
    have used : Moves .between w { w with misuse := misuse } := by
      have moves := findUnacknowledged_moves (w.server s).listeningPort
        (Moves.refl w : Moves .between w w)
      rwa [looked] at moves
    simp only [listening, if_true, looked]
    refine ⟨trivial, ?_⟩
    intro _ w₁ answered
    have moves : Moves .between w w₁ := used.trans answered.1
    have ordered₁ := ordered.moves moves
    have since := ordered.since moves
    cases found : w.connections.find? (w.waitsAt (w.server s).listeningPort) with
    | none =>
        refine ⟨rfl, ?_, ?_, ?_⟩
        · simpa [returns, setClient] using since.returns
        · exact ordered₁.setClient c {} (by simp)
        · exact fun h here => since.started_here here
    | some h =>
        have handed := ordered.hand_out moves found
        refine ⟨rfl, ?_, ?_, ?_⟩
        · rw [← since.returns]
          simp [returns, emit, setHolder, setClient, Event.handout]
        · apply handed.1.setClient c
          intro h' given
          cases given
          exact handed.2
        · intro h' here
          have here' := since.started_here here
          refine ⟨here'.1, fun port member => here'.2 port ?_⟩
          simpa [arrivals, emit, setHolder, setClient, Event.arrival] using member
  · simp only [listening, if_false]
    exact ⟨rfl, by simp [returns, setClient], ordered.setClient c {} (by simp), fun h here => here⟩

theorem EthernetClient.close_drops (c : Nat) (clock : List UInt32) (w : World) :
    Ends (close c false clock w) fun _ w' => (w'.client c).conn = none := by
  have dropped (w : World) : ((w.dropConn c).client c).conn = none := by simp [dropConn, setClient]
  have closed (h : Nat) (w : World) : Ends (closeState c h false clock w) fun _ w' =>
      (w'.client c).conn = none := by
    unfold closeState
    split
    · exact dropped w
    · refine ⟨trivial, ?_⟩
      intro _ w' given
      obtain ⟨rfl, -⟩ := given
      simp only [ne_eq, not_true_eq_false, if_false, Bool.false_eq_true, and_false]
      exact dropped w'
  unfold close
  split
  · assumption
  · split
    · exact dropped w
    · split
      · split
        · exact ⟨trivial, fun _ w' _ => closed _ w'⟩
        · exact dropped w
      · split
        · refine ⟨trivial, ?_⟩
          intro _ w' given
          obtain ⟨rfl, -⟩ := given
          simp only [ne_eq, not_true_eq_false, if_false]
          exact dropped _
        · exact closed _ w

theorem ConnectionManager.connect_ends (ordered : Ordered w) (ipaddr : Option UInt32)
    (attempt : Attempt) :
    Ends (connect ipaddr attempt w) fun conn w' => ∀ h, conn = some h → w'.Local h := by
  have failed (w : World) : Ends (Ethernet.loop w (.done none) : TcpCall (Option Nat)) fun conn w' =>
      ∀ h, conn = some h → w'.Local h := ⟨trivial, fun _ _ _ h absurd => by cases absurd⟩
  unfold connect
  cases ipaddr with
  | none => exact failed w
  | some ipaddr =>
      refine ⟨trivial, ?_⟩
      intro _ w₁ answered
      have ordered₁ := ordered.moves answered.1
      dsimp only
      cases room : w₁.tcpAlloc {} with
      | none => exact failed w₁
      | some result =>
          rcases result with ⟨p, w₂⟩
          have ordered₂ := ordered₁.moves (Move.alloc p room).moves
          dsimp only
          split
          · exact ⟨trivial, fun _ w' _ => failed w'⟩
          · split
            · exact ⟨trivial, fun _ w' _ => failed w'⟩
            · intro h same
              cases same
              refine ⟨Nat.lt_succ_self _, ?_⟩
              intro port member
              exact absurd (ordered₂.queue.arrived _ port member).1 (lt_irrefl _)

namespace EthernetClient

theorem connectWait_ends (ordered : Ordered w) (c : Nat) (t : UInt32) (clock : List UInt32)
    (here : ∀ h, (w.client c).conn = some h → w.Local h) :
    Ends (connectWait c t clock w) fun _ w' => ∀ h, (w'.client c).conn = some h → w'.Local h := by
  have finished (w : World) (here : ∀ h, (w.client c).conn = some h → w.Local h) :
      Ends (connectDone c w) fun _ w' => ∀ h, (w'.client c).conn = some h → w'.Local h := by
    unfold connectDone
    split
    · exact here
    · apply (close_drops c [] w).bind
      intro _ w' gone h owned
      rw [gone] at owned
      cases owned
  induction clock generalizing w with
  | nil =>
      unfold connectWait
      split
      · exact here
      · exact finished w here
  | cons now clock ih =>
      unfold connectWait
      split
      · refine ⟨trivial, ?_⟩
        intro _ w' answered
        apply ih (ordered.moves answered.1)
        intro h owned
        rw [answered.2] at owned
        exact (ordered.since answered.1).started_here (here h owned)
      · exact finished w here

theorem connect_ends (ordered : Ordered w) (c : Nat) (ipaddr : Option UInt32) (attempt : Attempt)
    (wait : Bool) (clock : List UInt32) :
    Ends (connect c ipaddr attempt wait clock w) fun _ w' =>
      ∀ h, (w'.client c).conn = some h → w'.Local h := by
  unfold connect
  have closed : Stays .between w (close c false [] w) :=
    close_stays ordered.ready.good ordered.ready.begun c false [] (Moves.refl w)
  apply Call.Keeps.bind (Call.Keeps.anywhere closed)
  intro _ w₁ moves₁
  have ordered₁ := ordered.moves moves₁
  have tried : Stays .between w₁ (ConnectionManager.connect ipaddr attempt w₁) :=
    ConnectionManager.connect_stays ipaddr attempt (Moves.refl w₁)
  apply Call.Keeps.bind
    ((ConnectionManager.connect_ends ordered₁ ipaddr attempt).and (Call.Keeps.anywhere tried))
  intro conn w₂ found
  obtain ⟨here, moves₂⟩ := found
  have ordered₂ := ordered₁.moves moves₂
  cases conn with
  | none =>
      intro h owned
      simp [setClient] at owned
  | some h =>
      have given (x : EthernetClient) (conn : x.conn = some h) (h' : Nat)
          (owned : (((w₂.setClient c { w₂.client c with conn := some h }).setClient c x).client c).conn =
            some h') : (w₂.setClient c { w₂.client c with conn := some h }).Local h' := by
        simp only [setClient, Function.update_self, conn, Option.some.injEq] at owned
        subst owned
        exact here h rfl
      dsimp only
      split
      · split
        · exact given _ (by simp [setClient])
        · apply connectWait_ends _ c _ _ (given _ (by simp [setClient]))
          have born : h < w₂.nextHolder := (here h rfl).1
          exact (ordered₂.setClient c _ (by rintro h' ⟨rfl⟩; exact born)).setClient c _
            (by rintro h' own; simp only [setClient, Function.update_self] at own; cases own; exact born)
      · exact given _ (by simp [setClient])

end EthernetClient

theorem step_ordered (s : Step) (ordered : Ordered w) :
    Ordered (w.step s) ∧ ∀ h, w.Local h → (w.step s).Local h := by
  cases accepts : s.op.accepts with
  | false =>
      have moves : Moves .between w (w.step s) :=
        step_moves ordered.ready s (by simp [accepts]) (fun _ => trivial)
          (Call.meets_of_forall permitted_always _ _)
      exact ⟨ordered.moves moves, fun h here => (ordered.since moves).started_here here⟩
  | true =>
      rcases s with ⟨op, turns⟩
      cases op with
      | accept i c =>
          have ended := (EthernetServer.accept_ends ordered i c).run turns
          have same : w.step ⟨.accept i c, turns⟩ = ((EthernetServer.accept i c w).run answer turns).2 :=
            Call.run_forget answer _ turns
          rw [same]
          exact ended.2.2
      | _ => cases accepts

theorem foldl_ordered (steps : List Step) (ordered : Ordered w) :
    Ordered (steps.foldl step w) ∧ ∀ h, w.Local h → (steps.foldl step w).Local h := by
  apply Run.foldl_preserves (fun w' => Ordered w' ∧ ∀ h, w.Local h → w'.Local h) step _ steps w
    ⟨ordered, fun h here => here⟩
  intro w' s given
  obtain ⟨kept, here⟩ := given
  have next := step_ordered s kept
  exact ⟨next.1, fun h started => next.2 h (here h started)⟩

theorem exec_ordered (mtu : Nat) (steps : List Step) : Ordered (exec mtu steps) := by
  refine (foldl_ordered steps ⟨start_good mtu, by simp [Held], ?_⟩).1
  constructor <;> simp [arrivals, returns]

end QNEthernet.Tcp
