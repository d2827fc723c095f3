import QNEthernet.Tcp.Attempt

/-! What a `connect` that waits leaves behind when it fails. -/

namespace QNEthernet.Tcp

open Lwip World

variable {w s : World} {own : Option Nat} {p : Nat}

namespace EthernetClient

/-- The world after the first part of `connect`, which closes the old connection, and the turns that
lwIP has left. -/
def closedFirst (c : Nat) (w : World) (turns : List Turn) : World × List Turn :=
  (((close c false [] w).run answer turns).2, (close c false [] w).rest answer turns)

def waiting (c : Nat) (conn : Option Nat) (w : World) : World :=
  let w := w.setClient c { w.client c with conn := conn }
  w.setClient c { w.client c with pendingConnect := false }

/-- The world in which it stops, after what lwIP did in the meantime. -/
def waited (c : Nat) (t : UInt32) : List UInt32 → List Turn → World → World
  | [], _, w => w
  | now :: clock, turns, w =>
      if connIs w c false ∧ ¬ (w.client c).connTimeout ≤ now - t then
        waited c t clock turns.tail (w.loop turns.headI.events)
      else w

/-- No attempt was started, or lwIP ended it during the wait. -/
def EndedByLwip (c : Nat) (ipaddr : Option UInt32) (attempt : Attempt) (clock : List UInt32) (w : World)
    (turns : List Turn) : Prop :=
  let (w₁, turns₁) := closedFirst c w turns
  let call := ConnectionManager.connect ipaddr attempt w₁
  let (conn, w₂) := call.run answer turns₁
  ∀ h ∈ conn, ∀ t ∈ clock.head?,
    ((waited c t clock.tail (call.rest answer turns₁) (waiting c conn w₂)).holder h).state = none

theorem waited_loop (c : Nat) (t : UInt32) (clock : List UInt32) (turns : List Turn) (w : World) :
    ∃ events, waited c t clock turns w = w.loop events := by
  induction clock generalizing turns w with
  | nil => exact ⟨[], rfl⟩
  | cons now clock ih =>
      unfold waited
      split
      · rcases ih turns.tail (w.loop turns.headI.events) with ⟨events, same⟩
        exact ⟨turns.headI.events ++ events, by rw [same, World.loop, World.loop, World.loop,
          List.foldl_append]⟩
      · exact ⟨[], rfl⟩

theorem connectDone_run {c h : Nat} (turns : List Turn) (owned : (w.client c).conn = some h)
    (idle : (w.client c).pendingConnect = false)
    (failed : ((connectDone c w).run answer turns).1 = some false) :
    ((connectDone c w).run answer turns).2 = w.dropConn c := by
  unfold connectDone at failed ⊢
  by_cases connected : (w.holder h).connected
  · rw [if_pos (by simp [connIs, owned, connected])] at failed
    simp [Call.run] at failed
  · rw [if_neg (by simp [connIs, owned, connected])]
    have open_ : (w.holder h).connected = false := by simpa using connected
    cases there : (w.holder h).state <;> simp [close, owned, there, idle, open_, Call.bind, Call.run]

theorem connectWait_run {c h : Nat} (t : UInt32) (clock : List UInt32) (turns : List Turn)
    (owned : (w.client c).conn = some h) (idle : (w.client c).pendingConnect = false)
    (failed : ((connectWait c t clock w).run answer turns).1 = some false) :
    ((connectWait c t clock w).run answer turns).2 = (waited c t clock turns w).dropConn c := by
  induction clock generalizing w turns with
  | nil =>
      unfold connectWait at failed ⊢
      split at failed
      · simp [Call.run] at failed
      next stopped =>
        rw [if_neg stopped]
        exact connectDone_run turns owned idle failed
  | cons now clock ih =>
      unfold connectWait at failed ⊢
      unfold waited
      split at failed
      next more =>
        rw [if_pos more, if_pos more]
        have client := (loop_aside w turns.headI.events).client
        exact ih (w := w.loop turns.headI.events) turns.tail (by rw [client, owned])
          (by rw [client, idle]) failed
      next stopped =>
        rw [if_neg stopped, if_neg stopped]
        exact connectDone_run turns owned idle failed

end EthernetClient

/-- A failed attempt has left nothing: its block was closed or aborted, no connection on the list has
it, and the list has the connections it had and those that arrived, without the ones that ended. -/
structure NoOrphan (attempt : Option Nat) (w w' : World) : Prop where
  ended : ∀ p ∈ attempt, p ∉ w'.pool ∨ (w'.pcb p).rxClosed
  unlisted : ∀ p ∈ attempt, p ∉ w'.listedBlocks
  entries : ∀ h, h ∈ w'.connections ↔
    (h ∈ w.connections ∨ w.nextHolder ≤ h ∧ ∃ port, (h, port) ∈ w'.arrivals) ∧
      (w'.holder h).state ≠ none

theorem NoOrphan.setClient_iff {attempt : Option Nat} (c : Nat) (x : EthernetClient) :
    NoOrphan attempt w (s.setClient c x) ↔ NoOrphan attempt w s :=
  ⟨fun settled => ⟨settled.ended, settled.unlisted, settled.entries⟩,
    fun settled => ⟨settled.ended, settled.unlisted, settled.entries⟩⟩

theorem During.entries (during : During own w s) (gone : ∀ h ∈ own, (s.holder h).state = none) (h : Nat) :
    h ∈ s.connections ↔ (h ∈ w.connections ∨ w.nextHolder ≤ h ∧ ∃ port, (h, port) ∈ s.arrivals) ∧
      (s.holder h).state ≠ none := by
  have linked := during.ordered.good.linked
  constructor
  · intro member
    rcases (linked.listed h).mp member with ⟨state, there, removeFunc⟩
    refine ⟨?_, by simp [there]⟩
    by_cases old : h < w.nextHolder
    · by_contra off
      have unlisted := during.tidy.unlisted h state ⟨old, fun listed => off (.inl listed)⟩ there
      rw [unlisted] at removeFunc
      cases removeFunc
    · rcases during.arrived h (not_lt.mp old) (linked.below member) with arrived | mine
      · exact .inr ⟨not_lt.mp old, arrived⟩
      · rw [gone h mine] at there
        cases there
  · intro given
    obtain ⟨listed | ⟨-, port, arrived⟩, present⟩ := given
    · exact during.listed h listed present
    · rcases Option.ne_none_iff_exists'.mp present with ⟨state, there⟩
      have removeFunc := ((during.ordered.queue.arrived h port arrived).2 state there).1
      exact (linked.listed h).mpr ⟨state, there, removeFunc⟩

theorem unattached_unlisted (unattached : ¬ s.Attached p) : p ∉ s.listedBlocks := by
  intro member
  rcases List.mem_filterMap.mp member with ⟨h, -, there⟩
  rcases Option.map_eq_some_iff.mp there with ⟨state, present, block⟩
  exact unattached ⟨h, state, present, block⟩

/-- An attempt that was started leaves nothing if lwIP ends it, and only then. -/
theorem started_noOrphan {h : Nat} (during : During own w s) (tried : Tried (some p) own (some h) s)
    (events : List LwipEvent) :
    NoOrphan (some p) w (s.loop events) ↔ ((s.loop events).holder h).state = none := by
  rcases tried with ⟨rfl, p', ⟨rfl⟩, below, ⟨state, there, block⟩, member, sent⟩
  have after := during.loop events
  have moves := loop_between s events
  have changes : Changes False False s (s.loop events) := moves.changes id during.ordered.good
  have born := (during.ordered.good.linked.owner h state there).2.2.1
  constructor
  · intro settled
    by_contra present
    rcases Option.ne_none_iff_exists'.mp present with ⟨state', there'⟩
    rcases changes.later.state h born state' there' with ⟨old, there'', same⟩
    rw [there] at there''
    cases there''
    apply settled.unlisted p rfl
    refine List.mem_filterMap.mpr ⟨h, changes.listed born member present, ?_⟩
    rw [there', Option.map_some, ← same, block]
  · intro gone
    have unattached : ¬ (s.loop events).Attached p := by
      intro given
      obtain ⟨h', state', there', block'⟩ := given
      rcases during.ordered.attached moves (loop_aside s events) below (by simp [sent]) there' block'
        with ⟨old, there'', block''⟩
      have same := during.ordered.good.linked.unique there'' there (block''.trans block.symm)
      rw [same, gone] at there'
      cases there'
    refine ⟨?_, ?_, after.entries ?_⟩
    · intro p' found
      cases found
      by_cases present : p ∈ (s.loop events).pool
      · rcases after.tidy.kept p present (by simp) with attached | closed | early | syn
        · exact absurd attached unattached
        · exact .inr closed
        · have before := changes.closed below early
          rw [sent] at before
          cases before
        · have before := changes.later.handshake p below syn
          rw [sent] at before
          cases before
      · exact .inl present
    · intro p' found
      cases found
      exact unattached_unlisted unattached
    · intro h' found
      cases found
      exact gone

def Rules.anything : Rules where
  safe := False
  clean := False
  strict := id
  accepts := True
  halfCloses := True
  owns := fun _ _ => True

theorem exec_tidy (mtu : Nat) (steps : List Step) : Tidy (fun _ => False) [] (exec mtu steps) := by
  have kept := Run.foldl_preserves (fun w => Ordered w ∧ Tidy (fun _ => False) [] w) step ?_ steps { mtu }
    ⟨exec_ordered mtu [], start_tidy mtu⟩
  · exact kept.2
  · intro w s given
    obtain ⟨ordered, tidy⟩ := given
    have ready : Ready .anything w :=
      ⟨ordered.good, ordered.held, False.elim, Owning.of_all fun _ _ => trivial⟩
    have moves : Moves .anything w (w.step s) :=
      step_moves ready s (fun _ => trivial) (fun _ => trivial) (Call.meets_of_forall permitted_always _ _)
    exact ⟨(step_ordered s ordered).1, moves.tidy ordered.good tidy⟩

namespace EthernetClient

theorem closedFirst_during (ordered : Ordered w) (tidy : Tidy (fun _ => False) [] w) (c : Nat)
    (turns : List Turn) : During none w (closedFirst c w turns).1 :=
  Call.Keeps.run (close_during (During.start ordered tidy) c) (fun _ turn _ (_ : True) _ => ⟨turn, rfl⟩)
    turns (Call.meets_of_forall (fun _ _ _ => trivial) _ turns)

theorem connect_run (c : Nat) (ipaddr : Option UInt32) (attempt : Attempt) (clock : List UInt32)
    (w : World) (turns : List Turn) :
    let (w₁, turns₁) := closedFirst c w turns
    let call := ConnectionManager.connect ipaddr attempt w₁
    let (conn, w₂) := call.run answer turns₁
    (connect c ipaddr attempt true clock w).run answer turns =
      match conn, clock with
      | none, _ => (some false, w₂.setClient c { w₂.client c with conn := none })
      | some h, [] => (none, waiting c (some h) w₂)
      | some h, t :: clock =>
          (connectWait c t clock (waiting c (some h) w₂)).run answer (call.rest answer turns₁) := by
  unfold connect
  rw [Call.run_bind, Call.run_bind]
  dsimp only [closedFirst]
  cases ((ConnectionManager.connect ipaddr attempt ((close c false [] w).run answer turns).2).run answer
    ((close c false [] w).rest answer turns)).1 with
  | none => rfl
  | some h => cases clock <;> rfl

theorem failed_connect_leaves_nothing (mtu : Nat) (steps : List Step) (c : Nat) (ipaddr : Option UInt32)
    (attempt : Attempt) (clock : List UInt32) (turns : List Turn) :
    let w := exec mtu steps
    let (w₁, turns₁) := closedFirst c w turns
    let (value, w') := (connect c ipaddr attempt true clock w).run answer turns
    value = some false →
      (NoOrphan (ConnectionManager.attemptPcb ipaddr w₁ turns₁) w w' ↔
        EndedByLwip c ipaddr attempt clock w turns) := by
  intro w
  have during₁ := closedFirst_during (exec_ordered mtu steps) (exec_tidy mtu steps) c turns
  have tried := ConnectionManager.connect_tried during₁ ipaddr attempt (closedFirst c w turns).2
  have run := connect_run c ipaddr attempt clock w turns
  unfold EndedByLwip
  dsimp only at run ⊢
  rw [run]
  rcases tried with ⟨own, during₂, tried⟩
  generalize (ConnectionManager.connect ipaddr attempt (closedFirst c w turns).1).rest answer
    (closedFirst c w turns).2 = turns₂
  generalize (ConnectionManager.connect ipaddr attempt (closedFirst c w turns).1).run answer
    (closedFirst c w turns).2 = result at during₂ tried ⊢
  rcases result with ⟨conn, w₂⟩
  cases conn with
  | none =>
      intro _
      have unstarted : ∀ h ∈ (none : Option Nat), ∀ t ∈ clock.head?, ((waited c t clock.tail turns₂
          (waiting c none w₂)).holder h).state = none := by simp
      refine ⟨fun _ => unstarted, fun _ => ?_⟩
      refine (NoOrphan.setClient_iff c _).mpr ⟨?_, ?_, during₂.entries tried.1⟩
      · exact fun p mine => .inl (tried.2 p mine).1
      · exact fun p mine => unattached_unlisted (tried.2 p mine).2
  | some h =>
      cases clock with
      | nil =>
          intro failed
          cases failed
      | cons t clock =>
          intro failed
          have owned : ((waiting c (some h) w₂).client c).conn = some h ∧
              ((waiting c (some h) w₂).client c).pendingConnect = false := by
            simp [waiting, setClient]
          rcases tried with ⟨rfl, p, mine, started⟩
          have born : h < w₂.nextHolder := during₂.ordered.good.linked.below started.2.2.1
          have during₃ : During (some h) w (waiting c (some h) w₂) := by
            refine (during₂.setClient c _ ?_).setClient c _ ?_
            · intro h' found
              cases found
              exact born
            · intro h' same
              simp only [setClient, Function.update_self] at same
              cases same
              exact born
          rcases waited_loop c t clock turns₂ (waiting c (some h) w₂) with ⟨events, waits⟩
          have settled := started_noOrphan during₃ (p := p) ⟨rfl, p, rfl, started⟩ events
          rw [mine, connectWait_run t clock turns₂ owned.1 owned.2 failed]
          refine (NoOrphan.setClient_iff c _).trans ?_
          rw [waits, settled]
          simp [waits]

/-- The other side refuses the connection while `connect` waits. -/
def refusing : List Turn := [{}, { events := [.input 0 { rst := true } true] }]

theorem failed_connect_leaves_nothing_refused :
    let (value, w) := (connect 0 (some 1) {} true [0, 0, 1000] (exec 1500 [])).run answer refusing
    value = some false ∧ NoOrphan (some 0) (exec 1500 []) w := by
  refine ⟨by decide, (failed_connect_leaves_nothing 1500 [] 0 (some 1) {} [0, 0, 1000] refusing ?_).mpr ?_⟩
  · decide
  · intro h found t given
    cases found
    cases given
    decide

/-- Nobody answers, and `connect` gives up: its block is still trying, and a SYN-ACK that comes later
establishes a connection that no client has. -/
theorem timed_out_connect_orphaned :
    let (value, w) := (connect 0 (some 1) {} true [0, 1000] { mtu := 1500 }).run answer []
    (value = some false ∧ w.connections = [0] ∧ w.pool = [0] ∧ (w.pcb 0).state = .synSent ∧
      (w.client 0).conn = none) ∧
    ¬ NoOrphan (some 0) { mtu := 1500 } w ∧
    (let later := w.lwip (.input 0 { synAck := true } true)
    (later.pcb 0).state = .established ∧ later.connections = [0] ∧ (later.client 0).conn = none) := by
  refine ⟨by decide, ?_, by decide⟩
  intro settled
  rcases settled.ended 0 rfl with gone | closed
  · exact gone (by decide)
  · exact absurd closed (by decide)

end EthernetClient

end QNEthernet.Tcp
