import QNEthernet.Tcp.Accept

/-! What becomes of data that was received on a connection that ends before a client has it: while a
connect is pending, while it waits, and before an `accept()`. -/

namespace QNEthernet.Tcp

open Lwip World

variable {w w' : World} {h : Nat}

def Rules.without (h : Nat) : Rules where
  safe := False
  clean := False
  strict := id
  accepts := True
  halfCloses := True
  owns := fun _ h' => h' ≠ h

def Rules.only (c : Nat) : Rules where
  safe := False
  clean := False
  strict := id
  accepts := True
  halfCloses := True
  owns := fun c' _ => c' = c

theorem step_lost (ordered : Ordered w) (lost : Lost w h) (s : Step) :
    Lost (w.step s) h ∧ consumedBytes h (w.step s).trace = consumedBytes h w.trace := by
  have owning (c : Nat) : Owning (.without h) w c := by
    constructor
    · intro s' h' moves present equal
      subst equal
      exact present (moves.gone ordered.good lost.born lost.gone)
    · intro c' h' owned equal
      subst equal
      exact lost.unowned c' owned
  have ready : Ready (.without h) w := ⟨ordered.good, ordered.held, fun secure => secure.elim, owning⟩
  have moves : Moves (.without h) w (w.step s) :=
    step_moves ready s (fun _ => trivial) (fun _ => trivial) (Call.meets_of_forall permitted_always _ _)
  exact moves.lost ordered.good (fun _ other => other rfl) lost

theorem foldl_lost (steps : List Step) (ordered : Ordered w) (lost : Lost w h) :
    Lost (steps.foldl step w) h ∧
      consumedBytes h (steps.foldl step w).trace = consumedBytes h w.trace := by
  have kept := Run.foldl_preserves (fun w' => Ordered w' ∧ Lost w' h ∧
    consumedBytes h w'.trace = consumedBytes h w.trace) step ?_ steps w ⟨ordered, lost, rfl⟩
  · exact kept.2
  · intro w' s given
    obtain ⟨ordered', lost', same⟩ := given
    have next := step_lost ordered' lost' s
    exact ⟨(step_ordered s ordered').1, next.1, next.2.trans same⟩

/-- The calls by which a client looks for a connection and its data. -/
def Op.polls (c : Nat) : Op → Bool
  | .connecting c' | .connected c' | .operatorBool c' | .available c' | .read c' | .readBuf c' _ _
  | .peek c' => c' == c
  | _ => false

theorem poll_pending {c : Nat} (owned : (w.client c).conn = some h)
    (pending : (w.client c).pendingConnect = true) (gone : (w.holder h).state = none) {op : Op}
    (polls : op.polls c) (turns : List Turn) : w.step ⟨op, turns⟩ = w.dropConn c := by
  cases op <;> simp only [Op.polls, beq_iff_eq, Bool.false_eq_true] at polls <;> subst polls <;>
    simp [World.step, Op.call, Call.forget, Call.bind, Call.run, EthernetClient.connecting,
      EthernetClient.connected, EthernetClient.operatorBool, EthernetClient.available,
      EthernetClient.read, EthernetClient.readBuf, EthernetClient.peek, EthernetClient.receive,
      EthernetClient.checkState, EthernetClient.watchPendingConnect, owned, pending, gone]

theorem poll_dropped {c : Nat} (dropped : (w.client c).conn = none) {op : Op} (polls : op.polls c)
    (turns : List Turn) : w.step ⟨op, turns⟩ = w := by
  cases op <;> simp only [Op.polls, beq_iff_eq, Bool.false_eq_true] at polls <;> subst polls <;>
    simp [World.step, Op.call, Call.forget, Call.bind, Call.run, EthernetClient.connecting,
      EthernetClient.connected, EthernetClient.operatorBool, EthernetClient.available,
      EthernetClient.read, EthernetClient.readBuf, EthernetClient.peek, EthernetClient.receive,
      EthernetClient.checkState, dropped]

/-- No sequence of these calls gets anything but the first drop. -/
theorem polls_pending {c : Nat} (owned : (w.client c).conn = some h)
    (pending : (w.client c).pendingConnect = true) (gone : (w.holder h).state = none)
    (first : Step) (rest : List Step) (polls : ∀ s ∈ first :: rest, s.op.polls c) :
    (first :: rest).foldl step w = w.dropConn c := by
  have dropped : ((w.dropConn c).client c).conn = none := by simp [dropConn, setClient]
  rw [List.foldl_cons, poll_pending owned pending gone (polls first List.mem_cons_self) first.turns]
  have later (s : Step) (member : s ∈ rest) : s.op.polls c := polls s (List.mem_cons_of_mem first member)
  clear polls
  induction rest with
  | nil => rfl
  | cons s rest ih =>
      rw [List.foldl_cons, poll_dropped dropped (later s List.mem_cons_self) s.turns]
      exact ih fun s' member => later s' (List.mem_cons_of_mem s member)

namespace EthernetClient

/-- A connect succeeds with a connection that is connected, or leaves none. -/
def Outcome (c : Nat) : Option Bool → World → Prop
  | none, _ => True
  | some true, w => connIs w c true
  | some false, w => (w.client c).conn = none

theorem connectDone_outcome (c : Nat) (w : World) : Ends (connectDone c w) (Outcome c) := by
  unfold connectDone
  split
  · assumption
  · exact (close_drops c [] w).bind fun _ w' dropped => dropped

theorem connectWait_outcome (c : Nat) (t : UInt32) (clock : List UInt32) (w : World) :
    Ends (connectWait c t clock w) (Outcome c) := by
  induction clock generalizing w with
  | nil =>
      unfold connectWait
      split
      · trivial
      · exact connectDone_outcome c w
  | cons now clock ih =>
      unfold connectWait
      split
      · exact ⟨trivial, fun _ w' _ => ih w'⟩
      · exact connectDone_outcome c w

theorem connect_outcome (c : Nat) (ipaddr : Option UInt32) (attempt : Attempt) (clock : List UInt32)
    (w : World) : Ends (connect c ipaddr attempt true clock w) (Outcome c) := by
  unfold connect
  apply Call.Keeps.bind (Call.keeps_true (close c false [] w))
  intro _ w₁ _
  apply Call.Keeps.bind (Call.keeps_true (ConnectionManager.connect ipaddr attempt w₁))
  intro conn w₂ _
  cases conn with
  | none => simp [Outcome, setClient, Call.Keeps]
  | some h =>
      simp only [if_true]
      split
      · trivial
      · exact connectWait_outcome c _ _ _

theorem connect_lost (ordered : Ordered w) (c : Nat) (ipaddr : Option UInt32) (attempt : Attempt)
    (clock : List UInt32) (turns : List Turn) {result : Bool}
    (returned : ((connect c ipaddr attempt true clock w).run answer turns).1 = some result)
    (new : w.nextHolder ≤ h)
    (born : h < ((connect c ipaddr attempt true clock w).run answer turns).2.nextHolder)
    (gone : (((connect c ipaddr attempt true clock w).run answer turns).2.holder h).state = none)
    (ended : (((connect c ipaddr attempt true clock w).run answer turns).2.holder h).connected = false) :
    Lost ((connect c ipaddr attempt true clock w).run answer turns).2 h := by
  have begun : Begun (.only c) w := fun secure => secure.elim
  have stays : Stays (.only c) w (connect c ipaddr attempt true clock w) :=
    connect_stays ordered.good ordered.good begun c (fun _ _ _ _ => rfl) ipaddr attempt true clock
      (Moves.refl w)
  have moves := stays.run (fun request turn w' _ _ => answer_answered request turn w'
    (permitted_always request turn w')) turns (Call.meets_of_forall (fun _ _ _ => trivial) _ turns)
  have outcome := (connect_outcome c ipaddr attempt clock w).run turns
  rw [returned] at outcome
  refine ⟨born, gone, ?_⟩
  intro c' owned
  by_cases same : c' = c
  · subst same
    cases result with
    | true =>
        have connected : connIs _ c' true = true := outcome
        simp [connIs, owned, ended] at connected
    | false =>
        rw [show _ = none from outcome] at owned
        cases owned
  · rcases moves.conn owned with old | new
    · exact absurd (ordered.held c' h old) (not_lt.mpr ‹_›)
    · exact same new

end EthernetClient

/-- Whatever is called from here on, no client gets the connection and nothing is read from it. -/
def World.OutOfReach (w : World) (h : Nat) : Prop :=
  ∀ steps : List Step, (∀ c, ((steps.foldl step w).client c).conn ≠ some h) ∧
    consumedBytes h (steps.foldl step w).trace = consumedBytes h w.trace

theorem Lost.outOfReach (lost : Lost w h) (ordered : Ordered w) : w.OutOfReach h := by
  intro steps
  have kept := foldl_lost steps ordered lost
  exact ⟨kept.1.unowned, kept.2⟩

/-- What happens to the data of a connection that ended: a client whose connect is pending drops it
with its first call, a connect that waits returns without it, and a connection that no client has got
yet is never returned by a server. -/
structure World.LosesData (w : World) : Prop where
  pending : ∀ c h, (w.client c).conn = some h → (w.client c).pendingConnect = true →
    (w.holder h).state = none →
    (∀ first rest, (∀ s ∈ first :: rest, s.op.polls c) →
      (first :: rest).foldl step w = w.dropConn c) ∧
    ((∀ c', (w.client c').conn = some h → c' = c) → (w.dropConn c).OutOfReach h)
  waiting : ∀ c ipaddr attempt clock turns result h,
    let (value, w') := (EthernetClient.connect c ipaddr attempt true clock w).run answer turns
    value = some result → w.nextHolder ≤ h → h < w'.nextHolder → (w'.holder h).state = none →
      (w'.holder h).connected = false → w'.OutOfReach h
  arrived : ∀ h port, (h, port) ∈ w.arrivals → (w.holder h).state = none →
    (∀ c, (w.client c).conn ≠ some h) → w.OutOfReach h

theorem received_data_lost (mtu : Nat) (steps : List Step) : (exec mtu steps).LosesData := by
  have ordered := exec_ordered mtu steps
  constructor
  · intro c h owned pending gone
    refine ⟨polls_pending owned pending gone, ?_⟩
    intro only
    have dropped : Ordered ((exec mtu steps).dropConn c) := ordered.setClient c _ (by simp)
    have lost : Lost ((exec mtu steps).dropConn c) h := by
      refine ⟨ordered.held c h owned, gone, ?_⟩
      intro c' owned'
      by_cases same : c' = c
      · simp [dropConn, setClient, same] at owned'
      · simp only [dropConn, setClient, Function.update_of_ne same] at owned'
        exact same (only c' owned')
    exact lost.outOfReach dropped
  · intro c ipaddr attempt clock turns result h returned new born gone ended
    have lost := EthernetClient.connect_lost ordered c ipaddr attempt clock turns returned new born gone
      ended
    have after := (step_ordered ⟨.connect c ipaddr attempt true clock, turns⟩ ordered).1
    have same : (exec mtu steps).step ⟨.connect c ipaddr attempt true clock, turns⟩ =
        ((EthernetClient.connect c ipaddr attempt true clock (exec mtu steps)).run answer turns).2 :=
      Call.run_forget answer _ turns
    rw [same] at after
    exact lost.outOfReach after
  · intro h port member gone unowned
    have lost : Lost (exec mtu steps) h := ⟨(ordered.queue.arrived h port member).1, gone, unowned⟩
    exact lost.outOfReach ordered

/-- A connection brings data with its FIN: the client whose connect was pending, the one whose connect
waits and the server all miss it. -/
theorem handover_misses_data :
    (let synced : LwipEvent := .input 0 { synAck := true } true
    let closed : LwipEvent := .input 0 { data := some ⟨[[1, 2, 3]], Pbuf.threeBytes_short⟩, fin := true } true
    let w := exec 1500 [⟨.connect 0 (some 1) {} false [], []⟩, ⟨.loop, [{ events := [synced, closed] }]⟩]
    storedBytes 0 w.trace = [1, 2, 3] ∧ ((EthernetClient.available 0 w).run answer []).1 = 0 ∧
      ((w.step ⟨.available 0, []⟩).client 0).conn = none) ∧
    (let synced : LwipEvent := .input 0 { synAck := true } true
    let closed : LwipEvent := .input 0 { data := some ⟨[[1, 2, 3]], Pbuf.threeBytes_short⟩, fin := true } true
    let (value, w) := (EthernetClient.connect 0 (some 1) {} true [0, 0, 1000] { mtu := 1500 }).run answer
      [{}, { events := [synced, closed] }]
    storedBytes 0 w.trace = [1, 2, 3] ∧ value = some false ∧ (w.client 0).conn = none) ∧
    let arrived : LwipEvent := .input 2 { ack := true } true
    let closed : LwipEvent := .input 2 { data := some ⟨[[1, 2, 3]], Pbuf.threeBytes_short⟩, fin := true } true
    let w := exec 1500 [⟨.beginListening 0 80 false {}, []⟩,
      ⟨.loop, [{ events := [.syn 1, arrived, closed] }]⟩]
    storedBytes 0 w.trace = [1, 2, 3] ∧ ((EthernetServer.accept 0 0 w).run answer []).1 = none := by
  decide

end QNEthernet.Tcp
