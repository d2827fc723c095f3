import QNEthernet.Tcp.Move

/-! Calls that only make moves, and the operations of the connection manager as such calls. -/

namespace QNEthernet.Tcp

open Lwip World

/-- How lwIP answers: it moves on its own, or does what it was asked to, where that is permitted. -/
def Answered (r : Rules) : Request → World → Err → World → Prop
  | .loop, w, _, w' | .alloc, w, _, w' => Moves r w w' ∧ w'.client = w.client
  | .close p, w, err, w' =>
      err = .ok ∧ (∃ finOk, w' = (w.altcpClose p finOk).2) ∧ Permitted r.safe r.clean (.close p) {} w
  | .abort p, w, _, w' => w' = w.altcpAbort p ∧ Permitted r.safe r.clean (.abort p) {} w

/-- From its start on, the call only makes moves. -/
def Stays (r : Rules) (w : World) {α : Type} (call : TcpCall α) : Prop :=
  call.Keeps (fun _ w' => Moves r w w') (Answered r)
    fun _ w' => Moves r w w'

/-- The connections that a client may get: those with a state, and those that clients have at the
start. -/
structure Owning (r : Rules) (w : World) (c : Nat) : Prop where
  found : ∀ s h, Moves r w s → (s.holder h).state ≠ none → r.owns c h
  held : ∀ c' h, (w.client c').conn = some h → r.owns c h

section Rules

variable {r : Rules} {w s : World} {α β : Type}

theorem Stays.done (value : α) (moves : Moves r w s) :
    Stays r w (.done value s : TcpCall α) := moves

theorem Stays.loop {next : World → TcpCall α} (moves : Moves r w s)
    (rest : ∀ s', Moves r s s' → Stays r w (next s')) :
    Stays r w (Ethernet.loop s next) :=
  ⟨moves, fun _ s' answered => rest s' answered.1⟩

theorem Stays.bind {call : TcpCall α} {next : α → World → TcpCall β}
    (first : Stays r w call)
    (rest : ∀ value s, Moves r w s → Stays r w (next value s)) :
    Stays r w (call.bind next) :=
  Call.Keeps.bind first rest

theorem Stays.forget {call : TcpCall α} (first : Stays r w call) :
    Stays r w call.forget :=
  first.bind fun _ _ moves => moves

theorem Stays.abort {p : Nat} {next : World → TcpCall α} (moves : Moves r w s)
    (valid : r.clean → s.Attached p ∨ p ∈ s.pool)
    (rest : (r.clean → ¬ s.Attached p) → Moves r w (s.altcpAbort p) →
      Stays r w (next (s.altcpAbort p))) :
    Stays r w (altcpAbort p s next) := by
  refine ⟨moves, ?_⟩
  intro _ s' given
  obtain ⟨rfl, permitted⟩ := given
  exact rest permitted.2 (moves.step (.abort p valid permitted.1 permitted.2))

theorem Stays.closeOrAbort {p : Nat} {next : Err → World → TcpCall α}
    (moves : Moves r w s)
    (rest : ∀ finOk, Permitted r.safe r.clean (.close p) {} s →
      Stays r w (next .ok (s.altcpClose p finOk).2)) :
    Stays r w (altcpCloseOrAbort p s next) := by
  refine ⟨moves, ?_⟩
  intro _ s' given
  obtain ⟨rfl, ⟨finOk, rfl⟩, permitted⟩ := given
  simp only [ne_eq, not_true_eq_false, if_false]
  exact rest finOk permitted

theorem findIf_keeps {pred : Nat → World → Bool × World} (P : World → Prop) (xs : List Nat)
    (kept : ∀ x ∈ xs, ∀ s, P s → P (pred x s).2) (start : P s) : P (findIf pred xs s).2 := by
  induction xs generalizing s with
  | nil => exact start
  | cons x xs ih =>
      have stepped := kept x List.mem_cons_self s start
      unfold findIf
      split
      next result => exact (congrArg Prod.snd result) ▸ stepped
      next s' result =>
        rw [result] at stepped
        exact ih (fun x' member => kept x' (List.mem_cons_of_mem x member)) stepped

theorem findIf_mem {pred : Nat → World → Bool × World} {xs : List Nat} {x : Nat}
    (found : (findIf pred xs s).1 = some x) : x ∈ xs := by
  induction xs generalizing s with
  | nil => exact absurd found (by simp [findIf])
  | cons x' xs ih =>
      unfold findIf at found
      split at found
      · cases found
        exact List.mem_cons_self
      · exact List.mem_cons_of_mem x' (ih found)

theorem findIf_found {pred : Nat → World → Bool × World} (P : World → Prop) {xs : List Nat} {x : Nat}
    (kept : ∀ x s, P s → P (pred x s).2) (start : P s) (found : (findIf pred xs s).1 = some x) :
    ∃ s', P s' ∧ (pred x s').1 = true := by
  induction xs generalizing s with
  | nil => exact absurd found (by simp [findIf])
  | cons x' xs ih =>
      have stepped := kept x' s start
      unfold findIf at found
      split at found
      next result =>
        cases found
        exact ⟨s, start, congrArg Prod.fst result⟩
      next result =>
        rw [result] at stepped
        exact ih stepped found

end Rules

section Finding

variable {r : Rules} {w s : World}

theorem findUnacknowledged_moves (port : UInt16) (moves : Moves r w s) :
    Moves r w (s.findUnacknowledged port).2 := by
  apply findIf_keeps (fun s' => Moves r w s') s.connections _ moves
  intro h _ s' kept
  dsimp only
  split
  · exact kept
  next state there =>
    split
    · exact kept
    · exact kept.step (.use state.pcb fun _ => .inl ⟨h, state, there, rfl⟩)

theorem findAvailable_moves (port : UInt16) (moves : Moves r w s) :
    Moves r w (s.findAvailable port).2 := by
  apply findIf_keeps (fun s' => Moves r w s') s.connections _ moves
  intro h _ s' kept
  dsimp only
  split
  · exact kept
  next state there => exact kept.step (.use state.pcb fun _ => .inl ⟨h, state, there, rfl⟩)

theorem findIf_present {pred : Nat → World → Bool × World} {h : Nat}
    (kept : ∀ x s', (pred x s').2.holder = s'.holder)
    (without : ∀ s', (s'.holder h).state = none → (pred h s').1 = false)
    (found : (findIf pred s.connections s).1 = some h) : (s.holder h).state ≠ none := by
  obtain ⟨s', same, here⟩ :=
    findIf_found (fun s' => s'.holder = s.holder) (fun x s' same => (kept x s').trans same) rfl found
  rw [← same]
  intro gone
  rw [without s' gone] at here
  exact Bool.false_ne_true here

theorem findUnacknowledged_present {port : UInt16} {h : Nat}
    (found : (s.findUnacknowledged port).1 = some h) : (s.holder h).state ≠ none := by
  refine findIf_present ?_ ?_ found
  · intro x s'
    dsimp only
    split
    · rfl
    · split <;> rfl
  · intro s' gone
    simp [gone]

theorem findAvailable_present {port : UInt16} {h : Nat}
    (found : (s.findAvailable port).1 = some h) : (s.holder h).state ≠ none := by
  refine findIf_present ?_ ?_ found
  · intro x s'
    dsimp only
    split <;> rfl
  · intro s' gone
    simp [gone]

theorem findListener_moves (port : UInt16) (moves : Moves r w s) :
    Moves r w (s.findListener port).2 ∧
      (s.findListener port).2.listeners = s.listeners := by
  apply findIf_keeps (fun s' => Moves r w s' ∧ s'.listeners = s.listeners) s.listeners _
    ⟨moves, rfl⟩
  intro l member s' given
  obtain ⟨kept, same⟩ := given
  refine ⟨kept.step (.use l fun _ => .inr (.inl ?_)), same⟩
  rw [same]
  exact member

end Finding

namespace ConnectionManager

variable {r : Rules} {w s : World}

theorem failed_stays {α : Type} (value : α) (moves : Moves r w s) :
    Stays r w (Ethernet.loop s (.done value) : TcpCall α) :=
  Stays.loop moves fun _ later => moves.trans later

theorem createAltcpPcb_stays {α : Type} {next : Option Nat → World → TcpCall α}
    (moves : Moves r w s)
    (without : ∀ s', Moves r w s' → Stays r w (next none s'))
    (with_ : ∀ p s', Moves r w s' → p ∈ s'.pool → s'.pcb p = {} →
      Stays r w (next (some p) s')) :
    Stays r w (createAltcpPcb s next) := by
  refine ⟨moves, ?_⟩
  intro _ s' answered
  have later : Moves r w s' := moves.trans answered.1
  dsimp only
  cases room : s'.tcpAlloc {} with
  | none => exact without s' later
  | some result =>
      rcases result with ⟨p, s''⟩
      have fresh : p ∈ s''.pool ∧ s''.pcb p = {} := by
        obtain ⟨place, free, space, rfl, rfl⟩ := tcpAlloc_some room
        simp [setPcb]
      exact with_ p s'' (later.step (.alloc p room)) fresh.1 fresh.2

theorem connect_stays (ipaddr : Option UInt32) (attempt : Attempt)
    (moves : Moves r w s) : Stays r w (connect ipaddr attempt s) := by
  unfold connect
  cases ipaddr with
  | none => exact failed_stays none moves
  | some ipaddr =>
      apply createAltcpPcb_stays moves
      · exact fun s' later => failed_stays none later
      · intro p s' later there blank
        have used : Moves r w (s'.touch p) :=
          later.step (.use p fun _ => .inr (.inr there))
        dsimp only
        split
        · exact Stays.abort used (fun _ => .inr there) fun _ aborted => failed_stays none aborted
        · have blank' : (s'.touch p).pcb p = {} := blank
          have bound : Moves r w ((s'.touch p).setPcb p
              { (s'.touch p).pcb p with localPort := attempt.localPort }) :=
            used.step (.bind p attempt.localPort (by simp [blank']))
          have made := bound.step (.make p there (by simp [setPcb, blank']))
          have there' : p ∈ ((s'.touch p).setPcb p
              { (s'.touch p).pcb p with localPort := attempt.localPort }).pool := there
          rw [makeHolder_eq _ there'] at made ⊢
          have used' := made.step (.use p fun _ => .inr (.inr there))
          split
          · exact Stays.abort used' (fun _ => .inr there) fun _ aborted => failed_stays none aborted
          · apply Stays.done
            apply used'.step
            apply Move.connect _ p (tcpWnd s'.mtu)
            · rfl
            · simp [touch, setPcb]
            · simp [touch, setPcb, blank]

theorem connect_present (ipaddr : Option UInt32) (attempt : Attempt) (s : World) :
    (connect ipaddr attempt s).Keeps (fun _ _ => True) (Answered r) fun conn s' =>
      ∀ h, conn = some h → (s'.holder h).state ≠ none := by
  have failed (s : World) : (Ethernet.loop s (.done none) : TcpCall (Option Nat)).Keeps
      (fun _ _ => True) (Answered r) fun conn s' => ∀ h, conn = some h → (s'.holder h).state ≠ none :=
    ⟨trivial, fun _ _ _ h some => by cases some⟩
  unfold connect
  cases ipaddr with
  | none => exact failed s
  | some ipaddr =>
      refine ⟨trivial, ?_⟩
      intro _ s' _
      dsimp only
      cases s'.tcpAlloc {} with
      | none => exact failed s'
      | some result =>
          dsimp only
          split
          · exact ⟨trivial, fun _ s' _ => failed s'⟩
          · split
            · exact ⟨trivial, fun _ s' _ => failed s'⟩
            · intro h same
              cases same
              simp [addConnection, makeHolder, altcpArg, altcpErr, altcpRecv, touch, setHolder, setPcb]

theorem listen_stays (port : UInt16) (attempt : Attempt) (moves : Moves r w s) :
    Stays r w (listen port attempt s) := by
  unfold listen
  apply createAltcpPcb_stays moves
  · exact fun s' later => failed_stays none later
  · intro p s' later there blank
    have used : Moves r w (s'.touch p) :=
      later.step (.use p fun _ => .inr (.inr there))
    dsimp only
    split
    · exact Stays.abort used (fun _ => .inr there) fun _ aborted => failed_stays none aborted
    · have blank' : (s'.touch p).pcb p = {} := blank
      have bound : Moves r w ((s'.touch p).setPcb p
          { (s'.touch p).pcb p with localPort := if port = 0 then attempt.localPort else port }) :=
        used.step (.bind p _ (by simp [blank']))
      have used' := bound.step (.use p fun _ => .inr (.inr there))
      split
      · exact Stays.abort used' (fun _ => .inr there) fun _ aborted => failed_stays none aborted
      next l s'' result =>
        have room := (Option.ite_none_right_eq_some.mp result).2
        have listening := used'.step (.listen p l (by simp [touch, setPcb, blank]) room)
        by_cases any : port = 0
        · simp only [any, if_true]
          apply Stays.done
          exact listening.step (.use l fun _ => .inr (.inl (by simp [altcpArg, touch, setPcb])))
        · simp only [any, if_false]
          exact Stays.done _ listening

theorem stopListening_stays (good : Good r.safe r.clean w) (port : UInt16)
    (moves : Moves r w s) : Stays r w (stopListening port s) := by
  have looked := findListener_moves port moves
  unfold stopListening
  split
  next s' result =>
    rw [result] at looked
    exact Stays.done false looked.1
  next l s' result =>
    rw [result] at looked
    have member : l ∈ s'.listeners := by
      rw [looked.2]
      exact findIf_mem (congrArg Prod.fst result)
    have stopped := looked.1.step (.stopListening l)
    apply Stays.closeOrAbort stopped
    intro finOk _
    have good' := Moves.good looked.1 good
    apply Stays.done
    apply stopped.step
    apply Move.closeListener l finOk
    · exact good'.pools.listenersIn l member
    · exact good'.pools.listenersNodup.not_mem_erase

theorem useConnections_stays (port : UInt16) (moves : Moves r w s) :
    Stays r w (useConnections port s) := by
  have iterated (ps : List Nat) (s' : World) (kept : Moves r w s')
      (attached : ∀ p ∈ ps, s'.Attached p) :
      Stays r w (iterate (fun p w =>
        .done () (if (w.getLocalPort p).1 ≠ port then (w.getLocalPort p).2
          else (w.getLocalPort p).2.touch p)) ps s') := by
    induction ps generalizing s' with
    | nil => exact Stays.done () kept
    | cons p ps ih =>
        have there := attached p List.mem_cons_self
        have used := kept.step (.use p fun _ => .inl there)
        have rest (p' : Nat) (member : p' ∈ ps) : s'.Attached p' :=
          attached p' (List.mem_cons_of_mem p member)
        refine ih (if (s'.pcb p).localPort ≠ port then s'.touch p else (s'.touch p).touch p) ?_ ?_
        · split
          · exact used
          · exact used.step (.use p fun _ => .inl there)
        · split <;> exact rest
  apply iterated s.connSnapshot s moves
  intro p member
  rcases List.mem_filterMap.mp (List.mem_of_mem_take member) with ⟨h, _, there⟩
  rcases Option.map_eq_some_iff.mp there with ⟨state, present, block⟩
  exact ⟨h, state, present, block⟩

theorem abortAll_stays (moves : Moves r w s) :
    Stays r w (abortAll s) := by
  have iterated (ps : List Nat) (s' : World) (kept : Moves r w s')
      (attached : r.clean → ∀ p ∈ ps, s'.Attached p) :
      Stays r w (iterate (fun p w => altcpAbort p w (.done ())) ps s') := by
    induction ps generalizing s' with
    | nil => exact Stays.done () kept
    | cons p ps ih =>
        have there : r.clean → s'.Attached p := fun proper => attached proper p List.mem_cons_self
        apply Stays.abort kept
        · exact fun proper => .inl (there proper)
        · intro unused aborted
          apply ih _ aborted
          exact fun proper => absurd (there proper) (unused proper)
  apply iterated s.connSnapshot s moves
  intro _ p member
  rcases List.mem_filterMap.mp (List.mem_of_mem_take member) with ⟨h, _, there⟩
  rcases Option.map_eq_some_iff.mp there with ⟨state, present, block⟩
  exact ⟨h, state, present, block⟩

end ConnectionManager

end QNEthernet.Tcp
