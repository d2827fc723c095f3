import QNEthernet.Tcp.Change

/-! Sequences of changes, and what they leave as it was. -/

namespace QNEthernet.Tcp

open Lwip World

variable {safe clean : Prop} {w w' w'' : World}

theorem Changes.refl (w : World) : Changes safe clean w w := Relation.ReflTransGen.refl

theorem Change.changes (change : Change safe clean w w') : Changes safe clean w w' :=
  Relation.ReflTransGen.single change

theorem Changes.trans (first : Changes safe clean w w') (second : Changes safe clean w' w'') :
    Changes safe clean w w'' := Relation.ReflTransGen.trans first second

/-- What is old stays as it was: numbers only grow, a block that is released stays so, one that is
there starts no handshake and does not go back to the start, and a state that is there belonged to its
holder before. -/
structure Later (w w' : World) : Prop where
  nextPcb : w.nextPcb ≤ w'.nextPcb
  nextHolder : w.nextHolder ≤ w'.nextHolder
  pool : ∀ p < w.nextPcb, p ∈ w'.pool → p ∈ w.pool
  handshake : ∀ p < w.nextPcb, (w'.pcb p).state = .synRcvd → (w.pcb p).state = .synRcvd
  begun : ∀ p < w.nextPcb, w.begun p → w'.begun p
  state : ∀ h < w.nextHolder, ∀ state', (w'.holder h).state = some state' →
    ∃ state, (w.holder h).state = some state ∧ state.pcb = state'.pcb

theorem Later.refl (w : World) : Later w w :=
  ⟨le_refl _, le_refl _, fun _ _ => id, fun _ _ => id, fun _ _ => id,
    fun _ _ state there => ⟨state, there, rfl⟩⟩

theorem Later.trans (first : Later w w') (second : Later w' w'') : Later w w'' where
  nextPcb := first.nextPcb.trans second.nextPcb
  nextHolder := first.nextHolder.trans second.nextHolder
  pool := fun p below there => first.pool p below (second.pool p (below.trans_le first.nextPcb) there)
  handshake := fun p below syn =>
    first.handshake p below (second.handshake p (below.trans_le first.nextPcb) syn)
  begun := fun p below begun =>
    second.begun p (below.trans_le first.nextPcb) (first.begun p below begun)
  state := fun h below state'' there'' => by
    rcases second.state h (below.trans_le first.nextHolder) state'' there'' with ⟨state', there', same'⟩
    rcases first.state h below state' there' with ⟨state, there, same⟩
    exact ⟨state, there, same.trans same'⟩

theorem Later.of_states (nextPcb : w.nextPcb ≤ w'.nextPcb)
    (states : ∀ p < w.nextPcb, (w'.pcb p).state.follows (w.pcb p).state)
    (pool : ∀ p < w.nextPcb, p ∈ w'.pool → p ∈ w.pool) (nextHolder : w.nextHolder ≤ w'.nextHolder)
    (state : ∀ h < w.nextHolder, ∀ state', (w'.holder h).state = some state' →
      ∃ state, (w.holder h).state = some state ∧ state.pcb = state'.pcb) : Later w w' where
  nextPcb := nextPcb
  nextHolder := nextHolder
  pool := pool
  handshake := fun p below syn => by
    have follows := states p below
    rw [syn] at follows
    exact TcpState.follows_synRcvd follows
  begun := fun p below begun => TcpState.follows_begun (states p below) begun
  state := state

theorem Change.follows (change : Change safe clean w w') {p : Nat} (below : p < w.nextPcb) :
    (w'.pcb p).state.follows (w.pcb p).state := by
  cases change with
  | pcb p' q arg errf recv port follows rxClosed =>
      by_cases same : p = p'
      · subst same
        simpa [setPcb] using follows
      · simp [setPcb, Function.update_of_ne same]
  | closeListener l stopped =>
      simp only [tcpListenClosed]
      split <;> simp
  | detach h =>
      cases there : (w.holder h).state with
      | none => simp [detach_none there]
      | some state =>
          rw [detach_some there]
          by_cases same : p = state.pcb
          · simp [same]
          · simp [Function.update_of_ne same]
  | alloc q place free room arg rxOpen => simp [setPcb, Function.update_of_ne below.ne]
  | listen q room state arg => simp [setPcb, Function.update_of_ne below.ne]
  | make p' x there free open_ accepted =>
      rw [makeHolder_eq x there]
      by_cases same : p = p'
      · simp [same]
      · simp [Function.update_of_ne same]
  | add h last accepted state =>
      rcases state with ⟨old, there, -⟩
      simp [addConnection_eq there]
  | arrive p' finOk there handshake =>
      rw [arrive_eq finOk there]
      by_cases same : p = p'
      · subst same
        rw [handshake]
        simp
        rfl
      · simp [Function.update_of_ne same]
  | _ => exact TcpState.follows_self _

theorem Change.later (change : Change safe clean w w') : Later w w' := by
  have states (p : Nat) (below : p < w.nextPcb) := change.follows below
  have unchanged (h : Nat) (_ : h < w.nextHolder) (state' : ConnectionState)
      (there : (w.holder h).state = some state') :
      ∃ state, (w.holder h).state = some state ∧ state.pcb = state'.pcb := ⟨state', there, rfl⟩
  cases change with
  | free p unused =>
      exact Later.of_states (le_refl _) states (fun _ _ => List.mem_of_mem_erase) (le_refl _) unchanged
  | holder h x accepted pcb removeFunc =>
      refine Later.of_states (le_refl _) states (fun _ _ => id) (le_refl _) ?_
      intro h' _ state' there
      by_cases same : h' = h
      · subst same
        simp only [setHolder, Function.update_self] at there
        rw [there] at pcb
        exact Option.map_eq_some_iff.mp pcb.symm
      · simp only [setHolder, Function.update_of_ne same] at there
        exact ⟨state', there, rfl⟩
  | detach h =>
      cases there : (w.holder h).state with
      | none =>
          rw [detach_none there]
          exact Later.refl w
      | some state =>
          rw [detach_some there] at states ⊢
          refine Later.of_states (le_refl _) states (fun _ _ => id) (le_refl _) ?_
          intro h' _ state' there'
          by_cases same : h' = h
          · subst same
            simp at there'
          · simp only [Function.update_of_ne same] at there'
            exact ⟨state', there', rfl⟩
  | alloc q place free room arg rxOpen =>
      refine Later.of_states (Nat.le_succ _) states ?_ (le_refl _) unchanged
      intro p below there
      rcases List.mem_cons.mp there with new | old
      · exact absurd new below.ne
      · exact old
  | listen q room state arg =>
      exact Later.of_states (Nat.le_succ _) states (fun _ _ => id) (le_refl _) unchanged
  | make p x there free open_ accepted =>
      rw [makeHolder_eq x there] at states ⊢
      refine Later.of_states (le_refl _) states (fun _ _ => id) (Nat.le_succ _) ?_
      intro h below state' present
      simp only [Function.update_of_ne below.ne] at present
      exact ⟨state', present, rfl⟩
  | add h last accepted state =>
      rcases state with ⟨old, there, -⟩
      rw [addConnection_eq there] at states ⊢
      refine Later.of_states (le_refl _) states (fun _ _ => id) (le_refl _) ?_
      intro h' _ state' present
      by_cases same : h' = h
      · subst same
        simp only [Function.update_self, Option.some.injEq] at present
        subst present
        exact ⟨old, there, rfl⟩
      · simp only [Function.update_of_ne same] at present
        exact ⟨state', present, rfl⟩
  | arrive p finOk there handshake =>
      rw [arrive_eq finOk there] at states ⊢
      refine Later.of_states (le_refl _) states (fun _ _ => id) (Nat.le_succ _) ?_
      intro h below state' present
      simp only [Function.update_of_ne below.ne] at present
      exact ⟨state', present, rfl⟩
  | _ => exact Later.of_states (le_refl _) states (fun _ _ => id) (le_refl _) unchanged

theorem Changes.later (changes : Changes safe clean w w') : Later w w' := by
  induction changes with
  | refl => exact Later.refl w
  | tail _ change ih => exact ih.trans change.later

theorem TcpState.closed_follows {old : TcpState} (follows : TcpState.closed.follows old = true) :
    old = .closed := by
  revert follows
  cases old <;> decide

theorem Changes.closed (changes : Changes safe clean w w') {p : Nat} (below : p < w.nextPcb)
    (closed : (w'.pcb p).state = .closed) : (w.pcb p).state = .closed := by
  induction changes with
  | refl => exact closed
  | tail before change ih =>
      have follows := change.follows (below.trans_le (Changes.later before).nextPcb)
      rw [closed] at follows
      exact ih (TcpState.closed_follows follows)

end QNEthernet.Tcp
