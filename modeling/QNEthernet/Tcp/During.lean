import QNEthernet.Tcp.Accept
import QNEthernet.Tcp.TidyMoves

/-! What becomes of the connections on the list while a call goes on: they lose their states or stay,
and others arrive. -/

namespace QNEthernet.Tcp

open Lwip World

variable {safe clean : Prop} {w w' s s' : World}

theorem Change.listed (change : Change safe clean w w') {h : Nat} (member : h ∈ w.connections)
    (present : (w'.holder h).state ≠ none) : h ∈ w'.connections := by
  cases change with
  | detach h' =>
      cases there : (w.holder h').state with
      | none => rwa [detach_none there]
      | some state =>
          rw [detach_some there] at present ⊢
          have other : h ≠ h' := by
            intro equal
            subst equal
            simp at present
          dsimp only
          split
          · exact (List.mem_erase_of_ne other).mpr member
          · exact member
  | make p x there free open_ accepted =>
      rw [makeHolder_eq x there]
      exact member
  | add h' last accepted state => exact List.mem_append_left _ member
  | arrive p finOk there handshake =>
      rw [arrive_eq finOk there]
      exact List.mem_append_left _ member
  | _ => exact member

theorem Changes.listed (changes : Changes safe clean w w') {h : Nat} (born : h < w.nextHolder)
    (member : h ∈ w.connections) (present : (w'.holder h).state ≠ none) : h ∈ w'.connections := by
  induction changes with
  | refl => exact member
  | tail before change ih =>
      apply change.listed _ present
      apply ih
      rcases Option.ne_none_iff_exists'.mp present with ⟨state, there⟩
      have below := born.trans_le (Changes.later before).nextHolder
      rcases change.later.state h below state there with ⟨old, there', -⟩
      simp [there']

/-- A connection that was not started here got a block whose handshake was going on. -/
theorem Change.fresh (change : Change safe clean w w') (linked : Linked w) {h : Nat}
    {state : ConnectionState} (new : w.nextHolder ≤ h) (there : (w'.holder h).state = some state)
    (waiting : (w'.holder h).accepted = false) : (w.pcb state.pcb).state = .synRcvd := by
  have unborn (state' : ConnectionState) : (w.holder h).state ≠ some state' :=
    fun present => absurd (linked.owner h state' present).2.2.1 (not_lt.mpr new)
  cases change with
  | holder h' x accepted pcb removeFunc =>
      by_cases same : h = h'
      · subst same
        simp only [setHolder, Function.update_self] at there
        rw [there] at pcb
        rcases Option.map_eq_some_iff.mp pcb.symm with ⟨old, present, -⟩
        exact absurd present (unborn old)
      · simp only [setHolder, Function.update_of_ne same] at there
        exact absurd there (unborn state)
  | detach h' =>
      cases there' : (w.holder h').state with
      | none =>
          rw [detach_none there'] at there
          exact absurd there (unborn state)
      | some old =>
          rw [detach_some there'] at there
          by_cases same : h = h'
          · subst same
            simp at there
          · simp only [Function.update_of_ne same] at there
            exact absurd there (unborn state)
  | make p x present free open_ accepted =>
      rw [makeHolder_eq x present] at there waiting
      by_cases same : h = w.nextHolder
      · subst same
        simp [accepted] at waiting
      · simp only [Function.update_of_ne same] at there
        exact absurd there (unborn state)
  | add h' last accepted old =>
      rcases old with ⟨old, there', -⟩
      rw [addConnection_eq there'] at there
      by_cases same : h = h'
      · exact absurd (same ▸ there') (unborn old)
      · simp only [Function.update_of_ne same] at there
        exact absurd there (unborn state)
  | arrive p finOk present handshake =>
      rw [arrive_eq finOk present] at there
      by_cases same : h = w.nextHolder
      · subst same
        simp only [Function.update_self, Option.some.injEq] at there
        subst there
        exact handshake
      · simp only [Function.update_of_ne same] at there
        exact absurd there (unborn state)
  | _ => exact absurd there (unborn state)

theorem Changes.fresh (changes : Changes safe clean w w') (good : Good safe clean w) {h : Nat}
    {state : ConnectionState} (new : w.nextHolder ≤ h) (there : (w'.holder h).state = some state)
    (waiting : (w'.holder h).accepted = false) :
    w.nextPcb ≤ state.pcb ∨ (w.pcb state.pcb).state = .synRcvd := by
  induction changes generalizing state with
  | refl => exact absurd (good.linked.owner h state there).2.2.1 (not_lt.mpr new)
  | @tail w₁ w₂ before change ih =>
      by_cases older : h < w₁.nextHolder
      · rcases change.later.state h older state there with ⟨old, there', same⟩
        rw [change.since.accepted h older] at waiting
        exact same ▸ ih there' waiting
      · have syn := change.fresh (Changes.good before good).linked (not_lt.mp older) there waiting
        by_cases below : state.pcb < w.nextPcb
        · exact .inr ((Changes.later before).handshake _ below syn)
        · exact .inl (not_lt.mp below)

theorem Ordered.attached (ordered : Ordered s) (moves : Moves .between s s') (beside : Aside s s')
    {p h : Nat} (below : p < s.nextPcb) (opened : (s.pcb p).state ≠ .synRcvd)
    {state : ConnectionState} (there : (s'.holder h).state = some state) (block : state.pcb = p) :
    ∃ old, (s.holder h).state = some old ∧ old.pcb = p := by
  have after := ordered.moves moves
  have changes : Changes False False s s' := moves.changes id ordered.good
  by_cases older : h < s.nextHolder
  · rcases changes.later.state h older state there with ⟨old, there', same⟩
    exact ⟨old, there', same.trans block⟩
  · have born := (after.good.linked.owner h state there).2.2.1
    rcases beside.arrived h (not_lt.mp older) born with ⟨port, member⟩
    have arrival : (h, port) ∈ s'.arrivals := List.mem_filterMap.mpr ⟨_, member, rfl⟩
    have waiting : (s'.holder h).accepted = false := by
      by_contra accepted
      have returned := (after.queue.accepted h port arrival).mp (by simpa using accepted)
      rw [(ordered.since moves).returns] at returned
      exact older (ordered.queue.arrived h port (ordered.queue.returned returned)).1
    rcases changes.fresh ordered.good (not_lt.mp older) there waiting with new | syn
    · exact absurd (block ▸ new) (not_le.mpr below)
    · exact absurd (block ▸ syn) opened

/-- A call that began in `w` has come to `s`; `own` is the connection it has started. -/
structure During (own : Option Nat) (w s : World) : Prop where
  ordered : Ordered s
  tidy : Tidy (fun h => h < w.nextHolder ∧ h ∉ w.connections) [] s
  born : ∀ h ∈ w.connections, h < w.nextHolder
  nextHolder : w.nextHolder ≤ s.nextHolder
  listed : ∀ h ∈ w.connections, (s.holder h).state ≠ none → h ∈ s.connections
  arrived : ∀ h, w.nextHolder ≤ h → h < s.nextHolder →
    (∃ port, (h, port) ∈ s.arrivals) ∨ own = some h

variable {own own' : Option Nat}

theorem During.start (ordered : Ordered w) (tidy : Tidy (fun _ => False) [] w) : During none w w where
  ordered := ordered
  tidy := { tidy with
    unlisted := by
      intro h state off there
      by_contra listed
      exact off.2 ((ordered.good.linked.listed h).mpr ⟨state, there, by simpa using listed⟩) }
  born := fun _ member => ordered.good.linked.below member
  nextHolder := le_refl _
  listed := fun _ member _ => member
  arrived := fun h late early => absurd early (not_lt.mpr late)

theorem During.old (during : During own w s) (h : Nat) (off : h < w.nextHolder ∧ h ∉ w.connections) :
    h < s.nextHolder := off.1.trans_le during.nextHolder

theorem During.next (during : During own w s) (moves : Moves .between s s')
    (tidy : Tidy (fun h => h < w.nextHolder ∧ h ∉ w.connections) [] s')
    (kept : ∀ h, own = some h → own' = some h)
    (arrived : ∀ h, s.nextHolder ≤ h → h < s'.nextHolder →
      (∃ port, (h, port) ∈ s'.arrivals) ∨ own' = some h) : During own' w s' where
  ordered := during.ordered.moves moves
  tidy := tidy
  born := during.born
  nextHolder := during.nextHolder.trans (moves.later during.ordered.good).nextHolder
  listed := by
    intro h member present
    have changes : Changes False False s s' := moves.changes id during.ordered.good
    have below : h < s.nextHolder := (during.born h member).trans_le during.nextHolder
    refine changes.listed below (during.listed h member ?_) present
    rcases Option.ne_none_iff_exists'.mp present with ⟨state, there⟩
    rcases changes.later.state h below state there with ⟨old, there', -⟩
    simp [there']
  arrived := by
    intro h late early
    by_cases older : h < s.nextHolder
    · rcases during.arrived h late older with ⟨port, member⟩ | mine
      · exact .inl ⟨port, (during.ordered.since moves).arrived_after member⟩
      · exact .inr (kept h mine)
    · exact arrived h (not_lt.mp older) early

theorem During.beside (during : During own w s) (moves : Moves .between s s') (beside : Aside s s')
    (tidy : Tidy (fun h => h < w.nextHolder ∧ h ∉ w.connections) [] s') : During own w s' := by
  refine during.next moves tidy (fun _ => id) ?_
  intro h late early
  rcases beside.arrived h late early with ⟨port, member⟩
  exact .inl ⟨port, List.mem_filterMap.mpr ⟨_, member, rfl⟩⟩

theorem During.loop (during : During own w s) (events : List LwipEvent) :
    During own w (s.loop events) := by
  apply Run.foldl_preserves (fun s => During own w s) lwip _ events s during
  intro s event during
  exact during.beside (Move.event event ⟨False.elim, False.elim⟩).moves (lwip_aside s event)
    (lwip_tidy during.ordered.good during.tidy during.old event)

theorem During.touch (during : During own w s) (p : Nat) : During own w (s.touch p) :=
  during.beside (Move.use p False.elim).moves (touch_blocksOnly s p).aside (touch_tidy p during.tidy)

theorem During.setClient (during : During own w s) (c : Nat) (x : EthernetClient)
    (born : ∀ h, x.conn = some h → h < s.nextHolder) : During own w (s.setClient c x) := by
  refine during.next (Move.client c x fun h owned => .inr ⟨born h owned, trivial⟩).moves
    (during.tidy.of_same rfl rfl fun _ => id) (fun _ => id) ?_
  exact fun h late early => absurd early (not_lt.mpr late)

theorem During.dropConn (during : During own w s) (c : Nat) : During own w (s.dropConn c) :=
  during.setClient c _ (by simp)

theorem During.close (during : During own w s) {h : Nat} {state : ConnectionState}
    (there : (s.holder h).state = some state) (finOk : Bool) :
    During own w (s.altcpClose state.pcb finOk).2 := by
  have good := during.ordered.good
  have opened := during.tidy.opened good there
  exact during.beside (Move.close state.pcb finOk ⟨h, state, there, rfl⟩ False.elim).moves
    (altcpClose_blocksOnly s state.pcb finOk).aside
    (altcpClose_tidy good.pools during.tidy.work finOk opened.1 opened.2)

theorem During.closePending (during : During own w s) {h : Nat} {state : ConnectionState}
    (there : (s.holder h).state = some state) (finOk : Bool) :
    During own w ((s.altcpClose state.pcb finOk).2.destroyState h) :=
  during.beside (Move.closePending h state finOk there False.elim).moves
    ((altcpClose_blocksOnly s state.pcb finOk).aside.trans (destroyState_aside _ h))
    (closePending_tidy during.ordered.good during.tidy there finOk)

theorem During.abort (during : During own w s) (p : Nat) : During own w (s.altcpAbort p) := by
  have touched := during.touch p
  exact during.beside (Move.abort p False.elim False.elim False.elim).moves (altcpAbort_aside s p)
    (tcpAbandon_tidy touched.ordered.good touched.tidy.work)

end QNEthernet.Tcp
