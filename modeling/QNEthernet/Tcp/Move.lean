import QNEthernet.Tcp.Clients
import QNEthernet.Tcp.EventChanges
import QNEthernet.Tcp.Server

/-! The steps that the calls of a sketch are made of, and what a step needs to be safe, so that no
block is released behind a state's back, or clean, so that none is released before its state is
gone. -/

namespace QNEthernet.Tcp

open Lwip World

/-- Unread data that lwIP keeps makes `tcp_close` reset the connection. -/
def World.unread (w : World) (p : Nat) : Prop :=
  ((w.pcb p).state = .established ∨ (w.pcb p).state = .closeWait) ∧ (w.pcb p).refusedData.isSome

theorem closeReleases_unread {w : World} {p : Nat} (begun : w.begun p) :
    w.closeReleases p ↔ w.unread p := by
  unfold closeReleases unread
  rcases begun with ⟨open_, sent⟩
  cases state : (w.pcb p).state <;> simp_all

/-- What a call of lwIP may do. -/
def Permitted (safe clean : Prop) : Request → Turn → World → Prop
  | .loop, turn, w => Run.Allowed (Quiet safe clean) lwip w turn.events
  | .alloc, turn, w => Run.Allowed (Quiet safe clean) lwip w (turn.events.filter LwipEvent.inAlloc)
  | .close p, _, w =>
      (safe → ¬ (w.unread p ∧ w.Attached p)) ∧ (clean → ¬ (w.closeReleases p ∧ w.Attached p))
  | .abort p, _, w =>
      (safe → (w.pcb p).state = .timeWait → ¬ w.Attached p) ∧ (clean → ¬ w.Attached p)

/-- What is asked of a run: that no block is released behind a state's back, that no function is
applied to a released block, whether connections may be returned by `accept()` or closed on one side,
and which connections a client may get. -/
structure Rules where
  safe : Prop
  clean : Prop
  strict : clean → safe
  accepts : Prop
  halfCloses : Prop
  owns : Nat → Nat → Prop

inductive Move (r : Rules) : World → World → Prop where
  | event {w : World} (e : LwipEvent) (quiet : Quiet r.safe r.clean w e) : Move r w (w.lwip e)
  | use {w : World} (p : Nat) (valid : r.clean → w.Attached p ∨ p ∈ w.listeners ∨ p ∈ w.pool) :
      Move r w (w.touch p)
  | client {w : World} (c : Nat) (x : EthernetClient)
      (owned : ∀ h, x.conn = some h → (w.client c).conn = some h ∨ h < w.nextHolder ∧ r.owns c h) :
      Move r w (w.setClient c x)
  | server {w : World} (s : Nat) (x : EthernetServer) : Move r w (w.setServer s x)
  | takeRemaining {w : World} (c h n : Nat) (owned : r.owns c h) : Move r w (w.takeRemaining h n)
  | takeBuffered {w : World} (c h n : Nat) (state : ConnectionState)
      (there : (w.holder h).state = some state) (owned : r.owns c h) :
      Move r w (w.takeBuffered h state n)
  | alloc {w w' : World} (p : Nat) (room : w.tcpAlloc {} = some (p, w')) : Move r w w'
  | bind {w : World} (p : Nat) (port : UInt16) (unused : ∀ h, (w.pcb p).callbackArg ≠ .holder h) :
      Move r w (w.setPcb p { w.pcb p with localPort := port })
  | make {w : World} (p : Nat) (there : p ∈ w.pool)
      (closed : w.pcb p = { localPort := (w.pcb p).localPort }) :
      Move r w (w.makeHolder p { accepted := true }).2
  | connect {w : World} (h p capacity : Nat) (last : h + 1 = w.nextHolder)
      (holder : w.holder h = { accepted := true, state := some { pcb := p, capacity } })
      (closed : (w.pcb p).state = .closed) :
      Move r w ((w.setPcb p { w.pcb p with state := .synSent }).addConnection h)
  | abort {w : World} (p : Nat) (valid : r.clean → w.Attached p ∨ p ∈ w.pool)
      (told : r.safe → (w.pcb p).state = .timeWait → ¬ w.Attached p)
      (unused : r.clean → ¬ w.Attached p) : Move r w (w.altcpAbort p)
  | close {w : World} (p : Nat) (finOk : Bool) (attached : w.Attached p)
      (kept : r.safe → ¬ w.closeReleases p) : Move r w (w.altcpClose p finOk).2
  | closePending {w : World} (h : Nat) (state : ConnectionState) (finOk : Bool)
      (there : (w.holder h).state = some state) (kept : r.clean → ¬ w.closeReleases state.pcb) :
      Move r w ((w.altcpClose state.pcb finOk).2.destroyState h)
  | shutdown {w : World} (p : Nat) (finOk : Bool) (attached : w.Attached p) (given : r.halfCloses) :
      Move r w (w.altcpShutdownTx p finOk)
  | listen {w w' : World} (p l : Nat) (unused : ∀ h, (w.pcb p).callbackArg ≠ .holder h)
      (room : w.tcpListen p = some (l, w')) :
      Move r w ({ w' with listeners := w'.listeners ++ [l] }.altcpArg l .manager)
  | stopListening {w : World} (l : Nat) :
      Move r w { w with listeners := w.listeners.erase l }
  | closeListener {w : World} (l : Nat) (finOk : Bool) (there : l ∈ w.listenPool)
      (stopped : l ∉ w.listeners) : Move r w (w.altcpClose l finOk).2
  | accept {w : World} (h : Nat) (port : UInt16) (given : r.accepts) :
      Move r w ((w.setHolder h { w.holder h with accepted := true }).emit (.returned h port))

def Moves (r : Rules) : World → World → Prop := Relation.ReflTransGen (Move r)

variable {safe clean : Prop} {r : Rules} {w w' w'' : World}

theorem Moves.refl (w : World) : Moves r w w := Relation.ReflTransGen.refl

theorem Move.moves (move : Move r w w') : Moves r w w' := Relation.ReflTransGen.single move

theorem Moves.step (moves : Moves r w w') (move : Move r w' w'') : Moves r w w'' :=
  Relation.ReflTransGen.tail moves move

theorem Moves.trans (first : Moves r w w') (second : Moves r w' w'') : Moves r w w'' :=
  Relation.ReflTransGen.trans first second

theorem Changes.of_eq (same : w = w') : Changes safe clean w w' := same ▸ Changes.refl w

theorem takeRemaining_changes (h n : Nat) : Changes safe clean w (w.takeRemaining h n) := by
  unfold takeRemaining
  dsimp only
  apply (Change.event (.consumed h _) (.inr ⟨h, _, rfl⟩)).changes.trans
  split <;> exact setHolder_changes h _ rfl rfl rfl

theorem takeBuffered_changes (h n : Nat) {state : ConnectionState}
    (there : (w.holder h).state = some state) : Changes safe clean w (w.takeBuffered h state n) := by
  apply (Change.event (.consumed h _) (.inr ⟨h, _, rfl⟩)).changes.trans
  refine setHolder_changes h _ rfl ?_ ?_
  · simp [emit, there]
  · simp [emit, there]

/-- When `tcp_close` releases the block at once, releasing it is the last thing it does. -/
theorem altcpClose_releases (p : Nat) (finOk : Bool) (releases : w.closeReleases p)
    (there : clean → p ∈ w.pool ∨ p ∈ w.listenPool) :
    ∃ w₁, (w.altcpClose p finOk).2 = w₁.tcpFree p ∧ Changes safe clean w w₁ ∧
      w₁.holder = w.holder := by
  have states : (w.pcb p).state ≠ .listen ∧ (w.pcb p).state ≠ .synRcvd := by
    unfold closeReleases at releases
    cases state : (w.pcb p).state <;> simp_all
  have touched : Changes safe clean w (w.touch p) := touch_changes p there
  have closed : Changes safe clean (w.touch p)
      ((w.touch p).setPcb p { w.pcb p with rxClosed := true }) :=
    setPcb_changes p _ rfl rfl rfl rfl (TcpState.follows_self _) fun syn => absurd syn states.2
  have listens : ((w.touch p).pcb p).state ≠ .listen := states.1
  unfold altcpClose
  dsimp only
  rw [if_pos listens]
  by_cases unread : ((w.pcb p).state = .established ∨ (w.pcb p).state = .closeWait) ∧
      (w.pcb p).refusedData.isSome
  · refine ⟨((w.touch p).setPcb p { w.pcb p with rxClosed := true }).setPcb p
      { w.pcb p with rxClosed := true, refusedData := none }, ?_, ?_, rfl⟩
    · simp [tcpCloseShutdown, setPcb, touch, unread]
    · apply (touched.trans closed).trans
      refine setPcb_changes p _ ?_ ?_ ?_ ?_ ?_ ?_ <;> simp [setPcb, states]
  · refine ⟨(w.touch p).setPcb p { w.pcb p with rxClosed := true }, ?_, touched.trans closed, rfl⟩
    have early : (w.pcb p).state = .closed ∨ (w.pcb p).state = .synSent := by
      unfold closeReleases at releases
      cases state : (w.pcb p).state <;> simp_all
    rcases early with early | early <;> simp [tcpCloseShutdown, setPcb, touch, early]

theorem closePending_changes (strict : clean → safe) (good : Good safe clean w) {h : Nat}
    {state : ConnectionState} (there : (w.holder h).state = some state) (finOk : Bool)
    (kept : clean → ¬ w.closeReleases state.pcb) :
    Changes safe clean w ((w.altcpClose state.pcb finOk).2.destroyState h) := by
  have owner := good.linked.owner h state there
  have alive : clean → state.pcb ∈ w.pool := fun proper => good.alive (strict proper) h state there
  by_cases releases : w.closeReleases state.pcb
  · have improper : ¬ clean := fun proper => kept proper releases
    have last : ∃ w₁, (w.altcpClose state.pcb finOk).2 = w₁.tcpFree state.pcb ∧
        Changes safe clean w w₁ ∧ w₁.holder = w.holder :=
      altcpClose_releases state.pcb finOk releases fun proper => absurd proper improper
    rcases last with ⟨w₁, closed, before, holder⟩
    rcases destroyState_tcpFree w₁ state.pcb h with ⟨misuse, swapped⟩
    have there₁ : (w₁.holder h).state = some state := by rw [holder, there]
    rw [closed, swapped]
    apply before.trans
    apply (destroyState_changes h fun proper => absurd proper improper).trans
    refine Changes.trans ?_ (Changes.misuse_flag misuse fun proper => absurd proper improper)
    apply Change.changes
    exact Change.free state.pcb fun _ =>
      destroyState_unattached (before.good good).linked there₁
  · have closed : Changes safe clean w (w.altcpClose state.pcb finOk).2 := by
      apply altcpClose_changes
      · exact fun member => owner.2.1 (good.pools.listenersIn _ member)
      · exact fun syn => (good.linked.handshake _ syn).2 h owner.2.2.2.1
      · exact fun proper => .inl (alive proper)
      · exact fun _ released => absurd released releases
    apply closed.trans
    apply destroyState_changes
    intro proper state' there'
    exact (closed.good good).alive (strict proper) h state' there'

theorem listen_changes (good : Good safe clean w) {p l : Nat}
    (unused : ∀ h, (w.pcb p).callbackArg ≠ .holder h) (room : w.tcpListen p = some (l, w')) :
    Changes safe clean w ({ w' with listeners := w'.listeners ++ [l] }.altcpArg l .manager) := by
  have unattached : ¬ w.Attached p := by
    intro given
    obtain ⟨h, state, present, block⟩ := given
    exact good.linked.unattached unused present block
  obtain ⟨space, rfl, rfl⟩ := tcpListen_some room
  refine Changes.trans (Change.listen
    { state := .listen, localPort := (w.pcb p).localPort, callbackArg := .manager } space rfl
    (by simp)).changes ?_
  refine Changes.trans (Change.free p ?_).changes ?_
  · exact fun _ => unattached
  · apply Changes.of_eq
    simp [altcpArg, touch, setPcb, tcpFree]
    rfl

theorem Good.born (good : Good safe clean w) {h : Nat} (present : (w.holder h).state ≠ none) :
    h < w.nextHolder := by
  rcases Option.ne_none_iff_exists'.mp present with ⟨state, there⟩
  exact (good.linked.owner h state there).2.2.1

theorem Good.usable (good : Good r.safe r.clean w) {p : Nat} (proper : r.clean)
    (attached : w.Attached p) : p ∈ w.pool := by
  rcases attached with ⟨h, state, there, rfl⟩
  exact good.alive (r.strict proper) h state there

theorem Move.changes_or (good : Good r.safe r.clean w)
    (move : Move r w w') :
    Changes r.safe r.clean w w' ∨ r.accepts ∧ ∃ h port,
      w' = (w.setHolder h { w.holder h with accepted := true }).emit (.returned h port) := by
  cases move with
  | event e quiet =>
      left
      exact lwip_changes r.strict good e quiet.1 quiet.2
  | use p valid =>
      left
      apply touch_changes
      intro proper
      rcases valid proper with attached | listening | there
      · exact .inl (good.usable proper attached)
      · exact .inr (good.pools.listenersIn p listening)
      · exact .inl there
  | client c x owned =>
      left
      exact (Change.flags w.misuse w.nullArg (Function.update w.client c x) w.server
        fun _ => rfl).changes
  | server s x =>
      left
      exact (Change.flags w.misuse w.nullArg w.client (Function.update w.server s x)
        fun _ => rfl).changes
  | takeRemaining c h n owned =>
      left
      exact takeRemaining_changes h n
  | takeBuffered c h n state there owned =>
      left
      exact takeBuffered_changes h n there
  | alloc p room =>
      left
      obtain ⟨place, free, space, rfl, rfl⟩ := tcpAlloc_some room
      exact (Change.alloc {} place free space (by simp) rfl).changes
  | bind p port unused =>
      left
      apply Change.changes
      exact Change.pcb p _ rfl rfl rfl (fun h arg => absurd arg (unused h))
        (TcpState.follows_self _) fun _ => rfl
  | make p there closed =>
      left
      apply Change.changes
      apply Change.make p _ there
      · rw [closed]
        simp
      · rw [closed]
        simp
      · rfl
  | connect h p capacity last holder closed =>
      left
      have sent : Changes r.safe r.clean w (w.setPcb p { w.pcb p with state := .synSent }) :=
        setPcb_changes p _ rfl rfl rfl rfl (by rw [closed]; rfl) (by simp)
      apply sent.trans
      apply Change.changes
      refine Change.add h ?_ ?_ ?_
      · exact last
      · simp [setPcb, holder]
      · exact ⟨{ pcb := p, capacity }, by simp [setPcb, holder], rfl⟩
  | abort p valid told unused =>
      left
      have touched : Changes r.safe r.clean w (w.touch p) := by
        apply touch_changes
        intro proper
        rcases valid proper with attached | there
        · exact .inl (good.usable proper attached)
        · exact .inl there
      exact touched.trans (tcpAbandon_changes r.strict (touched.good good) p told unused)
  | close p finOk attached kept =>
      left
      rcases good.registered attached with ⟨h, arg, -, -⟩
      apply altcpClose_changes
      · intro member
        rcases attached with ⟨h, state, there, rfl⟩
        exact (good.linked.owner h state there).2.1 (good.pools.listenersIn _ member)
      · exact fun syn => (good.linked.handshake p syn).2 h arg
      · exact fun proper => .inl (good.usable proper attached)
      · exact fun secure releases => absurd releases (kept secure)
  | closePending h state finOk there kept =>
      left
      exact closePending_changes r.strict good there finOk kept
  | shutdown p finOk attached given =>
      left
      exact altcpShutdownTx_changes p finOk fun proper => .inl (good.usable proper attached)
  | listen p l unused room =>
      left
      exact listen_changes good unused room
  | stopListening l =>
      left
      exact (Change.stopListening l).changes
  | closeListener l finOk there stopped =>
      left
      have listens := (good.pools.listening l there).1
      apply altcpClose_changes l finOk stopped
      · simp [listens]
      · exact fun _ => .inr there
      · simp [closeReleases, listens]
  | accept h port given => exact .inr ⟨given, h, port, rfl⟩

theorem accept_good (good : Good safe clean w) (h : Nat) (port : UInt16) :
    Good safe clean ((w.setHolder h { w.holder h with accepted := true }).emit (.returned h port)) := by
  have state (h' : Nat) : (((w.setHolder h { w.holder h with accepted := true }).emit
      (.returned h port)).holder h').state = (w.holder h').state := by
    by_cases same : h' = h
    · simp [emit, setHolder, same]
    · simp [emit, setHolder, Function.update_of_ne same]
  constructor
  · exact good.pools.of_same rfl rfl rfl rfl rfl rfl fun _ _ => rfl
  · exact good.linked.of_same (fun h' => by rw [state h']) (fun h' => by rw [state h'])
      (fun _ _ => Iff.rfl) (fun _ _ _ => ⟨rfl, rfl⟩) good.linked.handshake (le_refl _) rfl
      (fun l member => .inl member) rfl
  · intro secure h' s there
    rw [state h'] at there
    exact good.alive secure h' s there
  · exact good.unmisused

theorem Move.good (good : Good r.safe r.clean w) (move : Move r w w') : Good r.safe r.clean w' := by
  rcases move.changes_or good with changes | ⟨-, h, port, rfl⟩
  · exact changes.good good
  · exact accept_good good h port

theorem Move.later (good : Good r.safe r.clean w) (move : Move r w w') : Later w w' := by
  rcases move.changes_or good with changes | ⟨-, h, port, rfl⟩
  · exact changes.later
  · refine Later.of_states (le_refl _) (by simp [emit, setHolder]) (fun _ _ => id) (le_refl _) ?_
    intro h' _ state there
    by_cases same : h' = h
    · subst same
      exact ⟨state, by simpa [emit, setHolder] using there, rfl⟩
    · exact ⟨state, by simpa [emit, setHolder, Function.update_of_ne same] using there, rfl⟩

theorem Moves.good (moves : Moves r w w') (good : Good r.safe r.clean w) :
    Good r.safe r.clean w' := by
  induction moves with
  | refl => exact good
  | tail _ move ih => exact move.good ih

theorem Moves.later (moves : Moves r w w') (good : Good r.safe r.clean w) : Later w w' := by
  induction moves with
  | refl => exact Later.refl w
  | tail before move ih => exact ih.trans (move.later (Moves.good before good))

theorem Moves.changes (moves : Moves r w w') (none : ¬ r.accepts) (good : Good r.safe r.clean w) :
    Changes r.safe r.clean w w' := by
  induction moves with
  | refl => exact Changes.refl w
  | tail _ move ih =>
      rcases move.changes_or (ih.good good) with changes | ⟨given, -⟩
      · exact ih.trans changes
      · exact absurd given none

end QNEthernet.Tcp
