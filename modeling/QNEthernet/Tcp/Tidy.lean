import QNEthernet.Tcp.Move

/-! No block is forgotten: one that is in use has a state, was closed, or is not open yet. -/

namespace QNEthernet.Tcp

open Lwip World

/-- The block is on its way to a state, or one refers to it, or it will end without one. -/
def World.Kept (w : World) (p : Nat) : Prop :=
  w.Attached p ∨ (w.pcb p).rxClosed ∨ (w.pcb p).state = .closed ∨ (w.pcb p).state = .synRcvd

/-- What holds of all blocks between two functions of lwIP, and inside one of all but those it is
working on. Holders that are off the list stay so. -/
structure Tidy (off : Nat → Prop) (busy : List Nat) (w : World) : Prop where
  refused : ∀ p, ¬ w.begun p → (w.pcb p).refusedData = none
  pending : ∀ p, (w.pcb p).state = .synRcvd → (w.pcb p).closePend = false
  apart : ∀ h state, (w.holder h).state = some state → (w.pcb state.pcb).state ≠ .listen
  connected : ∀ h state, (w.holder h).state = some state → (w.holder h).connected →
    w.begun state.pcb
  unlisted : ∀ h state, off h → (w.holder h).state = some state → state.removeFunc = false
  kept : ∀ p ∈ w.pool, p ∉ busy → w.Kept p

variable {off : Nat → Prop} {w w' : World} {busy busy' : List Nat} {p : Nat}

theorem TcpState.listen_follows {old : TcpState} (follows : TcpState.listen.follows old = true) :
    old = .listen := by
  revert follows
  cases old <;> decide

theorem Tidy.mono (tidy : Tidy off busy w) (more : ∀ p ∈ busy, p ∈ busy') : Tidy off busy' w :=
  { tidy with kept := fun p there idle => tidy.kept p there fun member => idle (more p member) }

theorem Tidy.begun_of_refused (tidy : Tidy off busy w) (some : (w.pcb p).refusedData.isSome) :
    w.begun p := by
  by_contra early
  rw [tidy.refused p early] at some
  cases some

theorem Tidy.work (tidy : Tidy off [] w) : Tidy off busy w := tidy.mono (by simp)

theorem Tidy.of_fields (tidy : Tidy off busy w)
    (pcb : ∀ p, ∃ arg listener, w'.pcb p = { w.pcb p with callbackArg := arg, listener := listener })
    (holder : w'.holder = w.holder) (pool : ∀ p ∈ w'.pool, p ∈ w.pool) : Tidy off busy w' where
  refused := by
    intro p early
    rcases pcb p with ⟨arg, listener, same⟩
    rw [begun, same] at early
    rw [same]
    exact tidy.refused p early
  pending := by
    intro p syn
    rcases pcb p with ⟨arg, listener, same⟩
    rw [same] at syn ⊢
    exact tidy.pending p syn
  apart := by
    intro h state there
    rw [holder] at there
    rcases pcb state.pcb with ⟨arg, listener, same⟩
    rw [same]
    exact tidy.apart h state there
  connected := by
    intro h state there open_
    rw [holder] at there open_
    rcases pcb state.pcb with ⟨arg, listener, same⟩
    rw [begun, same]
    exact tidy.connected h state there open_
  unlisted := by
    rw [holder]
    exact tidy.unlisted
  kept := by
    intro p there idle
    rcases pcb p with ⟨arg, listener, same⟩
    rw [Kept, Attached, holder, same]
    exact tidy.kept p (pool p there) idle

theorem Tidy.of_same (tidy : Tidy off busy w) (pcb : w'.pcb = w.pcb) (holder : w'.holder = w.holder)
    (pool : ∀ p ∈ w'.pool, p ∈ w.pool) : Tidy off busy w' :=
  tidy.of_fields (fun p => ⟨(w.pcb p).callbackArg, (w.pcb p).listener, by rw [pcb]⟩) holder pool

theorem touch_tidy (p : Nat) (tidy : Tidy off busy w) : Tidy off busy (w.touch p) :=
  tidy.of_same rfl rfl fun _ => id

theorem Tidy.setPcb (tidy : Tidy off busy w) (q : TcpPcb) (follows : q.state.follows (w.pcb p).state)
    (refused : q.refusedData.isSome → q.state ≠ .closed ∧ q.state ≠ .synSent)
    (pending : q.state = .synRcvd → q.closePend = false)
    (kept : p ∈ w.pool → p ∉ busy' →
      w.Attached p ∨ q.rxClosed ∨ q.state = .closed ∨ q.state = .synRcvd)
    (fewer : ∀ p' ∈ busy, p' ≠ p → p' ∈ busy') : Tidy off busy' (w.setPcb p q) := by
  have other (p' : Nat) (elsewhere : p' ≠ p) : (w.setPcb p q).pcb p' = w.pcb p' := by
    simp [World.setPcb, elsewhere]
  have here : (w.setPcb p q).pcb p = q := by simp [World.setPcb]
  constructor
  · intro p' early
    by_cases same : p' = p
    · subst same
      rw [here]
      by_contra some
      apply early
      rw [begun, here]
      exact refused (Option.isSome_iff_ne_none.mpr some)
    · rw [begun, other p' same] at early
      rw [other p' same]
      exact tidy.refused p' early
  · intro p' syn
    by_cases same : p' = p
    · subst same
      rw [here] at syn ⊢
      exact pending syn
    · rw [other p' same] at syn ⊢
      exact tidy.pending p' syn
  · intro h state there
    by_cases same : state.pcb = p
    · subst same
      rw [here]
      intro listens
      rw [listens] at follows
      exact tidy.apart h state there (TcpState.listen_follows follows)
    · rw [other _ same]
      exact tidy.apart h state there
  · intro h state there connected
    have before := tidy.connected h state there connected
    by_cases same : state.pcb = p
    · subst same
      rw [begun, here]
      exact TcpState.follows_begun follows before
    · rw [begun, other _ same]
      exact before
  · exact tidy.unlisted
  · intro p' there idle
    by_cases same : p' = p
    · subst same
      rw [Kept, here]
      exact kept there idle
    · rw [Kept, other p' same]
      exact tidy.kept p' there fun member => idle (fewer p' member same)

theorem Tidy.setHolder (tidy : Tidy off busy w) (h : Nat) (x : ConnectionHolder)
    (block : x.state.map (·.pcb) = (w.holder h).state.map (·.pcb))
    (removeFunc : off h → x.state.map (·.removeFunc) = (w.holder h).state.map (·.removeFunc))
    (connected : ∀ state, (w.holder h).state = some state → x.connected → w.begun state.pcb) :
    Tidy off busy (w.setHolder h x) := by
  have old (h' : Nat) (state : ConnectionState)
      (there : ((w.setHolder h x).holder h').state = some state) :
      ∃ state', (w.holder h').state = some state' ∧ state'.pcb = state.pcb := by
    by_cases same : h' = h
    · subst same
      simp only [World.setHolder, Function.update_self] at there
      rw [there] at block
      exact Option.map_eq_some_iff.mp block.symm
    · simp only [World.setHolder, Function.update_of_ne same] at there
      exact ⟨state, there, rfl⟩
  have new (h' : Nat) (state : ConnectionState) (there : (w.holder h').state = some state) :
      ∃ state', ((w.setHolder h x).holder h').state = some state' ∧ state'.pcb = state.pcb := by
    by_cases same : h' = h
    · subst same
      simp only [World.setHolder, Function.update_self]
      rw [there] at block
      exact Option.map_eq_some_iff.mp block
    · simp only [World.setHolder, Function.update_of_ne same]
      exact ⟨state, there, rfl⟩
  refine { tidy with apart := ?_, connected := ?_, unlisted := ?_, kept := ?_ }
  · intro h' state there
    rcases old h' state there with ⟨state', before, block'⟩
    rw [← block']
    exact tidy.apart h' state' before
  · intro h' state there open_
    rcases old h' state there with ⟨state', before, block'⟩
    rw [← block']
    by_cases same : h' = h
    · subst same
      exact connected state' before (by simpa [World.setHolder] using open_)
    · exact tidy.connected h' state' before (by simpa [World.setHolder, same] using open_)
  · intro h' state listed there
    by_cases same : h' = h
    · subst same
      simp only [World.setHolder, Function.update_self] at there
      have flagged := removeFunc listed
      rw [there] at flagged
      rcases Option.map_eq_some_iff.mp flagged.symm with ⟨state', before, flag⟩
      exact flag.symm.trans (tidy.unlisted h' state' listed before)
    · simp only [World.setHolder, Function.update_of_ne same] at there
      exact tidy.unlisted h' state listed there
  · intro p there idle
    rcases tidy.kept p there idle with ⟨h', state, present, rfl⟩ | rest
    · rcases new h' state present with ⟨state', after, block'⟩
      exact .inl ⟨h', state', after, block'⟩
    · exact .inr rest

theorem Tidy.attach (tidy : Tidy off [p] w) {h : Nat} (x : ConnectionHolder) {state : ConnectionState}
    (new : x.state = some state) (block : state.pcb = p) (unborn : (w.holder h).state = none)
    (apart : (w.pcb p).state ≠ .listen) (connected : x.connected → w.begun p) (on : ¬ off h) :
    Tidy off [] (w.setHolder h x) := by
  have here : (w.setHolder h x).holder h = x := by simp [World.setHolder]
  have other (h' : Nat) (elsewhere : h' ≠ h) : (w.setHolder h x).holder h' = w.holder h' := by
    simp [World.setHolder, elsewhere]
  refine { tidy with apart := ?_, connected := ?_, unlisted := ?_, kept := ?_ }
  · intro h' state' there
    by_cases same : h' = h
    · rw [same, here, new] at there
      cases there
      exact block ▸ apart
    · rw [other h' same] at there
      exact tidy.apart h' state' there
  · intro h' state' there open_
    by_cases same : h' = h
    · rw [same, here] at there open_
      rw [new] at there
      cases there
      exact block ▸ connected open_
    · rw [other h' same] at there open_
      exact tidy.connected h' state' there open_
  · intro h' state' listed there
    by_cases same : h' = h
    · exact absurd (same ▸ listed) on
    · rw [other h' same] at there
      exact tidy.unlisted h' state' listed there
  · intro p' there _
    by_cases same : p' = p
    · exact .inl ⟨h, state, by rw [here, new], block.trans same.symm⟩
    · rcases tidy.kept p' there (by simpa using same) with ⟨h', state', present, rfl⟩ | rest
      · have elsewhere : h' ≠ h := by
          intro equal
          subst equal
          rw [unborn] at present
          cases present
        exact .inl ⟨h', state', by rw [other h' elsewhere, present], rfl⟩
      · exact .inr rest

theorem Tidy.fresh (tidy : Tidy off [] w) (good : Good False False w) (q : TcpPcb)
    (refused : q.refusedData = none) (pending : q.closePend = false)
    (pcb : w'.pcb = Function.update w.pcb w.nextPcb q)
    (holder : w'.holder = w.holder)
    (pool : ∀ p ∈ w'.pool, p ∈ w.pool ∨ p = w.nextPcb ∧ (q.state = .closed ∨ q.state = .synRcvd)) :
    Tidy off [] w' := by
  have here : w'.pcb w.nextPcb = q := by rw [pcb, Function.update_self]
  have other (p : Nat) (elsewhere : p ≠ w.nextPcb) : w'.pcb p = w.pcb p := by
    rw [pcb, Function.update_of_ne elsewhere]
  have older (h : Nat) (state : ConnectionState) (there : (w.holder h).state = some state) :
      state.pcb ≠ w.nextPcb := (good.linked.owner h state there).1.ne
  constructor
  · intro p early
    by_cases same : p = w.nextPcb
    · rw [same, here, refused]
    · rw [begun, other p same] at early
      rw [other p same]
      exact tidy.refused p early
  · intro p syn
    by_cases same : p = w.nextPcb
    · rw [same, here, pending]
    · rw [other p same] at syn ⊢
      exact tidy.pending p syn
  · intro h state there
    rw [holder] at there
    rw [other _ (older h state there)]
    exact tidy.apart h state there
  · intro h state there connected
    rw [holder] at there connected
    rw [begun, other _ (older h state there)]
    exact tidy.connected h state there connected
  · rw [holder]
    exact tidy.unlisted
  · intro p there idle
    by_cases same : p = w.nextPcb
    · rcases pool p there with old | new
      · exact absurd same (good.pools.poolBelow p old).ne
      · rw [same, Kept, here]
        exact .inr (.inr new.2)
    · rw [Kept, Attached, holder, other p same]
      rcases pool p there with old | new
      · exact tidy.kept p old idle
      · exact absurd new.1 same

theorem destroyState_tidy (tidy : Tidy off busy w) (h : Nat)
    (working : ∀ state, (w.holder h).state = some state → state.pcb ∈ busy) :
    Tidy off busy (w.destroyState h) := by
  have fields (p : Nat) : ∃ arg, (w.destroyState h).pcb p = { w.pcb p with callbackArg := arg } :=
    destroyState_pcb w h p
  have state (p : Nat) : ((w.destroyState h).pcb p).state = (w.pcb p).state := by
    rcases fields p with ⟨arg, same⟩
    rw [same]
  constructor
  · intro p early
    rw [begun, state p] at early
    rcases fields p with ⟨arg, same⟩
    rw [same]
    exact tidy.refused p early
  · intro p syn
    rw [state p] at syn
    rcases fields p with ⟨arg, same⟩
    rw [same]
    exact tidy.pending p syn
  · intro h' state' there
    rw [destroyState_holder] at there
    by_cases same : h' = h
    · subst same
      simp at there
    · simp only [Function.update_of_ne same] at there
      rw [state]
      exact tidy.apart h' state' there
  · intro h' state' there connected
    rw [destroyState_holder] at there connected
    by_cases same : h' = h
    · subst same
      simp at there
    · simp only [Function.update_of_ne same] at there connected
      rw [begun, state]
      exact tidy.connected h' state' there connected
  · intro h' state' listed there
    rw [destroyState_holder] at there
    by_cases same : h' = h
    · subst same
      simp at there
    · simp only [Function.update_of_ne same] at there
      exact tidy.unlisted h' state' listed there
  · intro p there idle
    rw [destroyState_pool] at there
    rcases tidy.kept p there idle with ⟨h', state', present, rfl⟩ | rest
    · have other : h' ≠ h := by
        intro equal
        subst equal
        exact idle (working state' present)
      refine .inl ⟨h', state', ?_, rfl⟩
      rw [destroyState_holder, Function.update_of_ne other]
      exact present
    · right
      rw [state p]
      rcases fields p with ⟨arg, same⟩
      rw [same]
      exact rest

theorem tcpFree_tidy (pools : Pools w) (tidy : Tidy off [p] w) : Tidy off [] (w.tcpFree p) := by
  refine { tidy with kept := ?_ }
  intro p' there _
  rcases (pools.poolNodup.mem_erase_iff).mp there with ⟨other, there⟩
  exact tidy.kept p' there (by simpa using other)

theorem errFunc_tidy (tidy : Tidy off busy w) (arg : CallbackArg) {err : Err} (failed : err ≠ .ok)
    (working : ∀ h state, arg = .holder h → (w.holder h).state = some state → state.pcb ∈ busy) :
    Tidy off busy (w.errFunc arg err) := by
  match arg with
  | .null => exact tidy
  | .manager => exact tidy
  | .holder h =>
      cases there : (w.holder h).state with
      | none =>
          rw [errFunc_flags (.inl there)]
          refine tidy.setHolder h _ rfl (fun _ => rfl) ?_
          intro state present
          rw [there] at present
          cases present
      | some state =>
          rw [errFunc_failed there failed]
          apply destroyState_tidy
          · refine tidy.setHolder h _ rfl (fun _ => rfl) ?_
            simp [ConnectionHolder.maybeCopyRemaining]
          · intro state' present
            simp only [World.setHolder, Function.update_self, ConnectionHolder.maybeCopyRemaining]
              at present
            exact working h state' rfl present

theorem tcpEventErr_tidy (linked : Linked w) (tidy : Tidy off [p] w) {err : Err} (failed : err ≠ .ok) :
    Tidy off [p] (w.tcpEventErr (w.pcb p) err) := by
  unfold tcpEventErr
  split
  · apply errFunc_tidy tidy _ failed
    intro h state arg there
    rcases linked.arg p h arg with ⟨state', there', block⟩
    rw [there'] at there
    cases there
    simp [block]
  · exact tidy

theorem ended_tidy (good : Good False False w) (tidy : Tidy off [p] w) {err : Err} (failed : err ≠ .ok) :
    Tidy off [] ((w.tcpEventErr (w.pcb p) err).tcpFree p) :=
  tcpFree_tidy ((tcpEventErr_changes id good p err).good good).pools
    (tcpEventErr_tidy good.linked tidy failed)

theorem tcpFree_tcpEventErr_tidy (good : Good False False w) (tidy : Tidy off [p] w) {err : Err}
    (failed : err ≠ .ok) : Tidy off [] ((w.tcpFree p).tcpEventErr (w.pcb p) err) := by
  rcases tcpEventErr_tcpFree w p err with ⟨misuse, swapped⟩
  rw [swapped]
  exact (ended_tidy good tidy failed).of_same rfl rfl fun _ => id

theorem tcpAbandon_tidy (good : Good False False w) (tidy : Tidy off [p] w) :
    Tidy off [] (w.tcpAbandon p) := by
  unfold tcpAbandon
  dsimp only
  split
  · exact tcpFree_tidy good.pools tidy
  · exact tcpFree_tcpEventErr_tidy good tidy (by simp)

theorem tcpCloseShutdownFin_tidy (tidy : Tidy off [] w) (finOk : Bool)
    (opened : (w.pcb p).state ≠ .synRcvd) : Tidy off [] (w.tcpCloseShutdownFin p finOk) := by
  -- a block that is past its handshake is closed or has a state
  have fin (q : TcpPcb) (begun : w.begun p) (state : q.state.follows (w.pcb p).state)
      (rxClosed : q.rxClosed = (w.pcb p).rxClosed) (open_ : q.state ≠ .synRcvd) :
      Tidy off [] (w.setPcb p q) := by
    refine tidy.setPcb q state (fun _ => TcpState.follows_begun state begun)
      (fun syn => absurd syn open_) ?_ (by simp)
    intro there _
    rw [rxClosed]
    rcases tidy.kept p there (by simp) with attached | closed | state | syn
    · exact .inl attached
    · exact .inr (.inl closed)
    · exact absurd state begun.1
    · exact absurd syn opened
  unfold tcpCloseShutdownFin
  dsimp only
  split
  next syn => exact absurd syn opened
  next established =>
    have begun : w.begun p := by simp [begun, established]
    split
    · exact fin _ begun (by simp [established, TcpState.follows]) rfl (by simp)
    · exact fin _ begun (by simp) rfl opened
  next waiting =>
    have begun : w.begun p := by simp [begun, waiting]
    split
    · exact fin _ begun (by simp [waiting, TcpState.follows]) rfl (by simp)
    · exact fin _ begun (by simp) rfl opened
  · exact tidy

theorem tcpListenClosed_tidy (tidy : Tidy off busy w) (l : Nat) : Tidy off busy (w.tcpListenClosed l) := by
  refine tidy.of_fields ?_ rfl fun _ => id
  intro p
  simp only [tcpListenClosed]
  split
  · exact ⟨(w.pcb p).callbackArg, none, rfl⟩
  · exact ⟨(w.pcb p).callbackArg, (w.pcb p).listener, rfl⟩

theorem tcpCloseShutdown_tidy (pools : Pools w) (tidy : Tidy off [] w) (rst finOk : Bool)
    (opened : (w.pcb p).state ≠ .synRcvd) : Tidy off [] (w.tcpCloseShutdown p rst finOk) := by
  unfold tcpCloseShutdown
  dsimp only
  split
  next unread =>
    have purged : Tidy off [p] (w.setPcb p { w.pcb p with refusedData := none }) := by
      refine tidy.setPcb _ (by simp) (by simp) ?_ (by simp) (by simp)
      exact fun syn => absurd syn opened
    refine tcpFree_tidy ?_ purged
    exact pools.of_same rfl rfl rfl rfl rfl rfl fun l _ => by
      by_cases same : l = p <;> simp [World.setPcb, same]
  · split
    · exact tcpFree_tidy pools tidy.work
    · exact tcpFree_tidy pools tidy.work
    · exact tcpListenClosed_tidy tidy p
    · exact tcpCloseShutdownFin_tidy tidy finOk opened

theorem altcpClose_tidy (pools : Pools w) (tidy : Tidy off [p] w) (finOk : Bool)
    (opened : (w.pcb p).state ≠ .synRcvd) (connection : (w.pcb p).state ≠ .listen) :
    Tidy off [] (w.altcpClose p finOk).2 := by
  unfold altcpClose
  dsimp only
  rw [if_pos (show ((w.touch p).pcb p).state ≠ .listen from connection)]
  have closed : Tidy off [] ((w.touch p).setPcb p { w.pcb p with rxClosed := true }) := by
    refine (touch_tidy p tidy).setPcb _ ?_ ?_ ?_ ?_ (by simp)
    · exact TcpState.follows_self _
    · exact fun some => tidy.begun_of_refused some
    · exact fun syn => absurd syn opened
    · exact fun _ _ => .inr (.inl rfl)
  refine tcpCloseShutdown_tidy ?_ closed true finOk ?_
  · exact pools.of_same rfl rfl rfl rfl rfl rfl fun l _ => by
      by_cases same : l = p <;> simp [World.setPcb, touch, same]
  · simpa [World.setPcb] using opened

theorem altcpShutdownTx_tidy (pools : Pools w) (tidy : Tidy off [] w) (finOk : Bool)
    (opened : (w.pcb p).state ≠ .synRcvd) : Tidy off [] (w.altcpShutdownTx p finOk) := by
  have touched := touch_tidy p tidy
  have shut : Tidy off [] ((w.touch p).tcpCloseShutdown p false finOk) :=
    tcpCloseShutdown_tidy (w := w.touch p) (pools.of_same rfl rfl rfl rfl rfl rfl fun _ _ => rfl) touched
      false finOk opened
  unfold altcpShutdownTx
  dsimp only
  split
  · exact shut
  · exact shut
  · exact shut
  · exact touched

end QNEthernet.Tcp
