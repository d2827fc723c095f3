import QNEthernet.Tcp.Later
import QNEthernet.Tcp.Linked

/-! lwIP and the callbacks, taken apart into changes. -/

namespace QNEthernet.Tcp

open Lwip World

variable {safe clean : Prop} {w : World}

theorem Changes.misuse_flag (misuse : Bool) (kept : clean → misuse = w.misuse) :
    Changes safe clean w { w with misuse := misuse } :=
  (Change.flags misuse w.nullArg w.client w.server kept).changes

theorem Changes.nullArg_flag (w : World) : Changes safe clean w { w with nullArg := true } :=
  (Change.flags w.misuse true w.client w.server fun _ => rfl).changes

theorem touch_changes (p : Nat) (there : clean → p ∈ w.pool ∨ p ∈ w.listenPool) :
    Changes safe clean w (w.touch p) := by
  apply Changes.misuse_flag
  intro proper
  have used : ¬ (p ∉ w.pool ∧ p ∉ w.listenPool) := by
    rcases there proper with there | there <;> simp [there]
  simp [used]

theorem destroyState_changes (h : Nat)
    (there : clean → ∀ state, (w.holder h).state = some state → state.pcb ∈ w.pool) :
    Changes safe clean w (w.destroyState h) := by
  have flagged : w.destroyState h = { w.detach h with misuse := (w.destroyState h).misuse } := rfl
  rw [flagged]
  apply (Change.detach h).changes.trans
  apply Changes.misuse_flag
  intro proper
  cases present : (w.holder h).state with
  | none => simp [destroyState, present, detach]
  | some state =>
      have used := there proper state present
      simp only [destroyState, present, altcpArg, touch, setHolder, setPcb, detach]
      split <;> simp [used]

theorem setPcb_changes (p : Nat) (q : TcpPcb) (arg : q.callbackArg = (w.pcb p).callbackArg)
    (errf : q.errf = (w.pcb p).errf) (recv : q.recv = (w.pcb p).recv)
    (port : q.localPort = (w.pcb p).localPort)
    (follows : q.state.follows (w.pcb p).state)
    (rxClosed : q.state = .synRcvd → q.rxClosed = (w.pcb p).rxClosed) :
    Changes safe clean w (w.setPcb p q) :=
  (Change.pcb p q arg errf recv (fun _ _ => port) follows rxClosed).changes

theorem setHolder_changes (h : Nat) (x : ConnectionHolder)
    (accepted : x.accepted = (w.holder h).accepted)
    (pcb : x.state.map (·.pcb) = (w.holder h).state.map (·.pcb))
    (removeFunc : x.state.map (·.removeFunc) = (w.holder h).state.map (·.removeFunc)) :
    Changes safe clean w (w.setHolder h x) :=
  (Change.holder h x accepted pcb removeFunc).changes

theorem stored_changes (h : Nat) (bytes : List Byte) :
    Changes safe clean w (w.emit (.stored h bytes)) :=
  (Change.event _ (.inl ⟨h, bytes, rfl⟩)).changes

theorem errFunc_failed {h : Nat} {state : ConnectionState} {err : Err}
    (there : (w.holder h).state = some state) (failed : err ≠ .ok) :
    w.errFunc (.holder h) err =
      (w.setHolder h (({ w.holder h with lastError := err, connected := false } :
        ConnectionHolder).maybeCopyRemaining state)).destroyState h := by
  simp [errFunc, there, failed]

theorem errFunc_flags {h : Nat} {err : Err} (gone : (w.holder h).state = none ∨ err = .ok) :
    w.errFunc (.holder h) err =
      w.setHolder h { w.holder h with lastError := err, connected := decide (err = .ok) } := by
  rcases gone with gone | fine
  · simp [errFunc, gone]
  · subst fine
    cases there : (w.holder h).state <;> simp [errFunc, there]

theorem errFunc_changes (arg : CallbackArg) (err : Err)
    (there : clean → ∀ h state, arg = .holder h → (w.holder h).state = some state →
      state.pcb ∈ w.pool) :
    Changes safe clean w (w.errFunc arg err) := by
  match arg with
  | .null => exact Changes.refl w
  | .manager => exact Changes.refl w
  | .holder h =>
      by_cases ends : (w.holder h).state = none ∨ err = .ok
      · rw [errFunc_flags ends]
        exact setHolder_changes h _ rfl rfl rfl
      · rcases not_or.mp ends with ⟨present, failed⟩
        rcases Option.ne_none_iff_exists'.mp present with ⟨state, present⟩
        rw [errFunc_failed present failed]
        refine Changes.trans ?_ (destroyState_changes h ?_)
        · exact setHolder_changes h _ rfl rfl rfl
        · intro proper state' present'
          simp only [setHolder, Function.update_self, ConnectionHolder.maybeCopyRemaining] at present'
          exact there proper h state' rfl present'

theorem destroyState_tcpFree (w : World) (p h : Nat) :
    ∃ misuse, (w.tcpFree p).destroyState h =
      { (w.destroyState h).tcpFree p with misuse := misuse } := by
  refine ⟨((w.tcpFree p).destroyState h).misuse, ?_⟩
  cases there : (w.holder h).state with
  | none => simp [destroyState, tcpFree, there]
  | some state =>
      simp only [destroyState, tcpFree, there, setHolder, altcpArg, touch, setPcb]
      split <;> rfl

/-- Releasing a block and calling its error callback commute, but for the record of misuse. -/
theorem errFunc_tcpFree (w : World) (p : Nat) (arg : CallbackArg) (err : Err) :
    ∃ misuse, (w.tcpFree p).errFunc arg err =
      { (w.errFunc arg err).tcpFree p with misuse := misuse } := by
  match arg with
  | .null => exact ⟨w.misuse, rfl⟩
  | .manager => exact ⟨w.misuse, rfl⟩
  | .holder h =>
      by_cases ends : (w.holder h).state = none ∨ err = .ok
      · rw [errFunc_flags ends, errFunc_flags (w := w.tcpFree p) ends]
        exact ⟨w.misuse, rfl⟩
      · rcases not_or.mp ends with ⟨present, failed⟩
        rcases Option.ne_none_iff_exists'.mp present with ⟨state, present⟩
        rw [errFunc_failed present failed, errFunc_failed (w := w.tcpFree p) present failed]
        exact destroyState_tcpFree (w.setHolder h _) p h

theorem errFunc_unattached (linked : Linked w) {p h : Nat} {err : Err} (failed : err ≠ .ok)
    (arg : (w.pcb p).callbackArg = .holder h) : ¬ (w.errFunc (.holder h) err).Attached p := by
  rcases linked.arg p h arg with ⟨old, present, block⟩
  rw [errFunc_failed present failed]
  intro given
  obtain ⟨h', state, there, block'⟩ := given
  rw [destroyState_holder] at there
  by_cases same : h' = h
  · subst same
    simp at there
  · simp only [setHolder, Function.update_of_ne same] at there
    exact same (linked.unique there present (block'.trans block.symm))

theorem tcpEventErr_changes (strict : clean → safe) (good : Good safe clean w) (p : Nat) (err : Err) :
    Changes safe clean w (w.tcpEventErr (w.pcb p) err) := by
  unfold tcpEventErr
  split
  · apply errFunc_changes
    intro proper h state _ there
    exact good.alive (strict proper) h state there
  · exact Changes.refl w

theorem tcpEventErr_unattached (good : Good safe clean w) {p : Nat} {err : Err}
    (failed : err ≠ .ok) : ¬ (w.tcpEventErr (w.pcb p) err).Attached p := by
  by_cases attached : w.Attached p
  · rcases good.registered attached with ⟨h, arg, errf, -⟩
    rw [tcpEventErr, if_pos errf, arg]
    exact errFunc_unattached good.linked failed arg
  · unfold tcpEventErr
    split
    · match arg : (w.pcb p).callbackArg with
      | .null => exact attached
      | .manager => exact attached
      | .holder h => exact absurd (good.attached arg) attached
    · exact attached

/-- The order of `tcp_input`: first the callback, then the release. -/
theorem tcpEventErr_tcpFree_changes (strict : clean → safe) (good : Good safe clean w) (p : Nat)
    {err : Err} (failed : err ≠ .ok) :
    Changes safe clean w ((w.tcpEventErr (w.pcb p) err).tcpFree p) := by
  apply (tcpEventErr_changes strict good p err).trans
  exact (Change.free p fun _ => tcpEventErr_unattached good failed).changes

theorem tcpEventErr_tcpFree (w : World) (p : Nat) (err : Err) :
    ∃ misuse, (w.tcpFree p).tcpEventErr (w.pcb p) err =
      { (w.tcpEventErr (w.pcb p) err).tcpFree p with misuse := misuse } := by
  unfold tcpEventErr
  split
  · exact errFunc_tcpFree w p (w.pcb p).callbackArg err
  · exact ⟨w.misuse, rfl⟩

/-- The order of `tcp_abandon` and `tcp_slowtmr`: first the release, then the callback. -/
theorem tcpFree_tcpEventErr_changes (strict : clean → safe) (good : Good safe clean w) (p : Nat)
    {err : Err} (failed : err ≠ .ok) (unused : clean → ¬ w.Attached p) :
    Changes safe clean w ((w.tcpFree p).tcpEventErr (w.pcb p) err) := by
  by_cases attached : w.Attached p
  · rcases tcpEventErr_tcpFree w p err with ⟨misuse, swapped⟩
    rw [swapped]
    apply (tcpEventErr_tcpFree_changes strict good p failed).trans
    exact Changes.misuse_flag misuse fun proper => absurd attached (unused proper)
  · have silent : (w.tcpFree p).tcpEventErr (w.pcb p) err = w.tcpFree p := by
      unfold tcpEventErr
      split
      · match arg : (w.pcb p).callbackArg with
        | .null => rfl
        | .manager => rfl
        | .holder h => exact absurd (good.attached arg) attached
      · rfl
    rw [silent]
    exact (Change.free p fun _ => attached).changes

theorem tcpAbandon_changes (strict : clean → safe) (good : Good safe clean w) (p : Nat)
    (told : safe → (w.pcb p).state = .timeWait → ¬ w.Attached p)
    (unused : clean → ¬ w.Attached p) : Changes safe clean w (w.tcpAbandon p) := by
  unfold tcpAbandon
  dsimp only
  split
  next waiting => exact (Change.free p fun secure => told secure waiting).changes
  next => exact tcpFree_tcpEventErr_changes strict good p (by simp) unused

theorem tcpCloseShutdownFin_changes (p : Nat) (finOk : Bool) :
    Changes safe clean w (w.tcpCloseShutdownFin p finOk) := by
  unfold tcpCloseShutdownFin
  dsimp only
  split
  next syn =>
    split
    · exact setPcb_changes p _ rfl rfl rfl rfl (by rw [syn]; rfl) (by simp)
    · exact setPcb_changes p _ rfl rfl rfl rfl (by simp) (by simp)
  next established =>
    split
    · exact setPcb_changes p _ rfl rfl rfl rfl (by rw [established]; rfl) (by simp)
    · exact setPcb_changes p _ rfl rfl rfl rfl (by simp) (by simp)
  next waiting =>
    split
    · exact setPcb_changes p _ rfl rfl rfl rfl (by rw [waiting]; rfl) (by simp)
    · exact setPcb_changes p _ rfl rfl rfl rfl (by simp) (by simp)
  next => exact Changes.refl w

/-- Whether `tcp_close` releases the block at once. -/
def World.closeReleases (w : World) (p : Nat) : Bool :=
  match (w.pcb p).state with
  | .closed | .synSent => true
  | .established | .closeWait => (w.pcb p).refusedData.isSome
  | _ => false

theorem tcpCloseShutdown_changes (p : Nat) (finOk : Bool) (stopped : p ∉ w.listeners)
    (unused : safe → w.closeReleases p → ¬ w.Attached p) :
    Changes safe clean w (w.tcpCloseShutdown p true finOk) := by
  unfold tcpCloseShutdown
  dsimp only
  split
  next unread =>
    rcases unread with ⟨-, state, refused⟩
    have releases : w.closeReleases p = true := by
      rcases state with state | state <;> simp [closeReleases, state, refused]
    refine Changes.trans ?_ (Change.free p ?_).changes
    · exact setPcb_changes p _ rfl rfl rfl rfl (by simp) fun _ => rfl
    · exact fun secure => unused secure releases
  next =>
    split
    next closed =>
      apply Change.changes
      exact Change.free p fun secure => unused secure (by simp [closeReleases, closed])
    next syn =>
      apply Change.changes
      exact Change.free p fun secure => unused secure (by simp [closeReleases, syn])
    next => exact (Change.closeListener p stopped).changes
    next => exact tcpCloseShutdownFin_changes p finOk

theorem altcpClose_changes (p : Nat) (finOk : Bool) (stopped : p ∉ w.listeners)
    (opened : (w.pcb p).state ≠ .synRcvd) (there : clean → p ∈ w.pool ∨ p ∈ w.listenPool)
    (unused : safe → w.closeReleases p → ¬ w.Attached p) :
    Changes safe clean w (w.altcpClose p finOk).2 := by
  unfold altcpClose
  dsimp only
  apply (touch_changes p there).trans
  split
  next =>
    refine Changes.trans ?_ (tcpCloseShutdown_changes p finOk stopped ?_)
    · exact setPcb_changes p _ rfl rfl rfl rfl (by simp) fun syn => absurd syn opened
    · intro secure releases
      apply unused secure
      simpa [closeReleases, setPcb, touch] using releases
  next => exact tcpCloseShutdown_changes p finOk stopped unused

theorem altcpShutdownTx_changes (p : Nat) (finOk : Bool)
    (there : clean → p ∈ w.pool ∨ p ∈ w.listenPool) :
    Changes safe clean w (w.altcpShutdownTx p finOk) := by
  unfold altcpShutdownTx
  dsimp only
  apply (touch_changes p there).trans
  split
  all_goals first
    | exact Changes.refl _
    | next state =>
        simp only [tcpCloseShutdown, Bool.false_eq_true, false_and, if_false, state]
        exact tcpCloseShutdownFin_changes p finOk

theorem keepRemaining_changes (h : Nat) (data : Option Pbuf) (err : Err) :
    Changes safe clean w (w.keepRemaining h data err) := by
  unfold keepRemaining
  dsimp only
  split
  · exact setHolder_changes h _ rfl rfl rfl
  next state there =>
    split
    · exact setHolder_changes h _ rfl rfl rfl
    next data =>
      refine Changes.trans ?_ (stored_changes h data.bytes)
      exact setHolder_changes h _ rfl rfl rfl

theorem keepRemaining_state (w : World) (h : Nat) (data : Option Pbuf) (err : Err) (h' : Nat) :
    ((w.keepRemaining h data err).holder h').state = (w.holder h').state := by
  by_cases same : h' = h
  · subst same
    cases there : (w.holder h').state <;> cases data <;>
      simp [keepRemaining, there, setHolder, emit, ConnectionHolder.maybeCopyRemaining]
  · cases there : (w.holder h).state <;> cases data <;>
      simp [keepRemaining, there, setHolder, emit, same]

theorem destroyState_unattached (linked : Linked w) {h : Nat} {state : ConnectionState}
    (there : (w.holder h).state = some state) : ¬ (w.destroyState h).Attached state.pcb := by
  intro given
  obtain ⟨h', state', there', block⟩ := given
  rw [destroyState_holder] at there'
  by_cases same : h' = h
  · subst same
    simp at there'
  · simp only [Function.update_of_ne same] at there'
    exact same (linked.unique there' there block)

theorem destroyState_altcpClose_changes (strict : clean → safe) (good : Good safe clean w) {h p : Nat}
    (arg : (w.pcb p).callbackArg = .holder h) (finOk : Bool) :
    Changes safe clean w (w.destroyState h) ∧
      Changes safe clean (w.destroyState h) ((w.destroyState h).altcpClose p finOk).2 := by
  rcases good.linked.arg p h arg with ⟨state, present, rfl⟩
  have there : clean → state.pcb ∈ w.pool := fun proper => good.alive (strict proper) h state present
  constructor
  · apply destroyState_changes
    intro proper state' present'
    exact good.alive (strict proper) h state' present'
  · rcases w.destroyState_pcb h state.pcb with ⟨argument, block⟩
    apply altcpClose_changes
    · rw [destroyState_listeners]
      exact fun member =>
        (good.linked.owner h state present).2.1 (good.pools.listenersIn _ member)
    · rw [block]
      exact fun syn => (good.linked.handshake _ syn).2 h arg
    · rw [destroyState_pool]
      exact fun proper => .inl (there proper)
    · exact fun _ _ => destroyState_unattached good.linked present

theorem recvClosed_changes (strict : clean → safe) (good : Good safe clean w) {h p : Nat}
    (arg : (w.pcb p).callbackArg = .holder h) (data : Option Pbuf) (err : Err) (finOk : Bool) :
    Changes safe clean w (w.recvClosed h p data err finOk).2 := by
  rcases good.linked.arg p h arg with ⟨state, present, block⟩
  unfold recvClosed
  extract_lets w₁ w₂ w₃
  have first : Changes safe clean w w₁ := keepRemaining_changes h data err
  have second : Changes safe clean w₁ w₂ := by
    unfold w₂
    split
    · apply touch_changes
      intro proper
      left
      rw [← block]
      apply (first.good good).alive (strict proper) h
      rw [keepRemaining_state]
      exact present
    · exact Changes.refl w₁
  have kept : (w₂.pcb p).callbackArg = .holder h := by
    have same : w₁.pcb = w.pcb := by
      cases there : (w.holder h).state <;> cases data <;>
        simp [w₁, keepRemaining, there, setHolder, emit]
    unfold w₂
    split
    · rw [show (w₁.touch p).pcb = w₁.pcb from rfl, same, arg]
    · rw [same, arg]
  have ended := destroyState_altcpClose_changes strict (second.good (first.good good)) kept finOk
  apply (first.trans second).trans
  apply ended.1.trans
  split
  · exact ended.2
  · exact Changes.refl w₃

theorem ConnectionState.store_same {state state' : ConnectionState} {data : Pbuf}
    (fits : state.store data = some state') :
    state'.pcb = state.pcb ∧ state'.removeFunc = state.removeFunc := by
  unfold ConnectionState.store at fits
  dsimp only at fits
  split at fits
  · exact absurd fits (by simp)
  · rw [Option.some.injEq] at fits
    subst fits
    split <;> exact ⟨rfl, rfl⟩

theorem recvFunc_changes (strict : clean → safe) (good : Good safe clean w) {h p : Nat}
    (arg : (w.pcb p).callbackArg = .holder h) (data : Option Pbuf) (err : Err) (finOk : Bool) :
    Changes safe clean w (w.recvFunc h p data err finOk).2 := by
  unfold recvFunc
  cases data with
  | none => exact recvClosed_changes strict good arg none err finOk
  | some data =>
      dsimp only
      split
      · exact recvClosed_changes strict good arg (some data) err finOk
      · rcases good.linked.arg p h arg with ⟨state, present, block⟩
        have there : clean → p ∈ w.pool := fun proper =>
          block ▸ good.alive (strict proper) h state present
        split
        next gone => exact absurd (present.symm.trans gone) (by simp)
        next state' present' =>
          split
          · exact setHolder_changes h _ rfl rfl rfl
          next state'' fits =>
            have same := ConnectionState.store_same fits
            have present' : (w.holder h).state = some state' := present'
            refine Changes.trans ?_ (touch_changes p fun proper => .inl (there proper))
            refine Changes.trans ?_ (stored_changes h data.bytes)
            exact setHolder_changes h _ rfl (by simp [present', same.1]) (by simp [present', same.2])

theorem recvEvent_changes (strict : clean → safe) (good : Good safe clean w) (p : Nat)
    (data : Option Pbuf) (finOk : Bool) : Changes safe clean w (w.recvEvent p data finOk).2 := by
  unfold recvEvent
  dsimp only
  split
  · match arg : (w.pcb p).callbackArg with
    | .null => exact Changes.nullArg_flag w
    | .manager => exact Changes.nullArg_flag w
    | .holder h => exact recvFunc_changes strict good arg data .ok finOk
  · exact Changes.refl w

end QNEthernet.Tcp
