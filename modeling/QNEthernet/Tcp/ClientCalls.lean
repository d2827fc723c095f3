import QNEthernet.Tcp.Calls

/-! The calls of `EthernetClient`, taken apart into moves. -/

namespace QNEthernet.Tcp

open Lwip World

namespace EthernetClient

variable {r : Rules} {w s : World}

theorem dropConn_moves (c : Nat) (moves : Moves r w s) :
    Moves r w (s.dropConn c) := moves.step (.client c _ (by simp))

theorem watchPendingConnect_stays (c h : Nat) (moves : Moves r w s) :
    Stays r w (watchPendingConnect c h s) := by
  unfold watchPendingConnect
  split
  · exact Stays.done false (dropConn_moves c moves)
  · have watched := moves.step
      (.client c { s.client c with pendingConnect := !(s.holder h).connected } fun _ => .inl)
    exact Stays.loop watched fun _ later => watched.trans later

theorem connecting_stays (c : Nat) (moves : Moves r w s) :
    Stays r w (connecting c s) := by
  unfold connecting
  split
  · exact Stays.done false moves
  · split
    · exact Stays.done false moves
    · exact (watchPendingConnect_stays c _ moves).bind fun _ _ kept => Stays.done _ kept

theorem connected_stays (c : Nat) (moves : Moves r w s) :
    Stays r w (connected c s) := by
  unfold connected
  split
  · exact Stays.done false moves
  · split
    · exact (watchPendingConnect_stays c _ moves).bind fun _ _ kept => Stays.done _ kept
    · split
      · exact Stays.done false (dropConn_moves c moves)
      · exact Stays.loop moves fun _ later => moves.trans later

theorem operatorBool_stays (c : Nat) (moves : Moves r w s) :
    Stays r w (operatorBool c s) := by
  unfold operatorBool
  split
  · exact Stays.done false moves
  · split
    · exact (watchPendingConnect_stays c _ moves).bind fun _ _ kept => Stays.done _ kept
    · split
      · apply Stays.done
        split
        · exact dropConn_moves c moves
        · exact moves
      · exact Stays.loop moves fun _ later => moves.trans later

theorem closeWait_stays (c : Nat) (t : UInt32) (clock : List UInt32)
    (moves : Moves r w s) : Stays r w (closeWait c t clock s) := by
  induction clock generalizing s with
  | nil =>
      unfold closeWait
      split
      · exact Stays.done none moves
      · exact Stays.done _ (dropConn_moves c moves)
  | cons now clock ih =>
      unfold closeWait
      split
      · exact Stays.loop moves fun _ later => ih (moves.trans later)
      · exact Stays.done _ (dropConn_moves c moves)

/-- `begun`: a connection that is connected has left SYN-SENT, unless the run is clean anyway. -/
theorem closeState_stays (c h : Nat) (wait : Bool) (clock : List UInt32)
    (moves : Moves r w s)
    (begun : r.safe → ¬ r.clean → ∀ state, (s.holder h).state = some state → s.begun state.pcb) :
    Stays r w (closeState c h wait clock s) := by
  unfold closeState
  split
  · exact Stays.done _ (dropConn_moves c moves)
  next state there =>
    have attached : s.Attached state.pcb := ⟨h, state, there, rfl⟩
    apply Stays.closeOrAbort moves
    intro finOk permitted
    have closed : Moves r w (s.altcpClose state.pcb finOk).2 := by
      apply moves.step
      apply Move.close state.pcb finOk attached
      intro secure releases
      by_cases proper : r.clean
      · exact permitted.2 proper ⟨releases, attached⟩
      · have begun := begun secure proper state there
        exact permitted.1 secure ⟨(closeReleases_unread begun).mp releases, attached⟩
    split
    · split
      · exact Stays.done none closed
      · exact closeWait_stays c _ _ closed
    · exact Stays.done _ (dropConn_moves c closed)

theorem closePending_stays (c h : Nat) {state : ConnectionState}
    (there : (s.holder h).state = some state) (moves : Moves r w s) :
    Stays r w (altcpCloseOrAbort state.pcb s fun _ s' =>
      .done (some ()) ((s'.destroyState h).dropConn c) : TcpCall (Option Unit)) := by
  apply Stays.closeOrAbort moves
  intro finOk permitted
  apply Stays.done
  apply dropConn_moves c
  apply moves.step
  apply Move.closePending h state finOk there
  exact fun proper releases => permitted.2 proper ⟨releases, h, state, there, rfl⟩

/-- In a world where every connected block has begun, or in a clean run. -/
def Begun (r : Rules) (w : World) : Prop :=
  r.safe → ¬ r.clean → ∀ h state, (w.holder h).state = some state → (w.holder h).connected →
    w.begun state.pcb

theorem close_stays (good : Good r.safe r.clean s)
    (begun : Begun r s) (c : Nat) (wait : Bool) (clock : List UInt32)
    (moves : Moves r w s) : Stays r w (close c wait clock s) := by
  unfold close
  split
  · exact Stays.done _ moves
  next h _ =>
    split
    · exact Stays.done _ (dropConn_moves c moves)
    next state there =>
      have owner := good.linked.owner h state there
      split
      · split
        next open_ =>
          have used : Move r s (s.touch state.pcb) :=
            .use state.pcb fun _ => .inl ⟨h, state, there, rfl⟩
          apply Stays.loop (moves.step used)
          intro s' later
          apply closeState_stays c h wait clock ((moves.step used).trans later)
          intro secure improper state' there'
          -- the state after the loop is the one before it, and so is its block
          have since := Moves.later (used.moves.trans later) good
          rcases since.state h owner.2.2.1 state' there' with ⟨old, before, same⟩
          rw [there] at before
          cases before
          rw [← same]
          exact since.begun _ owner.1 (begun secure improper h state there open_)
        · exact Stays.done _ (dropConn_moves c moves)
      · split
        · exact closePending_stays c h there moves
        next open_ =>
          apply closeState_stays c h wait clock moves
          intro secure improper state' there'
          exact begun secure improper h state' there' (by simpa using open_)

theorem stop_stays (good : Good r.safe r.clean s)
    (begun : Begun r s) (c : Nat) (clock : List UInt32) (moves : Moves r w s) :
    Stays r w (stop c clock s) :=
  close_stays good begun c _ clock moves

theorem close_unconnected_stays (c : Nat) (wait : Bool) (clock : List UInt32)
    (idle : connIs s c true = false) (moves : Moves r w s) :
    Stays r w (close c wait clock s) := by
  unfold close
  split
  · exact Stays.done _ moves
  next h conn =>
    have unconnected : (s.holder h).connected = false := by simpa [connIs, conn] using idle
    split
    · exact Stays.done _ (dropConn_moves c moves)
    next state there =>
      simp only [unconnected, Bool.false_eq_true, if_false, Bool.not_false, if_true]
      split
      · exact Stays.done _ (dropConn_moves c moves)
      · exact closePending_stays c h there moves

theorem connectDone_stays (c : Nat) (moves : Moves r w s) :
    Stays r w (connectDone c s) := by
  unfold connectDone
  by_cases idle : connIs s c true = true
  · rw [if_pos idle]
    exact Stays.done _ moves
  · rw [if_neg idle]
    apply (close_unconnected_stays c false [] (by simpa using idle) moves).bind
    exact fun _ _ kept => Stays.done _ kept

theorem connectWait_stays (c : Nat) (t : UInt32) (clock : List UInt32)
    (moves : Moves r w s) : Stays r w (connectWait c t clock s) := by
  induction clock generalizing s with
  | nil =>
      unfold connectWait
      split
      · exact Stays.done none moves
      · exact connectDone_stays c moves
  | cons now clock ih =>
      unfold connectWait
      split
      · exact Stays.loop moves fun _ later => ih (moves.trans later)
      · exact connectDone_stays c moves

theorem connect_stays (start : Good r.safe r.clean w) (good : Good r.safe r.clean s) (begun : Begun r s) (c : Nat)
    (found : ∀ s h, Moves r w s → (s.holder h).state ≠ none → r.owns c h)
    (ipaddr : Option UInt32) (attempt : Attempt) (wait : Bool)
    (clock : List UInt32) (moves : Moves r w s) :
    Stays r w (connect c ipaddr attempt wait clock s) := by
  unfold connect
  apply (close_stays good begun c false [] moves).bind
  intro _ s₁ closed
  apply Call.Keeps.bind ((ConnectionManager.connect_stays ipaddr attempt closed).and
    (ConnectionManager.connect_present ipaddr attempt s₁))
  intro conn s₂ known
  obtain ⟨tried, present⟩ := known
  have given := tried.step (.client c { s₂.client c with conn := conn }
    fun h new => .inr
      ⟨((tried.good start).born (present h new)), found s₂ h tried (present h new)⟩)
  cases conn with
  | none => exact Stays.done _ given
  | some h =>
      have pending := given.step (.client c { s₂.client c with conn := some h, pendingConnect := !wait }
        fun h' own => .inl (by simpa [setClient] using own))
      have same : (s₂.setClient c { s₂.client c with conn := some h }).client c =
          { s₂.client c with conn := some h } := by simp [setClient]
      dsimp only
      rw [same]
      split
      · split
        · exact Stays.done none pending
        · exact connectWait_stays c _ _ pending
      · exact Stays.done _ pending

theorem openState_some {c h : Nat} {ok : Bool} {state : ConnectionState}
    (found : openState c ok s = some (h, state)) : (s.holder h).state = some state := by
  unfold openState at found
  split at found
  · rcases Option.bind_eq_some_iff.mp found with ⟨h', -, mapped⟩
    rcases Option.map_eq_some_iff.mp mapped with ⟨state', there, same⟩
    cases same
    exact there
  · cases found

theorem withState_stays {α : Type} (c : Nat) (missing : α)
    {next : Nat → ConnectionState → World → TcpCall α} (moves : Moves r w s)
    (found : ∀ h state s', (s'.holder h).state = some state → Moves r w s' →
      Moves r w (s'.touch state.pcb) → Stays r w (next h state s')) :
    Stays r w ((operatorBool c s).bind fun ok s' =>
      match openState c ok s' with
      | none => .done missing s'
      | some (h, state) => next h state s') := by
  apply (operatorBool_stays c moves).bind
  intro ok s' kept
  split
  · exact Stays.done missing kept
  next h state result =>
    have there := openState_some result
    exact found h state s' there kept (kept.step (.use state.pcb fun _ => .inl ⟨h, state, there, rfl⟩))

theorem closeOutput_stays (given : r.halfCloses) (c : Nat) (finOk : Bool) (moves : Moves r w s) :
    Stays r w (closeOutput c finOk s) := by
  apply withState_stays c () moves
  intro h state s' there kept used
  apply Stays.loop used
  intro s'' later
  split
  · exact Stays.done () (used.trans later)
  next state' there' =>
    exact Stays.done ()
      ((used.trans later).step (.shutdown state'.pcb finOk ⟨h, state', there', rfl⟩ given))

theorem abort_stays (c : Nat) (moves : Moves r w s) :
    Stays r w (abort c s) := by
  unfold abort
  split
  · exact Stays.done () moves
  next h _ =>
    split
    · exact Stays.done () (dropConn_moves c moves)
    next state there =>
      apply Stays.abort moves
      · exact fun _ => .inl ⟨h, state, there, rfl⟩
      · exact fun _ aborted => Stays.done () (dropConn_moves c aborted)

theorem localPort_stays (c : Nat) (moves : Moves r w s) :
    Stays r w (localPort c s) := by
  apply withState_stays c 0 moves
  exact fun h state s' there kept used => Stays.done _ used

theorem write_stays (c size sndBufSize sndBufSize' : Nat) (err : Err)
    (moves : Moves r w s) :
    Stays r w (write c size sndBufSize sndBufSize' err s) := by
  apply withState_stays c 0 moves
  intro h state s' there kept used
  split
  · exact Stays.loop kept fun _ later => kept.trans later
  · split
    · apply Stays.loop used
      intro s'' later
      split
      · exact Stays.done 0 (used.trans later)
      next state' there' =>
        have again := (used.trans later).step (.use state'.pcb fun _ => .inl ⟨h, state', there', rfl⟩)
        exact Stays.loop again fun _ later' => again.trans later'
    · exact Stays.loop used fun _ later => used.trans later

theorem availableForWrite_stays (c sndBufSize : Nat) (moves : Moves r w s) :
    Stays r w (availableForWrite c sndBufSize s) := by
  apply withState_stays c 0 moves
  intro h state s' there kept used
  apply Stays.loop used
  intro s'' later
  split
  · exact Stays.done 0 (used.trans later)
  next state' there' =>
    exact Stays.done _ ((used.trans later).step (.use state'.pcb fun _ => .inl ⟨h, state', there', rfl⟩))

theorem flush_stays (c : Nat) (moves : Moves r w s) :
    Stays r w (flush c s) := by
  apply withState_stays c () moves
  exact fun h state s' there kept used => Stays.loop used fun _ later => used.trans later

theorem useState_stays (c : Nat) (moves : Moves r w s) :
    Stays r w (useState c s) := by
  unfold useState
  split
  · exact Stays.done () moves
  next state found =>
    rcases Option.bind_eq_some_iff.mp found with ⟨h, -, there⟩
    exact Stays.done () (moves.step (.use state.pcb fun _ => .inl ⟨h, state, there, rfl⟩))

theorem checkState_stays (c : Nat) (moves : Moves r w s) :
    Stays r w (checkState c s) := by
  unfold checkState
  split
  · exact Stays.done none moves
  next h _ =>
    split
    · exact (watchPendingConnect_stays c h moves).bind fun _ _ kept => Stays.done none kept
    · exact Stays.done _ moves

theorem checkState_conn (c : Nat) (s : World) :
    (checkState c s).Keeps (fun _ _ => True) (Answered r) fun conn _ =>
      ∀ h, conn = some h → (s.client c).conn = some h := by
  unfold checkState
  split
  · exact fun h some => by cases some
  next h owned =>
    split
    · have watched : (watchPendingConnect c h s).Keeps (fun _ _ => True) (Answered r)
          fun _ _ => True := by
        unfold watchPendingConnect
        split
        · trivial
        · exact ⟨trivial, fun _ _ _ => trivial⟩
      exact watched.bind fun _ _ _ h some => by cases some
    · intro h' same
      cases same
      exact owned

theorem getStateAndLoopOrClose_stays (c h : Nat) (moves : Moves r w s) :
    Stays r w (getStateAndLoopOrClose c h s) := by
  unfold getStateAndLoopOrClose
  split
  · exact Stays.done false (dropConn_moves c moves)
  · split
    · exact Stays.done false moves
    · exact Stays.loop moves fun _ later => moves.trans later

theorem receive_stays {α : Type} (c : Nat) (missing : α) {fromRemaining : Nat → World → α × World}
    {fromState : Nat → ConnectionState → World → α × World}
    (held : ∀ h, (s.client c).conn = some h → r.owns c h)
    (remaining : ∀ h s, r.owns c h → Moves r s (fromRemaining h s).2)
    (state : ∀ h state s, (s.holder h).state = some state → r.owns c h →
      Moves r s (fromState h state s).2)
    (moves : Moves r w s) :
    Stays r w (receive c missing fromRemaining fromState s) := by
  unfold receive
  apply Call.Keeps.bind ((checkState_stays c moves).and (checkState_conn c s))
  intro conn s₁ given
  obtain ⟨checked, own⟩ := given
  cases conn with
  | none => exact Stays.done missing checked
  | some h =>
      have owned := held h (own h rfl)
      dsimp only
      split
      · exact Stays.done _ (checked.trans (remaining h s₁ owned))
      · apply (getStateAndLoopOrClose_stays c h checked).bind
        intro ok s₂ looped
        split
        · exact Stays.done missing looped
        next present result =>
          have there : (s₂.holder h).state = some present := (Option.ite_none_right_eq_some.mp result).2
          split
          · exact Stays.done missing looped
          · exact Stays.done _ (looped.trans (state h present s₂ there owned))

theorem available_stays (c : Nat) (held : ∀ h, (s.client c).conn = some h → r.owns c h)
    (moves : Moves r w s) : Stays r w (available c s) :=
  receive_stays c 0 held (fun _ s _ => Moves.refl s) (fun _ _ s _ _ => Moves.refl s) moves

theorem read_stays (c : Nat) (held : ∀ h, (s.client c).conn = some h → r.owns c h)
    (moves : Moves r w s) : Stays r w (read c s) :=
  receive_stays c none held (fun h _ owned => (Move.takeRemaining c h 1 owned).moves)
    (fun h state _ there owned => (Move.takeBuffered c h 1 state there owned).moves) moves

theorem readBuf_stays (c : Nat) (buf : Bool) (size : Nat)
    (held : ∀ h, (s.client c).conn = some h → r.owns c h) (moves : Moves r w s) :
    Stays r w (readBuf c buf size s) := by
  apply receive_stays c (0, []) held _ _ moves
  · intro h s' owned
    dsimp only
    split
    · exact Moves.refl s'
    · exact (Move.takeRemaining c h _ owned).moves
  · intro h state s' there owned
    dsimp only
    split
    · exact Moves.refl s'
    · exact (Move.takeBuffered c h _ state there owned).moves

theorem peek_stays (c : Nat) (held : ∀ h, (s.client c).conn = some h → r.owns c h)
    (moves : Moves r w s) : Stays r w (peek c s) :=
  receive_stays c none held (fun _ s _ => Moves.refl s) (fun _ _ s _ _ => Moves.refl s) moves

end EthernetClient
end QNEthernet.Tcp
