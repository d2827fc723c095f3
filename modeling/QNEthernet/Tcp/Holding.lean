import QNEthernet.Tcp.Move

/-! Which clients have which connections, and which connections can no longer be read. -/

namespace QNEthernet.Tcp

open Lwip World

variable {r : Rules} {w w' : World} {h : Nat}

/-- A move gives a connection to a client or leaves the clients alone, and it reads from a connection
that some client may have or not at all. -/
theorem Move.effects (move : Move r w w') :
    (w'.client = w.client ∨ ∃ c x, w' = w.setClient c x ∧
      ∀ h, x.conn = some h → (w.client c).conn = some h ∨ h < w.nextHolder ∧ r.owns c h) ∧
    ∀ h, consumedBytes h w'.trace = consumedBytes h w.trace ∨ ∃ c, r.owns c h := by
  have aside (beside : Aside w w') :
      (w'.client = w.client ∨ ∃ c x, w' = w.setClient c x ∧
        ∀ h, x.conn = some h → (w.client c).conn = some h ∨ h < w.nextHolder ∧ r.owns c h) ∧
      ∀ h, consumedBytes h w'.trace = consumedBytes h w.trace ∨ ∃ c, r.owns c h :=
    ⟨.inl beside.client, fun h => .inl (beside.consumed h)⟩
  have reading {c h : Nat} (owned : r.owns c h) (bytes : List Byte)
      (trace : w'.trace = w.trace ++ [.consumed h bytes]) (h' : Nat) :
      consumedBytes h' w'.trace = consumedBytes h' w.trace ∨ ∃ c, r.owns c h' := by
    by_cases same : h = h'
    · exact .inr ⟨c, same ▸ owned⟩
    · left
      simp [trace, consumedBytes, Event.consumedBytes, same]
  cases move with
  | client c x owned => exact ⟨.inr ⟨c, x, rfl, owned⟩, fun _ => .inl rfl⟩
  | event e quiet => exact aside (lwip_aside w e)
  | takeRemaining c h n owned =>
      have frame : (w.takeRemaining h n).client = w.client ∧
          ∃ bytes, (w.takeRemaining h n).trace = w.trace ++ [.consumed h bytes] := by
        unfold World.takeRemaining
        dsimp only
        split <;> exact ⟨rfl, _, rfl⟩
      rcases frame with ⟨client, bytes, trace⟩
      exact ⟨.inl client, reading owned bytes trace⟩
  | takeBuffered c h n state there owned => exact ⟨.inl rfl, reading owned _ rfl⟩
  | alloc p room =>
      obtain ⟨place, free, space, rfl, rfl⟩ := tcpAlloc_some room
      exact ⟨.inl rfl, fun _ => .inl rfl⟩
  | abort p valid told unused => exact aside (altcpAbort_aside w p)
  | close p finOk attached kept => exact aside (altcpClose_blocksOnly w p finOk).aside
  | closePending h state finOk there kept =>
      exact aside ((altcpClose_blocksOnly w state.pcb finOk).aside.trans (destroyState_aside _ h))
  | shutdown p finOk attached given => exact aside (altcpShutdownTx_blocksOnly w p finOk).aside
  | listen p l unused room =>
      obtain ⟨-, rfl, rfl⟩ := tcpListen_some room
      exact ⟨.inl rfl, fun _ => .inl rfl⟩
  | closeListener l finOk there stopped => exact aside (altcpClose_blocksOnly w l finOk).aside
  | accept h port given =>
      refine ⟨.inl rfl, fun _ => .inl ?_⟩
      simp [consumedBytes, emit, setHolder, Event.consumedBytes]
  | _ => exact ⟨.inl rfl, fun _ => .inl rfl⟩

theorem Move.conn (move : Move r w w') {c : Nat} (owned : (w'.client c).conn = some h) :
    (w.client c).conn = some h ∨ h < w.nextHolder ∧ r.owns c h := by
  rcases move.effects.1 with same | ⟨c', x, rfl, given⟩
  · exact .inl (same ▸ owned)
  · by_cases here : c = c'
    · subst here
      simp only [setClient, Function.update_self] at owned
      exact given h owned
    · simp only [setClient, Function.update_of_ne here] at owned
      exact .inl owned

theorem Moves.conn (moves : Moves r w w') {c : Nat} (owned : (w'.client c).conn = some h) :
    (w.client c).conn = some h ∨ r.owns c h := by
  induction moves with
  | refl => exact .inl owned
  | tail _ move ih =>
      rcases move.conn owned with old | new
      · exact ih old
      · exact .inr new.2

/-- Clients have connections that were made. -/
def Held (w : World) : Prop := ∀ c h, (w.client c).conn = some h → h < w.nextHolder

theorem Moves.held (moves : Moves r w w') (good : Good r.safe r.clean w) (held : Held w) :
    Held w' := by
  induction moves with
  | refl => exact held
  | tail before move ih =>
      intro c h owned
      have next := (move.later (Moves.good before good)).nextHolder
      rcases move.conn owned with old | new
      · exact (ih c h old).trans_le next
      · exact new.1.trans_le next

/-- No client has the connection, and there is no state by which one could get it. -/
structure Lost (w : World) (h : Nat) : Prop where
  born : h < w.nextHolder
  gone : (w.holder h).state = none
  unowned : ∀ c, (w.client c).conn ≠ some h

theorem Moves.gone (moves : Moves r w w') (good : Good r.safe r.clean w) (born : h < w.nextHolder)
    (gone : (w.holder h).state = none) : (w'.holder h).state = none := by
  cases there : (w'.holder h).state with
  | none => rfl
  | some state =>
      rcases (moves.later good).state h born state there with ⟨old, present, -⟩
      rw [gone] at present
      exact absurd present (by simp)

/-- As long as no client gets the connection, it stays lost, and nothing is read from it. -/
theorem Moves.lost (moves : Moves r w w') (good : Good r.safe r.clean w)
    (others : ∀ c, ¬ r.owns c h) (lost : Lost w h) :
    Lost w' h ∧ consumedBytes h w'.trace = consumedBytes h w.trace := by
  refine ⟨⟨lost.born.trans_le (moves.later good).nextHolder, moves.gone good lost.born lost.gone, ?_⟩, ?_⟩
  · intro c owned
    rcases moves.conn owned with old | new
    · exact lost.unowned c old
    · exact others c new
  · induction moves with
    | refl => rfl
    | tail _ move ih =>
        rcases move.effects.2 h with same | ⟨c, owned⟩
        · exact same.trans ih
        · exact absurd owned (others c)

end QNEthernet.Tcp
