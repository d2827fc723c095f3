import QNEthernet.Tcp.Sketch

/-! When lwIP's functions are applied to blocks that are still allocated only. -/

namespace QNEthernet.Tcp

open Lwip World

/-- No block is released while a state refers to it: not by an event, and not by `altcp_close` or
`altcp_abort`. -/
def StatesFirst : Request → Turn → World → Prop
  | .loop, turn, w => Run.Allowed (fun w event => ¬ w.releasesBlock event) lwip w turn.events
  | .alloc, turn, w =>
      Run.Allowed (fun w event => ¬ w.releasesBlock event) lwip w (turn.events.filter LwipEvent.inAlloc)
  | .close p, _, w => ¬ (w.closeReleases p ∧ w.Attached p)
  | .abort p, _, w => ¬ w.Attached p

theorem losesBlock_releases {w : World} {event : LwipEvent} (loses : w.losesBlock event) :
    w.releasesBlock event := by
  cases event with
  | input p seg finOk => exact ⟨.inl loses.1, loses.2⟩
  | expire p => exact loses
  | kill p =>
      rcases loses with ⟨waiting, attached⟩
      exact ⟨by rw [waiting]; rfl, attached⟩
  | _ => exact loses.elim

theorem unread_closeReleases {w : World} {p : Nat} (unread : w.unread p) : w.closeReleases p := by
  rcases unread with ⟨state | state, refused⟩ <;> simpa [closeReleases, state] using refused

theorem StatesFirst.permitted {request : Request} {turn : Turn} {w : World}
    (first : StatesFirst request turn w) : Permitted True True request turn w := by
  have quiet (w : World) (event : LwipEvent) (kept : ¬ w.releasesBlock event) :
      Quiet True True w event := ⟨fun _ loses => kept (losesBlock_releases loses), fun _ => kept⟩
  cases request with
  | loop => exact first.mono quiet
  | alloc => exact first.mono quiet
  | close p =>
      exact ⟨fun _ unread => first ⟨unread_closeReleases unread.1, unread.2⟩, fun _ => first⟩
  | abort p => exact ⟨fun _ _ => first, fun _ => first⟩

/-- Everything is asked, of all calls. -/
def Rules.strictest : Rules where
  safe := True
  clean := True
  strict := id
  accepts := True
  halfCloses := True
  owns := fun _ _ => True

theorem blocks_used_while_allocated (mtu : Nat) (steps : List Step)
    (first : Run.Allowed (fun w s => (s.op.call w).Meets answer StatesFirst s.turns) step { mtu } steps) :
    (exec mtu steps).misuse = false := by
  have kept : Good True True (exec mtu steps) ∧ Held (exec mtu steps) := by
    apply Run.allowed_preserves (fun w => Good True True w ∧ Held w) _ step _ steps { mtu } first
      ⟨start_good mtu, by simp [Held]⟩
    intro w s first given
    obtain ⟨good, held⟩ := given
    have ready : Ready .strictest w :=
      ⟨good, held, fun _ improper => absurd trivial improper, Owning.of_all fun _ _ => trivial⟩
    have moves : Moves .strictest w (w.step s) :=
      step_moves ready s (fun _ => trivial) (fun _ => trivial)
        (first.mono fun _ _ _ => StatesFirst.permitted)
    exact ⟨moves.good good, moves.held good held⟩
  exact kept.1.unmisused trivial

/-- A connection arrives, and is closed by the other side after some data. -/
def closedByPeer : List Step :=
  [⟨.beginListening 0 80 false {}, []⟩,
    ⟨.loop, [{ events := [.syn 1, .input 2 { ack := true } true,
      .input 2 { ack := true, data := some ⟨[[1, 2, 3]], Pbuf.threeBytes_short⟩ } true] }]⟩,
    ⟨.accept 0 0, []⟩,
    ⟨.loop, [{ events := [.input 2 { ack := true, fin := true } true] }]⟩,
    ⟨.read 0, []⟩]

theorem closedByPeer_used_while_allocated :
    ((exec 1500 closedByPeer).holder 0).remainingPos = 1 ∧ (exec 1500 closedByPeer).misuse = false := by
  refine ⟨by decide, blocks_used_while_allocated 1500 closedByPeer ?_⟩
  have kept {P : Prop} {silent loud : Bool} (quiet : silent = false) (calm : loud = false) :
      ¬ ((silent = true ∨ loud = true) ∧ P) := by simp [quiet, calm]
  refine ⟨⟨trivial, trivial⟩, ⟨⟨id, kept rfl rfl, kept rfl rfl, trivial⟩, trivial⟩,
    ⟨trivial, trivial⟩, ⟨⟨kept rfl rfl, trivial⟩, trivial⟩, trivial, trivial⟩

/-- A connection is started and aborted: the error callback of `altcp_abort` destroys the state, whose
destructor uses the block. -/
theorem abort_uses_released_block :
    (exec 1500 [⟨.connect 0 (some 1) {} false [], []⟩, ⟨.abort 0, []⟩]).misuse = true := by
  decide

end QNEthernet.Tcp
