import QNEthernet.Tcp.Sketch
import QNEthernet.Tcp.TidyMoves

/-! How long the lists of the connection manager get: no longer than lwIP's pools, as long as lwIP does
not release a block without telling the connection that has it. -/

namespace QNEthernet.Tcp

open Lwip World

variable {safe clean : Prop} {w : World}

def World.listedBlocks (w : World) : List Nat :=
  w.connections.filterMap fun h => (w.holder h).state.map (·.pcb)

/-- The lists have each connection and each block once, blocks that are allocated, and no more than
there are, so that the copies that are iterated over are complete. The pointers to two blocks differ where
their places do. -/
structure World.Exact (w : World) : Prop where
  once : w.connections.Nodup
  unshared : ∀ h ∈ w.connections, ∀ h' ∈ w.connections, ∀ state state',
    (w.holder h).state = some state → (w.holder h').state = some state' →
    w.place state.pcb = w.place state'.pcb → h = h'
  allocated : ∀ h ∈ w.connections, ∀ state, (w.holder h).state = some state → state.pcb ∈ w.pool
  bound : w.connections.length ≤ mempNumTcpPcb
  listenersBound : w.listeners.length ≤ mempNumTcpPcbListen
  iterated : w.connSnapshot = w.listedBlocks ∧ w.lstnSnapshot = w.listeners
  aborted : ∀ turns, ∀ p ∈ w.listedBlocks, p ∉ (w.step ⟨.abortAll, turns⟩).pool

theorem listedBlocks_nodup (linked : Linked w) : w.listedBlocks.Nodup := by
  apply List.Nodup.filterMap _ (linked.sorted.imp fun before => before.ne)
  intro h h' p first second
  rcases Option.map_eq_some_iff.mp first with ⟨state, there, block⟩
  rcases Option.map_eq_some_iff.mp second with ⟨state', there', block'⟩
  exact linked.unique there there' (block.trans block'.symm)

theorem listedBlocks_length (linked : Linked w) : w.listedBlocks.length = w.connections.length := by
  apply List.filterMap_length_eq_length.mpr
  intro h member
  rcases (linked.listed h).mp member with ⟨state, there, -⟩
  simp [there]

theorem errFunc_pool (w : World) (arg : CallbackArg) (err : Err) : (w.errFunc arg err).pool = w.pool := by
  unfold errFunc
  split
  · rfl
  · rfl
  · dsimp only
    split
    · split
      · exact destroyState_pool _ _
      · rfl
    · rfl

theorem altcpAbort_pool (w : World) (p : Nat) : (w.altcpAbort p).pool = w.pool.erase p := by
  unfold World.altcpAbort tcpAbandon tcpEventErr
  dsimp only
  split
  · rfl
  · split
    · exact errFunc_pool _ _ _
    · rfl

theorem abortAll_pool (w : World) (turns : List Turn) :
    (w.step ⟨.abortAll, turns⟩).pool = w.pool.diff w.connSnapshot := by
  have iterated (ps : List Nat) (w : World) (turns : List Turn) :
      ((ConnectionManager.iterate (fun p w => altcpAbort p w (.done ())) ps w).run answer turns).2.pool =
        w.pool.diff ps := by
    induction ps generalizing w turns with
    | nil => rfl
    | cons p ps ih =>
        rw [List.diff_cons, ← altcpAbort_pool]
        exact ih (w.altcpAbort p) turns.tail
  exact iterated w.connSnapshot w turns

theorem Good.exact (good : Good safe clean w) (secure : safe) : w.Exact := by
  have nodup := listedBlocks_nodup good.linked
  have inside : w.listedBlocks ⊆ w.pool := by
    intro p member
    rcases List.mem_filterMap.mp member with ⟨h, -, there⟩
    rcases Option.map_eq_some_iff.mp there with ⟨state, present, rfl⟩
    exact good.alive secure h state present
  have blocks : w.listedBlocks.length ≤ mempNumTcpPcb :=
    (List.subperm_of_subset nodup inside).length_le.trans good.pools.poolBound
  have listeners : w.listeners.length ≤ mempNumTcpPcbListen :=
    (List.subperm_of_subset good.pools.listenersNodup good.pools.listenersIn).length_le.trans
      good.pools.listenBound
  have copied : w.connSnapshot = w.listedBlocks :=
    List.take_of_length_le (blocks.trans (by decide))
  have apart := List.inj_on_of_nodup_map (List.Nodup.of_append_left good.pools.places)
  refine ⟨good.linked.sorted.imp fun before => before.ne, ?_, ?_, ?_, listeners, ⟨copied, ?_⟩, ?_⟩
  · intro h _ h' _ state state' there there' same
    have allocated := good.alive secure h state there
    have allocated' := good.alive secure h' state' there'
    exact good.linked.unique there there' (apart allocated allocated' same)
  · exact fun h _ state there => good.alive secure h state there
  · exact listedBlocks_length good.linked ▸ blocks
  · exact List.take_of_length_le (listeners.trans (by decide))
  · intro turns p member
    rw [abortAll_pool, copied]
    exact fun left => (good.pools.poolNodup.mem_sdiff_iff.mp left).2 member

/-- lwIP releases no block of a connection without a call of the error callback: `altcp_close` does so
when there is data the connection refused, `altcp_abort` in TIME-WAIT. -/
def BlocksKept : Request → Turn → World → Prop
  | .loop, turn, w => Run.Allowed (fun w event => ¬ w.losesBlock event) lwip w turn.events
  | .alloc, turn, w =>
      Run.Allowed (fun w event => ¬ w.losesBlock event) lwip w (turn.events.filter LwipEvent.inAlloc)
  | .close p, _, w => ¬ (w.unread p ∧ w.Attached p)
  | .abort p, _, w => ¬ ((w.pcb p).state = .timeWait ∧ w.Attached p)

theorem BlocksKept.permitted {request : Request} {turn : Turn} {w : World}
    (kept : BlocksKept request turn w) : Permitted True False request turn w := by
  have quiet (w : World) (event : LwipEvent) (told : ¬ w.losesBlock event) :
      Quiet True False w event := ⟨fun _ => told, False.elim⟩
  cases request with
  | loop => exact kept.mono quiet
  | alloc => exact kept.mono quiet
  | close p => exact ⟨fun _ => kept, False.elim⟩
  | abort p => exact ⟨fun _ waiting attached => kept ⟨waiting, attached⟩, False.elim⟩

/-- No block is released behind a state's back. -/
def Rules.safest : Rules where
  safe := True
  clean := False
  strict := False.elim
  accepts := True
  halfCloses := True
  owns := fun _ _ => True

/-- Every call into lwIP that the step makes keeps the blocks. -/
def Step.BlocksKept (s : Step) (w : World) : Prop := (s.op.call w).Meets answer Tcp.BlocksKept s.turns

theorem step_safest (good : Good True False w) (held : Held w) (tidy : Tidy (fun _ => False) [] w) (s : Step) :
    Stays .safest w (s.op.call w) := by
  have begun : EthernetClient.Begun .safest w := fun _ _ => tidy.connected
  exact s.op.call_stays ⟨good, held, begun, Owning.of_all fun _ _ => trivial⟩ (fun _ => trivial)
    fun _ => trivial

theorem connections_exact (mtu : Nat) (steps : List Step)
    (kept : Run.Allowed (fun w s => s.BlocksKept w) step { mtu } steps) :
    (exec mtu steps).Exact ∧ ∀ s : Step, s.BlocksKept (exec mtu steps) →
      (s.op.call (exec mtu steps)).Meets answer (fun _ _ w => w.Exact) s.turns := by
  have environment (request : Request) (turn : Turn) (w : World) (kept : BlocksKept request turn w) :
      Answered .safest request w (w.answer request turn).1 (w.answer request turn).2 :=
    answer_answered request turn w kept.permitted
  have reached : Good True False (exec mtu steps) ∧ Held (exec mtu steps) ∧
      Tidy (fun _ => False) [] (exec mtu steps) := by
    apply Run.allowed_preserves
      (fun w => Good True False w ∧ Held w ∧ Tidy (fun _ => False) [] w) _ step _ steps { mtu } kept
      ⟨start_good mtu, by simp [Held], start_tidy mtu⟩
    intro w s kept given
    obtain ⟨good, held, tidy⟩ := given
    have moves : Moves .safest w (w.step s) :=
      (step_safest good held tidy s).run (fun request turn w kept _ => environment request turn w kept)
        s.turns kept
    exact ⟨moves.good good, moves.held good held, moves.tidy good tidy⟩
  rcases reached with ⟨good, held, tidy⟩
  refine ⟨good.exact trivial, ?_⟩
  intro s kept
  apply ((step_safest good held tidy s).meets
    (fun request turn w kept _ => environment request turn w kept) s.turns kept).mono
  exact fun _ _ w moves => (moves.good good).exact trivial

/-- A connection is started, read from and closed. -/
def closedRead : List Step :=
  [⟨.connect 0 (some 1) {} false [], []⟩,
    ⟨.loop, [{ events := [.input 0 { synAck := true } true,
      .input 0 { ack := true, data := some ⟨[[1, 2, 3]], Pbuf.threeBytes_short⟩ } true] }]⟩,
    ⟨.connected 0, []⟩,
    ⟨.read 0, []⟩,
    ⟨.close 0, []⟩]

theorem connections_exact_closedRead :
    (exec 1500 closedRead).connections = [0] ∧ ((exec 1500 closedRead).pcb 0).state = .finWait1 ∧
      (exec 1500 closedRead).Exact := by
  refine ⟨by decide, by decide, (connections_exact 1500 closedRead ?_).1⟩
  have kept {P : Prop} {silent : Bool} (quiet : silent = false) : ¬ (silent = true ∧ P) := by
    simp [quiet]
  have unread {P R : Prop} {refused : Bool} (none : refused = false) :
      ¬ ((P ∧ refused = true) ∧ R) := by simp [none]
  refine ⟨⟨trivial, trivial⟩, ⟨⟨kept rfl, kept rfl, trivial⟩, trivial⟩, ⟨trivial, trivial⟩,
    ⟨trivial, trivial⟩, ⟨trivial, unread rfl, trivial⟩, trivial⟩

def segmentOf (p n : Nat) (short : n < 2 ^ 16) : LwipEvent :=
  .input p { ack := true, data := some ⟨[List.replicate n 0], by simpa using short⟩ } true

/-- A connection is closed whose buffer was full when another byte arrived. -/
def closedUnread (p : Nat) : List Step :=
  [⟨.connect 0 (some 1) {} false [], []⟩,
    ⟨.loop, [{ events := .input p { synAck := true } true ::
      List.replicate 4 (segmentOf p (tcpMss 1500) (by decide)) ++ [segmentOf p 1 (by decide)] }]⟩,
    ⟨.close 0, []⟩]

/-- `altcp_close` resets such a connection and releases its block without a call, so it stays on the
list. The next connection gets the same memory: after twelve of them and one that is open, thirteen entries
point to one block, and the last of them is left out where the list is iterated over. -/
theorem connections_dangle :
    (let w := exec 1500 (closedUnread 0)
    w.connections = [0] ∧ (w.holder 0).state.map (·.pcb) = some 0 ∧ w.pool = []) ∧
    ¬ (exec 1500 (closedUnread 0)).Exact ∧
    let w := exec 1500 ((List.range 12).flatMap closedUnread ++ [⟨.connect 0 (some 1) {} false [], []⟩])
    w.connections = List.range 13 ∧ w.pool = [12] ∧
      (∀ h < 13, (w.holder h).state.map (fun state => w.place state.pcb) = some 7) ∧
      w.connSnapshot = List.range 12 := by
  have dangling : (exec 1500 (closedUnread 0)).connections = [0] ∧
      ((exec 1500 (closedUnread 0)).holder 0).state.map (·.pcb) = some 0 ∧
      (exec 1500 (closedUnread 0)).pool = [] := by decide +kernel
  refine ⟨dangling, ?_, by decide +kernel⟩
  intro exact_
  rcases Option.map_eq_some_iff.mp dangling.2.1 with ⟨state, there, -⟩
  have member := exact_.allocated 0 (by simp [dangling.1]) state there
  simp [dangling.2.2] at member

end QNEthernet.Tcp
