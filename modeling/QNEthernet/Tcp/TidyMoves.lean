import QNEthernet.Tcp.TidyEvents

/-! The moves that calls are made of forget no block either. -/

namespace QNEthernet.Tcp

open Lwip World

variable {r : Rules} {safe clean : Prop} {off : Nat → Prop} {w w' : World} {p : Nat}

theorem Good.plain (good : Good safe clean w) : Good False False w :=
  ⟨good.pools, good.linked, False.elim, False.elim⟩

theorem Tidy.done (tidy : Tidy off [p] w) (kept : p ∈ w.pool → w.Kept p) : Tidy off [] w := by
  refine { tidy with kept := ?_ }
  intro p' there _
  by_cases same : p' = p
  · exact same ▸ kept (same ▸ there)
  · exact tidy.kept p' there (by simpa using same)

theorem altcpClose_closed (pools : Pools w) (finOk : Bool) (connection : (w.pcb p).state ≠ .listen) :
    p ∉ (w.altcpClose p finOk).2.pool ∨ ((w.altcpClose p finOk).2.pcb p).rxClosed := by
  have gone : p ∉ w.pool.erase p := pools.poolNodup.not_mem_erase
  unfold altcpClose
  dsimp only
  rw [if_pos (show ((w.touch p).pcb p).state ≠ .listen from connection)]
  unfold tcpCloseShutdown
  dsimp only
  split
  · exact .inl gone
  · split
    · exact .inl gone
    · exact .inl gone
    next listens => exact absurd (by simpa [World.setPcb, touch] using listens) connection
    · right
      unfold tcpCloseShutdownFin
      dsimp only
      split <;> try split
      all_goals simp [World.setPcb]

theorem bind_tidy (tidy : Tidy off [] w) (port : UInt16) :
    Tidy off [] (w.setPcb p { w.pcb p with localPort := port }) := by
  exact tidy.setPcb _ (TcpState.follows_self _) (fun some => tidy.begun_of_refused some) (tidy.pending p)
    (fun there idle => tidy.kept p there idle) (by simp)

theorem makeHolder_tidy (good : Good False False w) (tidy : Tidy off [] w)
    (old : ∀ h, off h → h < w.nextHolder) (there : p ∈ w.pool)
    (early : (w.pcb p).state = .closed) :
    Tidy off [] (w.makeHolder p { accepted := true }).2 := by
  rw [makeHolder_eq _ there]
  have first : Tidy off [p] (w.setPcb p
      { w.pcb p with callbackArg := .holder w.nextHolder, errf := true, recv := true }) := by
    refine tidy.setPcb _ (TcpState.follows_self _) ?_ (tidy.pending p) (by simp) (by simp)
    rw [show (w.pcb p).refusedData = none from tidy.refused p (by simp [begun, early])]
    simp
  have second := first.attach (h := w.nextHolder)
    { accepted := true, state := some { pcb := p, capacity := tcpWnd w.mtu } } rfl rfl good.linked.unborn
    (by simp [World.setPcb, early]) (by simp)
    fun listed => absurd (old _ listed) (lt_irrefl _)
  exact second.of_same rfl rfl fun _ => id

theorem connect_tidy {h capacity : Nat} (tidy : Tidy off [] w)
    (holder : w.holder h = { accepted := true, state := some { pcb := p, capacity } })
    (closed : (w.pcb p).state = .closed) (on : ¬ off h) :
    Tidy off [] ((w.setPcb p { w.pcb p with state := .synSent }).addConnection h) := by
  have sent : Tidy off [] (w.setPcb p { w.pcb p with state := .synSent }) := by
    refine tidy.setPcb _ (by rw [closed]; rfl) ?_ (by simp) ?_ (by simp)
    · rw [show (w.pcb p).refusedData = none from tidy.refused p (by simp [begun, closed])]
      simp
    · exact fun _ _ => .inl ⟨h, { pcb := p, capacity }, by simp [holder], rfl⟩
  have there : ((w.setPcb p { w.pcb p with state := .synSent }).holder h).state =
      some { pcb := p, capacity } := by simp [World.setPcb, holder]
  rw [addConnection_eq there]
  refine Tidy.of_same (w := World.setHolder _ h _) ?_ rfl rfl fun _ => id
  refine sent.setHolder h _ ?_ (fun listed => absurd listed on) ?_
  · simp [World.setPcb, holder]
  · simp [World.setPcb, holder]

theorem Tidy.opened {busy : List Nat} (tidy : Tidy off busy w) (good : Good False False w) {h : Nat}
    {state : ConnectionState} (there : (w.holder h).state = some state) :
    (w.pcb state.pcb).state ≠ .synRcvd ∧ (w.pcb state.pcb).state ≠ .listen :=
  ⟨fun syn => (good.linked.handshake _ syn).2 h (good.linked.owner h state there).2.2.2.1,
    tidy.apart h state there⟩

theorem closePending_tidy (good : Good False False w) (tidy : Tidy off [] w) {h : Nat}
    {state : ConnectionState} (there : (w.holder h).state = some state) (finOk : Bool) :
    Tidy off [] ((w.altcpClose state.pcb finOk).2.destroyState h) := by
  have opened := tidy.opened good there
  have closed := altcpClose_tidy good.pools tidy.work finOk opened.1 opened.2
  have ended : Tidy off [state.pcb] ((w.altcpClose state.pcb finOk).2.destroyState h) := by
    apply destroyState_tidy closed.work
    intro state' there'
    rw [(altcpClose_blocksOnly w state.pcb finOk).holder, there] at there'
    cases there'
    simp
  apply ended.done
  intro present
  rw [destroyState_pool] at present
  rcases altcpClose_closed good.pools finOk opened.2 with gone | rxClosed
  · exact absurd present gone
  · rcases destroyState_pcb (w.altcpClose state.pcb finOk).2 h state.pcb with ⟨arg, same⟩
    exact .inr (.inl (by rw [same]; exact rxClosed))

/-- Moves forget no block. -/
theorem Move.tidy (move : Move r w w') (good : Good r.safe r.clean w) (tidy : Tidy (fun _ => False) [] w) :
    Tidy (fun _ => False) [] w' := by
  have plain := good.plain
  have opened {h : Nat} {state : ConnectionState} (there : (w.holder h).state = some state) :=
    tidy.opened plain there
  cases move with
  | event e quiet => exact lwip_tidy plain tidy (fun _ => False.elim) e
  | use p valid => exact touch_tidy p tidy
  | client c x owned => exact tidy.of_same rfl rfl fun _ => id
  | server s x => exact tidy.of_same rfl rfl fun _ => id
  | takeRemaining c h n owned =>
      have noted (bytes : List Byte) : Tidy (fun _ => False) [] (w.emit (.consumed h bytes)) :=
        tidy.of_same rfl rfl fun _ => id
      unfold World.takeRemaining
      dsimp only
      split
      all_goals
        refine (noted _).setHolder h _ ?_ ?_ ?_
        · rfl
        · exact fun _ => rfl
        · exact tidy.connected h
  | takeBuffered c h n state there owned =>
      refine Tidy.setHolder (w := w.emit _) (tidy.of_same rfl rfl fun _ => id) h _ ?_ ?_
        (tidy.connected h)
      · simp [emit, there]
      · simp [emit, there]
  | alloc p room => exact tcpAlloc_tidy plain tidy (.inl rfl) rfl rfl room
  | bind p port unused => exact bind_tidy tidy port
  | make p there closed => exact makeHolder_tidy plain tidy (fun _ => False.elim) there (by rw [closed])
  | connect h p capacity last holder closed =>
      exact connect_tidy tidy (p := p) holder closed id
  | abort p valid told unused =>
      have touched : Changes False False w (w.touch p) := touch_changes p False.elim
      exact tcpAbandon_tidy (touched.good plain) (touch_tidy p tidy).work
  | close p finOk attached kept =>
      rcases attached with ⟨h, state, there, rfl⟩
      exact altcpClose_tidy good.pools tidy.work finOk (opened there).1 (opened there).2
  | closePending h state finOk there kept => exact closePending_tidy plain tidy there finOk
  | shutdown p finOk attached given =>
      rcases attached with ⟨h, state, there, rfl⟩
      exact altcpShutdownTx_tidy good.pools tidy finOk (opened there).1
  | listen p l unused room =>
      obtain ⟨-, rfl, rfl⟩ := tcpListen_some room
      refine tidy.fresh plain
        { state := .listen, localPort := (w.pcb p).localPort, callbackArg := .manager }
        rfl rfl ?_ rfl ?_
      · simp [altcpArg, touch, World.setPcb, tcpFree]
      · exact fun p' there => .inl (List.mem_of_mem_erase there)
  | stopListening l => exact tidy.of_same rfl rfl fun _ => id
  | closeListener l finOk there stopped =>
      have listens := (good.pools.listening l there).1
      have closed : (w.altcpClose l finOk).2 = (w.touch l).tcpListenClosed l := by
        simp [altcpClose, tcpCloseShutdown, touch, listens]
      rw [closed]
      exact tcpListenClosed_tidy (touch_tidy l tidy) l
  | accept h port given =>
      refine Tidy.of_same (w := w.setHolder h _) ?_ rfl rfl fun _ => id
      exact tidy.setHolder h { w.holder h with accepted := true } rfl (fun _ => rfl)
        (tidy.connected h)

theorem Moves.tidy (moves : Moves r w w') (good : Good r.safe r.clean w) (tidy : Tidy (fun _ => False) [] w) :
    Tidy (fun _ => False) [] w' := by
  induction moves with
  | refl => exact tidy
  | tail before move ih => exact move.tidy (Moves.good before good) ih

theorem start_tidy (mtu : Nat) : Tidy (fun _ => False) [] ({ mtu } : World) := by constructor <;> simp

end QNEthernet.Tcp
