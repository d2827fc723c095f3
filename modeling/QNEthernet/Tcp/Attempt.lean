import QNEthernet.Tcp.Connections
import QNEthernet.Tcp.During

/-! The parts of `connect`: closing the old connection, and the attempt of the manager. -/

namespace QNEthernet.Tcp

open Lwip World

variable {w s : World} {own : Option Nat} {p : Nat}

def Exactly (request : Request) (s : World) (err : Err) (s' : World) : Prop :=
  ∃ turn, s.answer request turn = (err, s')

/-- The block that the manager gets for an attempt. -/
def ConnectionManager.attemptPcb (ipaddr : Option UInt32) (w : World) (turns : List Turn) : Option Nat :=
  ipaddr.bind fun _ => ((w.answer .alloc turns.headI).2.tcpAlloc {}).map (·.1)

namespace EthernetClient

theorem closeState_during (during : During own w s) (c h : Nat) :
    (closeState c h false [] s).Keeps (fun _ _ => True) Exactly fun _ s' => During own w s' := by
  unfold closeState
  split
  · exact during.dropConn c
  next state there =>
    refine ⟨trivial, ?_⟩
    intro err s' given
    obtain ⟨turn, answered⟩ := given
    cases (congrArg Prod.fst answered).symm.trans (altcpClose_fst s state.pcb turn.finOk)
    cases (congrArg Prod.snd answered).symm
    exact (during.close there turn.finOk).dropConn c

theorem close_during (during : During own w s) (c : Nat) :
    (close c false [] s).Keeps (fun _ _ => True) Exactly fun _ s' => During own w s' := by
  unfold close
  split
  · exact during
  next h _ =>
    split
    · exact during.dropConn c
    next state there =>
      split
      · split
        · refine ⟨trivial, ?_⟩
          intro err s' given
          obtain ⟨turn, answered⟩ := given
          cases (congrArg Prod.snd answered).symm
          exact closeState_during ((during.touch state.pcb).loop turn.events) c h
        · exact during.dropConn c
      · split
        · refine ⟨trivial, ?_⟩
          intro err s' given
          obtain ⟨turn, answered⟩ := given
          cases (congrArg Prod.fst answered).symm.trans (altcpClose_fst s state.pcb turn.finOk)
          cases (congrArg Prod.snd answered).symm
          exact (during.closePending there turn.finOk).dropConn c
        · exact closeState_during during c h

end EthernetClient

/-- What the manager's `connect` has made of the attempt. A failed one has left nothing. -/
def Tried (attempt own : Option Nat) : Option Nat → World → Prop
  | none, s => (∀ h ∈ own, (s.holder h).state = none) ∧ ∀ p ∈ attempt, p ∉ s.pool ∧ ¬ s.Attached p
  | some h, s => own = some h ∧ ∃ p, attempt = some p ∧ p < s.nextPcb ∧
      (∃ state, (s.holder h).state = some state ∧ state.pcb = p) ∧ h ∈ s.connections ∧
      (s.pcb p).state = .synSent

theorem altcpAbort_gone (good : Good False False w) (open_ : (w.pcb p).state ≠ .timeWait) :
    p ∉ (w.altcpAbort p).pool ∧ ¬ (w.altcpAbort p).Attached p := by
  have touched : Good False False (w.touch p) := (touch_changes p False.elim).good good
  constructor
  · rw [altcpAbort_pool]
    exact good.pools.poolNodup.not_mem_erase
  · have abandoned : (w.altcpAbort p) = ((w.touch p).tcpFree p).tcpEventErr ((w.touch p).pcb p) .abrt := by
      unfold World.altcpAbort tcpAbandon
      exact if_neg open_
    rcases tcpEventErr_tcpFree (w.touch p) p .abrt with ⟨misuse, swapped⟩
    rw [abandoned, swapped]
    have failed : Err.abrt ≠ .ok := by simp
    exact tcpEventErr_unattached touched failed

theorem abort_tried (during : During own w s) (below : p < s.nextPcb) (early : (s.pcb p).state = .closed)
    (mine : ∀ h ∈ own, ∃ state, (s.holder h).state = some state ∧ state.pcb = p)
    (events : List LwipEvent) :
    During own w ((s.altcpAbort p).loop events) ∧
      Tried (some p) own none ((s.altcpAbort p).loop events) := by
  have aborted := during.abort p
  have gone := altcpAbort_gone during.ordered.good (p := p) (by simp [early])
  have abort : Moves .between s (s.altcpAbort p) :=
    (Move.abort p False.elim False.elim False.elim).moves
  have later := abort.later during.ordered.good
  have loop := loop_between (s.altcpAbort p) events
  have below' : p < (s.altcpAbort p).nextPcb := below.trans_le later.nextPcb
  refine ⟨aborted.loop events, ?_, ?_⟩
  · intro h own
    rcases mine h own with ⟨state, there, block⟩
    have born := (during.ordered.good.linked.owner h state there).2.2.1
    apply loop.gone aborted.ordered.good (born.trans_le later.nextHolder)
    by_contra present
    rcases Option.ne_none_iff_exists'.mp present with ⟨state', there'⟩
    rcases later.state h born state' there' with ⟨old, there'', same⟩
    rw [there] at there''
    cases there''
    exact gone.2 ⟨h, state', there', same.symm.trans block⟩
  · intro p' found
    cases found
    refine ⟨fun there => gone.1 ((loop.later aborted.ordered.good).pool p below' there), ?_⟩
    intro given
    obtain ⟨h, state, there, block⟩ := given
    have opened : ((s.altcpAbort p).pcb p).state ≠ .synRcvd := by
      intro syn
      have before := later.handshake p below syn
      rw [early] at before
      cases before
    rcases aborted.ordered.attached loop (loop_aside _ events) below' opened there block
      with ⟨old, there', block'⟩
    exact gone.2 ⟨h, old, there', block'⟩

theorem During.alloc {s' : World} (during : During none w s) (room : s.tcpAlloc {} = some (p, s')) :
    During none w s' ∧ p ∈ s'.pool ∧ p < s'.nextPcb ∧ s'.pcb p = {} := by
  have tidy := tcpAlloc_tidy during.ordered.good during.tidy (.inl rfl) rfl rfl room
  have block : s'.nextHolder = s.nextHolder ∧ p ∈ s'.pool ∧ p < s'.nextPcb ∧ s'.pcb p = {} := by
    obtain ⟨place, free, space, rfl, rfl⟩ := tcpAlloc_some room
    simp [setPcb, newBlock]
  refine ⟨during.next (Move.alloc p room).moves tidy (by simp) ?_, block.2⟩
  exact fun h late early => absurd early (not_lt.mpr (block.1 ▸ late))

theorem During.bind (during : During none w s) (fresh : s.pcb p = {}) (port : UInt16) :
    During none w (s.setPcb p { s.pcb p with localPort := port }) := by
  refine during.next (Move.bind p port (by simp [fresh])).moves (bind_tidy during.tidy port) (by simp) ?_
  exact fun h late early => absurd early (not_lt.mpr late)

theorem During.makeHolder (during : During none w s) (there : p ∈ s.pool)
    (fresh : s.pcb p = { localPort := (s.pcb p).localPort }) :
    During (some s.nextHolder) w (s.makeHolder p { accepted := true }).2 := by
  refine during.next (Move.make p there fresh).moves
    (makeHolder_tidy during.ordered.good during.tidy during.old there (by rw [fresh])) (by simp) ?_
  intro h late early
  rw [makeHolder_eq _ there] at early
  exact .inr (congrArg some (le_antisymm late (Nat.lt_succ_iff.mp early)))

theorem connect_made {h capacity : Nat} (during : During (some h) w s) (new : w.nextHolder ≤ h)
    (last : h + 1 = s.nextHolder) (below : p < s.nextPcb)
    (holder : s.holder h = { accepted := true, state := some { pcb := p, capacity } })
    (early : (s.pcb p).state = .closed) :
    During (some h) w ((s.setPcb p { s.pcb p with state := .synSent }).addConnection h) ∧
      Tried (some p) (some h) (some h)
        ((s.setPcb p { s.pcb p with state := .synSent }).addConnection h) := by
  have there : ((s.setPcb p { s.pcb p with state := .synSent }).holder h).state =
      some { pcb := p, capacity } := by simp [setPcb, holder]
  constructor
  · refine during.next (Move.connect h p capacity last holder early).moves
      (connect_tidy during.tidy holder early fun off => absurd off.1 (not_lt.mpr new)) (fun _ => id) ?_
    exact fun h' late soon => absurd soon (not_lt.mpr late)
  · refine ⟨rfl, p, rfl, below, ?_⟩
    rw [addConnection_eq there]
    simp [setPcb]

theorem ConnectionManager.connect_tried (during : During none w s) (ipaddr : Option UInt32)
    (attempt : Attempt) (turns : List Turn) :
    ∃ own, During own w ((connect ipaddr attempt s).run answer turns).2 ∧
      Tried (attemptPcb ipaddr s turns) own ((connect ipaddr attempt s).run answer turns).1
        ((connect ipaddr attempt s).run answer turns).2 := by
  cases ipaddr with
  | none => exact ⟨none, during.loop _, by simp [Tried, attemptPcb, connect, Ethernet.loop, Call.run]⟩
  | some ipaddr =>
      have during₁ := during.loop (turns.headI.events.filter LwipEvent.inAlloc)
      simp only [connect, createAltcpPcb, attemptPcb, Call.run, Option.bind_some, World.answer]
      cases room : (s.loop (turns.headI.events.filter LwipEvent.inAlloc)).tcpAlloc {} with
      | none => exact ⟨none, during₁.loop _, by simp [Tried, Ethernet.loop, Call.run]⟩
      | some result =>
          rcases result with ⟨p, s₂⟩
          rcases during₁.alloc room with ⟨during₂, there, below, fresh⟩
          dsimp only
          split
          · refine ⟨none, ?_⟩
            exact abort_tried (during₂.touch p) below (by simp [touch, fresh]) (by simp) _
          · have during₃ := (during₂.touch p).bind fresh attempt.localPort
            have bound : ((s₂.touch p).setPcb p { (s₂.touch p).pcb p with
                localPort := attempt.localPort }).pcb p = { localPort := attempt.localPort } := by
              simp [setPcb, touch, fresh]
            have there₃ : p ∈ ((s₂.touch p).setPcb p { (s₂.touch p).pcb p with
                localPort := attempt.localPort }).pool := there
            generalize (s₂.touch p).setPcb p { (s₂.touch p).pcb p with
              localPort := attempt.localPort } = s₃ at during₃ bound there₃ ⊢
            have during₄ := (during₃.makeHolder there₃ (by rw [bound])).touch p
            have below₃ := during₃.ordered.good.pools.poolBelow p there₃
            have made : let s₄ := (s₃.makeHolder p { accepted := true }).2.touch p
                s₃.nextHolder + 1 = s₄.nextHolder ∧ p < s₄.nextPcb ∧
                s₄.holder s₃.nextHolder = { accepted := true, state := some { pcb := p, capacity := tcpWnd s₃.mtu } } ∧
                (s₄.pcb p).state = .closed := by
              rw [makeHolder_eq _ there₃]
              simp [touch, bound, below₃]
            rcases made with ⟨last, below₄, holder, early⟩
            refine ⟨some s₃.nextHolder, ?_⟩
            split
            · refine abort_tried during₄ below₄ early ?_ _
              intro h found
              cases found
              exact ⟨{ pcb := p, capacity := tcpWnd s₃.mtu }, by rw [holder], rfl⟩
            · exact connect_made during₄ during₃.nextHolder last below₄ holder early

end QNEthernet.Tcp
