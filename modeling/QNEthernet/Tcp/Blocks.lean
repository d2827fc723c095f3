import QNEthernet.Tcp.Lwip

/-! What the functions of lwIP leave alone. Most of them work on the blocks only. -/

namespace QNEthernet.Tcp

open Lwip

/-- `w'` differs from `w` in lwIP's blocks only, and they keep their ports. -/
def World.BlocksOnly (w w' : World) : Prop :=
  ∃ pcb pool free listenPool misuse, (∀ p, (pcb p).localPort = (w.pcb p).localPort) ∧
    w' = { w with pcb := pcb, pool := pool, free := free, listenPool := listenPool, misuse := misuse }

namespace World

theorem BlocksOnly.refl (w : World) : w.BlocksOnly w :=
  ⟨w.pcb, w.pool, w.free, w.listenPool, w.misuse, fun _ => rfl, rfl⟩

theorem BlocksOnly.trans {w w' w'' : World} (first : w.BlocksOnly w') (second : w'.BlocksOnly w'') :
    w.BlocksOnly w'' := by
  rcases first with ⟨_, _, _, _, _, before, rfl⟩
  rcases second with ⟨pcb, pool, free, listenPool, misuse, after, rfl⟩
  exact ⟨pcb, pool, free, listenPool, misuse, fun p => (after p).trans (before p), rfl⟩

theorem BlocksOnly.holder {w w' : World} (blocks : w.BlocksOnly w') : w'.holder = w.holder := by
  rcases blocks with ⟨_, _, _, _, _, -, rfl⟩
  rfl

theorem BlocksOnly.nextHolder {w w' : World} (blocks : w.BlocksOnly w') :
    w'.nextHolder = w.nextHolder := by
  rcases blocks with ⟨_, _, _, _, _, -, rfl⟩
  rfl

theorem BlocksOnly.mtu {w w' : World} (blocks : w.BlocksOnly w') : w'.mtu = w.mtu := by
  rcases blocks with ⟨_, _, _, _, _, -, rfl⟩
  rfl

theorem BlocksOnly.trace {w w' : World} (blocks : w.BlocksOnly w') : w'.trace = w.trace := by
  rcases blocks with ⟨_, _, _, _, _, -, rfl⟩
  rfl

theorem BlocksOnly.client {w w' : World} (blocks : w.BlocksOnly w') : w'.client = w.client := by
  rcases blocks with ⟨_, _, _, _, _, -, rfl⟩
  rfl

theorem BlocksOnly.served {w w' : World} (blocks : w.BlocksOnly w') :
    w'.server = w.server ∧ w'.listeners = w.listeners ∧ w'.nextPcb = w.nextPcb := by
  rcases blocks with ⟨_, _, _, _, _, -, rfl⟩
  exact ⟨rfl, rfl, rfl⟩

theorem BlocksOnly.localPort {w w' : World} (blocks : w.BlocksOnly w') (p : Nat) :
    (w'.pcb p).localPort = (w.pcb p).localPort := by
  rcases blocks with ⟨_, _, _, _, _, ports, rfl⟩
  exact ports p

theorem touch_blocksOnly (w : World) (p : Nat) : w.BlocksOnly (w.touch p) :=
  ⟨w.pcb, w.pool, w.free, w.listenPool, _, fun _ => rfl, rfl⟩

theorem setPcb_blocksOnly (w : World) (p : Nat) (q : TcpPcb)
    (port : q.localPort = (w.pcb p).localPort) : w.BlocksOnly (w.setPcb p q) := by
  refine ⟨_, w.pool, w.free, w.listenPool, w.misuse, ?_, rfl⟩
  intro p'
  by_cases same : p' = p
  · rw [same, Function.update_self, port]
  · rw [Function.update_of_ne same]

theorem tcpFree_blocksOnly (w : World) (p : Nat) : w.BlocksOnly (w.tcpFree p) :=
  ⟨w.pcb, _, _, w.listenPool, w.misuse, fun _ => rfl, rfl⟩

theorem altcpArg_blocksOnly (w : World) (p : Nat) (arg : CallbackArg) :
    w.BlocksOnly (w.altcpArg p arg) :=
  (w.touch_blocksOnly p).trans (setPcb_blocksOnly _ p _ (by rfl))

theorem altcpErr_blocksOnly (w : World) (p : Nat) : w.BlocksOnly (w.altcpErr p) :=
  (w.touch_blocksOnly p).trans (setPcb_blocksOnly _ p _ (by rfl))

theorem altcpRecv_blocksOnly (w : World) (p : Nat) : w.BlocksOnly (w.altcpRecv p) :=
  (w.touch_blocksOnly p).trans (setPcb_blocksOnly _ p _ (by rfl))

theorem tcpListenClosed_blocksOnly (w : World) (p : Nat) : w.BlocksOnly (w.tcpListenClosed p) := by
  refine ⟨_, w.pool, w.free, _, w.misuse, ?_, rfl⟩
  intro p'
  dsimp only
  split <;> rfl

theorem tcpCloseShutdownFin_blocksOnly (w : World) (p : Nat) (finOk : Bool) :
    w.BlocksOnly (w.tcpCloseShutdownFin p finOk) := by
  unfold tcpCloseShutdownFin
  dsimp only
  split <;> try split
  all_goals first | exact setPcb_blocksOnly w p _ (by rfl) | exact BlocksOnly.refl w

theorem tcpCloseShutdown_blocksOnly (w : World) (p : Nat) (rst finOk : Bool) :
    w.BlocksOnly (w.tcpCloseShutdown p rst finOk) := by
  unfold tcpCloseShutdown
  dsimp only
  split
  · exact (w.setPcb_blocksOnly p _ (by rfl)).trans (tcpFree_blocksOnly _ p)
  · split
    · exact tcpFree_blocksOnly w p
    · exact tcpFree_blocksOnly w p
    · exact tcpListenClosed_blocksOnly w p
    · exact tcpCloseShutdownFin_blocksOnly w p finOk

theorem altcpClose_blocksOnly (w : World) (p : Nat) (finOk : Bool) :
    w.BlocksOnly (w.altcpClose p finOk).2 := by
  unfold altcpClose
  dsimp only
  apply (w.touch_blocksOnly p).trans
  split
  · exact (setPcb_blocksOnly _ p _ (by rfl)).trans (tcpCloseShutdown_blocksOnly _ p true finOk)
  · exact tcpCloseShutdown_blocksOnly _ p true finOk

@[simp] theorem altcpClose_fst (w : World) (p : Nat) (finOk : Bool) :
    (w.altcpClose p finOk).1 = .ok := rfl

/-- Closing never fails, so the callbacks never abort. -/
@[simp] theorem closeOrAbort_eq (w : World) (p : Nat) (finOk : Bool) :
    w.closeOrAbort p finOk = (.ok, (w.altcpClose p finOk).2) := rfl

theorem altcpShutdownTx_blocksOnly (w : World) (p : Nat) (finOk : Bool) :
    w.BlocksOnly (w.altcpShutdownTx p finOk) := by
  unfold altcpShutdownTx
  apply (w.touch_blocksOnly p).trans
  dsimp only
  split
  · exact tcpCloseShutdown_blocksOnly _ p false finOk
  · exact tcpCloseShutdown_blocksOnly _ p false finOk
  · exact tcpCloseShutdown_blocksOnly _ p false finOk
  · exact BlocksOnly.refl _

theorem enter_blocksOnly (w : World) (p : Nat) (next : TcpState) : w.BlocksOnly (w.enter p next) :=
  setPcb_blocksOnly w p _ (by rfl)

theorem tcpHandleClosepend_blocksOnly (w : World) (p : Nat) (finOk : Bool) :
    w.BlocksOnly (w.tcpHandleClosepend p finOk) := by
  unfold tcpHandleClosepend
  split
  · exact (setPcb_blocksOnly w p _ (by rfl)).trans (tcpCloseShutdownFin_blocksOnly _ p finOk)
  · exact BlocksOnly.refl w

@[simp] theorem destroyState_holder (w : World) (h : Nat) :
    (w.destroyState h).holder =
      Function.update w.holder h { w.holder h with state := none } := by
  unfold destroyState
  split
  next gone => rw [← gone, Function.update_eq_self]
  next state _ =>
    dsimp only
    split <;> exact (altcpArg_blocksOnly _ state.pcb .null).holder

theorem destroyState_mtu (w : World) (h : Nat) : (w.destroyState h).mtu = w.mtu := by
  unfold destroyState
  split
  · rfl
  · dsimp only
    split <;> rfl

theorem destroyState_frame (w : World) (h : Nat) :
    (w.destroyState h).trace = w.trace ∧ (w.destroyState h).nextHolder = w.nextHolder ∧
      (w.destroyState h).client = w.client ∧ (w.destroyState h).pool = w.pool ∧
      (w.destroyState h).listenPool = w.listenPool ∧ (w.destroyState h).listeners = w.listeners := by
  unfold destroyState
  split
  · exact ⟨rfl, rfl, rfl, rfl, rfl, rfl⟩
  · dsimp only
    split <;> exact ⟨rfl, rfl, rfl, rfl, rfl, rfl⟩

@[simp] theorem destroyState_trace (w : World) (h : Nat) : (w.destroyState h).trace = w.trace :=
  (w.destroyState_frame h).1

@[simp] theorem destroyState_nextHolder (w : World) (h : Nat) :
    (w.destroyState h).nextHolder = w.nextHolder :=
  (w.destroyState_frame h).2.1

@[simp] theorem destroyState_client (w : World) (h : Nat) :
    (w.destroyState h).client = w.client :=
  (w.destroyState_frame h).2.2.1

@[simp] theorem destroyState_pool (w : World) (h : Nat) : (w.destroyState h).pool = w.pool :=
  (w.destroyState_frame h).2.2.2.1

@[simp] theorem destroyState_listenPool (w : World) (h : Nat) :
    (w.destroyState h).listenPool = w.listenPool :=
  (w.destroyState_frame h).2.2.2.2.1

@[simp] theorem destroyState_listeners (w : World) (h : Nat) :
    (w.destroyState h).listeners = w.listeners :=
  (w.destroyState_frame h).2.2.2.2.2

theorem destroyState_pcb (w : World) (h p : Nat) :
    ∃ arg, (w.destroyState h).pcb p = { w.pcb p with callbackArg := arg } := by
  cases there : (w.holder h).state with
  | none => exact ⟨(w.pcb p).callbackArg, by simp [destroyState, there]⟩
  | some state =>
      have pcb : (w.destroyState h).pcb =
          Function.update w.pcb state.pcb { w.pcb state.pcb with callbackArg := .null } := by
        simp only [destroyState, there]
        split <;> rfl
      by_cases same : p = state.pcb
      · subst same
        exact ⟨.null, by rw [pcb, Function.update_self]⟩
      · exact ⟨(w.pcb p).callbackArg, by rw [pcb, Function.update_of_ne same]⟩

theorem recvClosed_eq (w : World) (h tpcb : Nat) (p : Option Pbuf) (err : Err) (finOk : Bool) :
    ∃ w', (w.keepRemaining h p err).BlocksOnly w' ∧
      (w'.destroyState h).BlocksOnly (w.recvClosed h tpcb p err finOk).2 := by
  unfold recvClosed
  extract_lets w₁ w₂ w₃
  refine ⟨w₂, ?_, ?_⟩
  · unfold w₂
    split
    · exact touch_blocksOnly w₁ tpcb
    · exact BlocksOnly.refl w₁
  · split
    · exact altcpClose_blocksOnly w₃ tpcb finOk
    · exact BlocksOnly.refl w₃

end World
end QNEthernet.Tcp
