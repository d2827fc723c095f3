import QNEthernet.Lib.Run
import QNEthernet.Tcp.Stream

/-! lwIP and its callbacks leave the clients and servers of the sketch alone, and read nothing for
them. -/

namespace QNEthernet.Tcp

open Lwip

/-- The servers, the list of listeners and the ports of all blocks stay. -/
structure Serves (w w' : World) : Prop where
  server : w'.server = w.server
  listeners : w'.listeners = w.listeners
  nextPcb : w.nextPcb ≤ w'.nextPcb
  localPort : ∀ p < w.nextPcb, (w'.pcb p).localPort = (w.pcb p).localPort

/-- What goes on beside the calls: new connections arrive. -/
structure Aside (w w' : World) : Prop where
  serves : Serves w w'
  client : w'.client = w.client
  consumed : ∀ h, consumedBytes h w'.trace = consumedBytes h w.trace
  trace : w.trace <+: w'.trace
  nextHolder : w.nextHolder ≤ w'.nextHolder
  arrived : ∀ h, w.nextHolder ≤ h → h < w'.nextHolder → ∃ port, .arrived h port ∈ w'.trace

variable {w w' w'' : World}

theorem Serves.refl (w : World) : Serves w w := ⟨rfl, rfl, le_refl _, fun _ _ => rfl⟩

theorem Serves.trans (first : Serves w w') (second : Serves w' w'') : Serves w w'' where
  server := second.server.trans first.server
  listeners := second.listeners.trans first.listeners
  nextPcb := first.nextPcb.trans second.nextPcb
  localPort := fun p old =>
    (second.localPort p (old.trans_le first.nextPcb)).trans (first.localPort p old)

theorem Aside.of_same (client : w'.client = w.client) (trace : w'.trace = w.trace)
    (nextHolder : w'.nextHolder = w.nextHolder)
    (serves : Serves w w') : Aside w w' :=
  ⟨serves, client, fun _ => by rw [trace], by rw [trace], nextHolder.ge, fun h late early => by omega⟩

theorem Aside.refl (w : World) : Aside w w :=
  Aside.of_same rfl rfl rfl ⟨rfl, rfl, le_refl _, fun _ _ => rfl⟩

theorem Aside.trans (first : Aside w w') (second : Aside w' w'') : Aside w w'' where
  serves := first.serves.trans second.serves
  client := second.client.trans first.client
  consumed := fun h => (second.consumed h).trans (first.consumed h)
  trace := first.trace.trans second.trace
  nextHolder := first.nextHolder.trans second.nextHolder
  arrived := fun h late early => by
    by_cases before : h < w'.nextHolder
    · rcases first.arrived h late before with ⟨port, member⟩
      exact ⟨port, second.trace.subset member⟩
    · exact second.arrived h (not_lt.mp before) early

theorem World.BlocksOnly.serves (blocks : w.BlocksOnly w') : Serves w w' :=
  ⟨blocks.served.1, blocks.served.2.1, blocks.served.2.2.ge, fun p _ => blocks.localPort p⟩

theorem World.BlocksOnly.aside (blocks : w.BlocksOnly w') : Aside w w' :=
  Aside.of_same blocks.client blocks.trace blocks.nextHolder blocks.serves

namespace World

theorem destroyState_serves (w : World) (h : Nat) : Serves w (w.destroyState h) := by
  have frame : (w.destroyState h).server = w.server ∧ (w.destroyState h).nextPcb = w.nextPcb := by
    unfold destroyState
    split
    · exact ⟨rfl, rfl⟩
    · dsimp only
      split <;> exact ⟨rfl, rfl⟩
  refine ⟨frame.1, destroyState_listeners w h, frame.2.ge, ?_⟩
  intro p _
  rcases destroyState_pcb w h p with ⟨arg, block⟩
  rw [block]

theorem destroyState_aside (w : World) (h : Nat) : Aside w (w.destroyState h) :=
  Aside.of_same (destroyState_client w h) (destroyState_trace w h) (destroyState_nextHolder w h)
    (destroyState_serves w h)

theorem setHolder_aside (w : World) (h : Nat) (x : ConnectionHolder) : Aside w (w.setHolder h x) :=
  Aside.of_same rfl rfl rfl ⟨rfl, rfl, le_refl _, fun _ _ => rfl⟩

theorem stored_aside (w : World) (h : Nat) (bytes : List Byte) : Aside w (w.emit (.stored h bytes)) :=
  ⟨⟨rfl, rfl, le_refl _, fun _ _ => rfl⟩, rfl,
    fun _ => by simp [consumedBytes, emit, Event.consumedBytes], List.prefix_append _ _, le_refl _,
    fun h late early => absurd early (not_lt.mpr late)⟩

theorem errFunc_aside (w : World) (arg : CallbackArg) (err : Err) : Aside w (w.errFunc arg err) := by
  unfold errFunc
  match arg with
  | .null => exact Aside.refl w
  | .manager => exact Aside.refl w
  | .holder h =>
      dsimp only
      split
      · split
        · exact (setHolder_aside w h _).trans (destroyState_aside _ h)
        · exact setHolder_aside w h _
      · exact setHolder_aside w h _

theorem keepRemaining_aside (w : World) (h : Nat) (p : Option Pbuf) (err : Err) :
    Aside w (w.keepRemaining h p err) := by
  unfold keepRemaining
  dsimp only
  split
  · exact setHolder_aside w h _
  · split
    · exact setHolder_aside w h _
    · exact (setHolder_aside w h _).trans (stored_aside _ h _)

theorem recvFunc_aside (w : World) (h tpcb : Nat) (p : Option Pbuf) (err : Err) (finOk : Bool) :
    Aside w (w.recvFunc h tpcb p err finOk).2 := by
  have closed : Aside w (w.recvClosed h tpcb p err finOk).2 := by
    rcases recvClosed_eq w h tpcb p err finOk with ⟨w', before, after⟩
    exact (keepRemaining_aside w h p err).trans
      (before.aside.trans ((destroyState_aside w' h).trans after.aside))
  unfold recvFunc
  cases p with
  | none => exact closed
  | some p =>
      dsimp only
      split
      · exact closed
      · split
        · exact Aside.of_same rfl rfl rfl ⟨rfl, rfl, le_refl _, fun _ _ => rfl⟩
        · split
          · exact setHolder_aside w h _
          · exact (setHolder_aside w h _).trans
              ((stored_aside _ h _).trans (touch_blocksOnly _ tpcb).aside)

theorem tcpEventErr_aside (w : World) (q : TcpPcb) (err : Err) : Aside w (w.tcpEventErr q err) := by
  unfold tcpEventErr
  split
  · exact errFunc_aside w _ err
  · exact Aside.refl w

theorem tcpAbandon_aside (w : World) (p : Nat) : Aside w (w.tcpAbandon p) := by
  have freed := (tcpFree_blocksOnly w p).aside
  unfold tcpAbandon
  dsimp only
  split
  · exact freed
  · exact freed.trans (tcpEventErr_aside _ _ _)

theorem altcpAbort_aside (w : World) (p : Nat) : Aside w (w.altcpAbort p) :=
  (touch_blocksOnly w p).aside.trans (tcpAbandon_aside _ p)

theorem recvEvent_aside (w : World) (p : Nat) (data : Option Pbuf) (finOk : Bool) :
    Aside w (w.recvEvent p data finOk).2 := by
  unfold recvEvent
  dsimp only
  split
  · split
    · exact recvFunc_aside w _ p data .ok finOk
    · exact Aside.of_same rfl rfl rfl ⟨rfl, rfl, le_refl _, fun _ _ => rfl⟩
    · exact Aside.of_same rfl rfl rfl ⟨rfl, rfl, le_refl _, fun _ _ => rfl⟩
  · exact Aside.refl w

theorem tcpProcessRefusedData_aside (w : World) (p : Nat) (finOk : Bool) :
    Aside w (w.tcpProcessRefusedData p finOk).2 := by
  rcases tcpProcessRefusedData_cases w p finOk with same | ⟨data, fin, _, w', offered, left⟩
  · rw [same]
    exact Aside.refl w
  · have aside := (setPcb_blocksOnly w p { w.pcb p with refusedData := none } (by rfl)).aside.trans
      (recvEvent_aside _ p (some data) finOk)
    rw [← offered] at aside
    rcases left with taken | ended | refused
    · rw [taken]
      exact aside
    · rw [ended]
      exact aside.trans (recvEvent_aside w' p none finOk)
    · rw [refused]
      exact aside.trans (setPcb_blocksOnly w' p _ (by rfl)).aside

theorem deliverData_aside (w : World) (p : Nat) (data : Option Pbuf) (finOk : Bool) :
    Aside w (w.deliverData p data finOk).2 := by
  rcases deliverData_cases w p finOk data with same | ⟨bytes, _, ⟨_, aborted⟩ | ⟨w', offered, left⟩⟩
  · rw [same]
    exact Aside.refl w
  · rw [aborted]
    exact tcpAbandon_aside w p
  · have aside := recvEvent_aside w p (some bytes) finOk
    rw [← offered] at aside
    rcases left with taken | refused
    · rw [taken]
      exact aside
    · rw [refused]
      exact aside.trans (setPcb_blocksOnly w' p _ (by rfl)).aside

theorem deliver_aside (w : World) (p : Nat) (seg : Segment) (finOk : Bool) :
    Aside w (w.deliver p seg finOk) := by
  have aside := deliverData_aside w p seg.data finOk
  obtain ⟨w', brought, left⟩ := deliver_cases w p finOk seg
  rw [← brought] at aside
  rcases left with data | fin
  · rw [data]
    exact aside
  · rw [fin, deliverFin]
    split
    · exact aside.trans (setPcb_blocksOnly w' p _ (by rfl)).aside
    · exact aside.trans (recvEvent_aside w' p none finOk)

theorem acceptFunc_aside (w : World) (p : Nat) (finOk : Bool) :
    Aside w (w.acceptFunc (some p) .ok finOk).2 := by
  have trace : (w.acceptFunc (some p) .ok finOk).2.trace =
      w.trace ++ [.arrived w.nextHolder (w.pcb p).localPort] := by
    simp [acceptFunc, makeHolder, addConnection, altcpArg, altcpErr, altcpRecv, touch, setHolder, setPcb,
      emit]
  have port (p' : Nat) :
      ((w.acceptFunc (some p) .ok finOk).2.pcb p').localPort = (w.pcb p').localPort := by
    simp only [acceptFunc, makeHolder, addConnection, altcpArg, altcpErr, altcpRecv, touch, setHolder,
      setPcb, emit, ne_eq, not_true_eq_false, if_false]
    by_cases same : p' = p
    · simp [same]
    · simp [Function.update_of_ne same]
  refine ⟨⟨rfl, rfl, le_refl _, fun p' _ => port p'⟩, rfl, ?_, ?_, Nat.le_succ _, ?_⟩
  · intro h
    simp [trace, consumedBytes, Event.consumedBytes]
  · rw [trace]
    exact List.prefix_append _ _
  · intro h late early
    have same : h = w.nextHolder := by
      have early : h < w.nextHolder + 1 := early
      omega
    exact ⟨_, by rw [trace, same]; exact List.mem_append_right _ List.mem_cons_self⟩

theorem tcpAccept_aside (w : World) (p : Nat) (seg : Segment) (finOk : Bool) :
    Aside w (w.tcpAccept p seg finOk) := by
  have entered := (enter_blocksOnly w p .established).aside
  unfold tcpAccept
  dsimp only
  split
  · exact entered.trans (tcpAbandon_aside _ p)
  · have added := entered.trans (acceptFunc_aside (w.enter p .established) p finOk)
    split
    next w' result =>
      rw [result] at added
      split
      · exact added.trans ((enter_blocksOnly w' p .closeWait).aside.trans (deliver_aside _ p seg finOk))
      · exact added.trans (deliver_aside _ p seg finOk)
    next w' result =>
      rw [result] at added
      exact added
    next w' _ _ result =>
      rw [result] at added
      exact added.trans (tcpAbandon_aside w' p)

theorem tcpProcess_aside (w : World) (p : Nat) (seg : Segment) (finOk : Bool) :
    Aside w (w.tcpProcess p seg finOk) := by
  have entered (next : TcpState) : Aside w ((w.enter p next).deliver p seg finOk) :=
    (enter_blocksOnly w p next).aside.trans (deliver_aside _ p seg finOk)
  unfold tcpProcess
  dsimp only
  split
  · exact (tcpEventErr_aside w _ .rst).trans (tcpFree_blocksOnly _ p).aside
  · split
    · split
      · apply (enter_blocksOnly w p .established).aside.trans
        unfold tcpConnected
        dsimp only
        split <;> exact Aside.of_same rfl rfl rfl ⟨rfl, rfl, le_refl _, fun _ _ => rfl⟩
      · exact Aside.refl w
    · split
      · exact tcpAccept_aside w p seg finOk
      · exact Aside.refl w
    · split
      · exact entered .closeWait
      · exact deliver_aside w p seg finOk
    · exact entered _
    · split
      · exact entered .timeWait
      · exact deliver_aside w p seg finOk
    · split
      · exact (enter_blocksOnly w p .timeWait).aside
      · exact Aside.refl w
    · split
      · unfold tcpClosed
        dsimp only
        split
        · exact (tcpFree_blocksOnly w p).aside
        · exact (tcpEventErr_aside w _ .clsd).trans (tcpFree_blocksOnly _ p).aside
      · exact Aside.refl w
    all_goals exact Aside.refl w

theorem tcpInput_aside (w : World) (p : Nat) (seg : Segment) (finOk : Bool) :
    Aside w (w.tcpInput p seg finOk) := by
  have aside := tcpProcessRefusedData_aside w p finOk
  obtain ⟨w', offered, left⟩ := tcpInput_cases w p finOk seg
  rw [← offered] at aside
  rcases left with dropped | ⟨processed, _⟩
  · rw [dropped]
    exact aside
  · rw [processed]
    exact aside.trans (tcpProcess_aside w' p seg finOk)

theorem lwip_aside (w : World) (event : LwipEvent) : Aside w (w.lwip event) := by
  cases event with
  | input p seg finOk =>
      simp only [lwip]
      split
      · exact tcpInput_aside w p seg finOk
      · exact Aside.refl w
  | fasttmr p finOk =>
      simp only [lwip]
      split
      · exact (tcpHandleClosepend_blocksOnly w p finOk).aside.trans
          (tcpProcessRefusedData_aside _ p finOk)
      · exact Aside.refl w
  | timeout p =>
      simp only [lwip]
      split
      · exact (tcpFree_blocksOnly w p).aside.trans (tcpEventErr_aside _ _ .abrt)
      · exact Aside.refl w
  | expire p =>
      simp only [lwip]
      split
      · exact (tcpFree_blocksOnly w p).aside
      · exact Aside.refl w
  | abandon p =>
      simp only [lwip]
      split
      · exact tcpAbandon_aside w p
      · exact Aside.refl w
  | closepend p finOk =>
      simp only [lwip]
      split
      · exact (tcpHandleClosepend_blocksOnly w p finOk).aside
      · exact Aside.refl w
  | kill p =>
      simp only [lwip]
      split
      · exact tcpAbandon_aside w p
      · exact Aside.refl w
  | syn l =>
      simp only [lwip]
      split
      · unfold tcpListenInput tcpAlloc
        dsimp only
        cases room : w.free with
        | nil => exact Aside.refl w
        | cons place free =>
            refine Aside.of_same rfl rfl rfl ⟨rfl, rfl, Nat.le_succ _, ?_⟩
            intro p old
            simp [newBlock, setPcb, Function.update_of_ne old.ne]
      · exact Aside.refl w

theorem loop_aside (w : World) (events : List LwipEvent) : Aside w (w.loop events) := by
  apply Run.foldl_preserves (fun w' => Aside w w') lwip _ events w (Aside.refl w)
  exact fun w' event aside => aside.trans (lwip_aside w' event)

end World
end QNEthernet.Tcp
