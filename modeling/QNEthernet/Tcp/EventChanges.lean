import QNEthernet.Lib.Run
import QNEthernet.Tcp.LwipChanges

/-! The segments, timers and other events of lwIP, taken apart into changes. -/

namespace QNEthernet.Tcp

open Lwip World

variable {safe clean : Prop} {w w' : World}

theorem refusedData_changes (p : Nat) (refused : Option (Pbuf × Bool)) :
    Changes safe clean w (w.setPcb p { w.pcb p with refusedData := refused }) :=
  setPcb_changes p _ rfl rfl rfl rfl (by simp) fun _ => rfl

theorem tcpProcessRefusedData_changes (strict : clean → safe) (good : Good safe clean w) (p : Nat)
    (finOk : Bool) : Changes safe clean w (w.tcpProcessRefusedData p finOk).2 := by
  rcases tcpProcessRefusedData_cases w p finOk with same | ⟨data, fin, _, w', offered, left⟩
  · rw [same]
    exact Changes.refl w
  · have first : Changes safe clean w (w.setPcb p { w.pcb p with refusedData := none }) :=
      refusedData_changes p none
    have changes := first.trans (recvEvent_changes strict (first.good good) p (some data) finOk)
    rw [← offered] at changes
    rcases left with taken | ended | refused
    · rw [taken]
      exact changes
    · rw [ended]
      exact changes.trans (recvEvent_changes strict (changes.good good) p none finOk)
    · rw [refused]
      exact changes.trans (refusedData_changes p (some (data, fin)))

theorem deliverData_changes (strict : clean → safe) (good : Good safe clean w) (p : Nat)
    (data : Option Pbuf) (finOk : Bool)
    (told : safe → data.isSome → (w.pcb p).rxClosed → (w.pcb p).state = .timeWait → ¬ w.Attached p)
    (unused : clean → data.isSome → (w.pcb p).rxClosed → ¬ w.Attached p) :
    Changes safe clean w (w.deliverData p data finOk).2 := by
  rcases deliverData_cases w p finOk data with same | ⟨bytes, rfl, ⟨closed, aborted⟩ | ⟨w', offered, left⟩⟩
  · rw [same]
    exact Changes.refl w
  · rw [aborted]
    exact tcpAbandon_changes strict good p (fun secure => told secure rfl closed)
      fun proper => unused proper rfl closed
  · have changes := recvEvent_changes strict good p (some bytes) finOk
    rw [← offered] at changes
    rcases left with taken | refused
    · rw [taken]
      exact changes
    · rw [refused]
      exact changes.trans (refusedData_changes p (some (bytes, false)))

theorem deliverFin_changes (strict : clean → safe) (good : Good safe clean w) (p : Nat)
    (finOk : Bool) : Changes safe clean w (w.deliverFin p finOk) := by
  unfold deliverFin
  split
  · exact refusedData_changes p _
  · exact recvEvent_changes strict good p none finOk

theorem deliver_changes (strict : clean → safe) (good : Good safe clean w) (p : Nat) (seg : Segment)
    (finOk : Bool)
    (told : safe → seg.data.isSome → (w.pcb p).rxClosed → (w.pcb p).state = .timeWait →
      ¬ w.Attached p)
    (unused : clean → seg.data.isSome → (w.pcb p).rxClosed → ¬ w.Attached p) :
    Changes safe clean w (w.deliver p seg finOk) := by
  have changes := deliverData_changes strict good p seg.data finOk told unused
  obtain ⟨w', brought, left⟩ := deliver_cases w p finOk seg
  rw [← brought] at changes
  rcases left with data | fin
  · rw [data]
    exact changes
  · rw [fin]
    exact changes.trans (deliverFin_changes strict (changes.good good) p finOk)

theorem enter_changes (p : Nat) (next : TcpState) (follows : next.follows (w.pcb p).state) :
    Changes safe clean w (w.enter p next) :=
  setPcb_changes p _ rfl rfl rfl rfl follows fun _ => rfl

theorem tcpAccept_changes (strict : clean → safe) (good : Good safe clean w) {p : Nat}
    (there : p ∈ w.pool) (handshake : (w.pcb p).state = .synRcvd) (seg : Segment) (finOk : Bool) :
    Changes safe clean w (w.tcpAccept p seg finOk) := by
  rcases good.linked.handshake p handshake with ⟨rxOpen, free⟩
  have unattached : ¬ w.Attached p := by
    intro given
    obtain ⟨h, state, present, block⟩ := given
    exact good.linked.unattached free present block
  unfold tcpAccept
  dsimp only
  split
  · have entered : Changes safe clean w (w.enter p .established) :=
      enter_changes p .established (by rw [handshake]; rfl)
    apply entered.trans
    exact tcpAbandon_changes strict (entered.good good) p (fun _ _ => unattached) fun _ => unattached
  · have accepted : Changes safe clean w ((w.enter p .established).acceptFunc (some p) .ok finOk).2 :=
      (Change.arrive p finOk there handshake).changes
    have block : (((w.enter p .established).acceptFunc (some p) .ok finOk).2.pcb p).rxClosed = false ∧
        (((w.enter p .established).acceptFunc (some p) .ok finOk).2.pcb p).state = .established := by
      rw [arrive_eq finOk there]
      simp [rxOpen]
    split
    next w' result =>
      rw [result] at accepted block
      dsimp only at block
      have entered : Changes safe clean w' (if seg.fin then w'.enter p .closeWait else w') := by
        split
        · exact enter_changes p .closeWait (by rw [block.2]; rfl)
        · exact Changes.refl w'
      have closed : ((if seg.fin then w'.enter p .closeWait else w').pcb p).rxClosed = false := by
        split
        · simp [enter, setPcb, block.1]
        · exact block.1
      apply (accepted.trans entered).trans
      apply deliver_changes strict (entered.good (accepted.good good)) p seg finOk
      · intro _ _ rxClosed
        rw [closed] at rxClosed
        exact absurd rxClosed (by simp)
      · intro _ _ rxClosed
        rw [closed] at rxClosed
        exact absurd rxClosed (by simp)
    next w' result => cases (acceptFunc_ok _ _ _).symm.trans (congrArg Prod.fst result)
    next w' _ other _ result =>
      exact absurd ((congrArg Prod.fst result).symm.trans (acceptFunc_ok _ _ _)) other

theorem tcpConnected_changes (p : Nat) (finOk : Bool) (syn : (w.pcb p).state = .synSent) :
    Changes safe clean w (w.tcpConnected p finOk) := by
  unfold tcpConnected
  dsimp only
  apply (enter_changes p .established (by rw [syn]; rfl)).trans
  split
  next h _ =>
    simp only [connectedFunc, ne_eq, not_true_eq_false, if_false]
    exact setHolder_changes h _ rfl rfl rfl
  · exact Changes.nullArg_flag _
  · exact Changes.nullArg_flag _

theorem tcpClosed_changes (strict : clean → safe) (good : Good safe clean w) (p : Nat)
    (told : safe → (w.pcb p).rxClosed → ¬ w.Attached p) :
    Changes safe clean w (w.tcpClosed p) := by
  unfold tcpClosed
  dsimp only
  split
  next closed => exact (Change.free p fun secure => told secure closed).changes
  next => exact tcpEventErr_tcpFree_changes strict good p (by simp)

namespace World

/-- The segment makes lwIP release the block without a call of the error callback: data with the last
FIN for a connection that was closed, or the acknowledgement of a FIN. -/
def endsSilently (w : World) (p : Nat) (seg : Segment) : Bool :=
  (w.pcb p).rxClosed && !seg.rst &&
    match (w.pcb p).state with
    | .finWait1 => seg.data.isSome && seg.fin && seg.acksFin && (w.pcb p).refusedData.isNone
    | .finWait2 => seg.data.isSome && seg.fin && (w.pcb p).refusedData.isNone
    | .lastAck => seg.acksFin
    | _ => false

/-- The segment brings data for a connection that was closed, which lwIP aborts. -/
def abortsOnData (w : World) (p : Nat) (seg : Segment) : Bool :=
  (w.pcb p).rxClosed && !seg.rst && seg.data.isSome && (w.pcb p).refusedData.isNone &&
    match (w.pcb p).state with
    | .established | .finWait1 | .finWait2 => true
    | _ => false

end World

theorem tcpProcess_changes (strict : clean → safe) (good : Good safe clean w) (p : Nat)
    (seg : Segment) (finOk : Bool) (there : (w.pcb p).state = .synRcvd → p ∈ w.pool)
    (free : seg.data.isSome → (w.pcb p).refusedData.isNone)
    (told : safe → w.endsSilently p seg → ¬ w.Attached p)
    (unused : clean → w.abortsOnData p seg → ¬ w.Attached p) :
    Changes safe clean w (w.tcpProcess p seg finOk) := by
  -- a closed connection that data arrives for is aborted, in TIME-WAIT without a call
  have delivered (w₁ : World) (entered : Changes safe clean w w₁)
      (rxClosed : (w₁.pcb p).rxClosed = (w.pcb p).rxClosed) (same : w₁.holder = w.holder)
      (silent : seg.data.isSome → (w.pcb p).rxClosed → (w₁.pcb p).state = .timeWait →
        w.endsSilently p seg)
      (loud : seg.data.isSome → (w.pcb p).rxClosed → w.abortsOnData p seg) :
      Changes safe clean w (w₁.deliver p seg finOk) := by
    have attached : w₁.Attached p ↔ w.Attached p := by simp only [Attached, same]
    apply entered.trans
    apply deliver_changes strict (entered.good good) p seg finOk
    · intro secure data closed waiting
      rw [rxClosed] at closed
      rw [attached]
      exact told secure (silent data closed waiting)
    · intro proper data closed
      rw [rxClosed] at closed
      rw [attached]
      exact unused proper (loud data closed)
  unfold tcpProcess
  dsimp only
  split
  · exact tcpEventErr_tcpFree_changes strict good p (by simp)
  next rst =>
    split
    next syn =>
      split
      · exact tcpConnected_changes p finOk syn
      · exact Changes.refl w
    next syn =>
      split
      · exact tcpAccept_changes strict good (there syn) syn seg finOk
      · exact Changes.refl w
    next established =>
      apply delivered
      · split
        · exact enter_changes p .closeWait (by rw [established]; rfl)
        · exact Changes.refl w
      · split <;> simp [enter, setPcb]
      · split <;> rfl
      · intro _ _
        split <;> simp [enter, setPcb, established]
      · intro data closed
        simp [abortsOnData, established, data, closed, free data, rst]
    next waiting =>
      apply delivered
      · apply enter_changes
        rw [waiting]
        split <;> split <;> decide
      · simp [enter, setPcb]
      · rfl
      · intro data closed last
        have both : seg.fin = true ∧ seg.acksFin = true := by
          by_cases fin : seg.fin <;> by_cases acks : seg.acksFin <;>
            simp [enter, setPcb, fin, acks] at last ⊢
        simp [endsSilently, waiting, data, closed, free data, rst, both]
      · intro data closed
        simp [abortsOnData, waiting, data, closed, free data, rst]
    next waiting =>
      apply delivered
      · split
        · exact enter_changes p .timeWait (by rw [waiting]; rfl)
        · exact Changes.refl w
      · split <;> simp [enter, setPcb]
      · split <;> rfl
      · intro data closed last
        have fin : seg.fin = true := by
          by_contra none
          simp [none, waiting] at last
        simp [endsSilently, waiting, data, closed, free data, rst, fin]
      · intro data closed
        simp [abortsOnData, waiting, data, closed, free data, rst]
    next closing =>
      split
      · exact enter_changes p .timeWait (by rw [closing]; rfl)
      · exact Changes.refl w
    next last =>
      split
      next acks =>
        apply tcpClosed_changes strict good p
        intro secure closed
        exact told secure (by simp [endsSilently, last, closed, rst, acks])
      · exact Changes.refl w
    all_goals exact Changes.refl w

theorem recvEvent_pool (p : Nat) (data : Option Pbuf) (finOk : Bool)
    (free : ∀ h, (w.pcb p).callbackArg ≠ .holder h) :
    (w.recvEvent p data finOk).2.pool = w.pool ∧ (w.recvEvent p data finOk).2.pcb = w.pcb := by
  unfold recvEvent
  dsimp only
  split
  · match arg : (w.pcb p).callbackArg with
    | .null => exact ⟨rfl, rfl⟩
    | .manager => exact ⟨rfl, rfl⟩
    | .holder h => exact absurd arg (free h)
  · exact ⟨rfl, rfl⟩

theorem tcpProcessRefusedData_pool (p : Nat) (finOk : Bool)
    (free : ∀ h, (w.pcb p).callbackArg ≠ .holder h) :
    (w.tcpProcessRefusedData p finOk).2.pool = w.pool := by
  rcases tcpProcessRefusedData_cases w p finOk with same | ⟨data, fin, _, w', offered, left⟩
  · rw [same]
  · have free' : ∀ h, ((w.setPcb p { w.pcb p with refusedData := none }).pcb p).callbackArg ≠
        .holder h := by simpa [setPcb] using free
    have pool := recvEvent_pool p (some data) finOk free'
    rw [← offered] at pool
    rcases left with taken | ended | refused
    · rw [taken]
      exact pool.1
    · rw [ended]
      refine (recvEvent_pool p none finOk ?_).1.trans pool.1
      rw [pool.2]
      exact free'
    · rw [refused]
      exact pool.1

theorem tcpProcessRefusedData_present (good : Good safe clean w) {p : Nat} (there : p ∈ w.pool)
    {finOk : Bool} (changes : Changes safe clean w (w.tcpProcessRefusedData p finOk).2)
    (syn : ((w.tcpProcessRefusedData p finOk).2.pcb p).state = .synRcvd) :
    p ∈ (w.tcpProcessRefusedData p finOk).2.pool := by
  have before := changes.later.handshake p (good.pools.poolBelow p there) syn
  rw [tcpProcessRefusedData_pool p finOk (good.linked.handshake p before).2]
  exact there

theorem tcpInput_changes (strict : clean → safe) (good : Good safe clean w) {p : Nat}
    (there : p ∈ w.pool) (seg : Segment) (finOk : Bool)
    (told : safe → (w.tcpProcessRefusedData p finOk).2.endsSilently p seg →
      ¬ (w.tcpProcessRefusedData p finOk).2.Attached p)
    (unused : clean → (w.tcpProcessRefusedData p finOk).2.abortsOnData p seg →
      ¬ (w.tcpProcessRefusedData p finOk).2.Attached p) :
    Changes safe clean w (w.tcpInput p seg finOk) := by
  have changes := tcpProcessRefusedData_changes strict good p finOk
  have present := tcpProcessRefusedData_present good there changes
  obtain ⟨w', offered, left⟩ := tcpInput_cases w p finOk seg
  rw [← offered] at changes present told unused
  rcases left with dropped | ⟨processed, untaken⟩
  · rw [dropped]
    exact changes
  · rw [processed]
    apply changes.trans
    apply tcpProcess_changes strict (changes.good good) p seg finOk present _ told unused
    intro data
    rw [untaken data]
    rfl

theorem tcpHandleClosepend_changes (p : Nat) (finOk : Bool) :
    Changes safe clean w (w.tcpHandleClosepend p finOk) := by
  unfold tcpHandleClosepend
  split
  · refine Changes.trans ?_ (tcpCloseShutdownFin_changes p finOk)
    exact setPcb_changes p _ rfl rfl rfl rfl (TcpState.follows_self _) fun _ => rfl
  · exact Changes.refl w

theorem tcpListenInput_changes (good : Good safe clean w) {l : Nat} (there : l ∈ w.listenPool) :
    Changes safe clean w (w.tcpListenInput l) := by
  have free : ∀ h, (w.pcb l).callbackArg ≠ .holder h := by
    intro h arg
    rcases good.linked.arg l h arg with ⟨state, present, rfl⟩
    exact (good.linked.owner h state present).2.1 there
  unfold tcpListenInput tcpAlloc
  dsimp only
  cases room : w.free with
  | nil => exact Changes.refl w
  | cons place left =>
      apply Change.changes
      exact Change.alloc { state := .synRcvd, localPort := (w.pcb l).localPort,
                           callbackArg := (w.pcb l).callbackArg, listener := some l } place left room free rfl

namespace World

/-- The event releases a block that a state refers to, without a call of the error callback. -/
def losesBlock (w : World) : LwipEvent → Prop
  | .input p seg finOk =>
      let w' := (w.tcpProcessRefusedData p finOk).2
      w'.endsSilently p seg ∧ w'.Attached p
  | .expire p => (w.pcb p).state = .timeWait ∧ w.Attached p
  | .kill p => (w.pcb p).state = .timeWait ∧ w.Attached p
  | _ => False

/-- The event releases a block that a state refers to, before the state is told. -/
def releasesBlock (w : World) : LwipEvent → Prop
  | .input p seg finOk =>
      let w' := (w.tcpProcessRefusedData p finOk).2
      (w'.endsSilently p seg ∨ w'.abortsOnData p seg) ∧ w'.Attached p
  | .timeout p | .abandon p => (w.pcb p).state.active ∧ w.Attached p
  | .expire p => (w.pcb p).state = .timeWait ∧ w.Attached p
  | .kill p => (w.pcb p).state.expendable ∧ w.Attached p
  | _ => False

end World

theorem lwip_changes (strict : clean → safe) (good : Good safe clean w) (event : LwipEvent)
    (told : safe → ¬ w.losesBlock event) (unused : clean → ¬ w.releasesBlock event) :
    Changes safe clean w (w.lwip event) := by
  cases event with
  | input p seg finOk =>
      simp only [lwip]
      split
      next enabled =>
        apply tcpInput_changes strict good enabled.1 seg finOk
        · exact fun secure silent attached => told secure ⟨silent, attached⟩
        · exact fun proper loud attached => unused proper ⟨.inr loud, attached⟩
      · exact Changes.refl w
  | fasttmr p finOk =>
      simp only [lwip]
      split
      · have first : Changes safe clean w (w.tcpHandleClosepend p finOk) :=
          tcpHandleClosepend_changes p finOk
        exact first.trans (tcpProcessRefusedData_changes strict (first.good good) p finOk)
      · exact Changes.refl w
  | timeout p =>
      simp only [lwip]
      split
      next enabled =>
        apply tcpFree_tcpEventErr_changes strict good p (by simp)
        exact fun proper attached => unused proper ⟨enabled.2, attached⟩
      · exact Changes.refl w
  | expire p =>
      simp only [lwip]
      split
      next enabled =>
        exact (Change.free p fun secure attached => told secure ⟨enabled.2, attached⟩).changes
      · exact Changes.refl w
  | abandon p =>
      simp only [lwip]
      split
      next enabled =>
        apply tcpAbandon_changes strict good p
        · intro _ waiting
          rw [waiting] at enabled
          exact absurd enabled.2 (by decide)
        · exact fun proper attached => unused proper ⟨enabled.2, attached⟩
      · exact Changes.refl w
  | closepend p finOk =>
      simp only [lwip]
      split
      · exact tcpHandleClosepend_changes p finOk
      · exact Changes.refl w
  | kill p =>
      simp only [lwip]
      split
      next enabled =>
        apply tcpAbandon_changes strict good p
        · exact fun secure waiting attached => told secure ⟨waiting, attached⟩
        · exact fun proper attached => unused proper ⟨enabled.2.1, attached⟩
      · exact Changes.refl w
  | syn l =>
      simp only [lwip]
      split
      next there => exact tcpListenInput_changes good there
      · exact Changes.refl w

/-- Events that lose no block, and in a clean run release none too early. -/
def Quiet (safe clean : Prop) (w : World) (event : LwipEvent) : Prop :=
  (safe → ¬ w.losesBlock event) ∧ (clean → ¬ w.releasesBlock event)

end QNEthernet.Tcp
