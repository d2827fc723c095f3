import QNEthernet.Tcp.Tidy

/-! The callbacks and the events of lwIP forget no block. -/

namespace QNEthernet.Tcp

open Lwip World

variable {off : Nat → Prop} {w w' : World} {busy : List Nat} {p : Nat}

theorem keepRemaining_tidy (tidy : Tidy off busy w) (h : Nat) (data : Option Pbuf) (err : Err) :
    Tidy off busy (w.keepRemaining h data err) := by
  unfold keepRemaining
  dsimp only
  split
  · refine tidy.setHolder h _ rfl (fun _ => rfl) ?_
    simp
  · split
    · refine tidy.setHolder h _ rfl (fun _ => rfl) ?_
      simp [ConnectionHolder.maybeCopyRemaining]
    · refine Tidy.of_same (w := w.setHolder h _) ?_ rfl rfl fun _ => id
      refine tidy.setHolder h _ rfl (fun _ => rfl) ?_
      simp [ConnectionHolder.maybeCopyRemaining]

theorem recvClosed_tidy (good : Good False False w) (tidy : Tidy off [] w) {h : Nat}
    (arg : (w.pcb p).callbackArg = .holder h) (data : Option Pbuf) (finOk : Bool) :
    Tidy off [] (w.recvClosed h p data .ok finOk).2 := by
  rcases good.linked.arg p h arg with ⟨state, present, block⟩
  unfold recvClosed
  extract_lets w₁ w₂ w₃
  have first : Tidy off [p] w₁ ∧ Changes False False w w₁ :=
    ⟨keepRemaining_tidy tidy.work h data .ok, keepRemaining_changes h data .ok⟩
  have second : Tidy off [p] w₂ ∧ Changes False False w w₂ ∧ w₂.holder = w₁.holder := by
    unfold w₂
    split
    · exact ⟨touch_tidy p first.1, first.2.trans (touch_changes p False.elim), rfl⟩
    · exact ⟨first.1, first.2, rfl⟩
  have third : Tidy off [p] w₃ ∧ Changes False False w w₃ := by
    refine ⟨destroyState_tidy second.1 h ?_, second.2.1.trans (destroyState_changes h False.elim)⟩
    intro state' there
    rw [second.2.2, keepRemaining_state, present] at there
    cases there
    simp [block]
  have below : p < w.nextPcb := block ▸ (good.linked.owner h state present).1
  have opened : (w₃.pcb p).state ≠ .synRcvd := by
    intro syn
    exact (good.linked.handshake p (third.2.later.handshake p below syn)).2 h arg
  have connection : (w₃.pcb p).state ≠ .listen := by
    intro listens
    have apart := second.1.apart h state (by rw [second.2.2, keepRemaining_state, present])
    rcases destroyState_pcb w₂ h p with ⟨arg', same⟩
    rw [show w₃.pcb p = _ from same] at listens
    exact apart (block ▸ listens)
  simp only [ne_eq, reduceCtorEq, not_false_eq_true, if_true, closeOrAbort_eq]
  exact altcpClose_tidy (third.2.good good).pools third.1 finOk opened connection

theorem recvEvent_tidy (good : Good False False w) (tidy : Tidy off [] w) (data : Option Pbuf)
    (finOk : Bool) (begun : data.isSome → w.begun p) : Tidy off [] (w.recvEvent p data finOk).2 := by
  unfold recvEvent
  dsimp only
  split
  · match arg : (w.pcb p).callbackArg with
    | .null => exact tidy.of_same rfl rfl fun _ => id
    | .manager => exact tidy.of_same rfl rfl fun _ => id
    | .holder h =>
        rcases good.linked.arg p h arg with ⟨state, present, block⟩
        unfold recvFunc
        cases data with
        | none => exact recvClosed_tidy good tidy arg none finOk
        | some data =>
            have open_ : w.begun state.pcb := block ▸ begun rfl
            have flagged (x : ConnectionHolder)
                (same : x.state.map (·.pcb) = (w.holder h).state.map (·.pcb))
                (flag : x.state.map (·.removeFunc) = (w.holder h).state.map (·.removeFunc)) :
                Tidy off [] (w.setHolder h x) := by
              apply tidy.setHolder h x same fun _ => flag
              intro state' there _
              rw [present] at there
              cases there
              exact open_
            simp only [ne_eq, not_true_eq_false, if_false]
            split
            · exact touch_tidy p (flagged _ rfl rfl)
            next state' there =>
              split
              · exact flagged _ rfl rfl
              next state'' fits =>
                have same := ConnectionState.store_same fits
                have there : (w.holder h).state = some state' := there
                refine Tidy.of_same (flagged _ ?_ ?_) rfl rfl fun _ => id
                · simp [there, same.1]
                · simp [there, same.2]
  · exact tidy

theorem refusedData_tidy (tidy : Tidy off [] w) (refused : Option (Pbuf × Bool)) (begun : w.begun p) :
    Tidy off [] (w.setPcb p { w.pcb p with refusedData := refused }) := by
  refine tidy.setPcb _ (TcpState.follows_self _) (fun _ => begun) (tidy.pending p) ?_ (by simp)
  exact fun there idle => tidy.kept p there idle

theorem tcpProcessRefusedData_tidy (good : Good False False w) (tidy : Tidy off [] w)
    (below : p < w.nextPcb) (finOk : Bool) : Tidy off [] (w.tcpProcessRefusedData p finOk).2 := by
  rcases tcpProcessRefusedData_cases w p finOk with same | ⟨data, fin, refused, w', offered, left⟩
  · rw [same]
    exact tidy
  · have begun : w.begun p := tidy.begun_of_refused (by rw [refused]; rfl)
    have first : Changes False False w (w.setPcb p { w.pcb p with refusedData := none }) :=
      refusedData_changes p none
    have second := first.trans (recvEvent_changes id (first.good good) p (some data) finOk)
    have tidy' := recvEvent_tidy (first.good good) (refusedData_tidy tidy none begun) (some data)
      finOk fun _ => first.later.begun p below begun
    rw [← offered] at second tidy'
    rcases left with taken | ended | again
    · rw [taken]
      exact tidy'
    · rw [ended]
      exact recvEvent_tidy (second.good good) tidy' none finOk (by simp)
    · rw [again]
      exact refusedData_tidy tidy' _ (second.later.begun p below begun)

theorem deliverData_tidy (good : Good False False w) (tidy : Tidy off [] w) (below : p < w.nextPcb)
    (begun : w.begun p) (data : Option Pbuf) (finOk : Bool) :
    Tidy off [] (w.deliverData p data finOk).2 := by
  rcases deliverData_cases w p finOk data with same | ⟨bytes, rfl, ⟨_, aborted⟩ | ⟨w', offered, left⟩⟩
  · rw [same]
    exact tidy
  · rw [aborted]
    exact tcpAbandon_tidy good tidy.work
  · have changes := recvEvent_changes id good p (some bytes) finOk
    have tidy' := recvEvent_tidy good tidy (some bytes) finOk fun _ => begun
    rw [← offered] at changes tidy'
    rcases left with taken | refused
    · rw [taken]
      exact tidy'
    · rw [refused]
      exact refusedData_tidy tidy' _ (changes.later.begun p below begun)

theorem deliver_tidy (good : Good False False w) (tidy : Tidy off [] w) (below : p < w.nextPcb)
    (begun : w.begun p) (seg : Segment) (finOk : Bool) : Tidy off [] (w.deliver p seg finOk) := by
  have changes : Changes False False w (w.deliverData p seg.data finOk).2 :=
    deliverData_changes id good p seg.data finOk False.elim False.elim
  have delivered := deliverData_tidy good tidy below begun seg.data finOk
  obtain ⟨w', brought, left⟩ := deliver_cases w p finOk seg
  rw [← brought] at changes delivered
  rcases left with data | fin
  · rw [data]
    exact delivered
  · rw [fin, deliverFin]
    split
    · exact refusedData_tidy delivered _ (changes.later.begun p below begun)
    · exact recvEvent_tidy (changes.good good) delivered none finOk (by simp)

theorem enter_tidy (tidy : Tidy off busy w) {next : TcpState} (follows : next.follows (w.pcb p).state)
    (opened : next ≠ .closed ∧ next ≠ .synSent ∧ next ≠ .synRcvd)
    (kept : p ∈ busy ∨ (w.pcb p).state ≠ .closed ∧ (w.pcb p).state ≠ .synRcvd) :
    Tidy off busy (w.enter p next) := by
  refine tidy.setPcb _ follows (fun _ => ⟨opened.1, opened.2.1⟩)
    (fun syn => absurd syn opened.2.2) ?_ fun _ member _ => member
  intro there idle
  rcases kept with member | state
  · exact absurd member idle
  · rcases tidy.kept p there idle with attached | closed | early | syn
    · exact .inl attached
    · exact .inr (.inl closed)
    · exact absurd early state.1
    · exact absurd syn state.2

theorem arrive_tidy (good : Good False False w) (tidy : Tidy off [] w)
    (old : ∀ h, off h → h < w.nextHolder) (there : p ∈ w.pool)
    (handshake : (w.pcb p).state = .synRcvd) (finOk : Bool) :
    Tidy off [] ((w.enter p .established).acceptFunc (some p) .ok finOk).2 := by
  rw [arrive_eq finOk there]
  have first : Tidy off [p] (w.setPcb p
      { w.pcb p with
        state := .established, callbackArg := .holder w.nextHolder, errf := true, recv := true }) := by
    refine tidy.setPcb _ ?_ ?_ ?_ ?_ (by simp)
    · rw [handshake]
      rfl
    all_goals simp
  have second := first.attach (h := w.nextHolder)
    { connected := true, state := some { pcb := p, capacity := tcpWnd w.mtu, removeFunc := true } } rfl rfl
    good.linked.unborn (by simp [World.setPcb]) (by simp [begun, World.setPcb])
    fun listed => absurd (old _ listed) (lt_irrefl _)
  exact second.of_same rfl rfl fun _ => id

theorem tcpAccept_tidy (good : Good False False w) (tidy : Tidy off [] w)
    (old : ∀ h, off h → h < w.nextHolder) (there : p ∈ w.pool)
    (handshake : (w.pcb p).state = .synRcvd) (seg : Segment) (finOk : Bool) :
    Tidy off [] (w.tcpAccept p seg finOk) := by
  have below := good.pools.poolBelow p there
  unfold tcpAccept
  dsimp only
  split
  · have entered : Changes False False w (w.enter p .established) :=
      enter_changes p .established (by rw [handshake]; rfl)
    refine tcpAbandon_tidy (entered.good good) (enter_tidy tidy.work ?_ (by simp) (by simp))
    rw [handshake]
    rfl
  · have accepted : Changes False False w ((w.enter p .established).acceptFunc (some p) .ok finOk).2 :=
      (Change.arrive p finOk there handshake).changes
    have arrived := arrive_tidy good tidy old there handshake finOk
    have block : (((w.enter p .established).acceptFunc (some p) .ok finOk).2.pcb p).state =
        .established := by
      rw [arrive_eq finOk there]
      simp
    split
    next w' result =>
      rw [result] at accepted arrived block
      dsimp only at block arrived
      have below' : p < w'.nextPcb := below.trans_le accepted.later.nextPcb
      split
      · have entered : Changes False False w' (w'.enter p .closeWait) :=
          enter_changes p .closeWait (by rw [block]; rfl)
        refine deliver_tidy ((accepted.trans entered).good good) ?_
          (below'.trans_le entered.later.nextPcb) ?_ seg finOk
        · exact enter_tidy arrived (by rw [block]; rfl) (by simp) (by simp [block])
        · simp [begun, enter, World.setPcb]
      · exact deliver_tidy (accepted.good good) arrived below' (by simp [begun, block]) seg finOk
    next w' result => cases (acceptFunc_ok _ _ _).symm.trans (congrArg Prod.fst result)
    next w' _ other _ result =>
      exact absurd ((congrArg Prod.fst result).symm.trans (acceptFunc_ok _ _ _)) other

theorem tcpConnected_tidy (good : Good False False w) (tidy : Tidy off [] w)
    (syn : (w.pcb p).state = .synSent) (finOk : Bool) : Tidy off [] (w.tcpConnected p finOk) := by
  have entered : Tidy off [] (w.enter p .established) :=
    enter_tidy tidy (by rw [syn]; rfl) (by simp) (by simp [syn])
  unfold tcpConnected
  dsimp only
  split
  next h arg =>
    simp only [connectedFunc, ne_eq, not_true_eq_false, if_false]
    have arg : (w.pcb p).callbackArg = .holder h := by simpa [enter, World.setPcb] using arg
    rcases good.linked.arg p h arg with ⟨state, present, block⟩
    refine entered.setHolder h _ rfl (fun _ => rfl) ?_
    intro state' there _
    have there : (w.holder h).state = some state' := there
    rw [present] at there
    cases there
    simp [block, begun, enter, World.setPcb]
  · exact entered.of_same rfl rfl fun _ => id
  · exact entered.of_same rfl rfl fun _ => id

theorem tcpClosed_tidy (good : Good False False w) (tidy : Tidy off [] w) :
    Tidy off [] (w.tcpClosed p) := by
  unfold tcpClosed
  dsimp only
  split
  · exact tcpFree_tidy good.pools tidy.work
  · exact ended_tidy good tidy.work (by simp)

theorem tcpProcess_tidy (good : Good False False w) (tidy : Tidy off [] w)
    (old : ∀ h, off h → h < w.nextHolder) (below : p < w.nextPcb)
    (there : (w.pcb p).state = .synRcvd → p ∈ w.pool) (seg : Segment) (finOk : Bool) :
    Tidy off [] (w.tcpProcess p seg finOk) := by
  -- the states in which data is delivered
  have delivered (next : TcpState) (follows : next.follows (w.pcb p).state)
      (opened : next ≠ .closed ∧ next ≠ .synSent ∧ next ≠ .synRcvd)
      (before : (w.pcb p).state ≠ .closed ∧ (w.pcb p).state ≠ .synRcvd) :
      Tidy off [] ((w.enter p next).deliver p seg finOk) := by
    have entered : Changes False False w (w.enter p next) := enter_changes p next follows
    refine deliver_tidy (entered.good good) (enter_tidy tidy follows opened (.inr before))
      (below.trans_le entered.later.nextPcb) ?_ seg finOk
    simp [begun, enter, World.setPcb, opened.1, opened.2.1]
  unfold tcpProcess
  dsimp only
  split
  · exact ended_tidy good tidy.work (by simp)
  · split
    next syn =>
      split
      · exact tcpConnected_tidy good tidy syn finOk
      · exact tidy
    next syn =>
      split
      · exact tcpAccept_tidy good tidy old (there syn) syn seg finOk
      · exact tidy
    next established =>
      split
      · exact delivered .closeWait (by rw [established]; rfl) (by simp) (by simp [established])
      · exact deliver_tidy good tidy below (by simp [begun, established]) seg finOk
    next waiting =>
      apply delivered
      · rw [waiting]
        split <;> split <;> decide
      · split <;> split <;> decide
      · simp [waiting]
    next waiting =>
      split
      · exact delivered .timeWait (by rw [waiting]; rfl) (by simp) (by simp [waiting])
      · exact deliver_tidy good tidy below (by simp [begun, waiting]) seg finOk
    next closing =>
      split
      · exact enter_tidy tidy (by rw [closing]; rfl) (by simp) (by simp [closing])
      · exact tidy
    next last =>
      split
      · exact tcpClosed_tidy good tidy
      · exact tidy
    all_goals exact tidy

theorem tcpInput_tidy (good : Good False False w) (tidy : Tidy off [] w)
    (old : ∀ h, off h → h < w.nextHolder) (there : p ∈ w.pool)
    (seg : Segment) (finOk : Bool) : Tidy off [] (w.tcpInput p seg finOk) := by
  have below := good.pools.poolBelow p there
  have changes : Changes False False w (w.tcpProcessRefusedData p finOk).2 :=
    tcpProcessRefusedData_changes id good p finOk
  have tidy' := tcpProcessRefusedData_tidy good tidy below finOk
  have present := tcpProcessRefusedData_present good there changes
  obtain ⟨w', offered, left⟩ := tcpInput_cases w p finOk seg
  rw [← offered] at changes tidy' present
  rcases left with dropped | ⟨processed, _⟩
  · rw [dropped]
    exact tidy'
  · rw [processed]
    exact tcpProcess_tidy (changes.good good) tidy'
      (fun h listed => (old h listed).trans_le changes.later.nextHolder)
      (below.trans_le changes.later.nextPcb) present seg finOk

theorem tcpHandleClosepend_tidy (tidy : Tidy off [] w) (finOk : Bool) :
    Tidy off [] (w.tcpHandleClosepend p finOk) := by
  unfold tcpHandleClosepend
  split
  next pending =>
    have opened : (w.pcb p).state ≠ .synRcvd := by
      intro syn
      rw [tidy.pending p syn] at pending
      cases pending
    have cleared : Tidy off [] (w.setPcb p { w.pcb p with closePend := false }) := by
      exact tidy.setPcb _ (TcpState.follows_self _) (fun some => tidy.begun_of_refused some)
        (fun _ => rfl) (fun there idle => tidy.kept p there idle) (by simp)
    apply tcpCloseShutdownFin_tidy cleared
    simpa [World.setPcb] using opened
  · exact tidy

theorem tcpAlloc_tidy (good : Good False False w) (tidy : Tidy off [] w) {q : TcpPcb}
    (early : q.state = .closed ∨ q.state = .synRcvd) (refused : q.refusedData = none)
    (pending : q.closePend = false) (room : w.tcpAlloc q = some (p, w')) : Tidy off [] w' := by
  obtain ⟨place, free, space, rfl, rfl⟩ := tcpAlloc_some room
  refine tidy.fresh good q refused pending rfl rfl ?_
  intro p there
  rcases List.mem_cons.mp there with new | old
  · exact .inr ⟨new, early⟩
  · exact .inl old

theorem lwip_tidy (good : Good False False w) (tidy : Tidy off [] w)
    (old : ∀ h, off h → h < w.nextHolder) (event : LwipEvent) :
    Tidy off [] (w.lwip event) := by
  cases event with
  | input p seg finOk =>
      simp only [lwip]
      split
      next enabled => exact tcpInput_tidy good tidy old enabled.1 seg finOk
      · exact tidy
  | fasttmr p finOk =>
      simp only [lwip]
      split
      next enabled =>
        have first : Changes False False w (w.tcpHandleClosepend p finOk) :=
          tcpHandleClosepend_changes p finOk
        exact tcpProcessRefusedData_tidy (first.good good) (tcpHandleClosepend_tidy tidy finOk)
          ((good.pools.poolBelow p enabled.1).trans_le first.later.nextPcb) finOk
      · exact tidy
  | timeout p =>
      simp only [lwip]
      split
      · exact tcpFree_tcpEventErr_tidy good tidy.work (by simp)
      · exact tidy
  | expire p =>
      simp only [lwip]
      split
      · exact tcpFree_tidy good.pools tidy.work
      · exact tidy
  | abandon p =>
      simp only [lwip]
      split
      · exact tcpAbandon_tidy good tidy.work
      · exact tidy
  | closepend p finOk =>
      simp only [lwip]
      split
      · exact tcpHandleClosepend_tidy tidy finOk
      · exact tidy
  | kill p =>
      simp only [lwip]
      split
      · exact tcpAbandon_tidy good tidy.work
      · exact tidy
  | syn l =>
      simp only [lwip]
      split
      · unfold tcpListenInput
        dsimp only
        split
        · exact tidy
        next p w' room => exact tcpAlloc_tidy good tidy (.inr rfl) rfl rfl room
      · exact tidy

end QNEthernet.Tcp
