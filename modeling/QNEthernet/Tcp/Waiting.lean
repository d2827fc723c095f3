import QNEthernet.Tcp.TidyEvents

/-! A connection that nobody was given keeps its block: it is open on both sides, so lwIP does not
release it without a call of the error callback. -/

namespace QNEthernet.Tcp

open Lwip World

/-- Open, and no side of it closed here. -/
def TcpPcb.Receiving (q : TcpPcb) : Prop :=
  (q.state = .established ∨ q.state = .closeWait) ∧ q.rxClosed = false ∧ q.closePend = false

namespace World

/-- The block of a connection that `accept()` may still return. -/
def Unclaimed (w : World) (p : Nat) : Prop :=
  ∃ h state, (w.holder h).state = some state ∧ (w.holder h).accepted = false ∧ state.pcb = p

def Waiting (w : World) : Prop := ∀ p, w.Unclaimed p → p ∈ w.pool ∧ (w.pcb p).Receiving

end World

variable {w w' : World} {p : Nat}

theorem World.Unclaimed.attached (unclaimed : w.Unclaimed p) : w.Attached p := by
  rcases unclaimed with ⟨h, state, there, -, block⟩
  exact ⟨h, state, there, block⟩

theorem World.Waiting.of_fields (waiting : w.Waiting) (unclaimed : ∀ p, w'.Unclaimed p → w.Unclaimed p)
    (pool : ∀ p, w.Unclaimed p → p ∈ w.pool → p ∈ w'.pool)
    (pcb : ∀ p, w.Unclaimed p → (w.pcb p).Receiving → (w'.pcb p).Receiving) : w'.Waiting := by
  intro p after
  have before := unclaimed p after
  exact ⟨pool p before (waiting p before).1, pcb p before (waiting p before).2⟩

theorem World.Waiting.of_same (waiting : w.Waiting) (holder : w'.holder = w.holder) (pool : w'.pool = w.pool)
    (pcb : w'.pcb = w.pcb) : w'.Waiting := by
  refine waiting.of_fields ?_ ?_ ?_
  · intro p after
    rwa [Unclaimed, holder] at after
  · rw [pool]
    exact fun _ _ => id
  · rw [pcb]
    exact fun _ _ => id

theorem touch_waiting (waiting : w.Waiting) (p : Nat) : (w.touch p).Waiting :=
  waiting.of_same rfl rfl rfl

theorem World.Waiting.setPcb (waiting : w.Waiting) (q : TcpPcb)
    (kept : w.Unclaimed p → (w.pcb p).Receiving → q.Receiving) : (w.setPcb p q).Waiting := by
  refine waiting.of_fields (fun _ => id) (fun _ _ => id) ?_
  intro p' unclaimed open_
  by_cases same : p' = p
  · subst same
    simpa [World.setPcb] using kept unclaimed open_
  · simpa [World.setPcb, same] using open_

theorem World.Waiting.setHolder (waiting : w.Waiting) (h : Nat) (x : ConnectionHolder)
    (accepted : x.accepted = false → (w.holder h).accepted = false)
    (pcb : x.state.map (·.pcb) = (w.holder h).state.map (·.pcb)) : (w.setHolder h x).Waiting := by
  refine waiting.of_fields ?_ (fun _ _ => id) (fun _ _ => id)
  intro p after
  rcases after with ⟨h', state, there, unaccepted, block⟩
  by_cases same : h' = h
  · subst same
    simp only [World.setHolder, Function.update_self] at there unaccepted
    rw [there] at pcb
    rcases Option.map_eq_some_iff.mp pcb.symm with ⟨old, before, block'⟩
    exact ⟨h', old, before, accepted unaccepted, block'.trans block⟩
  · simp only [World.setHolder, Function.update_of_ne same] at there unaccepted
    exact ⟨h', state, there, unaccepted, block⟩

theorem tcpFree_waiting (waiting : w.Waiting) (unused : ¬ w.Unclaimed p) : (w.tcpFree p).Waiting := by
  refine waiting.of_fields (fun _ => id) ?_ (fun _ _ => id)
  intro p' unclaimed there
  have other : p' ≠ p := by
    intro equal
    exact unused (equal ▸ unclaimed)
  exact (List.mem_erase_of_ne other).mpr there

theorem destroyState_waiting (waiting : w.Waiting) (h : Nat) : (w.destroyState h).Waiting := by
  refine waiting.of_fields ?_ ?_ ?_
  · intro p after
    rcases after with ⟨h', state, there, unaccepted, block⟩
    rw [destroyState_holder] at there unaccepted
    by_cases same : h' = h
    · subst same
      simp at there
    · simp only [Function.update_of_ne same] at there unaccepted
      exact ⟨h', state, there, unaccepted, block⟩
  · rw [destroyState_pool]
    exact fun _ _ => id
  · intro p _ open_
    rcases destroyState_pcb w h p with ⟨arg, same⟩
    rw [same]
    exact open_

theorem errFunc_waiting (waiting : w.Waiting) (arg : CallbackArg) (err : Err) : (w.errFunc arg err).Waiting := by
  match arg with
  | .null => exact waiting
  | .manager => exact waiting
  | .holder h =>
      by_cases ends : (w.holder h).state = none ∨ err = .ok
      · rw [errFunc_flags ends]
        exact waiting.setHolder h _ id rfl
      · rcases not_or.mp ends with ⟨present, failed⟩
        rcases Option.ne_none_iff_exists'.mp present with ⟨state, present⟩
        rw [errFunc_failed present failed]
        apply destroyState_waiting
        exact waiting.setHolder h _ id rfl

theorem tcpEventErr_waiting (waiting : w.Waiting) (q : TcpPcb) (err : Err) : (w.tcpEventErr q err).Waiting := by
  unfold tcpEventErr
  split
  · exact errFunc_waiting waiting q.callbackArg err
  · exact waiting

theorem ended_waiting (good : Good False False w) (waiting : w.Waiting) {err : Err} (failed : err ≠ .ok) :
    ((w.tcpEventErr (w.pcb p) err).tcpFree p).Waiting :=
  tcpFree_waiting (tcpEventErr_waiting waiting (w.pcb p) err) fun unclaimed =>
    tcpEventErr_unattached good failed unclaimed.attached

theorem tcpFree_tcpEventErr_waiting (good : Good False False w) (waiting : w.Waiting) {err : Err}
    (failed : err ≠ .ok) : ((w.tcpFree p).tcpEventErr (w.pcb p) err).Waiting := by
  rcases tcpEventErr_tcpFree w p err with ⟨misuse, swapped⟩
  rw [swapped]
  exact (ended_waiting good waiting failed).of_same rfl rfl rfl

theorem tcpAbandon_waiting (good : Good False False w) (waiting : w.Waiting) (p : Nat) :
    (w.tcpAbandon p).Waiting := by
  unfold tcpAbandon
  dsimp only
  split
  next last =>
    apply tcpFree_waiting waiting
    intro unclaimed
    have open_ := (waiting p unclaimed).2.1
    simp [last] at open_
  next => exact tcpFree_tcpEventErr_waiting good waiting (by simp)

theorem tcpCloseShutdownFin_waiting (waiting : w.Waiting) (unused : ¬ w.Unclaimed p) (finOk : Bool) :
    (w.tcpCloseShutdownFin p finOk).Waiting := by
  unfold tcpCloseShutdownFin
  dsimp only
  split <;> try split
  all_goals first
    | exact waiting
    | exact waiting.setPcb _ fun unclaimed => absurd unclaimed unused

theorem tcpListenClosed_waiting (waiting : w.Waiting) (l : Nat) : (w.tcpListenClosed l).Waiting := by
  refine waiting.of_fields (fun _ => id) (fun _ _ => id) ?_
  intro p _ open_
  simp only [tcpListenClosed]
  split
  · exact open_
  · exact open_

theorem altcpClose_waiting (waiting : w.Waiting) (unused : ¬ w.Unclaimed p) (finOk : Bool) :
    (w.altcpClose p finOk).2.Waiting := by
  have shut (s : World) (waiting : s.Waiting) (unused : ¬ s.Unclaimed p) :
      (s.tcpCloseShutdown p true finOk).Waiting := by
    unfold tcpCloseShutdown
    dsimp only
    split
    · exact tcpFree_waiting (waiting.setPcb _ fun unclaimed => absurd unclaimed unused) unused
    · split
      · exact tcpFree_waiting waiting unused
      · exact tcpFree_waiting waiting unused
      · exact tcpListenClosed_waiting waiting p
      · exact tcpCloseShutdownFin_waiting waiting unused finOk
  unfold altcpClose
  dsimp only
  split
  · exact shut _ ((touch_waiting waiting p).setPcb _ fun unclaimed => absurd unclaimed unused) unused
  · exact shut _ (touch_waiting waiting p) unused

theorem keepRemaining_waiting (waiting : w.Waiting) (h : Nat) (data : Option Pbuf) (err : Err) :
    (w.keepRemaining h data err).Waiting := by
  unfold keepRemaining
  dsimp only
  split
  · exact waiting.setHolder h _ id rfl
  · split
    · exact waiting.setHolder h _ id rfl
    · refine World.Waiting.of_same (w := w.setHolder h _) ?_ rfl rfl rfl
      exact waiting.setHolder h _ id rfl

theorem recvClosed_waiting (good : Good False False w) (waiting : w.Waiting) {h : Nat}
    (arg : (w.pcb p).callbackArg = .holder h) (data : Option Pbuf) (err : Err) (finOk : Bool) :
    (w.recvClosed h p data err finOk).2.Waiting := by
  rcases good.linked.arg p h arg with ⟨state, present, block⟩
  unfold recvClosed
  extract_lets w₁ w₂ w₃
  have first : w₁.Waiting ∧ Changes False False w w₁ :=
    ⟨keepRemaining_waiting waiting h data err, keepRemaining_changes h data err⟩
  have second : w₂.Waiting ∧ Changes False False w w₂ ∧ w₂.holder = w₁.holder := by
    unfold w₂
    split
    · exact ⟨touch_waiting first.1 p, first.2.trans (touch_changes p False.elim), rfl⟩
    · exact ⟨first.1, first.2, rfl⟩
  have third : w₃.Waiting := destroyState_waiting second.1 h
  have there : (w₂.holder h).state = some state := by
    rw [second.2.2, keepRemaining_state]
    exact present
  have unused : ¬ w₃.Unclaimed p := fun unclaimed =>
    destroyState_unattached (second.2.1.good good).linked there (block.symm ▸ unclaimed.attached)
  split
  · rw [closeOrAbort_eq]
    exact altcpClose_waiting third unused finOk
  · exact third

theorem recvEvent_waiting (good : Good False False w) (waiting : w.Waiting) (p : Nat) (data : Option Pbuf)
    (finOk : Bool) : (w.recvEvent p data finOk).2.Waiting := by
  unfold recvEvent
  dsimp only
  split
  · match arg : (w.pcb p).callbackArg with
    | .null => exact waiting.of_same rfl rfl rfl
    | .manager => exact waiting.of_same rfl rfl rfl
    | .holder h =>
        unfold recvFunc
        cases data with
        | none => exact recvClosed_waiting good waiting arg none .ok finOk
        | some data =>
            simp only [ne_eq, not_true_eq_false, if_false]
            split
            · apply touch_waiting
              exact waiting.setHolder h _ id rfl
            next state present =>
              split
              · exact waiting.setHolder h _ id rfl
              next state' fits =>
                have same := ConnectionState.store_same fits
                have present : (w.holder h).state = some state := present
                refine World.Waiting.of_same (w := w.setHolder h _) ?_ rfl rfl rfl
                exact waiting.setHolder h _ id (by simp [present, same.1])
  · exact waiting

theorem refusedData_waiting (waiting : w.Waiting) (p : Nat) (refused : Option (Pbuf × Bool)) :
    (w.setPcb p { w.pcb p with refusedData := refused }).Waiting :=
  waiting.setPcb _ fun _ => id

theorem tcpProcessRefusedData_waiting (good : Good False False w) (waiting : w.Waiting) (p : Nat)
    (finOk : Bool) : (w.tcpProcessRefusedData p finOk).2.Waiting := by
  rcases tcpProcessRefusedData_cases w p finOk with same | ⟨data, fin, _, w', offered, left⟩
  · rw [same]
    exact waiting
  · have first : Changes False False w (w.setPcb p { w.pcb p with refusedData := none }) :=
      refusedData_changes p none
    have second := first.trans (recvEvent_changes id (first.good good) p (some data) finOk)
    have kept := recvEvent_waiting (first.good good) (refusedData_waiting waiting p none) p (some data) finOk
    rw [← offered] at second kept
    rcases left with taken | ended | again
    · rw [taken]
      exact kept
    · rw [ended]
      exact recvEvent_waiting (second.good good) kept p none finOk
    · rw [again]
      exact refusedData_waiting kept p _

theorem deliver_waiting (good : Good False False w) (waiting : w.Waiting) (p : Nat) (seg : Segment)
    (finOk : Bool) : (w.deliver p seg finOk).Waiting := by
  have data : (w.deliverData p seg.data finOk).2.Waiting := by
    rcases deliverData_cases w p finOk seg.data with same | ⟨bytes, _, ⟨_, aborted⟩ | ⟨w', offered, left⟩⟩
    · rw [same]
      exact waiting
    · rw [aborted]
      exact tcpAbandon_waiting good waiting p
    · have kept := recvEvent_waiting good waiting p (some bytes) finOk
      rw [← offered] at kept
      rcases left with taken | refused
      · rw [taken]
        exact kept
      · rw [refused]
        exact refusedData_waiting kept p _
  have changes : Changes False False w (w.deliverData p seg.data finOk).2 :=
    deliverData_changes id good p seg.data finOk False.elim False.elim
  obtain ⟨w', brought, left⟩ := deliver_cases w p finOk seg
  rw [← brought] at changes data
  rcases left with same | fin
  · rw [same]
    exact data
  · rw [fin, deliverFin]
    split
    · exact refusedData_waiting data p _
    · exact recvEvent_waiting (changes.good good) data p none finOk

theorem enter_waiting (waiting : w.Waiting) {next : TcpState}
    (open_ : w.Unclaimed p → next = .established ∨ next = .closeWait) : (w.enter p next).Waiting :=
  waiting.setPcb _ fun unclaimed receiving => ⟨open_ unclaimed, receiving.2⟩

theorem arrive_waiting (good : Good False False w) (waiting : w.Waiting) (there : p ∈ w.pool)
    (handshake : (w.pcb p).state = .synRcvd) (pending : (w.pcb p).closePend = false) (finOk : Bool) :
    ((w.enter p .established).acceptFunc (some p) .ok finOk).2.Waiting := by
  rcases good.linked.handshake p handshake with ⟨rxOpen, free⟩
  rw [arrive_eq finOk there]
  intro p' after
  rcases after with ⟨h, state, present, unaccepted, block⟩
  by_cases new : h = w.nextHolder
  · subst new
    simp only [Function.update_self, Option.some.injEq] at present
    subst present block
    exact ⟨there, by simp [TcpPcb.Receiving, rxOpen, pending]⟩
  · simp only [Function.update_of_ne new] at present unaccepted
    have other : p' ≠ p := block ▸ good.linked.unattached free present
    have before := waiting p' ⟨h, state, present, unaccepted, block⟩
    simpa [Function.update_of_ne other] using before

theorem tcpAccept_waiting (good : Good False False w) (waiting : w.Waiting) (there : p ∈ w.pool)
    (handshake : (w.pcb p).state = .synRcvd) (pending : (w.pcb p).closePend = false) (seg : Segment)
    (finOk : Bool) : (w.tcpAccept p seg finOk).Waiting := by
  unfold tcpAccept
  dsimp only
  split
  · have entered : Changes False False w (w.enter p .established) :=
      enter_changes p .established (by rw [handshake]; rfl)
    exact tcpAbandon_waiting (entered.good good) (enter_waiting waiting fun _ => .inl rfl) p
  · have accepted : Changes False False w ((w.enter p .established).acceptFunc (some p) .ok finOk).2 :=
      (Change.arrive p finOk there handshake).changes
    have arrived := arrive_waiting good waiting there handshake pending finOk
    have block : (((w.enter p .established).acceptFunc (some p) .ok finOk).2.pcb p).state =
        .established := by
      rw [arrive_eq finOk there]
      simp
    split
    next w' result =>
      rw [result] at accepted arrived block
      dsimp only at block arrived
      split
      · have entered : Changes False False w' (w'.enter p .closeWait) :=
          enter_changes p .closeWait (by rw [block]; rfl)
        exact deliver_waiting ((accepted.trans entered).good good)
          (enter_waiting arrived fun _ => .inr rfl) p seg finOk
      · exact deliver_waiting (accepted.good good) arrived p seg finOk
    next w' result => cases (acceptFunc_ok _ _ _).symm.trans (congrArg Prod.fst result)
    next w' _ other _ result =>
      exact absurd ((congrArg Prod.fst result).symm.trans (acceptFunc_ok _ _ _)) other

theorem tcpConnected_waiting (waiting : w.Waiting) (p : Nat) (finOk : Bool) :
    (w.tcpConnected p finOk).Waiting := by
  have entered : (w.enter p .established).Waiting := enter_waiting waiting fun _ => .inl rfl
  unfold tcpConnected
  dsimp only
  split
  next h _ =>
    simp only [connectedFunc, ne_eq, not_true_eq_false, if_false]
    exact entered.setHolder h _ id rfl
  · exact entered.of_same rfl rfl rfl
  · exact entered.of_same rfl rfl rfl

theorem World.Waiting.unused_of_state (waiting : w.Waiting)
    (closing : (w.pcb p).state ≠ .established ∧ (w.pcb p).state ≠ .closeWait) : ¬ w.Unclaimed p := by
  intro unclaimed
  rcases (waiting p unclaimed).2.1 with state | state
  · exact closing.1 state
  · exact closing.2 state

theorem tcpProcess_waiting (good : Good False False w) (tidy : Tidy (fun _ => False) [] w)
    (waiting : w.Waiting) (there : (w.pcb p).state = .synRcvd → p ∈ w.pool) (seg : Segment) (finOk : Bool) :
    (w.tcpProcess p seg finOk).Waiting := by
  have delivered (next : TcpState) (follows : next.follows (w.pcb p).state)
      (open_ : w.Unclaimed p → next = .established ∨ next = .closeWait) :
      ((w.enter p next).deliver p seg finOk).Waiting := by
    have entered : Changes False False w (w.enter p next) := enter_changes p next follows
    exact deliver_waiting (entered.good good) (enter_waiting waiting open_) p seg finOk
  unfold tcpProcess
  dsimp only
  split
  · exact ended_waiting good waiting (by simp)
  · split
    next =>
      split
      · exact tcpConnected_waiting waiting p finOk
      · exact waiting
    next syn =>
      split
      · exact tcpAccept_waiting good waiting (there syn) syn (tidy.pending p syn) seg finOk
      · exact waiting
    next established =>
      split
      · exact delivered .closeWait (by rw [established]; rfl) fun _ => .inr rfl
      · exact deliver_waiting good waiting p seg finOk
    next closing =>
      apply delivered
      · rw [closing]
        split <;> split <;> decide
      · exact fun unclaimed => absurd unclaimed (waiting.unused_of_state (by simp [closing]))
    next closing =>
      split
      · apply delivered .timeWait (by rw [closing]; rfl)
        exact fun unclaimed => absurd unclaimed (waiting.unused_of_state (by simp [closing]))
      · exact deliver_waiting good waiting p seg finOk
    next closing =>
      split
      · apply enter_waiting waiting
        exact fun unclaimed => absurd unclaimed (waiting.unused_of_state (by simp [closing]))
      · exact waiting
    next closing =>
      split
      · unfold tcpClosed
        dsimp only
        split
        · exact tcpFree_waiting waiting (waiting.unused_of_state (by simp [closing]))
        · exact ended_waiting good waiting (by simp)
      · exact waiting
    all_goals exact waiting

theorem tcpInput_waiting (good : Good False False w) (tidy : Tidy (fun _ => False) [] w) (waiting : w.Waiting)
    (there : p ∈ w.pool) (seg : Segment) (finOk : Bool) : (w.tcpInput p seg finOk).Waiting := by
  have below := good.pools.poolBelow p there
  have changes : Changes False False w (w.tcpProcessRefusedData p finOk).2 :=
    tcpProcessRefusedData_changes id good p finOk
  have tidy' := tcpProcessRefusedData_tidy good tidy below finOk
  have kept := tcpProcessRefusedData_waiting good waiting p finOk
  have present := tcpProcessRefusedData_present good there changes
  obtain ⟨w', offered, left⟩ := tcpInput_cases w p finOk seg
  rw [← offered] at changes tidy' kept present
  rcases left with dropped | ⟨processed, _⟩
  · rw [dropped]
    exact kept
  · rw [processed]
    exact tcpProcess_waiting (changes.good good) tidy' kept present seg finOk

theorem tcpHandleClosepend_waiting (waiting : w.Waiting) (p : Nat) (finOk : Bool) :
    (w.tcpHandleClosepend p finOk).Waiting := by
  unfold tcpHandleClosepend
  split
  next pending =>
    have unused : ¬ w.Unclaimed p := by
      intro unclaimed
      rw [(waiting p unclaimed).2.2.2] at pending
      cases pending
    exact tcpCloseShutdownFin_waiting (waiting.setPcb _ fun unclaimed => absurd unclaimed unused) unused finOk
  · exact waiting

theorem tcpAlloc_waiting (good : Good False False w) (waiting : w.Waiting) {q : TcpPcb}
    (room : w.tcpAlloc q = some (p, w')) : w'.Waiting := by
  obtain ⟨place, free, space, rfl, rfl⟩ := tcpAlloc_some room
  refine waiting.of_fields (fun _ => id) (fun _ _ => List.mem_cons_of_mem _) ?_
  intro p unclaimed open_
  have older : p ≠ w.nextPcb := (good.pools.poolBelow p (waiting p unclaimed).1).ne
  simpa [World.setPcb, Function.update_of_ne older] using open_

theorem lwip_waiting (good : Good False False w) (tidy : Tidy (fun _ => False) [] w) (waiting : w.Waiting)
    (event : LwipEvent) : (w.lwip event).Waiting := by
  cases event with
  | input p seg finOk =>
      simp only [lwip]
      split
      next enabled => exact tcpInput_waiting good tidy waiting enabled.1 seg finOk
      · exact waiting
  | fasttmr p finOk =>
      simp only [lwip]
      split
      · have first : Changes False False w (w.tcpHandleClosepend p finOk) :=
          tcpHandleClosepend_changes p finOk
        exact tcpProcessRefusedData_waiting (first.good good) (tcpHandleClosepend_waiting waiting p finOk) p finOk
      · exact waiting
  | timeout p =>
      simp only [lwip]
      split
      · exact tcpFree_tcpEventErr_waiting good waiting (by simp)
      · exact waiting
  | expire p =>
      simp only [lwip]
      split
      next enabled => exact tcpFree_waiting waiting (waiting.unused_of_state (by simp [enabled.2]))
      · exact waiting
  | abandon p =>
      simp only [lwip]
      split
      · exact tcpAbandon_waiting good waiting p
      · exact waiting
  | closepend p finOk =>
      simp only [lwip]
      split
      · exact tcpHandleClosepend_waiting waiting p finOk
      · exact waiting
  | kill p =>
      simp only [lwip]
      split
      · exact tcpAbandon_waiting good waiting p
      · exact waiting
  | syn l =>
      simp only [lwip]
      split
      · unfold tcpListenInput
        dsimp only
        split
        · exact waiting
        next p w' room => exact tcpAlloc_waiting good waiting room
      · exact waiting

end QNEthernet.Tcp
