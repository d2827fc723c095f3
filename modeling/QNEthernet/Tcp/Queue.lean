import Mathlib.Data.List.Sort
import QNEthernet.Tcp.Linked

/-! The connections that arrived on each port and those that `accept()` returned. -/

namespace QNEthernet.Tcp

open Lwip World

def Event.arrival : Event → Option (Nat × UInt16)
  | .arrived h port => some (h, port)
  | _ => none

def Event.handout : Event → Option (Nat × UInt16)
  | .returned h port => some (h, port)
  | _ => none

namespace World

/-- The connections that the accept callback added, with their local ports. -/
def arrivals (w : World) : List (Nat × UInt16) := w.trace.filterMap Event.arrival

/-- The connections that `accept()` returned, with the ports of the servers. -/
def returns (w : World) : List (Nat × UInt16) := w.trace.filterMap Event.handout

end World

/-- The list is a queue for each port: connections wait in the order they arrived, and one that was
passed over is gone. -/
structure Queue (w : World) : Prop where
  order : w.arrivals.Pairwise (·.1 < ·.1)
  arrived : ∀ h port, (h, port) ∈ w.arrivals → h < w.nextHolder ∧
    ∀ state, (w.holder h).state = some state → state.removeFunc ∧ (w.pcb state.pcb).localPort = port
  waiting : ∀ h state, (w.holder h).state = some state → (w.holder h).accepted = false →
    ∃ port, (h, port) ∈ w.arrivals
  accepted : ∀ h port, (h, port) ∈ w.arrivals → ((w.holder h).accepted ↔ (h, port) ∈ w.returns)
  returned : w.returns ⊆ w.arrivals
  returnOrder : ∀ port, (w.returns.filter (·.2 = port)).Pairwise (·.1 < ·.1)
  once : (w.returns.map (·.1)).Nodup
  passed : ∀ h h' port, (h, port) ∈ w.arrivals → (h', port) ∈ w.returns → h < h' →
    (h, port) ∉ w.returns → (w.holder h).state = none

/-- What happens while nothing is returned. -/
structure Since (w w' : World) : Prop where
  arrivals : ∃ new, w'.arrivals = w.arrivals ++ new ∧ ∀ a ∈ new, w.nextHolder ≤ a.1
  returns : w'.returns = w.returns
  nextHolder : w.nextHolder ≤ w'.nextHolder
  accepted : ∀ h < w.nextHolder, (w'.holder h).accepted = (w.holder h).accepted

variable {safe clean : Prop} {w w' w'' : World}

theorem Since.refl (w : World) : Since w w := ⟨⟨[], by simp⟩, rfl, le_refl _, fun _ _ => rfl⟩

theorem Since.trans (first : Since w w') (second : Since w' w'') : Since w w'' where
  arrivals := by
    rcases first.arrivals with ⟨new, arrived, late⟩
    rcases second.arrivals with ⟨new', arrived', late'⟩
    refine ⟨new ++ new', by rw [arrived', arrived, List.append_assoc], ?_⟩
    intro a member
    rcases List.mem_append.mp member with old | recent
    · exact late a old
    · exact first.nextHolder.trans (late' a recent)
  returns := second.returns.trans first.returns
  nextHolder := first.nextHolder.trans second.nextHolder
  accepted := fun h below =>
    (second.accepted h (below.trans_le first.nextHolder)).trans (first.accepted h below)

theorem Since.arrived_before (since : Since w w') {h : Nat} {port : UInt16} (below : h < w.nextHolder)
    (member : (h, port) ∈ w'.arrivals) : (h, port) ∈ w.arrivals := by
  rcases since.arrivals with ⟨new, arrived, late⟩
  rw [arrived] at member
  rcases List.mem_append.mp member with old | recent
  · exact old
  · exact absurd (late _ recent) (not_le.mpr below)

theorem Since.arrived_after (since : Since w w') {a : Nat × UInt16} (member : a ∈ w.arrivals) :
    a ∈ w'.arrivals := by
  rcases since.arrivals with ⟨new, arrived, -⟩
  rw [arrived]
  exact List.mem_append_left new member

theorem Queue.of_since (queue : Queue w) (since : Since w w') (none : w'.arrivals = w.arrivals)
    (state : ∀ h < w.nextHolder, ∀ state', (w'.holder h).state = some state' →
      ∃ state, (w.holder h).state = some state ∧ (state.removeFunc → state'.removeFunc) ∧
        (w'.pcb state'.pcb).localPort = (w.pcb state.pcb).localPort)
    (fresh : ∀ h, w.nextHolder ≤ h → ∀ state', (w'.holder h).state = some state' →
      (w'.holder h).accepted = true) : Queue w' where
  order := none ▸ queue.order
  arrived := by
    intro h port member
    rw [none] at member
    have before := queue.arrived h port member
    refine ⟨before.1.trans_le since.nextHolder, ?_⟩
    intro state' there'
    rcases state h before.1 state' there' with ⟨old, there, listed, same⟩
    have place := before.2 old there
    exact ⟨listed place.1, same.trans place.2⟩
  waiting := by
    intro h state' there' unaccepted
    rw [none]
    by_cases below : h < w.nextHolder
    · rcases state h below state' there' with ⟨old, there, -, -⟩
      exact queue.waiting h old there ((since.accepted h below).symm.trans unaccepted)
    · exact absurd (fresh h (not_lt.mp below) state' there') (by simp [unaccepted])
  accepted := by
    intro h port member
    rw [none] at member
    rw [since.accepted h (queue.arrived h port member).1, since.returns]
    exact queue.accepted h port member
  returned := by
    rw [since.returns, none]
    exact queue.returned
  returnOrder := since.returns ▸ queue.returnOrder
  once := since.returns ▸ queue.once
  passed := by
    rw [none, since.returns]
    intro h h' port member member' before skipped
    have gone := queue.passed h h' port member member' before skipped
    cases there' : (w'.holder h).state with
    | none => rfl
    | some state' =>
        rcases state h (queue.arrived h port member).1 state' there' with ⟨old, there, -, -⟩
        rw [gone] at there
        exact absurd there (by simp)

theorem arrivals_arrive {p : Nat} (finOk : Bool) (there : p ∈ w.pool) :
    ((w.enter p .established).acceptFunc (some p) .ok finOk).2.arrivals =
      w.arrivals ++ [(w.nextHolder, (w.pcb p).localPort)] := by
  rw [arrive_eq finOk there]
  simp [arrivals, Event.arrival]

theorem returns_arrive {p : Nat} (finOk : Bool) (there : p ∈ w.pool) :
    ((w.enter p .established).acceptFunc (some p) .ok finOk).2.returns = w.returns := by
  rw [arrive_eq finOk there]
  simp [returns, Event.handout]

theorem Change.since (change : Change safe clean w w') : Since w w' := by
  have nothing (w' : World) (trace : w'.trace = w.trace) : ∃ new, w'.arrivals = w.arrivals ++ new ∧
      ∀ a ∈ new, w.nextHolder ≤ a.1 := ⟨[], by simp [arrivals, trace]⟩
  cases change with
  | flags misuse nullArg client server kept =>
      exact ⟨nothing _ rfl, rfl, le_refl _, fun _ _ => rfl⟩
  | event e bytes =>
      rcases bytes with ⟨h, b, rfl⟩ | ⟨h, b, rfl⟩
      · exact ⟨⟨[], by simp [arrivals, emit, Event.arrival]⟩, by simp [returns, emit, Event.handout],
          le_refl _, fun _ _ => rfl⟩
      · exact ⟨⟨[], by simp [arrivals, emit, Event.arrival]⟩, by simp [returns, emit, Event.handout],
          le_refl _, fun _ _ => rfl⟩
  | holder h x accepted pcb removeFunc =>
      refine ⟨nothing _ rfl, rfl, le_refl _, ?_⟩
      intro h' _
      by_cases same : h' = h
      · simp [setHolder, same, accepted]
      · simp [setHolder, Function.update_of_ne same]
  | detach h =>
      refine ⟨nothing _ ?_, ?_, ?_, ?_⟩
      · simp [World.detach]
      · simp [returns, World.detach]
      · simp [World.detach]
      · intro h' _
        by_cases same : h' = h
        · simp [World.detach, same]
        · simp [World.detach, Function.update_of_ne same]
  | make p x there free open_ accepted =>
      rw [makeHolder_eq x there]
      refine ⟨nothing _ rfl, rfl, Nat.le_succ _, ?_⟩
      intro h below
      simp [Function.update_of_ne below.ne]
  | add h last accepted state =>
      rcases state with ⟨old, there, -⟩
      rw [addConnection_eq there]
      refine ⟨nothing _ rfl, rfl, le_refl _, ?_⟩
      intro h' _
      by_cases same : h' = h
      · simp [same]
      · simp [Function.update_of_ne same]
  | arrive p finOk there handshake =>
      refine ⟨⟨_, arrivals_arrive finOk there, by simp⟩, returns_arrive finOk there, ?_, ?_⟩
      · rw [arrive_eq finOk there]
        exact Nat.le_succ _
      · intro h below
        rw [arrive_eq finOk there]
        simp [Function.update_of_ne below.ne]
  | _ => exact ⟨nothing _ rfl, rfl, le_refl _, fun _ _ => rfl⟩

theorem Changes.since (changes : Changes safe clean w w') : Since w w' := by
  induction changes with
  | refl => exact Since.refl w
  | tail _ change ih => exact ih.trans change.since

theorem Queue.arrive (queue : Queue w) (linked : Linked w) {p : Nat} (finOk : Bool)
    (there : p ∈ w.pool) (handshake : (w.pcb p).state = .synRcvd) :
    Queue ((w.enter p .established).acceptFunc (some p) .ok finOk).2 := by
  have arrivals := arrivals_arrive finOk there
  have returns := returns_arrive finOk there
  have known (a : Nat × UInt16) (member : a ∈ w.returns) : a.1 < w.nextHolder :=
    (queue.arrived a.1 a.2 (queue.returned member)).1
  have other {h : Nat} {state : ConnectionState} (present : (w.holder h).state = some state) :
      state.pcb ≠ p := linked.unattached (linked.handshake p handshake).2 present
  rw [arrive_eq finOk there] at arrivals returns ⊢
  constructor
  · rw [arrivals]
    apply List.pairwise_append.mpr
    refine ⟨queue.order, List.pairwise_singleton _ _, ?_⟩
    intro a member b new
    rw [List.mem_singleton.mp new]
    exact (queue.arrived a.1 a.2 member).1
  · intro h port member
    rw [arrivals] at member
    rcases List.mem_append.mp member with old | new
    · have before := queue.arrived h port old
      refine ⟨Nat.lt_succ_of_lt before.1, ?_⟩
      intro state present
      simp only [Function.update_of_ne before.1.ne] at present
      simp only [Function.update_of_ne (other present)]
      exact before.2 state present
    · cases List.mem_singleton.mp new
      refine ⟨Nat.lt_succ_self _, ?_⟩
      intro state present
      simp only [Function.update_self, Option.some.injEq] at present
      subst present
      simp
  · intro h state present unaccepted
    rw [arrivals]
    by_cases new : h = w.nextHolder
    · exact ⟨(w.pcb p).localPort, by simp [new]⟩
    · simp only [Function.update_of_ne new] at present unaccepted
      rcases queue.waiting h state present unaccepted with ⟨port, member⟩
      exact ⟨port, List.mem_append_left _ member⟩
  · intro h port member
    rw [returns]
    rw [arrivals] at member
    rcases List.mem_append.mp member with old | new
    · simp only [Function.update_of_ne (queue.arrived h port old).1.ne]
      exact queue.accepted h port old
    · cases List.mem_singleton.mp new
      simp only [Function.update_self, Bool.false_eq_true, false_iff]
      exact fun member => absurd (known _ member) (lt_irrefl _)
  · rw [returns, arrivals]
    exact fun a member => List.mem_append_left _ (queue.returned member)
  · rw [returns]
    exact queue.returnOrder
  · rw [returns]
    exact queue.once
  · rw [returns, arrivals]
    intro h h' port member member' before skipped
    have below : h < w.nextHolder := before.trans (known _ member')
    simp only [Function.update_of_ne below.ne]
    rcases List.mem_append.mp member with old | new
    · exact queue.passed h h' port old member' before skipped
    · cases List.mem_singleton.mp new
      exact absurd below (lt_irrefl _)

theorem Change.queue (change : Change safe clean w w') (linked : Linked w) (queue : Queue w) :
    Queue w' := by
  have since := change.since
  have unborn (h : Nat) (late : w.nextHolder ≤ h) : (w.holder h).state = none := by
    cases there : (w.holder h).state with
    | none => rfl
    | some state => exact absurd (linked.owner h state there).2.2.1 (not_lt.mpr late)
  -- Nobody has a state for a holder that does not exist.
  have absent (h : Nat) (late : w.nextHolder ≤ h) (state : ConnectionState)
      (there : (w.holder h).state = some state) : (w.holder h).accepted = true := by
    rw [unborn h late] at there
    exact absurd there (by simp)
  cases change with
  | flags misuse nullArg client server kept =>
      exact queue.of_since since rfl (fun h _ state there => ⟨state, there, id, rfl⟩) absent
  | event e bytes =>
      refine queue.of_since since ?_ (fun h _ state there => ⟨state, there, id, rfl⟩) absent
      rcases bytes with ⟨h, b, rfl⟩ | ⟨h, b, rfl⟩ <;> simp [arrivals, emit, Event.arrival]
  | pcb p q arg errf recv port follows rxClosed =>
      refine queue.of_since since rfl ?_ absent
      intro h _ state there
      refine ⟨state, there, id, ?_⟩
      by_cases same : state.pcb = p
      · subst same
        simp [setPcb, port h (linked.owner h state there).2.2.2.1]
      · simp [setPcb, Function.update_of_ne same]
  | free p unused =>
      exact queue.of_since since rfl (fun h _ state there => ⟨state, there, id, rfl⟩) absent
  | closeListener l stopped =>
      refine queue.of_since since rfl ?_ absent
      intro h _ state there
      refine ⟨state, there, id, ?_⟩
      simp only [tcpListenClosed]
      split <;> rfl
  | holder h x accepted pcb removeFunc =>
      refine queue.of_since since rfl ?_ ?_
      · intro h' _ state' there'
        by_cases same : h' = h
        · subst same
          simp only [setHolder, Function.update_self] at there'
          rw [there'] at pcb removeFunc
          rcases Option.map_eq_some_iff.mp pcb.symm with ⟨state, there, block⟩
          rw [there] at removeFunc
          refine ⟨state, there, ?_, ?_⟩
          · intro listed
            simpa [listed] using removeFunc
          · simp only [setHolder]
            rw [show state'.pcb = state.pcb from block.symm]
        · simp only [setHolder, Function.update_of_ne same] at there'
          exact ⟨state', there', id, rfl⟩
      · intro h' late state' there'
        by_cases same : h' = h
        · subst same
          simp only [setHolder, Function.update_self] at there'
          rw [there', unborn h' late] at pcb
          exact absurd pcb (by simp)
        · simp only [setHolder, Function.update_of_ne same] at there' ⊢
          exact absent h' late state' there'
  | detach h =>
      cases there : (w.holder h).state with
      | none => rwa [detach_none there]
      | some old =>
          rw [detach_some there] at since ⊢
          refine queue.of_since since rfl ?_ ?_
          · intro h' _ state' there'
            by_cases same : h' = h
            · subst same
              simp at there'
            · simp only [Function.update_of_ne same] at there'
              refine ⟨state', there', id, ?_⟩
              by_cases block : state'.pcb = old.pcb
              · exact absurd (linked.unique there' there block) same
              · simp [Function.update_of_ne block]
          · intro h' late state' there'
            by_cases same : h' = h
            · subst same
              simp at there'
            · simp only [Function.update_of_ne same] at there' ⊢
              exact absent h' late state' there'
  | alloc q place free room arg rxOpen =>
      refine queue.of_since since rfl ?_ absent
      intro h _ state there
      have below := (linked.owner h state there).1
      exact ⟨state, there, id, by simp [setPcb, Function.update_of_ne below.ne]⟩
  | listen q room state arg =>
      refine queue.of_since since rfl ?_ absent
      intro h _ state there
      have below := (linked.owner h state there).1
      exact ⟨state, there, id, by simp [setPcb, Function.update_of_ne below.ne]⟩
  | stopListening l =>
      exact queue.of_since since rfl (fun h _ state there => ⟨state, there, id, rfl⟩) absent
  | make p x there free open_ accepted =>
      rw [makeHolder_eq x there] at since ⊢
      refine queue.of_since since rfl ?_ ?_
      · intro h below state present
        simp only [Function.update_of_ne below.ne] at present
        refine ⟨state, present, id, ?_⟩
        simp [Function.update_of_ne (linked.unattached free present)]
      · intro h late state present
        by_cases new : h = w.nextHolder
        · simp [new, accepted]
        · simp only [Function.update_of_ne new] at present ⊢
          exact absent h late state present
  | add h last accepted state =>
      rcases state with ⟨old, there, -⟩
      rw [addConnection_eq there] at since ⊢
      refine queue.of_since since rfl ?_ ?_
      · intro h' _ state' there'
        by_cases same : h' = h
        · subst same
          simp only [Function.update_self, Option.some.injEq] at there'
          subst there'
          exact ⟨old, there, by simp, rfl⟩
        · simp only [Function.update_of_ne same] at there'
          exact ⟨state', there', id, rfl⟩
      · intro h' late state' there'
        have other : h' ≠ h := by omega
        simp only [Function.update_of_ne other] at there' ⊢
        exact absent h' late state' there'
  | arrive p finOk there handshake => exact queue.arrive linked finOk there handshake

theorem Changes.queue (changes : Changes safe clean w w') (good : Good safe clean w)
    (queue : Queue w) : Queue w' := by
  induction changes with
  | refl => exact queue
  | tail before change ih => exact change.queue (Changes.good before good).linked ih

end QNEthernet.Tcp
