import QNEthernet.Timers.Order

/-! How late a timeout can be when the program keeps calling `Ethernet.loop()`. -/

namespace QNEthernet.Timers.State

variable {τ : Type} [Time τ]

/-! ## The program's part -/

/-- The last time that `Ethernet.loop()` was called or a poll ended, from what it was before the step. -/
def since (last : Nat) (s : State τ) (o : Op) : Nat :=
  if !s.aborted ∧ (o = .loop ∨ s.activities.isEmpty ≠ (s.step o).activities.isEmpty) then s.clock else last

/-- In the run, `Ethernet.loop()` is called again within `gap` milliseconds, none of its polls takes longer than `busy`,
nor does setting up the timers, and it is not called from a handler. -/
def Attended (gap busy : Nat) : Nat → State τ → List Op → Prop
  | last, s, [] => s.clock ≤ last + if s.activities = [] then gap else busy
  | last, s, o :: ops =>
      (s.clock ≤ last + if s.activities = [] then gap else busy) ∧ (o = .loop → s.activities = []) ∧
        Attended gap busy (since last s o) (s.step o) ops

instance Attended.decidable (gap busy : Nat) :
    (last : Nat) → (s : State τ) → (ops : List Op) → Decidable (Attended gap busy last s ops)
  | last, s, [] => inferInstanceAs (Decidable (s.clock ≤ last + if s.activities = [] then gap else busy))
  | last, s, o :: ops =>
      have := Attended.decidable gap busy (since last s o) (s.step o) ops
      inferInstanceAs (Decidable (_ ∧ _ ∧ _))

/-! ## Where the program is -/

/-- How a poll goes, with the time up to which it is known that no timeout is left. -/
inductive Phase (gap busy start last checked : Nat) (s : State Nat) : Prop
  | starting (i : Nat) (under_way : s.activities = [.init i]) (at_start : last = start ∧ checked = start)
      (unpolled : s.lastPollTime = 0)
  | idle (under_way : s.activities = []) (recent : last ≤ checked + busy + 124)
      (polled : s.lastPollTime ≤ checked + busy) (checked_before : checked ≤ s.lastPollTime + start)
  | polling (under_way : s.activities = [.poll]) (recent : last ≤ checked + busy + 124 + gap)
  | checking (now : Nat) (under_way : s.activities = [.check now, .driverPoll])
      (recent : last ≤ checked + busy + 124 + gap) (begun : last ≤ now)
  | handling (now : Nat) (a : Activity Nat) (under_way : s.activities = [a, .check now, .driverPoll])
      (handler : ∃ h, running h = [a]) (recent : last ≤ checked + busy + 124 + gap) (begun : last ≤ now)
      (current : checked ≤ s.currentTimeoutDueTime)
  | polled (under_way : s.activities = [.driverPoll]) (recent : last ≤ checked)

variable {s s' : State Nat} {gap busy start last checked : Nat}

theorem running_singleton {h : Handler} {a : Activity Nat} (only : running h = [a]) :
    (∃ i, a = .cyclicTimer i) ∨ a = .tcpTimer := by
  cases h with
  | cyclic i => exact .inl ⟨i, (List.head_eq_of_cons_eq only).symm⟩
  | tcp => exact .inr (List.head_eq_of_cons_eq only).symm
  | other handler arg => cases only

theorem Phase.congr (phase : Phase gap busy start last checked s) (activities : s'.activities = s.activities)
    (polled : s'.lastPollTime = s.lastPollTime) (current : s'.currentTimeoutDueTime = s.currentTimeoutDueTime) :
    Phase gap busy start last checked s' := by
  cases phase with
  | starting i under_way at_start unpolled =>
    exact .starting i (activities.trans under_way) at_start (polled.trans unpolled)
  | idle under_way recent polled' before =>
    exact .idle (activities.trans under_way) recent (polled ▸ polled') (polled ▸ before)
  | polling under_way recent => exact .polling (activities.trans under_way) recent
  | checking now under_way recent begun => exact .checking now (activities.trans under_way) recent begun
  | handling now a under_way handler recent begun current' =>
    exact .handling now a (activities.trans under_way) handler recent begun (current ▸ current')
  | polled under_way recent => exact .polled (activities.trans under_way) recent

/-- The time that is known to be checked lies behind, and every timeout on the list is due after it. -/
structure Attentive (gap busy start last : Nat) (s : State Nat) (checked : Nat) : Prop where
  phase : Phase gap busy start last checked s
  past : checked ≤ s.clock
  seen : last ≤ s.clock
  pending : ∀ t ∈ s.nextTimeout, checked ≤ t.time

theorem Attentive.late (attentive : Attentive gap busy start last s checked)
    (attended : s.clock ≤ last + if s.activities = [] then gap else busy) :
    s.clock ≤ checked + (gap + 2 * busy + 124) := by
  cases attentive.phase with
  | starting i under_way at_start =>
    rw [under_way, if_neg (by simp)] at attended
    omega
  | idle under_way recent =>
    rw [under_way, if_pos rfl] at attended
    omega
  | polling under_way recent | checking now under_way recent | handling now a under_way handler recent
  | polled under_way recent =>
    rw [under_way, if_neg (by simp)] at attended
    omega

theorem Attentive.pending_late (attentive : Attentive gap busy start last s checked)
    (attended : s.clock ≤ last + if s.activities = [] then gap else busy) :
    ∀ t ∈ s.nextTimeout, s.clock ≤ t.time + (gap + 2 * busy + 124) := by
  intro t member
  calc s.clock ≤ checked + (gap + 2 * busy + 124) := attentive.late attended
    _ ≤ t.time + (gap + 2 * busy + 124) := Nat.add_le_add_right (attentive.pending t member) _

theorem Attentive.timely (attentive : Attentive gap busy start last s checked)
    (attended : s.clock ≤ last + if s.activities = [] then gap else busy) (brisk : gap + 2 * busy + 124 ≤ 2 ^ 30) :
    s.Timely := by
  have late := attentive.late attended
  refine ⟨?_, ?_⟩
  · intro t member
    have due := attentive.pending_late attended t member
    omega
  · cases attentive.phase with
    | starting i under_way => simp [under_way, Activity.Timely]
    | idle under_way => simp [under_way]
    | polling under_way => simp [under_way, Activity.Timely]
    | checking now under_way recent begun =>
      rw [under_way, if_neg (by simp)] at attended
      simp only [under_way, List.forall_mem_cons, Activity.Timely]
      exact ⟨by omega, trivial, by simp⟩
    | handling now a under_way handler recent begun current =>
      rw [under_way, if_neg (by simp)] at attended
      have own : a.Timely s := by
        obtain ⟨h, only⟩ := handler
        rcases running_singleton only with ⟨i, rfl⟩ | rfl
        · change s.clock ≤ s.currentTimeoutDueTime + 2 ^ 30
          omega
        · trivial
      rw [under_way]
      simp only [List.forall_mem_cons]
      refine ⟨own, ?_, trivial, by simp⟩
      change s.clock ≤ now + 2 ^ 30
      omega
    | polled under_way => simp [under_way, Activity.Timely]

/-! ## A step -/

theorem since_eq {o : Op} (other : o ≠ .loop) (same : s.activities.isEmpty = (s.step o).activities.isEmpty) :
    since last s o = last := by
  rw [since, if_neg (by simp [other, same])]

theorem since_moved {o : Op} (going : s.aborted = false)
    (moved : o = .loop ∨ s.activities.isEmpty ≠ (s.step o).activities.isEmpty) : since last s o = s.clock :=
  if_pos ⟨by simp [going], moved⟩

theorem Change.pending_after (change : Change s s') (past : checked ≤ s.clock)
    (pending : ∀ t ∈ s.nextTimeout, checked ≤ t.time) : ∀ t ∈ s'.nextTimeout, checked ≤ t.time := by
  cases change with
  | quiet | returns => exact pending
  | set new now_on =>
    intro t member
    rcases Agenda.mem_insert.mp member with rfl | member
    · exact past.trans now_on
    · exact pending t member
  | cancel _ left perm part => exact fun t member => pending t (part.subset member)
  | call _ next list =>
    rw [list] at pending
    exact fun t member => pending t (List.mem_cons_of_mem _ member)

theorem checkTimeouts_busy {now : Nat} (under_way : s.activities = [.check now, .driverPoll]) :
    (s.checkTimeouts now [.driverPoll]).activities.isEmpty = false := by
  rw [checkTimeouts]
  split
  · rfl
  · split
    · dsimp only
      split
      · simp [under_way]
      · rfl
    · simp [under_way]

theorem Attentive.check (attentive : Attentive gap busy start last s checked) (sound : s.Sound) {now : Nat}
    (under_way : s.activities = [.check now, .driverPoll]) (recent : last ≤ checked + busy + 124 + gap)
    (begun : last ≤ now) :
    ∃ checked', Attentive gap busy start last (s.checkTimeouts now [.driverPoll]) checked' := by
  have past : now ≤ s.clock := sound.checks now (by simp [under_way])
  have ended (ret : UInt32) (later : ∀ t ∈ s.nextTimeout, now ≤ t.time) :
      Attentive gap busy start last (s.endCheck now ret [.driverPoll]) now :=
    { phase := .polled rfl begun, past := past, seen := attentive.seen, pending := later }
  rw [checkTimeouts]
  split
  · next list => exact ⟨now, ended _ (by simp [list])⟩
  · next t next list =>
    have sorted := sound.sorted
    have pending := attentive.pending
    rw [list] at sorted pending
    by_cases early : now < t.time
    · have less : timeLessThan now t.time = true := decide_eq_true early
      have later : ∀ t' ∈ s.nextTimeout, now ≤ t'.time := by
        rw [list]
        refine List.forall_mem_cons.mpr ⟨early.le, ?_⟩
        intro t' member
        exact early.le.trans ((List.pairwise_cons.mp sorted).1 t' member)
      rw [if_pos less]
      dsimp only
      split
      · exact ⟨checked, { attentive with phase := attentive.phase.congr rfl rfl rfl }⟩
      · exact ⟨now, ended _ later⟩
    · have less : ¬ timeLessThan now t.time = true := mt of_decide_eq_true early
      rw [if_neg less]
      refine ⟨checked, ?_, attentive.past, attentive.seen, fun t' member => pending t' (List.mem_cons_of_mem _ member)⟩
      rcases t with ⟨time, handler⟩
      have current : checked ≤ time := pending ⟨time, handler⟩ List.mem_cons_self
      cases handler with
      | cyclic i =>
        exact .handling now (.cyclicTimer i) (congrArg (List.cons _) under_way) ⟨.cyclic i, rfl⟩ recent begun current
      | tcp => exact .handling now .tcpTimer (congrArg (List.cons _) under_way) ⟨.tcp, rfl⟩ recent begun current
      | other handler arg => exact .checking now under_way recent begun

theorem step_going (going : s.aborted = false) (o : Op) : s.step o = s.op o := by
  rw [step, going, if_neg Bool.false_ne_true]

theorem Attentive.stay {o : Op} (result : s.step o = s') (attentive : Attentive gap busy start last s' checked)
    (other : o ≠ .loop) (same : s.activities.isEmpty = s'.activities.isEmpty) :
    ∃ checked', Attentive gap busy start (since last s o) (s.step o) checked' := by
  rw [since_eq other (by rw [result, same]), result]
  exact ⟨checked, attentive⟩

theorem Attentive.turn (attentive : Attentive gap busy start last s checked) (sound : s.Sound)
    (going : s.aborted = false) (attended : s.clock ≤ last + if s.activities = [] then gap else busy) :
    ∃ checked', Attentive gap busy start (since last s .turn) (s.step .turn) checked' := by
  have stepped : s.step .turn = s.turn := step_going going .turn
  have past := attentive.past
  have pending := (step_change sound .turn).pending_after past attentive.pending
  cases attentive.phase with
  | starting i under_way at_start unpolled =>
    rw [under_way, if_neg (by simp)] at attended
    rw [State.turn, under_way] at stepped
    dsimp only at stepped
    split at stepped
    · have sets := sysTimeout_onlySets (intervalMs i) (.cyclic i) { s with activities := [.init (i + 1)] }
      rw [stepped] at pending
      have known : Attentive gap busy start last
          (sysTimeout (intervalMs i) (.cyclic i) { s with activities := [.init (i + 1)] }) checked :=
        { phase := .starting (i + 1) sets.activities at_start (sets.lastPollTime.trans unpolled)
          past := past.trans_eq sets.clock.symm
          seen := attentive.seen.trans_eq sets.clock.symm
          pending := pending }
      exact Attentive.stay stepped known (by simp) (by rw [sets.activities, under_way]; rfl)
    · have moved : since last s .turn = s.clock := since_moved going (.inr (by rw [stepped, under_way]; simp))
      rw [stepped] at pending
      rw [moved, stepped]
      refine ⟨checked, .idle rfl ?_ ?_ ?_, past, le_rfl, pending⟩
      · omega
      · exact unpolled.trans_le (Nat.zero_le _)
      · exact at_start.2.trans_le (Nat.le_add_left _ _)
  | idle under_way =>
    have same : s.turn = s := by rw [State.turn, under_way]
    exact Attentive.stay (stepped.trans same) attentive (by simp) rfl
  | polling under_way recent =>
    have same : s.turn = { s with activities := [.check s.clock, .driverPoll] } := by
      rw [State.turn, under_way]
      rfl
    rw [stepped.trans same] at pending
    have known : Attentive gap busy start last { s with activities := [.check s.clock, .driverPoll] } checked :=
      ⟨.checking s.clock rfl recent attentive.seen, past, attentive.seen, pending⟩
    exact Attentive.stay (stepped.trans same) known (by simp) (by rw [under_way]; rfl)
  | checking now under_way recent begun =>
    have same : s.turn = s.checkTimeouts now [.driverPoll] := by rw [State.turn, under_way]
    obtain ⟨checked', known⟩ := attentive.check sound under_way recent begun
    exact Attentive.stay (stepped.trans same) known (by simp) (by rw [under_way, checkTimeouts_busy under_way]; rfl)
  | handling now a under_way handler recent begun current =>
    have sets : OnlySets { s with activities := [.check now, .driverPoll] } s.turn := by
      obtain ⟨h, only⟩ := handler
      rw [State.turn, under_way]
      rcases running_singleton only with ⟨i, rfl⟩ | rfl
      · exact cyclicTimer_onlySets ..
      · exact tcpTimer_onlySets ..
    rw [stepped] at pending
    have known : Attentive gap busy start last s.turn checked :=
      { phase := .checking now sets.activities recent begun
        past := past.trans_eq sets.clock.symm
        seen := attentive.seen.trans_eq sets.clock.symm
        pending := pending }
    exact Attentive.stay stepped known (by simp) (by rw [under_way, sets.activities]; rfl)
  | polled under_way recent =>
    rw [under_way, if_neg (by simp)] at attended
    have same : s.turn = { s with activities := [], lastPollTime := s.clock } := by
      rw [State.turn, under_way]
      rfl
    have moved : since last s .turn = s.clock := since_moved going (.inr (by rw [stepped, same, under_way]; simp))
    rw [stepped.trans same] at pending
    rw [moved, stepped.trans same]
    refine ⟨checked, .idle rfl ?_ ?_ ?_, past, le_rfl, pending⟩
    · omega
    · change s.clock ≤ _
      omega
    · exact past.trans (Nat.le_add_right _ _)

theorem Attentive.loop (attentive : Attentive gap busy start last s checked) (going : s.aborted = false)
    (attended : s.clock ≤ last + if s.activities = [] then gap else busy) (outside : s.activities = [])
    (early : start + gap + 2 * busy + 124 < 2 ^ 32) :
    ∃ checked', Attentive gap busy start (since last s .loop) (s.step .loop) checked' := by
  have stepped : s.step .loop = s.loop := step_going going .loop
  have moved : since last s .loop = s.clock := since_moved going (.inl rfl)
  have late := attentive.late attended
  rw [outside, if_pos rfl] at attended
  rw [moved, stepped, State.loop]
  cases attentive.phase with
  | starting i under_way | polling under_way | checking now under_way | handling now a under_way | polled under_way =>
    rw [outside] at under_way
    cases under_way
  | idle under_way recent polled before =>
    split
    · exact ⟨checked, .polling (congrArg (List.cons _) outside) (by omega), attentive.past, le_rfl, attentive.pending⟩
    · next soon =>
      refine ⟨checked, .idle outside ?_ polled before, attentive.past, le_rfl, attentive.pending⟩
      have elapsed : (Time.sub (sysNow s.clock : Nat) s.lastPollTime).toNat = s.clock - s.lastPollTime := by
        change (UInt32.ofNat (s.clock - s.lastPollTime)).toNat = _
        rw [UInt32.toNat_ofNat', Nat.mod_eq_of_lt (by omega)]
      have short : (Time.sub (sysNow s.clock : Nat) s.lastPollTime).toNat < 125 :=
        UInt32.lt_iff_toNat_lt.mp (UInt32.not_le.mp soon)
      omega

theorem Attentive.step (attentive : Attentive gap busy start last s checked) (sound : s.Sound)
    (attended : s.clock ≤ last + if s.activities = [] then gap else busy) {o : Op} (outside : o = .loop → s.activities = [])
    (early : start + gap + 2 * busy + 124 < 2 ^ 32) :
    ∃ checked', Attentive gap busy start (since last s o) (s.step o) checked' := by
  cases going : s.aborted with
  | true =>
    have stopped : since last s o = last := by rw [since, if_neg (by simp [going])]
    rw [stopped, step_stopped going]
    exact ⟨checked, attentive⟩
  | false =>
    have stepped := step_going going o
    have pending := (step_change sound o).pending_after attentive.past attentive.pending
    have later := (step_change sound o).later
    rw [stepped] at pending later
    have quiet (other : o ≠ .loop) (activities : (s.op o).activities = s.activities)
        (polled : (s.op o).lastPollTime = s.lastPollTime)
        (current : (s.op o).currentTimeoutDueTime = s.currentTimeoutDueTime) :
        ∃ checked', Attentive gap busy start (since last s o) (s.step o) checked' :=
      Attentive.stay stepped
        ⟨attentive.phase.congr activities polled current, attentive.past.trans later, attentive.seen.trans later, pending⟩
        other (by rw [activities])
    cases o with
    | pass | untimeout | tcpRmv => exact quiet (by simp) rfl rfl rfl
    | timeout msecs handler arg =>
      have sets := sysTimeout_onlySets msecs (.other handler arg) s
      exact quiet (by simp) sets.activities sets.lastPollTime sets.currentTimeoutDueTime
    | tcpReg active =>
      have sets := tcpReg_onlySets active s
      exact quiet (by simp) sets.activities sets.lastPollTime sets.currentTimeoutDueTime
    | loop => exact attentive.loop going attended (outside rfl) early
    | turn => exact attentive.turn sound going attended

/-! ## A run -/

theorem Attentive.boot (clock : Nat) : Attentive gap busy clock clock (State.boot clock : State Nat) clock where
  phase := .starting 1 rfl ⟨rfl, rfl⟩ rfl
  past := le_rfl
  seen := le_rfl
  pending := by simp [State.boot]

theorem wrap_idle (s : State Nat) : s.wrap.activities = [] ↔ s.activities = [] := List.map_eq_nil_iff

theorem since_wrap (sound : s.Sound) (timely : s.Timely) (o : Op) : since last s.wrap o = since last s o := by
  have idle (s : State Nat) : s.wrap.activities.isEmpty = s.activities.isEmpty := List.isEmpty_map
  rw [since, since, step_wrap sound timely, idle, idle]
  rfl

/-- The program's part, kept with the 32-bit times, is kept with the others, and then no timeout is left for long. -/
theorem Attentive.run (attentive : Attentive gap busy start last s checked) (sound : s.Sound)
    (early : start + gap + 2 * busy + 124 < 2 ^ 32) (brisk : gap + 2 * busy + 124 ≤ 2 ^ 30) (ops : List Op)
    (attended : Attended gap busy last s.wrap ops) :
    Attended gap busy last s ops ∧ Run.Allowed (fun s _ => s.Timely) State.step s ops := by
  induction ops generalizing s last checked with
  | nil =>
    rw [Attended] at attended ⊢
    simp only [wrap_idle] at attended
    exact ⟨attended, trivial⟩
  | cons o ops ih =>
    obtain ⟨within, outside, later⟩ := attended
    simp only [wrap_idle] at within outside
    have timely : s.Timely := attentive.timely within brisk
    obtain ⟨checked', next⟩ := attentive.step sound within outside early
    rw [since_wrap sound timely, step_wrap sound timely] at later
    obtain ⟨attended', timely'⟩ := ih next (sound.step o) later
    exact ⟨⟨within, outside, attended'⟩, timely, timely'⟩

/-- No timeout was called later than that after it was due, and none that is on the list is due for longer. -/
def Punctual (lateness : Nat) (s : State Nat) : Prop :=
  (∀ c ∈ s.called, c.2 ≤ c.1.time + lateness) ∧ ∀ t ∈ s.nextTimeout, s.clock ≤ t.time + lateness

theorem Change.called_late (change : Change s s') {lateness : Nat}
    (pending : ∀ t ∈ s.nextTimeout, s.clock ≤ t.time + lateness) (called : ∀ c ∈ s.called, c.2 ≤ c.1.time + lateness) :
    ∀ c ∈ s'.called, c.2 ≤ c.1.time + lateness := by
  cases change with
  | quiet | set | cancel | returns => exact called
  | call t next list =>
    refine List.forall_mem_cons.mpr ⟨?_, called⟩
    exact pending t (by rw [list]; exact List.mem_cons_self)

theorem Attentive.punctual (attentive : Attentive gap busy start last s checked) (sound : s.Sound)
    (early : start + gap + 2 * busy + 124 < 2 ^ 32) (ops : List Op) (attended : Attended gap busy last s ops)
    (called : ∀ c ∈ s.called, c.2 ≤ c.1.time + (gap + 2 * busy + 124)) :
    Punctual (gap + 2 * busy + 124) (ops.foldl State.step s) := by
  induction ops generalizing s last checked with
  | nil => exact ⟨called, attentive.pending_late attended⟩
  | cons o ops ih =>
    obtain ⟨within, outside, later⟩ := attended
    obtain ⟨checked', next⟩ := attentive.step sound within outside early
    have called' := (step_change sound o).called_late (attentive.pending_late within) called
    exact ih next (sound.step o) later called'

/-- A program that keeps calling `Ethernet.loop()` has its timeouts called once each, in order, none early and none later
than a gap, two polls and the time between polls, however often the 32-bit times go round. -/
theorem timeouts_punctual (gap busy clock : Nat) (early : clock + gap + 2 * busy + 124 < 2 ^ 32)
    (brisk : gap + 2 * busy + 124 ≤ 2 ^ 30) (ops : List Op)
    (attended : Attended gap busy clock (State.boot clock : State UInt32) ops) :
    ops.foldl State.step (State.boot clock : State UInt32) = (ops.foldl State.step (State.boot clock : State Nat)).wrap ∧
      (ops.foldl State.step (State.boot clock : State Nat)).History ∧
      Punctual (gap + 2 * busy + 124) (ops.foldl State.step (State.boot clock : State Nat)) := by
  have start : Attentive gap busy clock clock (State.boot clock : State Nat) clock := Attentive.boot clock
  have sound : (State.boot clock : State Nat).Sound := Sound.boot clock
  obtain ⟨attended', timely⟩ := start.run sound early brisk ops attended
  exact ⟨run_wrap ops sound timely, History.run sound (History.boot clock) ops timely,
    start.punctual sound early ops attended' (by simp [State.boot])⟩

/-- The list is set up, and of two calls of `Ethernet.loop()` the second polls. -/
def secondCallPolls : List Op :=
  [.replicate 8 .turn, [.timeout 1000 1 1, .tcpReg true, .pass 40, .loop, .pass 100, .loop], .replicate 7 .turn].flatten

set_option maxRecDepth 4000 in
theorem timeouts_punctual_secondCallPolls :
    secondCallPolls.foldl State.step (State.boot 30 : State UInt32) =
        (secondCallPolls.foldl State.step (State.boot 30 : State Nat)).wrap ∧
      (secondCallPolls.foldl State.step (State.boot 30 : State Nat)).History ∧
      Punctual (100 + 2 * 5 + 124) (secondCallPolls.foldl State.step (State.boot 30 : State Nat)) :=
  timeouts_punctual 100 5 30 (by decide) (by decide) secondCallPolls (by decide)

/-! ## No assertion fails -/

theorem checkTimeouts_slept (sound : s.Sound) (timely : s.Timely) {now : Nat} {rest : List (Activity Nat)}
    (under_way : s.activities = .check now :: rest) : (s.checkTimeouts now rest).aborted = s.aborted := by
  have checking : .check now ∈ s.activities := by simp [under_way]
  have recent : s.clock ≤ now + 2 ^ 30 := timely.2 (.check now) checking
  rw [checkTimeouts]
  split
  · rfl
  · next t next list =>
    have ahead := sound.ahead t (by simp [list])
    split
    · have short : Time.sub t.time now ≤ lwipMaxTimeout := by
        apply UInt32.le_iff_toNat_le.mpr
        have bound : lwipMaxTimeout.toNat = 2 ^ 31 - 1 := by decide
        change (UInt32.ofNat (t.time - now)).toNat ≤ _
        rw [UInt32.toNat_ofNat', Nat.mod_eq_of_lt (by omega)]
        omega
      dsimp only
      rw [if_neg (not_not.mpr short)]
      rfl
    · rfl

theorem modest_wrap (o : Op) : Modest s.wrap o ↔ Modest s o := by
  have others : s.wrap.others = s.others := List.countP_map
  cases o with
  | timeout msecs handler arg =>
    change s.wrap.others < 8 ∧ _ ↔ _
    rw [others]
    rfl
  | pass | untimeout | tcpReg | tcpRmv | loop | turn => exact Iff.rfl

theorem modest_run_wrap (sound : s.Sound) (ops : List Op)
    (timely : Run.Allowed (fun s _ => s.Timely) State.step s ops) (modest : Run.Allowed Modest State.step s.wrap ops) :
    Run.Allowed Modest State.step s ops := by
  induction ops generalizing s with
  | nil => trivial
  | cons o ops ih =>
    obtain ⟨now, later⟩ := modest
    rw [step_wrap sound timely.1] at later
    exact ⟨(modest_wrap o).mp now, ih (sound.step o) timely.2 later⟩

/-- A program that keeps calling `Ethernet.loop()`, and has no more than eight timeouts of its own, never runs out of
entries, and no other assertion of the timeouts fails. -/
theorem timeouts_never_abort (gap busy clock : Nat) (early : clock + gap + 2 * busy + 124 < 2 ^ 32)
    (brisk : gap + 2 * busy + 124 ≤ 2 ^ 30) (ops : List Op)
    (attended : Attended gap busy clock (State.boot clock : State UInt32) ops)
    (modest : Run.Allowed Modest State.step (State.boot clock : State UInt32) ops) :
    (ops.foldl State.step (State.boot clock : State UInt32)).aborted = false := by
  have start : Attentive gap busy clock clock (State.boot clock : State Nat) clock := Attentive.boot clock
  have sound : (State.boot clock : State Nat).Sound := Sound.boot clock
  obtain ⟨attended', timely⟩ := start.run sound early brisk ops attended
  have modest' : Run.Allowed Modest State.step (State.boot clock : State Nat) ops := modest_run_wrap sound ops timely modest
  have kept (s : State Nat) (o : Op) (allowed : s.Timely ∧ Modest s o)
      (known : s.Sound ∧ s.Tokens ∧ s.others ≤ 8 ∧ s.aborted = false) :
      (s.step o).Sound ∧ (s.step o).Tokens ∧ (s.step o).others ≤ 8 ∧ (s.step o).aborted = false := by
    obtain ⟨timely, modest⟩ := allowed
    obtain ⟨sound, tokens, few, going⟩ := known
    have going' : (s.step o).aborted = false :=
      (tokens.step_aborted few modest fun now rest under_way => checkTimeouts_slept sound timely under_way).trans going
    exact ⟨sound.step o, tokens.step o going', others_step_le few modest, going'⟩
  have final := Run.allowed_preserves _ _ State.step kept ops _ (timely.and modest')
    ⟨sound, Tokens.boot clock, Nat.zero_le _, rfl⟩
  have same : ops.foldl State.step (State.boot clock : State UInt32) =
      (ops.foldl State.step (State.boot clock : State Nat)).wrap := run_wrap ops sound timely
  rw [same]
  exact final.2.2.2

set_option maxRecDepth 4000 in
theorem timeouts_never_abort_secondCallPolls :
    (secondCallPolls.foldl State.step (State.boot 30 : State UInt32)).aborted = false :=
  timeouts_never_abort 100 5 30 (by decide) (by decide) secondCallPolls (by decide) (by decide)

end QNEthernet.Timers.State
