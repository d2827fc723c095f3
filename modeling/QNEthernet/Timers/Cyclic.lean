import QNEthernet.Timers.Prompt

/-! A cyclic timer whose interval is long enough does not drift. -/

namespace QNEthernet.Timers.State

/-- The calls of a cyclic timer, the latest first, each with the clock at it. -/
def calls {τ : Type} (i : Nat) (s : State τ) : List (SysTimeo τ × Nat) := s.called.filter (·.1.h = .cyclic i)

variable {s s' : State Nat} {i gap busy start last checked : Nat}

/-- The calls are due one interval after another, and what is on the list or running carries on with that. -/
structure Beating (i first : Nat) (s : State Nat) : Prop where
  called : ∀ n c, (s.calls i).reverse[n]? = some c → c.1.time = first + (n + 1) * (intervalMs i).toNat
  pending : ∀ t ∈ s.nextTimeout, t.h = .cyclic i → t.time = first + ((s.calls i).length + 1) * (intervalMs i).toNat
  handling : .cyclicTimer i ∈ s.activities →
    s.currentTimeoutDueTime = first + (s.calls i).length * (intervalMs i).toNat

def Unset (i : Nat) (s : State Nat) : Prop := ∃ j ≤ i, .init j ∈ s.activities

structure Rhythm (i start busy : Nat) (s : State Nat) : Prop where
  unset : s.Unset i → s.calls i = []
  set : ¬ s.Unset i → ∃ first, start ≤ first ∧ first ≤ start + busy ∧ Beating i first s

/-! ## One of each -/

theorem Tokens.one (tokens : s.Tokens) (cyclic : 1 ≤ i ∧ i < lwipCyclicTimers.length) : s.count (.cyclic i) = 1 := by
  obtain ⟨started, inside⟩ := cyclic
  have small : i < 8 := inside
  rw [count, tokens.load_eq _ (fun _ _ => rfl), expected]
  interval_cases i <;> simp [List.range']

theorem Tokens.not_pending (tokens : s.Tokens) (cyclic : 1 ≤ i ∧ i < lwipCyclicTimers.length) {a : Activity Nat}
    (under_way : a ∈ s.activities) (sets : 0 < a.held fun h => if h = .cyclic i then 1 else 0) :
    ∀ t ∈ s.nextTimeout, t.h ≠ .cyclic i := by
  intro t member same
  have one := tokens.one cyclic
  rw [count, load] at one
  have held := List.single_le_sum (fun _ _ => Nat.zero_le _) _
    (List.mem_map_of_mem (f := Activity.held fun h => if h = .cyclic i then 1 else 0) under_way)
  have listed := List.single_le_sum (fun _ _ => Nat.zero_le _) _
    (List.mem_map_of_mem (f := fun t : SysTimeo Nat => if t.h = .cyclic i then 1 else 0) member)
  rw [if_pos same] at listed
  omega

theorem Tokens.only_first (tokens : s.Tokens) (cyclic : 1 ≤ i ∧ i < lwipCyclicTimers.length) {t : SysTimeo Nat}
    {next : List (SysTimeo Nat)} (list : s.nextTimeout = t :: next) (same : t.h = .cyclic i) :
    ∀ t' ∈ next, t'.h ≠ .cyclic i := by
  intro t' member same'
  have one := tokens.one cyclic
  have listed := List.single_le_sum (fun _ _ => Nat.zero_le _) _
    (List.mem_map_of_mem (f := fun t : SysTimeo Nat => if t.h = .cyclic i then 1 else 0) member)
  rw [if_pos same'] at listed
  rw [count, load, list, List.map_cons, List.sum_cons, if_pos same] at one
  omega

theorem held_init_pos {j : Nat} (reached : j ≤ i) (inside : i < lwipCyclicTimers.length) :
    0 < (Activity.init j : Activity Nat).held fun h => if h = .cyclic i then 1 else 0 := by
  have member : i ∈ List.range' j (lwipCyclicTimers.length - j) := by
    rw [List.mem_range'_1]
    omega
  have part := List.single_le_sum (fun _ _ => Nat.zero_le _) _
    (List.mem_map_of_mem (f := fun j => if Handler.cyclic j = .cyclic i then 1 else 0) member)
  rw [if_pos rfl] at part
  exact part

/-! ## A step -/

theorem Rhythm.quiet (rhythm : Rhythm i start busy s) (calls : s'.calls i = s.calls i)
    (unset : s'.Unset i ↔ s.Unset i) (pending : ∀ t ∈ s'.nextTimeout, t.h = .cyclic i → t ∈ s.nextTimeout)
    (handling : .cyclicTimer i ∈ s'.activities →
      .cyclicTimer i ∈ s.activities ∧ s'.currentTimeoutDueTime = s.currentTimeoutDueTime) : Rhythm i start busy s' := by
  refine ⟨?_, ?_⟩
  · intro starting
    rw [calls]
    exact rhythm.unset (unset.mp starting)
  · intro begun
    obtain ⟨first, after, before, beating⟩ := rhythm.set (mt unset.mpr begun)
    refine ⟨first, after, before, ?_, ?_, ?_⟩
    · rw [calls]
      exact beating.called
    · rw [calls]
      exact fun t member same => beating.pending t (pending t member same) same
    · intro running
      obtain ⟨running', same⟩ := handling running
      rw [calls, same]
      exact beating.handling running'

theorem Rhythm.goOn (rhythm : Rhythm i start busy s) {activities : List (Activity Nat)}
    (unset : (∃ j ≤ i, .init j ∈ activities) ↔ s.Unset i)
    (handling : .cyclicTimer i ∈ activities → .cyclicTimer i ∈ s.activities) :
    Rhythm i start busy { s with activities } :=
  rhythm.quiet rfl unset (fun _ member _ => member) fun running => ⟨handling running, rfl⟩

theorem mem_sysTimeoutAbs {absTime : Nat} {h : Handler} {t : SysTimeo Nat}
    (member : t ∈ (s.sysTimeoutAbs absTime h).nextTimeout) : t = ⟨absTime, h⟩ ∨ t ∈ s.nextTimeout := by
  rw [sysTimeoutAbs] at member
  split at member
  · exact .inr member
  · exact List.mem_cons.mp ((link_perm ⟨absTime, h⟩ s.nextTimeout).mem_iff.mp member)

theorem Rhythm.sets (rhythm : Rhythm i start busy s) {absTime : Nat} {h : Handler} (other : h ≠ .cyclic i) :
    Rhythm i start busy (s.sysTimeoutAbs absTime h) := by
  have sets := sysTimeoutAbs_onlySets absTime h s
  apply rhythm.quiet
  · exact congrArg (List.filter _) sets.called
  · rw [Unset, sets.activities]
    rfl
  · intro t member same
    rcases mem_sysTimeoutAbs member with rfl | known
    · exact absurd same other
    · exact known
  · rw [sets.activities, sets.currentTimeoutDueTime]
    exact fun running => ⟨running, rfl⟩

theorem Beating.of_set {first absTime : Nat} (absent : ∀ t ∈ s.nextTimeout, t.h ≠ .cyclic i)
    (idle : .cyclicTimer i ∉ s.activities)
    (called : ∀ n c, (s.calls i).reverse[n]? = some c → c.1.time = first + (n + 1) * (intervalMs i).toNat)
    (next : absTime = first + ((s.calls i).length + 1) * (intervalMs i).toNat) :
    Beating i first (s.sysTimeoutAbs absTime (.cyclic i)) := by
  have sets := sysTimeoutAbs_onlySets absTime (.cyclic i) s
  have calls : (s.sysTimeoutAbs absTime (.cyclic i)).calls i = s.calls i := congrArg (List.filter _) sets.called
  refine ⟨?_, ?_, ?_⟩
  · rw [calls]
    exact called
  · intro t member same
    rw [calls]
    rcases mem_sysTimeoutAbs member with rfl | listed
    · exact next
    · exact absurd same (absent t listed)
  · rw [sets.activities]
    exact fun running => absurd running idle

theorem Rhythm.setUp (rhythm : Rhythm i start busy s) (tokens : s.Tokens)
    (cyclic : 1 ≤ i ∧ i < lwipCyclicTimers.length) (under_way : s.activities = [.init i]) (from_start : start ≤ s.clock)
    (soon : s.clock ≤ start + busy) :
    Rhythm i start busy
      (sysTimeoutAbs (s.clock + (intervalMs i).toNat) (.cyclic i) { s with activities := [.init (i + 1)] }) := by
  have sets := sysTimeoutAbs_onlySets (s.clock + (intervalMs i).toNat) (.cyclic i) { s with activities := [.init (i + 1)] }
  have begun : .init i ∈ s.activities := by simp [under_way]
  have none_called : s.calls i = [] := rhythm.unset ⟨i, le_rfl, begun⟩
  have none_listed := tokens.not_pending cyclic begun (held_init_pos le_rfl cyclic.2)
  refine ⟨?_, fun _ => ⟨s.clock, from_start, soon, ?_⟩⟩
  · rintro ⟨j, reached, starting⟩
    rw [sets.activities] at starting
    simp only [List.mem_singleton, Activity.init.injEq] at starting
    omega
  · refine Beating.of_set (s := { s with activities := [.init (i + 1)] }) none_listed (by simp) ?_ ?_
    · change ∀ n c, (s.calls i).reverse[n]? = some c → _
      simp [none_called]
    · change _ = _ + ((s.calls i).length + 1) * _
      simp [none_called]

theorem Beating.call {first : Nat} (beating : Beating i first s) (tokens : s.Tokens)
    (cyclic : 1 ≤ i ∧ i < lwipCyclicTimers.length) {t : SysTimeo Nat} {next : List (SysTimeo Nat)}
    (list : s.nextTimeout = t :: next) (same : t.h = .cyclic i) {activities : List (Activity Nat)} :
    Beating i first
      { s with
        activities, nextTimeout := next, currentTimeoutDueTime := t.time, called := (t, s.clock) :: s.called } := by
  have due : t.time = first + ((s.calls i).length + 1) * (intervalMs i).toNat :=
    beating.pending t (by rw [list]; exact List.mem_cons_self) same
  have calls : ((t, s.clock) :: s.called).filter (fun c => decide (c.1.h = .cyclic i)) = (t, s.clock) :: s.calls i :=
    List.filter_cons_of_pos (decide_eq_true same)
  refine ⟨?_, ?_, ?_⟩
  · intro n c
    rw [State.calls, calls, List.reverse_cons, List.getElem?_append]
    split
    · exact beating.called n c
    · next beyond =>
      intro at_end
      rw [List.length_reverse] at beyond at_end
      obtain ⟨last, rfl⟩ := List.getElem?_eq_some_iff.mp at_end
      rw [List.length_singleton] at last
      have index : n = (s.calls i).length := by omega
      rw [List.getElem_singleton, index]
      exact due
  · intro t' member same'
    exact absurd same' (tokens.only_first cyclic list same t' member)
  · intro _
    rw [State.calls, calls, List.length_cons]
    exact due

theorem Rhythm.check (rhythm : Rhythm i start busy s) (tokens : s.Tokens)
    (cyclic : 1 ≤ i ∧ i < lwipCyclicTimers.length) {now : Nat} (under_way : s.activities = [.check now, .driverPoll]) :
    Rhythm i start busy (s.checkTimeouts now [.driverPoll]) := by
  have begun : ¬ s.Unset i := by simp [Unset, under_way]
  have ended (ret : UInt32) : Rhythm i start busy (s.endCheck now ret [.driverPoll]) :=
    rhythm.quiet rfl (by simp [Unset, endCheck, under_way]) (fun _ member _ => member) (by simp [endCheck])
  rw [checkTimeouts]
  split
  · exact ended _
  · next t next list =>
    split
    · dsimp only
      split
      · exact rhythm.quiet rfl Iff.rfl (fun _ member _ => member) fun running => ⟨running, rfl⟩
      · exact ended _
    · by_cases same : t.h = .cyclic i
      · obtain ⟨first, after, before, beating⟩ := rhythm.set begun
        refine ⟨?_, fun _ => ⟨first, after, before, beating.call tokens cyclic list same⟩⟩
        intro starting
        simp [Unset, same, running, under_way] at starting
      · have not_running : .cyclicTimer i ∉ running t.h ++ s.activities := by
          rw [under_way]
          cases handler : t.h with
          | cyclic j =>
            have different : j ≠ i := fun equal => same (by rw [handler, equal])
            simp [running, different.symm]
          | tcp | other => simp [running]
        have still_set : ¬ ∃ j ≤ i, .init j ∈ running t.h ++ s.activities := by
          rw [under_way]
          cases t.h with
          | cyclic | tcp | other => simp [running]
        refine rhythm.quiet ?_ (iff_of_false still_set begun) ?_ fun running => absurd running not_running
        · exact List.filter_cons_of_neg (by simp [same])
        · intro t' member _
          rw [list]
          exact List.mem_cons_of_mem _ member

theorem Rhythm.again (rhythm : Rhythm i start busy s) (tokens : s.Tokens)
    (cyclic : 1 ≤ i ∧ i < lwipCyclicTimers.length) {now : Nat}
    (under_way : s.activities = [.cyclicTimer i, .check now, .driverPoll])
    (in_time : s.clock ≤ s.currentTimeoutDueTime + (intervalMs i).toNat) :
    Rhythm i start busy (State.cyclicTimer i { s with activities := [.check now, .driverPoll] }) := by
  have begun : .cyclicTimer i ∈ s.activities := by simp [under_way]
  have sets := cyclicTimer_onlySets i { s with activities := [.check now, .driverPoll] }
  obtain ⟨first, after, before, beating⟩ := rhythm.set (by simp [Unset, under_way])
  have none_listed := tokens.not_pending cyclic begun (by simp [Activity.held])
  refine ⟨?_, fun _ => ⟨first, after, before, ?_⟩⟩
  · intro starting
    simp [Unset, sets.activities] at starting
  · have on_time : ¬ timeLessThan (Time.add s.currentTimeoutDueTime (intervalMs i)) (sysNow s.clock : Nat) = true :=
      mt of_decide_eq_true (Nat.not_lt.mpr in_time)
    rw [State.cyclicTimer, if_neg on_time]
    refine Beating.of_set (s := { s with activities := [.check now, .driverPoll] }) none_listed (by simp) beating.called ?_
    calc s.currentTimeoutDueTime + (intervalMs i).toNat
        = first + (s.calls i).length * (intervalMs i).toNat + (intervalMs i).toNat := by rw [beating.handling begun]
      _ = first + ((s.calls i).length + 1) * (intervalMs i).toNat := by rw [Nat.succ_mul, Nat.add_assoc]

theorem Rhythm.turn (rhythm : Rhythm i start busy s) (attentive : Attentive gap busy start last s checked)
    (tokens : s.Tokens) (cyclic : 1 ≤ i ∧ i < lwipCyclicTimers.length)
    (attended : s.clock ≤ last + if s.activities = [] then gap else busy)
    (long : gap + 2 * busy + 124 ≤ (intervalMs i).toNat) (running : s.turn.aborted = false) :
    Rhythm i start busy s.turn := by
  have late := attentive.late attended
  rw [State.turn] at running ⊢
  cases attentive.phase with
  | starting j under_way at_start =>
    rw [under_way] at running ⊢
    rw [under_way, if_neg (by simp)] at attended
    dsimp only at running ⊢
    split at running
    · next more =>
      rw [if_pos more]
      by_cases same : j = i
      · subst same
        rw [sysTimeout, if_neg (not_not.mpr (intervalMs_short j))]
        have past := attentive.past
        exact rhythm.setUp tokens cyclic under_way (by omega) (by omega)
      · obtain ⟨time, set⟩ := sysTimeout_running running
        rw [set]
        have later : j + 1 ≤ i ↔ j ≤ i := by omega
        have begun : Rhythm i start busy { s with activities := [.init (j + 1)] } :=
          rhythm.goOn (by simp [Unset, under_way, later]) (by simp)
        exact begun.sets (by simp [same])
    · next done =>
      rw [if_neg done]
      have passed : ¬ s.Unset i := by
        simp only [Unset, under_way, List.mem_singleton, Activity.init.injEq]
        omega
      exact rhythm.goOn (iff_of_false (by simp) passed) (by simp)
  | idle under_way =>
    rw [under_way]
    exact rhythm
  | polling under_way =>
    rw [under_way]
    exact rhythm.goOn (by simp [Unset, under_way]) (by simp)
  | checking now under_way =>
    rw [under_way]
    exact rhythm.check tokens cyclic under_way
  | handling now a under_way handler recent begun current =>
    rw [under_way] at running ⊢
    obtain ⟨h, only⟩ := handler
    rcases running_singleton only with ⟨j, rfl⟩ | rfl
    · by_cases same : j = i
      · subst same
        exact rhythm.again tokens cyclic under_way (by omega)
      · obtain ⟨time, set⟩ := cyclicTimer_eq j { s with activities := [.check now, .driverPoll] }
        dsimp only
        rw [set]
        have back : Rhythm i start busy { s with activities := [.check now, .driverPoll] } :=
          rhythm.goOn (by simp [Unset, under_way]) (by simp)
        exact back.sets (by simp [same])
    · have back : Rhythm i start busy { s with activities := [.check now, .driverPoll] } :=
        rhythm.goOn (by simp [Unset, under_way]) (by simp)
      dsimp only [tcpTimer] at running ⊢
      split at running
      · next needed =>
        rw [if_pos needed]
        obtain ⟨time, set⟩ := sysTimeout_running running
        rw [set]
        exact back.sets (by simp)
      · next idle =>
        rw [if_neg idle]
        exact back.quiet rfl Iff.rfl (fun _ member _ => member) (by simp)
  | polled under_way =>
    rw [under_way]
    exact rhythm.quiet rfl (by simp [Unset, under_way]) (fun _ member _ => member) (by simp)

theorem Rhythm.step (rhythm : Rhythm i start busy s) (attentive : Attentive gap busy start last s checked)
    (tokens : s.Tokens) (cyclic : 1 ≤ i ∧ i < lwipCyclicTimers.length)
    (attended : s.clock ≤ last + if s.activities = [] then gap else busy)
    (long : gap + 2 * busy + 124 ≤ (intervalMs i).toNat) (o : Op) (going : (s.step o).aborted = false) :
    Rhythm i start busy (s.step o) := by
  rw [State.step] at going ⊢
  split at going
  · next stopped =>
    rw [if_pos stopped]
    exact rhythm
  · next unstopped =>
    rw [if_neg unstopped]
    cases o with
    | pass | tcpRmv => exact rhythm.quiet rfl Iff.rfl (fun _ member _ => member) fun running => ⟨running, rfl⟩
    | timeout msecs handler arg =>
      obtain ⟨time, set⟩ := sysTimeout_running going
      dsimp only [op]
      rw [set]
      exact rhythm.sets (by simp)
    | untimeout handler arg =>
      exact rhythm.quiet rfl Iff.rfl (fun _ member _ => List.eraseP_sublist.subset member) fun running => ⟨running, rfl⟩
    | tcpReg active =>
      dsimp only [op, tcpReg, tcpTimerNeeded] at going ⊢
      have registered (active' : Bool) :
          Rhythm i start busy { s with tcpPcbs := s.tcpPcbs || active, tcpipTcpTimerActive := active' } :=
        rhythm.quiet rfl Iff.rfl (fun _ member _ => member) fun running => ⟨running, rfl⟩
      split at going
      · next needed =>
        rw [if_pos needed]
        obtain ⟨time, set⟩ := sysTimeout_running going
        rw [set]
        exact (registered true).sets (by simp)
      · next unneeded =>
        rw [if_neg unneeded]
        exact registered s.tcpipTcpTimerActive
    | loop =>
      dsimp only [op, State.loop]
      split
      · exact rhythm.goOn (by simp [Unset]) (by simp)
      · exact rhythm
    | turn => exact rhythm.turn attentive tokens cyclic attended long going

/-! ## A run -/

theorem Rhythm.boot (cyclic : 1 ≤ i) (clock : Nat) : Rhythm i clock busy (State.boot clock : State Nat) where
  unset _ := rfl
  set begun := absurd ⟨1, cyclic, List.mem_singleton.mpr rfl⟩ begun

theorem Rhythm.run (cyclic : 1 ≤ i ∧ i < lwipCyclicTimers.length) (long : gap + 2 * busy + 124 ≤ (intervalMs i).toNat)
    (early : start + gap + 2 * busy + 124 < 2 ^ 32) (ops : List Op) (attentive : Attentive gap busy start last s checked)
    (sound : s.Sound) (known : s.aborted = false → s.Tokens ∧ Rhythm i start busy s)
    (attended : Attended gap busy last s ops) (going : (ops.foldl State.step s).aborted = false) :
    ∃ last checked, Attentive gap busy start last (ops.foldl State.step s) checked ∧
      (ops.foldl State.step s).clock ≤ last + (if (ops.foldl State.step s).activities = [] then gap else busy) ∧
      Rhythm i start busy (ops.foldl State.step s) := by
  induction ops generalizing s last checked with
  | nil => exact ⟨last, checked, attentive, attended, (known going).2⟩
  | cons o ops ih =>
    obtain ⟨within, outside, later⟩ := attended
    obtain ⟨checked', next⟩ := attentive.step sound within outside early
    refine ih next (sound.step o) ?_ later going
    intro going'
    have unstopped : s.aborted = false := by
      cases stopped : s.aborted with
      | false => rfl
      | true => rw [step_stopped stopped, stopped] at going'; exact going'
    obtain ⟨tokens, rhythm⟩ := known unstopped
    exact ⟨tokens.step o going', rhythm.step attentive tokens cyclic within long o going'⟩

theorem calls_wrap (i : Nat) (s : State Nat) : s.wrap.calls i = (s.calls i).map fun c => (c.1.wrap, c.2) := by
  rw [calls, calls, State.wrap, List.filter_map]
  rfl

theorem Tokens.somewhere (tokens : s.Tokens) (cyclic : 1 ≤ i ∧ i < lwipCyclicTimers.length) (begun : ¬ s.Unset i) :
    (∃ t ∈ s.nextTimeout, t.h = .cyclic i) ∨ .cyclicTimer i ∈ s.activities := by
  by_contra nowhere
  obtain ⟨unlisted, not_running⟩ := not_or.mp nowhere
  have one := tokens.one cyclic
  have listed : (s.nextTimeout.map fun t => if t.h = .cyclic i then 1 else 0).sum = 0 := by
    apply List.sum_eq_zero
    intro weight member
    obtain ⟨t, inside, rfl⟩ := List.mem_map.mp member
    exact if_neg fun same => unlisted ⟨t, inside, same⟩
  have held : (s.activities.map (Activity.held fun h => if h = .cyclic i then 1 else 0)).sum = 0 := by
    apply List.sum_eq_zero
    intro weight member
    obtain ⟨a, inside, rfl⟩ := List.mem_map.mp member
    cases a with
    | init j =>
      have passed : i < j := Nat.lt_of_not_le fun reached => begun ⟨j, reached, inside⟩
      apply List.sum_eq_zero
      intro weight member
      obtain ⟨k, range, rfl⟩ := List.mem_map.mp member
      rw [List.mem_range'_1] at range
      exact if_neg (by simp; omega)
    | cyclicTimer j => exact if_neg fun same => not_running (by cases same; exact inside)
    | poll | driverPoll | check | tcpTimer => rfl
  rw [count, load, listed, held] at one
  cases one

theorem Attentive.unset_late (attentive : Attentive gap busy start last s checked) (starting : s.Unset i) :
    checked = start := by
  obtain ⟨j, -, begun⟩ := starting
  cases attentive.phase with
  | starting j _ at_start => exact at_start.2
  | idle under_way | polling under_way | checking _ under_way | polled under_way => simp [under_way] at begun
  | handling now a under_way handler =>
    obtain ⟨h, only⟩ := handler
    rcases running_singleton only with ⟨k, rfl⟩ | rfl <;> simp [under_way] at begun

theorem Attentive.handling_late (attentive : Attentive gap busy start last s checked)
    (handling : .cyclicTimer i ∈ s.activities) : checked ≤ s.currentTimeoutDueTime := by
  cases attentive.phase with
  | starting _ under_way | idle under_way | polling under_way | checking _ under_way | polled under_way =>
    simp [under_way] at handling
  | handling now a under_way handler recent begun current => exact current

/-- A cyclic timer whose interval is not shorter than a timeout can be late keeps its rhythm for good: its calls come at
whole intervals after it was set up, each late by no more than that, and they do not fall behind. -/
theorem cyclic_steady (gap busy clock i : Nat) (cyclic : 1 ≤ i ∧ i < lwipCyclicTimers.length)
    (early : clock + gap + 2 * busy + 124 < 2 ^ 32) (long : gap + 2 * busy + 124 ≤ (intervalMs i).toNat) (ops : List Op)
    (attended : Attended gap busy clock (State.boot clock : State UInt32) ops)
    (going : (ops.foldl State.step (State.boot clock : State UInt32)).aborted = false) :
    ∃ first, clock ≤ first ∧ first ≤ clock + busy ∧
      (∀ n c, ((ops.foldl State.step (State.boot clock : State UInt32)).calls i).reverse[n]? = some c →
        first + (n + 1) * (intervalMs i).toNat ≤ c.2 ∧
          c.2 ≤ first + (n + 1) * (intervalMs i).toNat + (gap + 2 * busy + 124)) ∧
      (ops.foldl State.step (State.boot clock : State UInt32)).clock ≤
        first + (((ops.foldl State.step (State.boot clock : State UInt32)).calls i).length + 1) * (intervalMs i).toNat +
          (gap + 2 * busy + 124) := by
  have interval := intervalMs_le i
  have brisk : gap + 2 * busy + 124 ≤ 2 ^ 30 := by omega
  have start : Attentive gap busy clock clock (State.boot clock : State Nat) clock := Attentive.boot clock
  have sound : (State.boot clock : State Nat).Sound := Sound.boot clock
  obtain ⟨attended', timely⟩ := start.run sound early brisk ops attended
  have same : ops.foldl State.step (State.boot clock : State UInt32) =
      (ops.foldl State.step (State.boot clock : State Nat)).wrap := run_wrap ops sound timely
  have history := History.run sound (History.boot clock) ops timely
  obtain ⟨late, pending⟩ := start.punctual sound early ops attended' (by simp [State.boot])
  rw [same] at going ⊢
  obtain ⟨last, checked, attentive, within, rhythm⟩ := Rhythm.run cyclic long early ops start sound
    (fun _ => ⟨Tokens.boot clock, Rhythm.boot cyclic.1 clock⟩) attended' going
  have tokens : (ops.foldl State.step (State.boot clock : State Nat)).Tokens :=
    Tokens.run ops (fun _ => Tokens.boot clock) going
  rw [calls_wrap]
  generalize ops.foldl State.step (State.boot clock : State Nat) = s at *
  have late' := attentive.late within
  by_cases begun : s.Unset i
  · have at_start := attentive.unset_late begun
    refine ⟨clock, le_rfl, Nat.le_add_right _ _, ?_, ?_⟩
    · rw [rhythm.unset begun]
      simp
    · change s.clock ≤ _
      omega
  · obtain ⟨first, after, before, beating⟩ := rhythm.set begun
    refine ⟨first, after, before, ?_, ?_⟩
    · intro n c call
      rw [← List.map_reverse, List.getElem?_map, Option.map_eq_some_iff] at call
      obtain ⟨c, call, rfl⟩ := call
      have member : c ∈ s.called :=
        List.mem_of_mem_filter (List.mem_reverse.mp (List.mem_of_getElem? call))
      have due := beating.called n c call
      have not_early := (history.not_early c member).1
      have in_time := late c member
      exact ⟨by omega, by omega⟩
    · rw [List.length_map, Nat.succ_mul]
      change s.clock ≤ _
      rcases tokens.somewhere cyclic begun with ⟨t, member, same⟩ | handling
      · have due := beating.pending t member same
        rw [Nat.succ_mul] at due
        have in_time := pending t member
        omega
      · have due := beating.handling handling
        have current := attentive.handling_late handling
        omega

/-- Two polls, the second of which calls the ARP timer for the first time. -/
def twoPolls : List Op :=
  [.replicate 8 .turn, [.pass 600, .loop], .replicate 9 .turn, [.pass 600, .loop], .replicate 15 .turn].flatten

set_option maxRecDepth 4000 in
theorem cyclic_steady_twoPolls :
    ∃ first, 30 ≤ first ∧ first ≤ 30 + 5 ∧
      (∀ n c, ((twoPolls.foldl State.step (State.boot 30 : State UInt32)).calls 2).reverse[n]? = some c →
        first + (n + 1) * (intervalMs 2).toNat ≤ c.2 ∧
          c.2 ≤ first + (n + 1) * (intervalMs 2).toNat + (860 + 2 * 5 + 124)) ∧
      (twoPolls.foldl State.step (State.boot 30 : State UInt32)).clock ≤
        first + (((twoPolls.foldl State.step (State.boot 30 : State UInt32)).calls 2).length + 1) * (intervalMs 2).toNat +
          (860 + 2 * 5 + 124) :=
  cyclic_steady 860 5 30 2 (by decide) (by decide) (by decide) twoPolls (by decide) (by decide)

end QNEthernet.Timers.State
