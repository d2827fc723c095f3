import QNEthernet.Timers.Exact

/-! Timeouts are called in the order of their due times, each once and none early, and `sys_check_timeouts` returns how
long it is to the next. -/

namespace QNEthernet.Timers.State

/-! ## What a step does to the list -/

inductive Change (s : State Nat) : State Nat → Prop
  | quiet {clock polled : Nat} {activities : List (Activity Nat)} {active pcbs aborted : Bool}
      (later : s.clock ≤ clock) :
      Change s
        { s with
          clock, activities, tcpPcbs := pcbs, tcpipTcpTimerActive := active, lastPollTime := polled, aborted }
  | set (t : SysTimeo Nat) {activities : List (Activity Nat)} {active pcbs : Bool}
      (now_on : s.clock ≤ t.time) (near : t.time < s.clock + 2 ^ 30) :
      Change s
        { s with
          activities, tcpPcbs := pcbs, tcpipTcpTimerActive := active
          nextTimeout := Agenda.insert SysTimeo.time t s.nextTimeout, scheduled := t :: s.scheduled }
  | cancel (t : SysTimeo Nat) (left : List (SysTimeo Nat)) (perm : s.nextTimeout.Perm (t :: left))
      (part : left.Sublist s.nextTimeout) :
      Change s { s with nextTimeout := left, cancelled := t :: s.cancelled }
  | call (t : SysTimeo Nat) (next : List (SysTimeo Nat)) {activities : List (Activity Nat)}
      (list : s.nextTimeout = t :: next) (due : t.time ≤ s.clock) :
      Change s
        { s with
          activities, nextTimeout := next, currentTimeoutDueTime := t.time, called := (t, s.clock) :: s.called }
  | returns (r : Returned Nat) {activities : List (Activity Nat)} (pending : r.pending = s.nextTimeout)
      (checking : .check r.now ∈ s.activities)
      (right : (r.pending = [] ∧ r.ret = sysTimeoutsSleeptimeInfinite) ∨
        ∃ t next, r.pending = t :: next ∧ r.now < t.time ∧ r.ret = .ofNat (t.time - r.now)) :
      Change s { s with activities, returned := r :: s.returned }

variable {s s' : State Nat}

theorem sysTimeoutAbs_change (absTime : Nat) (h : Handler) {activities : List (Activity Nat)} {active pcbs : Bool}
    (now_on : s.clock ≤ absTime) (near : absTime < s.clock + 2 ^ 30) :
    Change s (State.sysTimeoutAbs absTime h
      { s with activities, tcpPcbs := pcbs, tcpipTcpTimerActive := active }) := by
  rw [sysTimeoutAbs]
  split
  · exact .quiet le_rfl
  · dsimp only
    rw [link_eq]
    exact .set ⟨absTime, h⟩ now_on near

theorem sysTimeout_change (msecs : UInt32) (h : Handler) {activities : List (Activity Nat)} {active pcbs : Bool} :
    Change s (State.sysTimeout msecs h { s with activities, tcpPcbs := pcbs, tcpipTcpTimerActive := active }) := by
  rw [sysTimeout]
  split
  · exact .quiet le_rfl
  · next short =>
    have small : msecs.toNat < 2 ^ 30 := by
      have le := UInt32.le_iff_toNat_le.mp (not_not.mp short)
      have bound : (0xffffffff / 4 : UInt32).toNat < 2 ^ 30 := by decide
      omega
    apply sysTimeoutAbs_change
    · change s.clock ≤ s.clock + msecs.toNat
      omega
    · change s.clock + msecs.toNat < s.clock + 2 ^ 30
      omega

theorem sysUntimeout_change (h : Handler) : Change s (s.sysUntimeout h) := by
  rw [sysUntimeout]
  cases found : s.nextTimeout.find? (·.h = h) with
  | none =>
    have kept : s.nextTimeout.eraseP (·.h = h) = s.nextTimeout :=
      List.eraseP_of_forall_not (by simpa using List.find?_eq_none.mp found)
    rw [kept]
    exact .quiet le_rfl
  | some t =>
    obtain ⟨matched, before, after, list, others⟩ := List.find?_eq_some_iff_append.mp found
    have first : (t :: after).eraseP (·.h = h) = after := List.eraseP_cons_of_pos matched
    have erased : s.nextTimeout.eraseP (·.h = h) = before ++ after := by
      rw [list, List.eraseP_append_right _ (by simpa using others), first]
    have perm : s.nextTimeout.Perm (t :: (before ++ after)) := list ▸ List.perm_middle
    rw [erased]
    exact .cancel t _ perm (by rw [list]; simp)

theorem checkTimeouts_change (now : Nat) (rest : List (Activity Nat)) (checking : .check now ∈ s.activities)
    (past : now ≤ s.clock) : Change s (s.checkTimeouts now rest) := by
  rw [checkTimeouts]
  split
  · next list => exact .returns ⟨now, s.nextTimeout, sysTimeoutsSleeptimeInfinite⟩ rfl checking (.inl ⟨list, rfl⟩)
  · next t next list =>
    by_cases early : now < t.time
    · have less : timeLessThan now t.time = true := decide_eq_true early
      rw [if_pos less]
      dsimp only
      split
      · exact .quiet le_rfl
      · exact .returns ⟨now, s.nextTimeout, .ofNat (t.time - now)⟩ rfl checking (.inr ⟨t, next, list, early, rfl⟩)
    · have less : ¬ timeLessThan now t.time = true := mt of_decide_eq_true early
      rw [if_neg less]
      exact .call t next list (by omega)

theorem cyclicTimer_change (i : Nat) {activities : List (Activity Nat)} (current : s.currentTimeoutDueTime ≤ s.clock) :
    Change s (State.cyclicTimer i { s with activities }) := by
  have interval := intervalMs_le i
  rw [cyclicTimer]
  dsimp only
  by_cases overload : s.currentTimeoutDueTime + (intervalMs i).toNat < s.clock
  · have less : timeLessThan (Time.add s.currentTimeoutDueTime (intervalMs i)) (sysNow s.clock : Nat) = true :=
      decide_eq_true overload
    rw [if_pos less]
    apply sysTimeoutAbs_change
    · change s.clock ≤ s.clock + (intervalMs i).toNat
      omega
    · change s.clock + (intervalMs i).toNat < s.clock + 2 ^ 30
      omega
  · have less : ¬ timeLessThan (Time.add s.currentTimeoutDueTime (intervalMs i)) (sysNow s.clock : Nat) = true :=
      mt of_decide_eq_true overload
    rw [if_neg less]
    apply sysTimeoutAbs_change
    · change s.clock ≤ s.currentTimeoutDueTime + (intervalMs i).toNat
      omega
    · change s.currentTimeoutDueTime + (intervalMs i).toNat < s.clock + 2 ^ 30
      omega

theorem turn_change (sound : s.Sound) : Change s s.turn := by
  rw [turn]
  cases under_way : s.activities with
  | nil => exact .quiet le_rfl
  | cons a rest =>
    cases a with
    | init i =>
      dsimp only
      split
      · exact sysTimeout_change _ _
      · exact .quiet le_rfl
    | poll => exact .quiet le_rfl
    | driverPoll => exact .quiet le_rfl
    | check now =>
      have checking : .check now ∈ s.activities := by simp [under_way]
      exact checkTimeouts_change now rest checking (sound.checks now checking)
    | cyclicTimer i => exact cyclicTimer_change i sound.current
    | tcpTimer =>
      dsimp only [tcpTimer]
      split
      · exact sysTimeout_change _ _
      · exact .quiet le_rfl

theorem step_change (sound : s.Sound) (o : Op) : Change s (s.step o) := by
  rw [step]
  split
  · exact .quiet le_rfl
  · cases o with
    | pass ms => exact .quiet (Nat.le_add_right s.clock ms)
    | timeout msecs handler arg => exact sysTimeout_change msecs _
    | untimeout handler arg => exact sysUntimeout_change _
    | tcpReg active =>
      dsimp only [op, tcpReg, tcpTimerNeeded]
      split
      · exact sysTimeout_change _ _
      · exact .quiet le_rfl
    | tcpRmv left => exact .quiet le_rfl
    | loop =>
      dsimp only [op, loop]
      split
      · exact .quiet le_rfl
      · exact .quiet le_rfl
    | turn => exact turn_change sound

/-! ## The times stay in order -/

theorem turn_polled (s : State Nat) : s.turn.lastPollTime = s.lastPollTime ∨ s.turn.lastPollTime = s.clock := by
  rw [turn]
  split
  · exact .inl rfl
  · split
    · exact .inl (sysTimeout_onlySets ..).lastPollTime
    · exact .inl rfl
  · exact .inl rfl
  · rw [checkTimeouts]
    split
    · exact .inl rfl
    · split
      · dsimp only
        split
        · exact .inl rfl
        · exact .inl rfl
      · exact .inl rfl
  · exact .inr rfl
  · exact .inl (cyclicTimer_onlySets ..).lastPollTime
  · exact .inl (tcpTimer_onlySets ..).lastPollTime

theorem step_polled (s : State Nat) (o : Op) :
    (s.step o).lastPollTime = s.lastPollTime ∨ (s.step o).lastPollTime = s.clock := by
  rw [step]
  split
  · exact .inl rfl
  · cases o with
    | pass | untimeout | tcpRmv => exact .inl rfl
    | timeout msecs handler arg => exact .inl (sysTimeout_onlySets ..).lastPollTime
    | tcpReg active => exact .inl (tcpReg_onlySets ..).lastPollTime
    | loop =>
      dsimp only [op, loop]
      split
      · exact .inl rfl
      · exact .inl rfl
    | turn => exact turn_polled s

theorem not_check_running (now : Nat) (h : Handler) : Activity.check now ∉ (running h : List (Activity Nat)) := by
  cases h with
  | cyclic | tcp | other => simp [running]

theorem turn_checks (s : State Nat) (now : Nat) (checking : .check now ∈ s.turn.activities) :
    .check now ∈ s.activities ∨ now = s.clock := by
  rw [turn] at checking
  split at checking
  · exact .inl checking
  · next i rest under_way =>
    rw [under_way]
    split at checking
    · rw [(sysTimeout_onlySets ..).activities] at checking
      simp only [List.mem_cons, reduceCtorEq, false_or] at checking ⊢
      exact .inl checking
    · exact .inl (List.mem_cons_of_mem _ checking)
  · next rest under_way =>
    simp only [List.mem_cons, Activity.check.injEq, reduceCtorEq, false_or] at checking
    rcases checking with rfl | known
    · exact .inr rfl
    · exact .inl (by rw [under_way]; exact List.mem_cons_of_mem _ known)
  · next begun rest under_way =>
    left
    rw [checkTimeouts] at checking
    split at checking
    · rw [under_way]
      exact List.mem_cons_of_mem _ checking
    · split at checking
      · dsimp only at checking
        split at checking
        · exact checking
        · rw [under_way]
          exact List.mem_cons_of_mem _ checking
      · exact (List.mem_append.mp checking).resolve_left (not_check_running now _)
  · next rest under_way => exact .inl (by rw [under_way]; exact List.mem_cons_of_mem _ checking)
  · next i rest under_way =>
    rw [(cyclicTimer_onlySets ..).activities] at checking
    exact .inl (by rw [under_way]; exact List.mem_cons_of_mem _ checking)
  · next rest under_way =>
    rw [(tcpTimer_onlySets ..).activities] at checking
    exact .inl (by rw [under_way]; exact List.mem_cons_of_mem _ checking)

theorem step_checks (s : State Nat) (o : Op) (now : Nat) (checking : .check now ∈ (s.step o).activities) :
    .check now ∈ s.activities ∨ now = s.clock := by
  rw [step] at checking
  split at checking
  · exact .inl checking
  · cases o with
    | pass | untimeout | tcpRmv => exact .inl checking
    | timeout msecs handler arg => exact .inl ((sysTimeout_onlySets msecs _ s).activities ▸ checking)
    | tcpReg active => exact .inl ((tcpReg_onlySets active s).activities ▸ checking)
    | loop =>
      dsimp only [op, loop] at checking
      split at checking
      · exact .inl ((List.mem_cons.mp checking).resolve_left (by simp))
      · exact .inl checking
    | turn => exact turn_checks s now checking

theorem Change.later (change : Change s s') : s.clock ≤ s'.clock := by
  cases change with
  | quiet later => exact later
  | set | cancel | call | returns => exact le_rfl

theorem Sound.step (sound : s.Sound) (o : Op) : (s.step o).Sound := by
  have change := step_change sound o
  have polled := step_polled s o
  have checks := step_checks s o
  generalize s.step o = s' at change polled checks
  have later := change.later
  refine ⟨?_, ?_, ?_, ?_, ?_⟩
  · cases change with
    | quiet => exact sound.sorted
    | set t => exact Agenda.Sorted.insert sound.sorted
    | cancel t left perm part => exact sound.sorted.sublist part
    | call t next list =>
      have sorted := sound.sorted
      rw [list] at sorted
      exact sorted.of_cons
    | returns => exact sound.sorted
  · intro t member
    cases change with
    | quiet => exact (sound.ahead t member).trans_le (Nat.add_le_add_right later _)
    | set new now_on near =>
      rcases Agenda.mem_insert.mp member with rfl | member
      · exact near
      · exact sound.ahead t member
    | cancel _ left perm part => exact sound.ahead t (part.subset member)
    | call _ next list => exact sound.ahead t (by rw [list]; exact List.mem_cons_of_mem _ member)
    | returns => exact sound.ahead t member
  · cases change with
    | quiet => exact sound.current.trans later
    | set | cancel | returns => exact sound.current
    | call t next list due => exact due
  · rcases polled with same | now
    · rw [same]
      exact sound.polled.trans later
    · rw [now]
      exact later
  · intro now checking
    rcases checks now checking with known | rfl
    · exact (sound.checks now known).trans later
    · exact later

theorem Sound.boot (clock : Nat) : (State.boot clock : State Nat).Sound where
  sorted := List.Pairwise.nil
  ahead := by simp [State.boot]
  current := Nat.zero_le _
  polled := Nat.zero_le _
  checks := by simp [State.boot]

/-! ## What has been called and returned -/

/-- Every timeout is called once, unless it is cancelled or still to come, and none early or before one that was due
earlier. `sys_check_timeouts` leaves none that is due, and returns how long it is to the next. -/
structure History (s : State Nat) : Prop where
  accounted : s.scheduled.Perm (s.called.map Prod.fst ++ (s.cancelled ++ s.nextTimeout))
  not_early : ∀ c ∈ s.called, c.1.time ≤ c.2 ∧ c.2 ≤ s.clock
  in_order : s.called.Pairwise fun c earlier => earlier.1.time ≤ c.1.time ∧ earlier.2 ≤ c.2
  before_pending : ∀ c ∈ s.called, ∀ t ∈ s.nextTimeout, c.1.time ≤ t.time
  sleeptime : ∀ r ∈ s.returned, r.now ≤ s.clock ∧ (∀ t ∈ r.pending, r.now + r.ret.toNat ≤ t.time) ∧
    if r.pending = [] then r.ret = sysTimeoutsSleeptimeInfinite
    else 0 < r.ret.toNat ∧ ∃ t ∈ r.pending, t.time = r.now + r.ret.toNat

theorem History.boot (clock : Nat) : (State.boot clock : State Nat).History where
  accounted := List.Perm.refl _
  not_early := by simp [State.boot]
  in_order := List.Pairwise.nil
  before_pending := by simp [State.boot]
  sleeptime := by simp [State.boot]

theorem Change.accounted (change : Change s s') (history : s.History) :
    s'.scheduled.Perm (s'.called.map Prod.fst ++ (s'.cancelled ++ s'.nextTimeout)) := by
  have known := history.accounted
  cases change with
  | quiet | returns => exact known
  | set t =>
    have added : (s.cancelled ++ Agenda.insert SysTimeo.time t s.nextTimeout).Perm
        (t :: (s.cancelled ++ s.nextTimeout)) :=
      ((Agenda.insert_perm t s.nextTimeout).append_left s.cancelled).trans List.perm_middle
    exact (known.cons t).trans (List.perm_middle.symm.trans (added.symm.append_left _))
  | cancel t left perm =>
    have moved : (s.cancelled ++ s.nextTimeout).Perm (t :: s.cancelled ++ left) :=
      (perm.append_left s.cancelled).trans List.perm_middle
    exact known.trans (moved.append_left _)
  | call t next list =>
    rw [list, ← List.append_assoc] at known
    refine known.trans (List.perm_middle.trans ?_)
    rw [List.append_assoc]
    exact List.Perm.refl _

theorem Change.not_early (change : Change s s') (history : s.History) :
    ∀ c ∈ s'.called, c.1.time ≤ c.2 ∧ c.2 ≤ s'.clock := by
  have known := history.not_early
  cases change with
  | quiet later =>
    intro c call
    exact ⟨(known c call).1, (known c call).2.trans later⟩
  | set | cancel | returns => exact known
  | call t next list due => exact List.forall_mem_cons.mpr ⟨⟨due, le_rfl⟩, known⟩

theorem Change.in_order (change : Change s s') (history : s.History) :
    s'.called.Pairwise fun c earlier => earlier.1.time ≤ c.1.time ∧ earlier.2 ≤ c.2 := by
  have known := history.in_order
  cases change with
  | quiet | set | cancel | returns => exact known
  | call t next list =>
    refine List.pairwise_cons.mpr ⟨?_, known⟩
    intro c call
    have first : t ∈ s.nextTimeout := by rw [list]; exact List.mem_cons_self
    exact ⟨history.before_pending c call t first, (history.not_early c call).2⟩

theorem Change.before_pending (change : Change s s') (sound : s.Sound) (history : s.History) :
    ∀ c ∈ s'.called, ∀ t ∈ s'.nextTimeout, c.1.time ≤ t.time := by
  have known := history.before_pending
  cases change with
  | quiet | returns => exact known
  | set t now_on =>
    intro c call t' member
    rcases Agenda.mem_insert.mp member with rfl | member
    · have past := history.not_early c call
      omega
    · exact known c call t' member
  | cancel t left perm part =>
    intro c call t' member
    exact known c call t' (part.subset member)
  | call t next list =>
    have sorted := sound.sorted
    rw [list] at sorted known
    refine List.forall_mem_cons.mpr ⟨(List.pairwise_cons.mp sorted).1, ?_⟩
    intro c call t' member
    exact known c call t' (List.mem_cons_of_mem _ member)

theorem Change.sleeptime (change : Change s s') (sound : s.Sound) (timely : s.Timely) (history : s.History) :
    ∀ r ∈ s'.returned, r.now ≤ s'.clock ∧ (∀ t ∈ r.pending, r.now + r.ret.toNat ≤ t.time) ∧
      if r.pending = [] then r.ret = sysTimeoutsSleeptimeInfinite
      else 0 < r.ret.toNat ∧ ∃ t ∈ r.pending, t.time = r.now + r.ret.toNat := by
  have known := history.sleeptime
  cases change with
  | quiet later =>
    intro r member
    exact ⟨(known r member).1.trans later, (known r member).2⟩
  | set | cancel | call => exact known
  | returns r pending checking right =>
    have past : r.now ≤ s.clock := sound.checks r.now checking
    refine List.forall_mem_cons.mpr ⟨⟨past, ?_⟩, known⟩
    rcases right with ⟨empty, ret⟩ | ⟨t, next, list, early, ret⟩
    · rw [empty, if_pos rfl]
      exact ⟨by simp, ret⟩
    · have recent : s.clock ≤ r.now + 2 ^ 30 := timely.2 (.check r.now) checking
      have ahead : t.time < s.clock + 2 ^ 30 := sound.ahead t (by rw [← pending, list]; exact List.mem_cons_self)
      have exact_ret : r.ret.toNat = t.time - r.now := by
        rw [ret, UInt32.toNat_ofNat', Nat.mod_eq_of_lt (by omega)]
      have sorted := sound.sorted
      rw [← pending, list] at sorted
      rw [list, if_neg (List.cons_ne_nil t next), exact_ret]
      refine ⟨?_, by omega, t, List.mem_cons_self, by omega⟩
      intro t' member
      rcases List.mem_cons.mp member with rfl | later
      · omega
      · have order := (List.pairwise_cons.mp sorted).1 t' later
        omega

theorem History.step (history : s.History) (sound : s.Sound) (timely : s.Timely) (o : Op) : (s.step o).History := by
  have change := step_change sound o
  exact
    { accounted := change.accounted history
      not_early := change.not_early history
      in_order := change.in_order history
      before_pending := change.before_pending sound history
      sleeptime := change.sleeptime sound timely history }

theorem History.run (sound : s.Sound) (history : s.History) (ops : List Op)
    (timely : Run.Allowed (fun s _ => s.Timely) State.step s ops) : (ops.foldl State.step s).History := by
  have kept := Run.allowed_preserves (fun s : State Nat => s.Sound ∧ s.History) (fun s _ => s.Timely) State.step
    (fun s o timely known => ⟨known.1.step o, known.2.step known.1 timely o⟩)
  exact (kept ops s timely ⟨sound, history⟩).2

theorem run_wrap (ops : List Op) (sound : s.Sound) (timely : Run.Allowed (fun s _ => s.Timely) State.step s ops) :
    ops.foldl State.step s.wrap = (ops.foldl State.step s).wrap := by
  induction ops generalizing s with
  | nil => rfl
  | cons o ops ih =>
    rw [List.foldl_cons, List.foldl_cons, step_wrap sound timely.1 o]
    exact ih (sound.step o) timely.2

/-- The timeouts that the program asks for: a request that fails no assertion is one. -/
def request (s : State Nat) : Op → List (SysTimeo Nat)
  | .timeout msecs handler arg =>
      if (s.step (.timeout msecs handler arg)).aborted then []
      else [⟨s.clock + msecs.toNat, .other handler arg⟩]
  | _ => []

def requests (s : State Nat) (ops : List Op) : List (SysTimeo Nat) := Run.outputs State.step request s ops

def ofProgram : Handler → Bool
  | .other _ _ => true
  | .cyclic _ | .tcp => false

/-- What is scheduled for the program and not for lwIP's own timers, in the order it was asked for. -/
def programs (s : State Nat) : List (SysTimeo Nat) := (s.scheduled.filter fun t => ofProgram t.h).reverse

theorem sysTimeoutAbs_programs (absTime : Nat) (h : Handler) (fine : s.aborted = false) :
    (s.sysTimeoutAbs absTime h).programs =
      s.programs ++ if (s.sysTimeoutAbs absTime h).aborted then [] else [⟨absTime, h⟩].filter fun t => ofProgram t.h := by
  unfold sysTimeoutAbs
  split
  · exact (List.append_nil _).symm
  · cases own : ofProgram h <;> simp [programs, own, fine]

theorem sysTimeout_programs (msecs : UInt32) (h : Handler) (fine : s.aborted = false) :
    (s.sysTimeout msecs h).programs =
      s.programs ++ if (s.sysTimeout msecs h).aborted then []
        else [⟨s.clock + msecs.toNat, h⟩].filter fun t => ofProgram t.h := by
  unfold sysTimeout
  split
  · exact (List.append_nil _).symm
  · exact sysTimeoutAbs_programs _ h fine

theorem sysTimeoutAbs_own (absTime : Nat) {h : Handler} (own : ofProgram h = false) :
    (s.sysTimeoutAbs absTime h).programs = s.programs := by
  unfold sysTimeoutAbs
  split
  · rfl
  · simp [programs, own]

theorem sysTimeout_own (msecs : UInt32) {h : Handler} (own : ofProgram h = false) :
    (s.sysTimeout msecs h).programs = s.programs := by
  unfold sysTimeout
  split
  · rfl
  · exact sysTimeoutAbs_own _ own

theorem turn_programs (s : State Nat) : s.turn.programs = s.programs := by
  unfold turn
  split
  · rfl
  · split
    · exact sysTimeout_own (s := { s with activities := _ }) _ rfl
    · rfl
  · rfl
  · unfold checkTimeouts
    split
    · rfl
    · dsimp only
      split
      · split <;> rfl
      · rfl
  · rfl
  · unfold cyclicTimer
    dsimp only
    split <;> exact sysTimeoutAbs_own (s := { s with activities := _ }) _ rfl
  · unfold tcpTimer
    split
    · exact sysTimeout_own (s := { s with activities := _ }) _ rfl
    · rfl

theorem tcpReg_programs (active : Bool) (s : State Nat) : (s.tcpReg active).programs = s.programs := by
  unfold tcpReg tcpTimerNeeded
  split
  · exact sysTimeout_own (s := { s with tcpPcbs := _, tcpipTcpTimerActive := _ }) _ rfl
  · rfl

theorem step_programs (s : State Nat) (o : Op) : (s.step o).programs = s.programs ++ s.request o := by
  cases aborted : s.aborted with
  | true =>
    have ended : s.step o = s := by rw [step, if_pos aborted]
    cases o <;> simp [request, ended, aborted]
  | false =>
    have goes : s.step o = s.op o := by rw [step, if_neg (by simp [aborted])]
    cases o with
    | timeout msecs handler arg =>
      rw [request, goes]
      exact sysTimeout_programs msecs (.other handler arg) aborted
    | pass | untimeout | tcpRmv =>
      rw [goes]
      exact (List.append_nil s.programs).symm
    | tcpReg active =>
      rw [goes]
      exact (tcpReg_programs active s).trans (List.append_nil s.programs).symm
    | loop =>
      have kept : (s.op .loop).programs = s.programs := by
        rw [op, State.loop]
        split <;> rfl
      rw [goes]
      exact kept.trans (List.append_nil s.programs).symm
    | turn =>
      rw [goes]
      exact (turn_programs s).trans (List.append_nil s.programs).symm

theorem run_programs (s : State Nat) (ops : List Op) :
    (ops.foldl State.step s).programs = s.programs ++ s.requests ops := by
  induction ops generalizing s with
  | nil => exact (List.append_nil _).symm
  | cons o ops ih =>
    rw [List.foldl_cons, ih, step_programs, List.append_assoc]
    rfl

/-- The 32-bit times may go round any number of times: as long as no timeout is left for twelve days, the code does what
it would do with times that do not, and there every timeout is called once, in order, and none early. -/
theorem timeouts_exact (clock : Nat) (ops : List Op)
    (timely : Run.Allowed (fun s _ => s.Timely) State.step (State.boot clock : State Nat) ops) :
    ops.foldl State.step (State.boot clock : State UInt32) = (ops.foldl State.step (State.boot clock : State Nat)).wrap ∧
      (ops.foldl State.step (State.boot clock : State Nat)).History ∧
      (ops.foldl State.step (State.boot clock : State Nat)).programs = (State.boot clock : State Nat).requests ops := by
  have start : (State.boot clock : State UInt32) = (State.boot clock : State Nat).wrap := rfl
  rw [start]
  refine ⟨run_wrap ops (Sound.boot clock) timely,
    History.run (Sound.boot clock) (History.boot clock) ops timely, ?_⟩
  exact run_programs (State.boot clock) ops

/-- The list is set up and a timeout asked for, the clock goes round, and a poll calls the three that are due. -/
def roundTheClock : List Op :=
  [.replicate 8 .turn, [.timeout 150 0 0, .pass 200, .loop], .replicate 7 .turn].flatten

set_option maxRecDepth 4000 in
theorem timeouts_exact_roundTheClock :
    roundTheClock.foldl State.step (State.boot (2 ^ 32 - 50) : State UInt32) =
        (roundTheClock.foldl State.step (State.boot (2 ^ 32 - 50) : State Nat)).wrap ∧
      (roundTheClock.foldl State.step (State.boot (2 ^ 32 - 50) : State Nat)).History ∧
      (roundTheClock.foldl State.step (State.boot (2 ^ 32 - 50) : State Nat)).programs =
        (State.boot (2 ^ 32 - 50) : State Nat).requests roundTheClock :=
  timeouts_exact (2 ^ 32 - 50) roundTheClock (by decide)

end QNEthernet.Timers.State
