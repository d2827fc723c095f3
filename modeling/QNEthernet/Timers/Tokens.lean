import Mathlib.Data.List.GetD
import QNEthernet.Timers.Model

/-! Each cyclic timer and the TCP timer, once started, is on the list or running, and only once. -/

namespace QNEthernet.Timers

variable {τ : Type} [Time τ]

/-- The timeouts, by their handlers' weights, that a function under way is still going to set. -/
def Activity.held (weight : Handler → Nat) : Activity τ → Nat
  | .init i => ((List.range' i (lwipCyclicTimers.length - i)).map fun j => weight (.cyclic j)).sum
  | .cyclicTimer i => weight (.cyclic i)
  | .tcpTimer => weight .tcp
  | .poll | .driverPoll | .check _ => 0

theorem intervalMs_le (i : Nat) : (intervalMs i).toNat ≤ 60000 := by
  by_cases inside : i < lwipCyclicTimers.length
  · have entry : intervalMs i ∈ lwipCyclicTimers := by
      rw [intervalMs, List.getD_eq_getElem _ _ inside]
      exact List.getElem_mem inside
    have all : lwipCyclicTimers.all (fun interval => interval.toNat ≤ 60000) = true := by decide
    exact of_decide_eq_true (List.all_eq_true.mp all _ entry)
  · rw [intervalMs, List.getD_eq_default _ _ (by omega)]
    decide

namespace State

/-- The weight of the timeouts that are on the list or going to be set. -/
def load (weight : Handler → Nat) (s : State τ) : Nat :=
  (s.nextTimeout.map fun t => weight t.h).sum + (s.activities.map (Activity.held weight)).sum

/-- The weight of all the cyclic timers, which start with the second, and of the TCP timer if it is active. -/
def expected (weight : Handler → Nat) (s : State τ) : Nat :=
  ((List.range' 1 7).map fun j => weight (.cyclic j)).sum + if s.tcpipTcpTimerActive then weight .tcp else 0

/-- The internal timers are all there, and the TCP timer is active while it has blocks to serve. -/
structure Tokens (s : State τ) : Prop where
  load_eq : ∀ weight : Handler → Nat, (∀ handler arg, weight (.other handler arg) = 0) → s.load weight = s.expected weight
  active : s.tcpPcbs → s.tcpipTcpTimerActive

variable {s : State τ}

/-! ## What is set -/

theorem link_perm (timeout : SysTimeo τ) (list : List (SysTimeo τ)) : (link timeout list).Perm (timeout :: list) := by
  induction list with
  | nil => exact List.Perm.refl _
  | cons t next ih =>
    rw [link]
    split
    · exact List.Perm.refl _
    · exact (ih.cons t).trans (List.Perm.swap timeout t next)

theorem sum_link (weight : Handler → Nat) (timeout : SysTimeo τ) (list : List (SysTimeo τ)) :
    ((link timeout list).map fun t => weight t.h).sum = weight timeout.h + (list.map fun t => weight t.h).sum := by
  rw [((link_perm timeout list).map _).sum_eq, List.map_cons, List.sum_cons]

theorem sysTimeoutAbs_running {absTime : τ} {h : Handler} (running : (s.sysTimeoutAbs absTime h).aborted = false) :
    s.sysTimeoutAbs absTime h =
      { s with nextTimeout := link ⟨absTime, h⟩ s.nextTimeout, scheduled := ⟨absTime, h⟩ :: s.scheduled } := by
  rw [sysTimeoutAbs] at running ⊢
  split at running
  · cases running
  · next space => rw [if_neg space]

theorem sysTimeout_running {msecs : UInt32} {h : Handler} (running : (s.sysTimeout msecs h).aborted = false) :
    ∃ time, s.sysTimeout msecs h = s.sysTimeoutAbs time h := by
  rw [sysTimeout] at running ⊢
  split at running
  · cases running
  · next short => exact ⟨_, if_neg short⟩

theorem cyclicTimer_eq (i : Nat) (s : State τ) : ∃ time, s.cyclicTimer i = s.sysTimeoutAbs time (.cyclic i) := by
  rw [cyclicTimer]
  split
  · exact ⟨_, rfl⟩
  · exact ⟨_, rfl⟩

structure OnlySets (s s' : State τ) : Prop where
  clock : s'.clock = s.clock
  activities : s'.activities = s.activities
  lastPollTime : s'.lastPollTime = s.lastPollTime
  currentTimeoutDueTime : s'.currentTimeoutDueTime = s.currentTimeoutDueTime
  called : s'.called = s.called

theorem sysTimeoutAbs_onlySets (absTime : τ) (h : Handler) (s : State τ) : OnlySets s (s.sysTimeoutAbs absTime h) := by
  rw [sysTimeoutAbs]
  split
  · exact ⟨rfl, rfl, rfl, rfl, rfl⟩
  · exact ⟨rfl, rfl, rfl, rfl, rfl⟩

theorem sysTimeout_onlySets (msecs : UInt32) (h : Handler) (s : State τ) : OnlySets s (s.sysTimeout msecs h) := by
  rw [sysTimeout]
  split
  · exact ⟨rfl, rfl, rfl, rfl, rfl⟩
  · exact sysTimeoutAbs_onlySets ..

theorem cyclicTimer_onlySets (i : Nat) (s : State τ) : OnlySets s (s.cyclicTimer i) := by
  obtain ⟨time, set⟩ := cyclicTimer_eq i s
  rw [set]
  exact sysTimeoutAbs_onlySets ..

theorem tcpTimer_onlySets (s : State τ) : OnlySets s s.tcpTimer := by
  rw [tcpTimer]
  split
  · exact sysTimeout_onlySets ..
  · exact ⟨rfl, rfl, rfl, rfl, rfl⟩

theorem tcpReg_onlySets (active : Bool) (s : State τ) : OnlySets s (s.tcpReg active) := by
  rw [tcpReg, tcpTimerNeeded]
  split
  · obtain ⟨clock, activities, polled, current, called⟩ :=
      sysTimeout_onlySets tcpTmrInterval .tcp { s with tcpPcbs := s.tcpPcbs || active, tcpipTcpTimerActive := true }
    exact ⟨clock, activities, polled, current, called⟩
  · exact ⟨rfl, rfl, rfl, rfl, rfl⟩

theorem Tokens.set (tokens : s.Tokens) {s' : State τ} {absTime : τ} {h : Handler}
    (running : (s'.sysTimeoutAbs absTime h).aborted = false) (active : s'.tcpPcbs → s'.tcpipTcpTimerActive)
    (moved : ∀ weight : Handler → Nat, (∀ handler arg, weight (.other handler arg) = 0) →
      s.load weight = s.expected weight → s'.load weight + weight h = s'.expected weight) :
    (s'.sysTimeoutAbs absTime h).Tokens := by
  rw [sysTimeoutAbs_running running]
  refine ⟨?_, active⟩
  intro weight ignored
  have before := moved weight ignored (tokens.load_eq weight ignored)
  have list : ((link ⟨absTime, h⟩ s'.nextTimeout).map fun t => weight t.h).sum =
      weight h + (s'.nextTimeout.map fun t => weight t.h).sum := sum_link weight ⟨absTime, h⟩ s'.nextTimeout
  simp only [load, expected] at before ⊢
  rw [list]
  omega

/-! ## A step -/

omit [Time τ] in
/-- Where only the list and the functions under way change, it is enough that their weight does not. -/
theorem Tokens.of_load (tokens : s.Tokens) {s' : State τ} (active : s'.tcpipTcpTimerActive = s.tcpipTcpTimerActive)
    (pcbs : s'.tcpPcbs → s.tcpPcbs)
    (load_eq : ∀ weight : Handler → Nat, (∀ handler arg, weight (.other handler arg) = 0) →
      s'.load weight = s.load weight) : s'.Tokens := by
  refine ⟨?_, ?_⟩
  · intro weight ignored
    rw [load_eq weight ignored, tokens.load_eq weight ignored, expected, expected, active]
  · intro some
    rw [active]
    exact tokens.active (pcbs some)

omit [Time τ] in
theorem Tokens.untimeout (tokens : s.Tokens) (handler arg : Nat) : (s.sysUntimeout (.other handler arg)).Tokens := by
  refine tokens.of_load rfl id ?_
  intro weight ignored
  have kept : ((s.nextTimeout.eraseP (·.h = .other handler arg)).map fun t => weight t.h).sum =
      (s.nextTimeout.map fun t => weight t.h).sum := by
    rcases List.exists_or_eq_self_of_eraseP (fun t : SysTimeo τ => decide (t.h = .other handler arg)) s.nextTimeout with
      same | ⟨t, before, after, -, found, list, erased⟩
    · rw [same]
    · have nothing : weight t.h = 0 := by
        rw [of_decide_eq_true found, ignored]
      rw [erased, list]
      simp [nothing]
  rw [load, load, sysUntimeout, kept]

theorem Tokens.check (tokens : s.Tokens) {now : τ} {rest : List (Activity τ)}
    (under_way : s.activities = .check now :: rest) : (s.checkTimeouts now rest).Tokens := by
  have ended (ret : UInt32) : (s.endCheck now ret rest).Tokens := by
    refine tokens.of_load rfl id ?_
    intro weight _
    simp [load, endCheck, under_way, Activity.held]
  rw [checkTimeouts]
  split
  · exact ended _
  · next t next list =>
    split
    · dsimp only
      split
      · exact tokens.of_load rfl id fun _ _ => rfl
      · exact ended _
    · refine tokens.of_load rfl id ?_
      intro weight ignored
      have called : ((running t.h).map (Activity.held (τ := τ) weight)).sum = weight t.h := by
        cases of_timer : t.h with
        | cyclic i => rfl
        | tcp => rfl
        | other handler arg => exact (ignored handler arg).symm
      simp only [load, list, List.map_append, List.sum_append, List.map_cons, List.sum_cons, called]
      omega

omit [Time τ] in
theorem held_init (weight : Handler → Nat) {i : Nat} (more : i < lwipCyclicTimers.length) :
    (Activity.init i : Activity τ).held weight =
      weight (.cyclic i) + (Activity.init (i + 1) : Activity τ).held weight := by
  have length : lwipCyclicTimers.length - i = lwipCyclicTimers.length - (i + 1) + 1 := by omega
  rw [Activity.held, Activity.held, length, List.range'_succ, List.map_cons, List.sum_cons]

omit [Time τ] in
theorem Tokens.tcp_active (tokens : s.Tokens) (running : .tcpTimer ∈ s.activities) : s.tcpipTcpTimerActive := by
  by_contra inactive
  have known := tokens.load_eq (fun h => if h = .tcp then 1 else 0) (fun _ _ => rfl)
  have held : (1 : Nat) ∈ s.activities.map (Activity.held fun h => if h = .tcp then 1 else 0) :=
    List.mem_map.mpr ⟨.tcpTimer, running, rfl⟩
  have part := List.single_le_sum (by simp) 1 held
  simp [load, expected, inactive] at known
  omega

theorem Tokens.cyclicTimer (tokens : s.Tokens) {i : Nat} {rest : List (Activity τ)}
    (under_way : s.activities = .cyclicTimer i :: rest)
    (running : (State.cyclicTimer i { s with activities := rest }).aborted = false) :
    (State.cyclicTimer i { s with activities := rest }).Tokens := by
  obtain ⟨time, set⟩ := cyclicTimer_eq i { s with activities := rest }
  rw [set] at running ⊢
  apply tokens.set running tokens.active
  intro weight _ known
  simp only [load, expected, under_way, List.map_cons, List.sum_cons, Activity.held] at known ⊢
  omega

theorem Tokens.tcpTimer (tokens : s.Tokens) {rest : List (Activity τ)} (under_way : s.activities = .tcpTimer :: rest)
    (running : (State.tcpTimer { s with activities := rest }).aborted = false) :
    (State.tcpTimer { s with activities := rest }).Tokens := by
  have active : s.tcpipTcpTimerActive = true := tokens.tcp_active (by simp [under_way])
  dsimp only [State.tcpTimer] at running ⊢
  split at running
  · next needed =>
    rw [if_pos needed]
    obtain ⟨time, set⟩ := sysTimeout_running running
    rw [set] at running ⊢
    apply tokens.set running tokens.active
    intro weight _ known
    simp only [load, expected, under_way, List.map_cons, List.sum_cons, Activity.held] at known ⊢
    omega
  · next idle =>
    rw [if_neg idle]
    refine ⟨?_, fun some => absurd some idle⟩
    intro weight ignored
    have known := tokens.load_eq weight ignored
    simp only [load, expected, under_way, List.map_cons, List.sum_cons, Activity.held, active] at known ⊢
    simp only [if_pos, Bool.false_eq_true, if_false] at known ⊢
    omega

theorem Tokens.tcpReg (tokens : s.Tokens) (active : Bool) (running : (s.tcpReg active).aborted = false) :
    (s.tcpReg active).Tokens := by
  rw [State.tcpReg, tcpTimerNeeded] at running ⊢
  split at running
  · next needed =>
    have idle : s.tcpipTcpTimerActive = false := by simpa using needed.1
    rw [if_pos needed]
    obtain ⟨time, set⟩ := sysTimeout_running running
    rw [set] at running ⊢
    apply tokens.set running (fun _ => rfl)
    intro weight _ known
    simp only [load, expected, idle] at known ⊢
    simp only [if_pos, Bool.false_eq_true, if_false] at known ⊢
    omega
  · next unneeded =>
    rw [if_neg unneeded]
    refine ⟨tokens.load_eq, ?_⟩
    intro some
    by_contra inactive
    exact unneeded ⟨by simpa using inactive, some⟩

theorem Tokens.turn (tokens : s.Tokens) (running : s.turn.aborted = false) : s.turn.Tokens := by
  rw [State.turn] at running ⊢
  cases under_way : s.activities with
  | nil => exact tokens
  | cons a rest =>
    rw [under_way] at running
    cases a with
    | init i =>
      dsimp only at running ⊢
      split at running
      · next more =>
        rw [if_pos more]
        obtain ⟨time, set⟩ := sysTimeout_running running
        rw [set] at running ⊢
        apply tokens.set running tokens.active
        intro weight _ known
        have first := held_init (τ := τ) weight more
        simp only [load, expected, under_way, List.map_cons, List.sum_cons] at known ⊢
        omega
      · next done =>
        rw [if_neg done]
        refine tokens.of_load rfl id ?_
        intro weight _
        have none_left : lwipCyclicTimers.length - i = 0 := by omega
        simp [load, under_way, Activity.held, none_left]
    | poll | driverPoll =>
      dsimp only
      refine tokens.of_load rfl id ?_
      intro weight _
      simp [load, under_way, Activity.held]
    | check now => exact tokens.check under_way
    | cyclicTimer i => exact tokens.cyclicTimer under_way running
    | tcpTimer => exact tokens.tcpTimer under_way running

theorem Tokens.step (tokens : s.Tokens) (o : Op) (running : (s.step o).aborted = false) : (s.step o).Tokens := by
  rw [State.step] at running ⊢
  split at running
  · next stopped =>
    rw [if_pos stopped]
    exact tokens
  · next going =>
    rw [if_neg going]
    cases o with
    | pass ms => exact tokens.of_load rfl id fun _ _ => rfl
    | timeout msecs handler arg =>
      dsimp only [op] at running ⊢
      obtain ⟨time, set⟩ := sysTimeout_running running
      rw [set] at running ⊢
      apply tokens.set running tokens.active
      intro weight ignored known
      rw [known, ignored, Nat.add_zero]
    | untimeout handler arg => exact tokens.untimeout handler arg
    | tcpReg active => exact tokens.tcpReg active running
    | tcpRmv left => exact tokens.of_load rfl (fun some => (Bool.and_eq_true_iff.mp some).1) fun _ _ => rfl
    | loop =>
      dsimp only [op, loop]
      split
      · refine tokens.of_load rfl id ?_
        intro weight _
        simp [load, Activity.held]
      · exact tokens
    | turn => exact tokens.turn running

/-! ## A run -/

/-- How often the timeout with the handler is on the list or going to be set. -/
def count (h : Handler) (s : State τ) : Nat := s.load fun h' => if h' = h then 1 else 0

theorem Tokens.boot (clock : Nat) : (State.boot clock : State τ).Tokens :=
  ⟨fun _ _ => Nat.zero_add _, fun some => some⟩

theorem step_stopped (stopped : s.aborted) (o : Op) : s.step o = s := if_pos stopped

theorem Tokens.run (ops : List Op) (start : s.aborted = false → s.Tokens)
    (running : (ops.foldl State.step s).aborted = false) : (ops.foldl State.step s).Tokens := by
  revert running
  apply Run.foldl_preserves (fun s : State τ => s.aborted = false → s.Tokens) _ _ ops s start
  intro s o known running
  cases before : s.aborted with
  | false => exact (known before).step o running
  | true =>
    rw [step_stopped before] at running ⊢
    exact known running

/-- Whatever is called in whatever order, and also when the clock goes round: every cyclic timer is on the list or running,
once, and so is the TCP timer while there are blocks to serve. -/
theorem timers_once (clock : Nat) (ops : List Op) (running : (ops.foldl step (boot clock : State UInt32)).aborted = false) :
    ((ops.foldl step (boot clock : State UInt32)).tcpPcbs → (ops.foldl step (boot clock : State UInt32)).count .tcp = 1) ∧
      (ops.foldl step (boot clock : State UInt32)).count .tcp ≤ 1 ∧
      ∀ i, 1 ≤ i → i < lwipCyclicTimers.length → (ops.foldl step (boot clock : State UInt32)).count (.cyclic i) = 1 := by
  have tokens := Tokens.run ops (fun _ => Tokens.boot clock) running
  generalize ops.foldl step (boot clock : State UInt32) = s at tokens
  have tcp : s.count .tcp = if s.tcpipTcpTimerActive then 1 else 0 := by
    rw [count, tokens.load_eq _ (fun _ _ => rfl), expected]
    simp
  refine ⟨?_, ?_, ?_⟩
  · intro some
    rw [tcp, if_pos (tokens.active some)]
  · rw [tcp]
    split <;> omega
  · intro i started inside
    have small : i < 8 := inside
    rw [count, tokens.load_eq _ (fun _ _ => rfl), expected]
    interval_cases i <;> simp [List.range']

/-- The timers are set up, the clock goes round, and a poll calls two of the cyclic ones and the TCP timer. -/
def pollAfterTheWrap : List Op :=
  [.replicate 8 .turn, [.tcpReg true, .pass 300, .loop], .replicate 14 .turn, [.tcpRmv false]].flatten

set_option maxRecDepth 4000 in
theorem timers_once_pollAfterTheWrap :
    let s := pollAfterTheWrap.foldl step (boot (2 ^ 32 - 50) : State UInt32)
    (2 ^ 32 ≤ s.clock ∧ s.called.map (fun c => c.1.h) = [.tcp, .cyclic 6, .cyclic 5]) ∧
      (s.tcpPcbs → s.count .tcp = 1) ∧ s.count .tcp ≤ 1 ∧
      ∀ i, 1 ≤ i → i < lwipCyclicTimers.length → s.count (.cyclic i) = 1 :=
  ⟨by decide, timers_once (2 ^ 32 - 50) pollAfterTheWrap (by decide)⟩

/-! ## The pool -/

def isOther : Handler → Bool
  | .other _ _ => true
  | .cyclic _ | .tcp => false

/-- How many timeouts on the list are not the internal ones. -/
def others (s : State τ) : Nat := s.nextTimeout.countP fun t => isOther t.h

def internal (h : Handler) : Nat := if isOther h then 0 else 1

/-- The entries that are kept for the others are enough for them, and no timeout is set for too long. -/
def Modest (s : State τ) : Op → Prop
  | .timeout msecs _ _ => s.others < 8 ∧ msecs ≤ 0xffffffff / 4
  | _ => True

instance (s : State τ) : DecidablePred (Modest s) := fun o => by
  cases o <;> (dsimp only [Modest]; infer_instance)

omit [Time τ] in
theorem length_eq (s : State τ) : s.nextTimeout.length = (s.nextTimeout.map fun t => internal t.h).sum + s.others := by
  rw [others]
  induction s.nextTimeout with
  | nil => rfl
  | cons t next ih =>
    rw [List.length_cons, ih, List.map_cons, List.sum_cons, List.countP_cons, internal]
    split <;> omega

omit [Time τ] in
theorem Tokens.load_internal (tokens : s.Tokens) :
    s.load internal = 7 + if s.tcpipTcpTimerActive then 1 else 0 :=
  tokens.load_eq internal fun _ _ => rfl

theorem others_sysTimeoutAbs_le (absTime : τ) (h : Handler) (s : State τ) :
    (s.sysTimeoutAbs absTime h).others ≤ s.others + if isOther h then 1 else 0 := by
  rw [sysTimeoutAbs]
  split
  · exact Nat.le_add_right _ _
  · have counted := (link_perm ⟨absTime, h⟩ s.nextTimeout).countP_eq fun t => isOther t.h
    rw [others, counted, List.countP_cons]
    exact le_rfl

theorem others_sysTimeout_le (msecs : UInt32) (h : Handler) (s : State τ) :
    (s.sysTimeout msecs h).others ≤ s.others + if isOther h then 1 else 0 := by
  rw [sysTimeout]
  split
  · exact Nat.le_add_right _ _
  · exact others_sysTimeoutAbs_le ..

theorem others_checkTimeouts_le (now : τ) (rest : List (Activity τ)) : (s.checkTimeouts now rest).others ≤ s.others := by
  rw [checkTimeouts]
  split
  · exact le_rfl
  · next t next list =>
    split
    · dsimp only
      split
      · exact le_rfl
      · exact le_rfl
    · rw [others, others, list, List.countP_cons]
      exact Nat.le_add_right _ _

theorem others_turn_le (s : State τ) : s.turn.others ≤ s.others := by
  rw [turn]
  split
  · exact le_rfl
  · split
    · exact others_sysTimeout_le ..
    · exact le_rfl
  · exact le_rfl
  · exact others_checkTimeouts_le ..
  · exact le_rfl
  · next i rest _ =>
    obtain ⟨time, set⟩ := cyclicTimer_eq i { s with activities := rest }
    rw [set]
    exact others_sysTimeoutAbs_le ..
  · rw [tcpTimer]
    split
    · exact others_sysTimeout_le ..
    · exact le_rfl

theorem others_step_le (few : s.others ≤ 8) {o : Op} (modest : Modest s o) : (s.step o).others ≤ 8 := by
  rw [step]
  split
  · exact few
  · cases o with
    | pass ms => exact few
    | timeout msecs handler arg =>
      calc (s.sysTimeout msecs (.other handler arg)).others
          ≤ s.others + 1 := others_sysTimeout_le ..
        _ ≤ 8 := modest.1
    | untimeout handler arg =>
      have part : (s.nextTimeout.eraseP (·.h = .other handler arg)).Sublist s.nextTimeout := List.eraseP_sublist
      exact (part.countP_le).trans few
    | tcpReg active =>
      dsimp only [op, tcpReg, tcpTimerNeeded]
      split
      · exact (others_sysTimeout_le ..).trans few
      · exact few
    | tcpRmv left => exact few
    | loop =>
      dsimp only [op, loop]
      split
      · exact few
      · exact few
    | turn => exact (others_turn_le s).trans few

theorem sysTimeoutAbs_aborted {absTime : τ} {h : Handler} (space : s.nextTimeout.length < mempNumSysTimeout) :
    (s.sysTimeoutAbs absTime h).aborted = s.aborted := by
  rw [sysTimeoutAbs, if_neg (Nat.not_le_of_lt space)]

theorem sysTimeout_aborted {msecs : UInt32} {h : Handler} (short : msecs ≤ 0xffffffff / 4)
    (space : s.nextTimeout.length < mempNumSysTimeout) : (s.sysTimeout msecs h).aborted = s.aborted := by
  rw [sysTimeout, if_neg (not_not.mpr short), sysTimeoutAbs_aborted space]

theorem intervalMs_short (i : Nat) : intervalMs i ≤ 0xffffffff / 4 := by
  have interval := intervalMs_le i
  have bound : (0xffffffff / 4 : UInt32).toNat = 2 ^ 30 - 1 := by decide
  exact UInt32.le_iff_toNat_le.mpr (by omega)

omit [Time τ] in
theorem Tokens.space (tokens : s.Tokens) (few : s.others ≤ 8) {a : Activity τ} {rest : List (Activity τ)}
    (under_way : s.activities = a :: rest) (sets : 0 < a.held internal) : s.nextTimeout.length < mempNumSysTimeout := by
  have load := tokens.load_internal
  have length := s.length_eq
  have timer : (if s.tcpipTcpTimerActive then 1 else 0) ≤ 1 := by
    split <;> omega
  simp only [State.load, under_way, List.map_cons, List.sum_cons] at load
  change s.nextTimeout.length < 16
  omega

theorem Tokens.turn_aborted (tokens : s.Tokens) (few : s.others ≤ 8)
    (slept : ∀ now rest, s.activities = .check now :: rest → (s.checkTimeouts now rest).aborted = s.aborted) :
    s.turn.aborted = s.aborted := by
  rw [State.turn]
  cases under_way : s.activities with
  | nil => rfl
  | cons a rest =>
    cases a with
    | init i =>
      dsimp only
      split
      · next more =>
        have held : 0 < (Activity.init i : Activity τ).held internal := by
          rw [held_init internal more]
          exact Nat.add_pos_left Nat.one_pos _
        have space : { s with activities := .init (i + 1) :: rest }.nextTimeout.length < mempNumSysTimeout :=
          tokens.space few under_way held
        exact sysTimeout_aborted (intervalMs_short i) space
      · rfl
    | poll => rfl
    | driverPoll => rfl
    | check now => exact slept now rest under_way
    | cyclicTimer i =>
      have space : { s with activities := rest }.nextTimeout.length < mempNumSysTimeout :=
        tokens.space few under_way Nat.one_pos
      obtain ⟨time, set⟩ := cyclicTimer_eq i { s with activities := rest }
      dsimp only
      rw [set]
      exact sysTimeoutAbs_aborted space
    | tcpTimer =>
      have space : { s with activities := rest }.nextTimeout.length < mempNumSysTimeout :=
        tokens.space few under_way Nat.one_pos
      dsimp only [State.tcpTimer]
      split
      · exact sysTimeout_aborted (by decide) space
      · rfl

theorem Tokens.step_aborted (tokens : s.Tokens) (few : s.others ≤ 8) {o : Op} (modest : Modest s o)
    (slept : ∀ now rest, s.activities = .check now :: rest → (s.checkTimeouts now rest).aborted = s.aborted) :
    (s.step o).aborted = s.aborted := by
  rw [State.step]
  split
  · rfl
  · cases o with
    | pass ms => rfl
    | timeout msecs handler arg =>
      have load := tokens.load_internal
      have length := s.length_eq
      have timer : (if s.tcpipTcpTimerActive then 1 else 0) ≤ 1 := by
        split <;> omega
      have room := modest.1
      have space : s.nextTimeout.length < 16 := by
        rw [State.load] at load
        omega
      exact sysTimeout_aborted modest.2 space
    | untimeout handler arg => rfl
    | tcpReg active =>
      dsimp only [op, State.tcpReg, tcpTimerNeeded]
      split
      · next needed =>
        have load := tokens.load_internal
        have length := s.length_eq
        have idle : s.tcpipTcpTimerActive = false := by simpa using needed.1
        have space : s.nextTimeout.length < 16 := by
          simp only [State.load, idle, Bool.false_eq_true, if_false] at load
          omega
        exact sysTimeout_aborted (by decide) space
      · rfl
    | tcpRmv left => rfl
    | loop =>
      dsimp only [op, loop]
      split
      · rfl
      · rfl
    | turn => exact tokens.turn_aborted few slept

end State
end QNEthernet.Timers
