import QNEthernet.Lib.Serial
import QNEthernet.Lib.Agenda
import QNEthernet.Timers.Tokens

/-! The timeouts over 32-bit times do what they do over times without bound, as long as none is left for very long. -/

namespace QNEthernet.Timers

/-! ## 32-bit times -/

def SysTimeo.wrap (t : SysTimeo Nat) : SysTimeo UInt32 := ⟨.ofNat t.time, t.h⟩

def Activity.wrap : Activity Nat → Activity UInt32
  | .init i => .init i
  | .poll => .poll
  | .driverPoll => .driverPoll
  | .check now => .check (.ofNat now)
  | .cyclicTimer i => .cyclicTimer i
  | .tcpTimer => .tcpTimer

def Returned.wrap (r : Returned Nat) : Returned UInt32 := ⟨.ofNat r.now, r.pending.map SysTimeo.wrap, r.ret⟩

/-- The state that the code is in when its times are those of `s`. -/
def State.wrap (s : State Nat) : State UInt32 where
  clock := s.clock
  nextTimeout := s.nextTimeout.map SysTimeo.wrap
  currentTimeoutDueTime := .ofNat s.currentTimeoutDueTime
  tcpipTcpTimerActive := s.tcpipTcpTimerActive
  tcpPcbs := s.tcpPcbs
  lastPollTime := .ofNat s.lastPollTime
  activities := s.activities.map Activity.wrap
  aborted := s.aborted
  scheduled := s.scheduled.map SysTimeo.wrap
  cancelled := s.cancelled.map SysTimeo.wrap
  called := s.called.map fun c => (c.1.wrap, c.2)
  returned := s.returned.map Returned.wrap

theorem timeLessThan_wrap {a b : Nat} (near : a < b + 2 ^ 31) (near' : b ≤ a + 2 ^ 31) :
    timeLessThan (UInt32.ofNat a) (UInt32.ofNat b) = timeLessThan a b := by
  have half : 2 ^ 31 ≤ (2 ^ 32 - b % 2 ^ 32 + a % 2 ^ 32) % 2 ^ 32 ↔ a < b := Serial.before_iff rfl near near'
  have difference : (UInt32.ofNat a - UInt32.ofNat b).toNat = (2 ^ 32 - b % 2 ^ 32 + a % 2 ^ 32) % 2 ^ 32 := by
    rw [UInt32.toNat_sub, UInt32.toNat_ofNat', UInt32.toNat_ofNat']
  have above : UInt32.ofNat a - UInt32.ofNat b > lwipMaxTimeout ↔ a < b := by
    rw [gt_iff_lt, UInt32.lt_iff_toNat_lt, difference, ← half]
    exact Iff.rfl
  exact decide_eq_decide.mpr above

theorem add_wrap (t : Nat) (msecs : UInt32) : Time.add (UInt32.ofNat t) msecs = .ofNat (Time.add t msecs) := by
  apply UInt32.toNat_inj.mp
  change (UInt32.ofNat t + msecs).toNat = (UInt32.ofNat (t + msecs.toNat)).toNat
  rw [UInt32.toNat_add, UInt32.toNat_ofNat', UInt32.toNat_ofNat', Nat.mod_add_mod]

theorem sub_wrap {t t' : Nat} (order : t' ≤ t) :
    Time.sub (UInt32.ofNat t) (UInt32.ofNat t') = Time.sub t t' :=
  (UInt32.ofNat_sub order).symm

/-! ## What is known of the times -/

/-- Of a function under way, how long ago its time may be. -/
def Activity.Timely (s : State Nat) : Activity Nat → Prop
  | .check now => s.clock ≤ now + 2 ^ 30
  | .cyclicTimer _ => s.clock ≤ s.currentTimeoutDueTime + 2 ^ 30
  | _ => True

instance (s : State Nat) : DecidablePred (Activity.Timely s) := fun a => by
  unfold Activity.Timely
  split <;> infer_instance

namespace State

/-- No timeout is overdue for more than twelve days, and none that was called then is still running. -/
def Timely (s : State Nat) : Prop :=
  (∀ t ∈ s.nextTimeout, s.clock ≤ t.time + 2 ^ 30) ∧ ∀ a ∈ s.activities, a.Timely s

instance : DecidablePred Timely := fun _ => inferInstanceAs (Decidable (_ ∧ _))

/-- The list is in order and not further ahead than a timeout can be set, and the other times are in the past. -/
structure Sound (s : State Nat) : Prop where
  sorted : Agenda.Sorted SysTimeo.time s.nextTimeout
  ahead : ∀ t ∈ s.nextTimeout, t.time < s.clock + 2 ^ 30
  current : s.currentTimeoutDueTime ≤ s.clock
  polled : s.lastPollTime ≤ s.clock
  checks : ∀ now, .check now ∈ s.activities → now ≤ s.clock

variable {s : State Nat}

/-! ## The list of timeouts -/

theorem link_eq (timeout : SysTimeo Nat) (list : List (SysTimeo Nat)) :
    link timeout list = Agenda.insert SysTimeo.time timeout list := by
  induction list with
  | nil => rfl
  | cons t next ih =>
    rw [link, Agenda.insert, ih]
    change (if decide (timeout.time < t.time) = true then _ else _) = _
    simp only [decide_eq_true_eq]

theorem link_wrap (timeout : SysTimeo Nat) (list : List (SysTimeo Nat))
    (near : ∀ t ∈ list, timeout.time < t.time + 2 ^ 31 ∧ t.time ≤ timeout.time + 2 ^ 31) :
    link timeout.wrap (list.map SysTimeo.wrap) = (link timeout list).map SysTimeo.wrap := by
  induction list with
  | nil => rfl
  | cons t next ih =>
    obtain ⟨here, others⟩ := List.forall_mem_cons.mp near
    have compared : timeLessThan timeout.wrap.time t.wrap.time = timeLessThan timeout.time t.time :=
      timeLessThan_wrap here.1 here.2
    rw [List.map_cons, link, link, compared, ih others]
    cases timeLessThan timeout.time t.time <;> rfl

theorem wrap_h (h : Handler) : (fun t : SysTimeo UInt32 => decide (t.h = h)) ∘ SysTimeo.wrap =
    fun t : SysTimeo Nat => decide (t.h = h) := rfl

theorem sysTimeoutAbs_wrap (sound : s.Sound) (timely : s.Timely) {absTime : Nat} (h : Handler)
    (now_on : s.clock ≤ absTime) (near : absTime < s.clock + 2 ^ 30) :
    s.wrap.sysTimeoutAbs (.ofNat absTime) h = (s.sysTimeoutAbs absTime h).wrap := by
  have linked : link (SysTimeo.wrap ⟨absTime, h⟩) (s.nextTimeout.map SysTimeo.wrap) =
      (link ⟨absTime, h⟩ s.nextTimeout).map SysTimeo.wrap := by
    apply link_wrap
    intro t member
    have ahead := sound.ahead t member
    have behind := timely.1 t member
    dsimp only
    omega
  have length : s.wrap.nextTimeout.length = s.nextTimeout.length := List.length_map ..
  rw [sysTimeoutAbs, sysTimeoutAbs, length]
  split
  · rfl
  · simp only [wrap, State.mk.injEq, and_true, true_and, List.map_cons]
    exact ⟨linked, rfl⟩

theorem sysTimeout_wrap (sound : s.Sound) (timely : s.Timely) (msecs : UInt32) (h : Handler) :
    s.wrap.sysTimeout msecs h = (s.sysTimeout msecs h).wrap := by
  rw [sysTimeout, sysTimeout]
  split
  · rfl
  · next short =>
    have small : msecs.toNat < 2 ^ 30 := by
      have le := UInt32.le_iff_toNat_le.mp (not_not.mp short)
      have bound : (0xffffffff / 4 : UInt32).toNat < 2 ^ 30 := by decide
      omega
    have time : Time.add (sysNow s.wrap.clock) msecs = UInt32.ofNat (Time.add (sysNow s.clock : Nat) msecs) :=
      add_wrap s.clock msecs
    rw [time]
    apply sysTimeoutAbs_wrap sound timely
    · change s.clock ≤ s.clock + msecs.toNat
      omega
    · change s.clock + msecs.toNat < s.clock + 2 ^ 30
      omega

theorem sysUntimeout_wrap (h : Handler) : s.wrap.sysUntimeout h = (s.sysUntimeout h).wrap := by
  have found : (s.nextTimeout.map SysTimeo.wrap).find? (·.h = h) = (s.nextTimeout.find? (·.h = h)).map SysTimeo.wrap := by
    rw [List.find?_map, wrap_h]
  have erased : (s.nextTimeout.map SysTimeo.wrap).eraseP (·.h = h) = (s.nextTimeout.eraseP (·.h = h)).map SysTimeo.wrap := by
    rw [List.eraseP_map, wrap_h]
  simp only [sysUntimeout, wrap, found, erased, State.mk.injEq, true_and, and_true, List.map_append]
  cases s.nextTimeout.find? (·.h = h) <;> rfl

/-! ## One step -/

theorem Sound.with_activities (sound : s.Sound) {activities : List (Activity Nat)}
    (checks : ∀ now, .check now ∈ activities → now ≤ s.clock) : Sound { s with activities := activities } :=
  { sound with checks := checks }

theorem Timely.with_activities (timely : s.Timely) {activities : List (Activity Nat)}
    (all : ∀ a ∈ activities, a.Timely s) : Timely { s with activities := activities } := by
  refine ⟨timely.1, ?_⟩
  intro a member
  have known := all a member
  cases a <;> exact known

theorem checkTimeouts_wrap (sound : s.Sound) (timely : s.Timely) {now : Nat} {rest : List (Activity Nat)}
    (under_way : s.activities = .check now :: rest) :
    s.wrap.checkTimeouts (.ofNat now) (rest.map Activity.wrap) = (s.checkTimeouts now rest).wrap := by
  have past : now ≤ s.clock := sound.checks now (by simp [under_way])
  have recent : s.clock ≤ now + 2 ^ 30 := timely.2 (.check now) (by simp [under_way])
  cases list : s.nextTimeout with
  | nil => simp [checkTimeouts, wrap, list, endCheck, Returned.wrap]
  | cons t next =>
    have ahead := sound.ahead t (by simp [list])
    have behind := timely.1 t (by simp [list])
    have compared : timeLessThan (UInt32.ofNat now) (UInt32.ofNat t.time) = timeLessThan now t.time :=
      timeLessThan_wrap (by omega) (by omega)
    have wrapped : s.wrap.nextTimeout = t.wrap :: next.map SysTimeo.wrap := by
      rw [wrap, list, List.map_cons]
    rw [checkTimeouts, checkTimeouts, wrapped, list]
    dsimp only
    rw [SysTimeo.wrap, compared]
    by_cases early : now < t.time
    · have less : timeLessThan now t.time = true := decide_eq_true early
      have ret : Time.sub (UInt32.ofNat t.time) (UInt32.ofNat now) = Time.sub t.time now := sub_wrap early.le
      rw [less, ret, if_pos rfl, if_pos rfl]
      split
      · rfl
      · simp only [endCheck, wrap, list, List.map_cons, Returned.wrap]
    · have less : timeLessThan now t.time = false := decide_eq_false early
      rw [less, if_neg Bool.false_ne_true, if_neg Bool.false_ne_true]
      simp only [wrap, State.mk.injEq, List.map_append, List.map_cons, true_and, and_true]
      rcases t with ⟨time, handler⟩
      cases handler <;> exact ⟨rfl, rfl⟩

theorem cyclicTimer_wrap (sound : s.Sound) (timely : s.Timely) (i : Nat)
    (recent : s.clock ≤ s.currentTimeoutDueTime + 2 ^ 30) : s.wrap.cyclicTimer i = (s.cyclicTimer i).wrap := by
  have past := sound.current
  have interval := intervalMs_le i
  have next : Time.add s.wrap.currentTimeoutDueTime (intervalMs i) =
      UInt32.ofNat (Time.add s.currentTimeoutDueTime (intervalMs i)) := add_wrap ..
  have later : Time.add (sysNow s.wrap.clock) (intervalMs i) =
      UInt32.ofNat (Time.add (sysNow s.clock : Nat) (intervalMs i)) := add_wrap ..
  have next_eq : (Time.add s.currentTimeoutDueTime (intervalMs i) : Nat) =
      s.currentTimeoutDueTime + (intervalMs i).toNat := rfl
  have later_eq : (Time.add (sysNow s.clock : Nat) (intervalMs i) : Nat) = s.clock + (intervalMs i).toNat := rfl
  have compared : timeLessThan (UInt32.ofNat (Time.add s.currentTimeoutDueTime (intervalMs i)))
      (sysNow s.wrap.clock : UInt32) = timeLessThan (Time.add s.currentTimeoutDueTime (intervalMs i)) (sysNow s.clock) := by
    apply timeLessThan_wrap
    · change s.currentTimeoutDueTime + (intervalMs i).toNat < s.clock + 2 ^ 31
      omega
    · change s.clock ≤ s.currentTimeoutDueTime + (intervalMs i).toNat + 2 ^ 31
      omega
  simp only [cyclicTimer, next, later, compared]
  by_cases overload : s.currentTimeoutDueTime + (intervalMs i).toNat < s.clock
  · have less : timeLessThan (Time.add s.currentTimeoutDueTime (intervalMs i)) (sysNow s.clock : Nat) = true :=
      decide_eq_true overload
    rw [less, if_pos rfl, if_pos rfl]
    exact sysTimeoutAbs_wrap sound timely _ (by rw [later_eq]; omega) (by rw [later_eq]; omega)
  · have less : timeLessThan (Time.add s.currentTimeoutDueTime (intervalMs i)) (sysNow s.clock : Nat) = false :=
      decide_eq_false overload
    rw [less, if_neg Bool.false_ne_true, if_neg Bool.false_ne_true]
    exact sysTimeoutAbs_wrap sound timely _ (by rw [next_eq]; omega) (by rw [next_eq]; omega)

theorem tcpTimer_wrap (sound : s.Sound) (timely : s.Timely) : s.wrap.tcpTimer = s.tcpTimer.wrap := by
  have same : s.wrap.tcpPcbs = s.tcpPcbs := rfl
  rw [tcpTimer, tcpTimer, same]
  split
  · exact sysTimeout_wrap sound timely _ _
  · rfl

theorem turn_wrap (sound : s.Sound) (timely : s.Timely) : s.wrap.turn = s.turn.wrap := by
  cases under_way : s.activities with
  | nil => simp [turn, wrap, under_way]
  | cons a rest =>
    have wrapped : s.wrap.activities = a.wrap :: rest.map Activity.wrap := by
      rw [wrap, under_way, List.map_cons]
    have checks (now : Nat) (member : .check now ∈ rest) : now ≤ s.clock :=
      sound.checks now (by simp [under_way, member])
    have all (b : Activity Nat) (member : b ∈ rest) : b.Timely s := timely.2 b (by simp [under_way, member])
    have sound' : Sound { s with activities := rest } := sound.with_activities checks
    have timely' : Timely { s with activities := rest } := timely.with_activities all
    rw [turn, turn, wrapped, under_way]
    cases a with
    | init i =>
      dsimp only [Activity.wrap]
      split
      · have sound₁ : Sound { s with activities := .init (i + 1) :: rest } :=
          sound.with_activities (by simpa using checks)
        have timely₁ : Timely { s with activities := .init (i + 1) :: rest } :=
          timely.with_activities (List.forall_mem_cons.mpr ⟨trivial, all⟩)
        exact sysTimeout_wrap sound₁ timely₁ _ _
      · rfl
    | poll => rfl
    | driverPoll => rfl
    | check now => exact checkTimeouts_wrap sound timely under_way
    | cyclicTimer i =>
      have recent : s.clock ≤ s.currentTimeoutDueTime + 2 ^ 30 := timely.2 (.cyclicTimer i) (by simp [under_way])
      exact cyclicTimer_wrap sound' timely' i recent
    | tcpTimer => exact tcpTimer_wrap sound' timely'

theorem tcpTimerNeeded_wrap (sound : s.Sound) (timely : s.Timely) : s.wrap.tcpTimerNeeded = s.tcpTimerNeeded.wrap := by
  have active : s.wrap.tcpipTcpTimerActive = s.tcpipTcpTimerActive := rfl
  have pcbs : s.wrap.tcpPcbs = s.tcpPcbs := rfl
  rw [tcpTimerNeeded, tcpTimerNeeded, active, pcbs]
  split
  · have sound' : Sound { s with tcpipTcpTimerActive := true } := { sound with }
    have timely' : Timely { s with tcpipTcpTimerActive := true } := timely
    exact sysTimeout_wrap sound' timely' _ _
  · rfl

theorem loop_wrap (polled : s.lastPollTime ≤ s.clock) : s.wrap.loop = s.loop.wrap := by
  have elapsed : Time.sub (sysNow s.wrap.clock) s.wrap.lastPollTime = Time.sub (sysNow s.clock : Nat) s.lastPollTime :=
    sub_wrap polled
  rw [loop, loop, elapsed]
  split <;> rfl

/-- The code's step is that of the times without bound. -/
theorem step_wrap (sound : s.Sound) (timely : s.Timely) (o : Op) : s.wrap.step o = (s.step o).wrap := by
  have same : s.wrap.aborted = s.aborted := rfl
  rw [step, step, same]
  split
  · rfl
  · cases o with
    | pass ms => rfl
    | timeout msecs handler arg => exact sysTimeout_wrap sound timely msecs _
    | untimeout handler arg => exact sysUntimeout_wrap _
    | tcpReg active =>
      have sound' : Sound { s with tcpPcbs := s.tcpPcbs || active } := { sound with }
      have timely' : Timely { s with tcpPcbs := s.tcpPcbs || active } := timely
      exact tcpTimerNeeded_wrap sound' timely'
    | tcpRmv left => rfl
    | loop => exact loop_wrap sound.polled
    | turn => exact turn_wrap sound timely

end State
end QNEthernet.Timers
