import QNEthernet.Drivers.Cyw43Link

/-! The join state machine over whole runs, and what `join_check` makes of its states. -/

namespace QNEthernet.Drivers.Cyw43.Station

variable {chain : Chain} {s : Station}

/-- Does this poll of the state machine end in `JOIN_FAIL`? -/
def Fails (s : Station) (now : BitVec 32) : Prop :=
  (s.eip.join = joinJoining ∧ linkCheck s.eip ≤ 0 ∧ s.givesUp now) ∨
    (s.eip.join = joinOk ∧ linkCheck s.eip < 1)

instance (s : Station) (now : BitVec 32) : Decidable (s.Fails now) :=
  inferInstanceAs (Decidable (_ ∨ _))

/-- The network is neither given up nor lost in the call. -/
def Holds (chain : Chain) (s : Station) : Call → Prop
  | .pollEvents _ => True
  | .joinStatePoll now _ => ¬ s.Fails now
  | .poll p => s.due p → ¬ (s.pollEvents chain p.got).Fails p.now

instance (chain : Chain) (s : Station) : (call : Call) → Decidable (s.Holds chain call)
  | .pollEvents _ => inferInstanceAs (Decidable True)
  | .joinStatePoll _ _ => inferInstanceAs (Decidable (¬ _))
  | .poll _ => inferInstanceAs (Decidable (_ → _))

theorem linkCheck_pos (eip : EventInfo) : linkCheck eip > 0 ↔ eip.link &&& linkOk = linkOk := by
  unfold linkCheck
  split
  · next up => simp [up]
  · next down => split <;> simp [down]

theorem joinStatePoll_join (s : Station) (now later : BitVec 32) :
    (s.joinStatePoll now later).eip.join =
      if s.eip.join = joinIdle then joinJoining
      else if s.eip.join = joinJoining then
        if linkCheck s.eip > 0 then joinOk else if s.givesUp now then joinFail else joinJoining
      else if s.eip.join = joinOk then if linkCheck s.eip < 1 then joinFail else joinOk
      else if (ustimeout s.joinTicks now joinRetryUsec).1 then joinIdle else s.eip.join := by
  unfold joinStatePoll
  by_cases idle : s.eip.join = joinIdle
  · rw [if_pos idle, if_pos idle]
  · rw [if_neg idle, if_neg idle]
    by_cases joining : s.eip.join = joinJoining
    · rw [if_pos joining, if_pos joining]
      split
      · rfl
      · split
        · rfl
        · exact joining
    · rw [if_neg joining, if_neg joining]
      by_cases ok : s.eip.join = joinOk
      · rw [if_pos ok, if_pos ok]
        dsimp only
        split
        · rfl
        · exact ok
      · rw [if_neg ok, if_neg ok]
        dsimp only
        split <;> rfl

theorem joinStatePoll_ok (s : Station) (now later : BitVec 32) :
    (s.joinStatePoll now later).eip.join = joinOk ↔
      (s.eip.join = joinJoining ∨ s.eip.join = joinOk) ∧ s.eip.link &&& linkOk = linkOk := by
  have up := linkCheck_pos s.eip
  rw [joinStatePoll_join, ← up]
  by_cases idle : s.eip.join = joinIdle
  · rw [if_pos idle, idle]
    simp [joinIdle, joinJoining, joinOk]
  · rw [if_neg idle]
    by_cases joining : s.eip.join = joinJoining
    · rw [if_pos joining, joining]
      by_cases linked : linkCheck s.eip > 0
      · simp [linked]
      · rw [if_neg linked]
        split <;> simp [linked, joinFail, joinJoining, joinOk]
    · rw [if_neg joining]
      by_cases ok : s.eip.join = joinOk
      · rw [if_pos ok, ok]
        by_cases linked : linkCheck s.eip > 0
        · rw [if_neg (by omega)]
          simp [linked]
        · rw [if_pos (by omega)]
          simp [linked, joinFail, joinOk]
      · rw [if_neg ok]
        split
        · have other : joinIdle ≠ joinOk := by decide
          simp [joining, ok, other]
        · simp [joining, ok]

/-- The states of a station that has never failed. -/
def Sound (s : Station) : Prop :=
  s.eip.join = joinIdle ∨ s.eip.join = joinJoining ∨ s.eip.join = joinOk

theorem Sound.joinStatePoll (sound : s.Sound) {now : BitVec 32} (later : BitVec 32)
    (holds : ¬ s.Fails now) : (s.joinStatePoll now later).Sound := by
  rw [Sound, joinStatePoll_join]
  rcases sound with idle | joining | ok
  · rw [if_pos idle]
    exact .inr (.inl rfl)
  · have idle : s.eip.join ≠ joinIdle := by rw [joining]; decide
    rw [if_neg idle, if_pos joining]
    by_cases linked : linkCheck s.eip > 0
    · rw [if_pos linked]
      exact .inr (.inr rfl)
    · rw [if_neg linked, if_neg (fun up => holds (.inl ⟨joining, by omega, up⟩))]
      exact .inr (.inl rfl)
  · have idle : s.eip.join ≠ joinIdle := by rw [ok]; decide
    have joining : s.eip.join ≠ joinJoining := by rw [ok]; decide
    rw [if_neg idle, if_neg joining, if_pos ok, if_neg (fun lost => holds (.inr ⟨ok, lost⟩))]
    exact .inr (.inr rfl)

theorem pollEvents_join (s : Station) (got : Option Polled) :
    (s.pollEvents chain got).eip.join = s.eip.join := by
  cases got with
  | none => rfl
  | some p =>
      simp only [Station.pollEvents, Cyw43.pollEvents]
      split
      · exact eventHandle_join p.stack chain (p.info s.eip)
      · rfl

theorem Sound.polled (sound : s.Sound) {p : Poll} (holds : s.Holds chain (.poll p)) :
    (s.polled chain p).Sound := by
  unfold Station.polled
  by_cases due : s.due p
  · rw [if_pos due]
    have polled : (s.pollEvents chain p.got).Sound := by
      rw [Sound, pollEvents_join]
      exact sound
    exact polled.joinStatePoll p.later (holds due)
  · rw [if_neg due]
    exact sound

theorem Sound.step (sound : s.Sound) {call : Call} (holds : s.Holds chain call) :
    (s.step chain call).Sound := by
  cases call with
  | pollEvents got =>
      rw [Sound, Station.step, pollEvents_join]
      exact sound
  | joinStatePoll now later => exact sound.joinStatePoll later holds
  | poll p =>
      obtain ⟨ticks, same⟩ := poll_eq chain p s
      change (s.poll chain p).Sound
      rw [same]
      exact sound.polled holds

def Agrees (eip : EventInfo) : Prop :=
  (joinCheck eip = 2 ↔ eip.join = joinOk) ∧ (getMac eip = true ↔ eip.join = joinOk) ∧
    (joinCheck eip = -1 ↔ eip.join = joinFail)

theorem Sound.agrees (sound : s.Sound) : Agrees s.eip := by
  unfold Agrees getMac joinCheck
  rcases sound with idle | joining | ok
  · rw [idle]
    decide
  · rw [joining]
    decide
  · rw [ok]
    decide

def polls (s : Station) : Call → Bool
  | .pollEvents _ => false
  | .joinStatePoll _ _ => true
  | .poll p => s.due p

theorem joinStatePoll_moves (s : Station) (now later : BitVec 32) :
    ((s.joinStatePoll now later).eip.join = joinOk → s.eip.join ≠ joinOk →
      s.eip.join = joinJoining ∧ (s.joinStatePoll now later).eip.link &&& linkOk = linkOk) ∧
    (s.eip.join = joinOk →
      ((s.joinStatePoll now later).eip.join = joinOk ↔
        (s.joinStatePoll now later).eip.link &&& linkOk = linkOk)) := by
  have moves := joinStatePoll_ok s now later
  constructor
  · intro after before
    obtain ⟨joining | ok, linked⟩ := moves.mp after
    · have busy : s.eip.join ≠ joinIdle := by rw [joining]; decide
      rw [(joinStatePoll_link s now later busy).1]
      exact ⟨joining, linked⟩
    · exact absurd ok before
  · intro ok
    have busy : s.eip.join ≠ joinIdle := by rw [ok]; decide
    rw [(joinStatePoll_link s now later busy).1, moves]
    exact ⟨fun both => both.2, fun linked => ⟨.inr ok, linked⟩⟩

/-- `JOIN_OK` is entered from `JOIN_JOINING` with both bits set, and a poll that finds a bit lost
leaves it. -/
theorem step_ok (chain : Chain) (s : Station) (call : Call) :
    ((s.step chain call).eip.join = joinOk → s.eip.join ≠ joinOk →
      s.polls call ∧ s.eip.join = joinJoining ∧ (s.step chain call).eip.link &&& linkOk = linkOk) ∧
    (s.eip.join = joinOk → s.polls call →
      ((s.step chain call).eip.join = joinOk ↔ (s.step chain call).eip.link &&& linkOk = linkOk)) := by
  cases call with
  | pollEvents got =>
      have same : (s.step chain (.pollEvents got)).eip.join = s.eip.join := pollEvents_join s got
      exact ⟨fun after before => absurd (same.symm.trans after) before, fun _ polls => by cases polls⟩
  | joinStatePoll now later =>
      have moves := joinStatePoll_moves s now later
      exact ⟨fun after before => ⟨rfl, moves.1 after before⟩, fun ok _ => moves.2 ok⟩
  | poll p =>
      obtain ⟨ticks, same⟩ := poll_eq chain p s
      have kept : (s.step chain (.poll p)).eip = (s.polled chain p).eip := by
        change (s.poll chain p).eip = _
        rw [same]
      rw [kept]
      unfold polled
      by_cases due : s.due p
      · rw [if_pos due]
        have moves := joinStatePoll_moves (s.pollEvents chain p.got) p.now p.later
        rw [pollEvents_join] at moves
        exact ⟨fun after before => ⟨due, moves.1 after before⟩, fun ok _ => moves.2 ok⟩
      · rw [if_neg due]
        exact ⟨fun after before => absurd after before, fun _ polls => absurd polls due⟩

/-- As long as the network is neither given up nor lost, what `join_check`, `get_mac` and the netif say
agrees with the state. -/
theorem link_agrees (chain : Chain) (run : List Call)
    (holds : Run.Allowed (Holds chain) (step chain) {} run) :
    let s := run.foldl (step chain) {}
    (joinCheck s.eip = 2 ↔ s.eip.join = joinOk) ∧ (getMac s.eip = true ↔ s.eip.join = joinOk) ∧
      (joinCheck s.eip = -1 ↔ s.eip.join = joinFail) ∧
      (∀ p, s.Holds chain (.poll p) →
        ((s.poll chain p).linkUp = true ↔ (s.poll chain p).eip.join = joinOk)) ∧
      ∀ call,
        ((s.step chain call).eip.join = joinOk → s.eip.join ≠ joinOk →
          s.polls call ∧ s.eip.join = joinJoining ∧
            (s.step chain call).eip.link &&& linkOk = linkOk) ∧
        (s.eip.join = joinOk → s.polls call →
          ((s.step chain call).eip.join = joinOk ↔
            (s.step chain call).eip.link &&& linkOk = linkOk)) := by
  intro s
  have sound : s.Sound := Run.allowed_preserves Sound (Holds chain) (step chain)
    (fun s call holds sound => sound.step holds) run {} holds (.inl rfl)
  refine ⟨sound.agrees.1, sound.agrees.2.1, sound.agrees.2.2, ?_, step_ok chain s⟩
  intro p holds
  obtain ⟨ticks, same⟩ := poll_eq chain p s
  have polled := sound.polled holds
  rw [same]
  change (joinCheck (s.polled chain p).eip != 0) = true ↔ (s.polled chain p).eip.join = joinOk
  unfold joinCheck
  rcases polled with idle | joining | ok
  · rw [idle]
    decide
  · rw [joining]
    decide
  · rw [ok]
    decide

theorem link_agrees_joined : joinCheck (joined.foldl (step [(0, .join)]) {}).eip = 2 :=
  (link_agrees [(0, .join)] joined (by decide)).1.mpr (by decide)

/-- No event comes for ten seconds: the state is `JOIN_FAIL`, but it is reported as joined and the
netif's link is set up. -/
theorem join_fail_reported_joined :
    let s := [Call.joinStatePoll 0 0, .joinStatePoll 10000000 10000000, .poll ⟨0, none, 0, 0, 0⟩].foldl
      (step [(0, .join)]) {}
    s.eip.join = joinFail ∧ joinCheck s.eip = 2 ∧ getMac s.eip = true ∧ s.linkUp = true := by
  decide

end QNEthernet.Drivers.Cyw43.Station
