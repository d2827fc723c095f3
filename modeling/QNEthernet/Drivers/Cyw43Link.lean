import QNEthernet.Drivers.Cyw43Join

/-! The link word is the fold of the link events, as long as the handler is given events only. -/

namespace QNEthernet.Drivers.Cyw43

open Lwip

/-- What one event means for the link word. -/
def linkStep (link : BitVec 16) (event : EventInfo) : BitVec 16 :=
  if event.chan ≠ sdpcmChanEvt then link
  else if event.eventType = wlcELink ∧ event.status = 0 then
    if event.flags &&& 1 ≠ 0 then link ||| linkUpOk else link &&& ~~~linkUpOk
  else if event.eventType = wlcEPskSup then
    if event.status = 6 then link ||| linkAuthOk else link &&& ~~~linkAuthOk
  else if event.eventType = wlcEDisassocInd then linkFail
  else link

/-- On the event channel the handler takes the step, and passes on only what does not change the word. -/
theorem joinEventHandler_event (stack : BitVec 16) (eip : EventInfo) (event : eip.chan = sdpcmChanEvt) :
    (joinEventHandler stack eip).2.link = linkStep eip.link eip ∧
      ((joinEventHandler stack eip).1 = 0 → (joinEventHandler stack eip).2 = eip) := by
  unfold joinEventHandler linkStep
  rw [if_pos event, if_neg (not_not.mpr event)]
  by_cases up : eip.eventType = wlcELink ∧ eip.status = 0
  · rw [if_pos up, if_pos up]
    exact ⟨rfl, fun passed => by cases passed⟩
  · by_cases sup : eip.eventType = wlcEPskSup
    · rw [if_neg up, if_neg up, if_pos sup, if_pos sup]
      exact ⟨rfl, fun passed => by cases passed⟩
    · by_cases disassoc : eip.eventType = wlcEDisassocInd
      · rw [if_neg up, if_neg up, if_neg sup, if_neg sup, if_pos disassoc, if_pos disassoc]
        exact ⟨rfl, fun passed => by cases passed⟩
      · rw [if_neg up, if_neg up, if_neg sup, if_neg sup, if_neg disassoc, if_neg disassoc]
        exact ⟨rfl, fun _ => rfl⟩

theorem joinEventHandler_join (stack : BitVec 16) (eip : EventInfo) :
    (joinEventHandler stack eip).2.join = eip.join := by
  unfold joinEventHandler
  split
  · split
    · rfl
    · split
      · rfl
      · split <;> rfl
  · rfl

section Loop

variable {stack : Nat → BitVec 16} {port : BitVec 16} {handler : Handler} {rest : Chain}
  {eip : EventInfo}

theorem eventHandle_answered
    (answered : (handler.run (stack 0) { eip with serverPort := port }).1 ≠ 0) :
    eventHandle stack ((port, handler) :: rest) eip =
      ([(handler.run (stack 0) { eip with serverPort := port }).1],
        (handler.run (stack 0) { eip with serverPort := port }).2) :=
  if_pos answered

theorem eventHandle_passed (passed : (handler.run (stack 0) { eip with serverPort := port }).1 = 0) :
    eventHandle stack ((port, handler) :: rest) eip =
      (0 :: (eventHandle (fun i => stack (i + 1)) rest
          (handler.run (stack 0) { eip with serverPort := port }).2).1,
        (eventHandle (fun i => stack (i + 1)) rest
          (handler.run (stack 0) { eip with serverPort := port }).2).2) := by
  simp [eventHandle, passed]

end Loop

theorem Handler.run_join (stack : BitVec 16) (eip : EventInfo) (handler : Handler) :
    (handler.run stack eip).2.join = eip.join := by
  cases handler with
  | join => exact joinEventHandler_join stack eip
  | other answer => rfl

theorem eventHandle_join (stack : Nat → BitVec 16) (chain : Chain) (eip : EventInfo) :
    (eventHandle stack chain eip).2.join = eip.join := by
  induction chain generalizing stack eip with
  | nil => rfl
  | cons entry rest ih =>
      obtain ⟨port, handler⟩ := entry
      have ran := handler.run_join (stack 0) { eip with serverPort := port }
      by_cases passed : (handler.run (stack 0) { eip with serverPort := port }).1 = 0
      · rw [eventHandle_passed passed]
        exact (ih _ _).trans ran
      · rw [eventHandle_answered passed]
        exact ran

/-- A frame stays with the first handler that answers it. -/
theorem eventHandle_runs (stack : Nat → BitVec 16) (chain : Chain) (eip : EventInfo) (i : Nat)
    (there : i < chain.length) :
    i < (eventHandle stack chain eip).1.length ↔
      ∀ j < i, (eventHandle stack chain eip).1[j]? = some 0 := by
  induction chain generalizing stack eip i with
  | nil => exact absurd there (Nat.not_lt_zero i)
  | cons entry rest ih =>
      obtain ⟨port, handler⟩ := entry
      by_cases passed : (handler.run (stack 0) { eip with serverPort := port }).1 = 0
      · rw [eventHandle_passed passed]
        cases i with
        | zero => simp
        | succ i =>
            rw [List.length_cons, Nat.succ_lt_succ_iff, ih _ _ i (Nat.lt_of_succ_lt_succ there)]
            constructor
            · intro zero j inside
              cases j with
              | zero => rfl
              | succ j => exact zero j (Nat.lt_of_succ_lt_succ inside)
            · intro zero j inside
              exact zero (j + 1) (Nat.succ_lt_succ inside)
      · rw [eventHandle_answered passed]
        cases i with
        | zero => simp
        | succ i =>
            constructor
            · intro second
              exact absurd second (by simp)
            · intro zero
              have first := zero 0 (Nat.succ_pos i)
              exact absurd (by simpa using first) passed

namespace Station

theorem joinRan_cons (entry : BitVec 16 × Handler) (rest : Chain) (ret : Int) (rets : List Int) :
    joinRan (entry :: rest) (ret :: rets) =
      ((match entry.2 with | .join => true | .other _ => false) || joinRan rest rets) := rfl

theorem eventHandle_link (stack : Nat → BitVec 16) (chain : Chain) (eip : EventInfo)
    (event : eip.chan = sdpcmChanEvt ∨ joinRan chain (eventHandle stack chain eip).1 = false) :
    (eventHandle stack chain eip).2.link =
      if joinRan chain (eventHandle stack chain eip).1 then linkStep eip.link eip else eip.link := by
  induction chain generalizing stack eip with
  | nil => rfl
  | cons entry rest ih =>
      obtain ⟨port, handler⟩ := entry
      have unasked (ret : Int) (rets : List Int) :
          joinRan ((port, .join) :: rest) (ret :: rets) = true := rfl
      cases handler with
      | join =>
          have event : eip.chan = sdpcmChanEvt := by
            rcases event with event | unheard
            · exact event
            · by_cases passed : (Handler.join.run (stack 0) { eip with serverPort := port }).1 = 0
              · rw [eventHandle_passed passed, unasked] at unheard
                cases unheard
              · rw [eventHandle_answered passed, unasked] at unheard
                cases unheard
          have handled := joinEventHandler_event (stack 0) { eip with serverPort := port } event
          by_cases passed : (Handler.join.run (stack 0) { eip with serverPort := port }).1 = 0
          · have unchanged := handled.2 passed
            have same : linkStep eip.link eip = eip.link := by
              have taken := handled.1
              rw [unchanged] at taken
              exact taken.symm
            rw [eventHandle_passed passed, unasked, if_pos rfl, same]
            change (eventHandle _ rest (joinEventHandler (stack 0) _).2).2.link = eip.link
            rw [unchanged, ih _ { eip with serverPort := port } (.inl event)]
            change (if _ then linkStep eip.link eip else eip.link) = eip.link
            rw [same, ite_self]
          · rw [eventHandle_answered passed, unasked]
            exact handled.1
      | other answer =>
          by_cases passed : ((Handler.other answer).run (stack 0) { eip with serverPort := port }).1 = 0
          · rw [eventHandle_passed passed, joinRan_cons, Bool.false_or] at event ⊢
            exact ih _ _ event
          · rw [eventHandle_answered passed]
            rfl

/-- The frame is on the event channel, or another handler keeps it from `join_event_handler`. -/
def HearsEvent (chain : Chain) (s : Station) : Option Polled → Prop
  | none => True
  | some p =>
      p.chan.toBitVec.zeroExtend 32 = sdpcmChanEvt ∨
        joinRan chain (Cyw43.pollEvents chain (some p) s.eip).1 = false

def HearsEvents (chain : Chain) (s : Station) : Call → Prop
  | .pollEvents got => s.HearsEvent chain got
  | .joinStatePoll _ _ => True
  | .poll p => s.due p → s.HearsEvent chain p.got

/-- The link word is what the frames since the reset make of an empty one. -/
def Folded (s : Station) : Prop := s.eip.link = s.heard.foldl linkStep 0

variable {chain : Chain} {s : Station}

theorem Folded.pollEvents (folded : s.Folded) {got : Option Polled} (event : s.HearsEvent chain got) :
    (s.pollEvents chain got).Folded := by
  cases got with
  | none => exact folded
  | some p =>
      by_cases empty : 0 < p.n
      · have handled : Cyw43.pollEvents chain (some p) s.eip = eventHandle p.stack chain (p.info s.eip) :=
          if_pos empty
        rw [HearsEvent, handled] at event
        have link := eventHandle_link p.stack chain (p.info s.eip) event
        simp only [Folded, Station.pollEvents, handled]
        rw [link]
        split
        · rw [List.foldl_append, ← show s.eip.link = s.heard.foldl linkStep 0 from folded]
          rfl
        · exact folded
      · have ignored : Cyw43.pollEvents chain (some p) s.eip = ([], s.eip) := if_neg empty
        simp only [Folded, Station.pollEvents, ignored]
        exact folded

theorem joinStatePoll_link (s : Station) (now later : BitVec 32) (busy : s.eip.join ≠ joinIdle) :
    (s.joinStatePoll now later).eip.link = s.eip.link ∧ (s.joinStatePoll now later).heard = s.heard := by
  unfold joinStatePoll
  rw [if_neg busy]
  split
  · split
    · exact ⟨rfl, rfl⟩
    · split <;> exact ⟨rfl, rfl⟩
  · split
    · dsimp only
      split <;> exact ⟨rfl, rfl⟩
    · dsimp only
      split <;> exact ⟨rfl, rfl⟩

theorem Folded.joinStatePoll (folded : s.Folded) (now later : BitVec 32) :
    (s.joinStatePoll now later).Folded := by
  by_cases idle : s.eip.join = joinIdle
  · unfold Station.joinStatePoll
    rw [if_pos idle]
    rfl
  · have same := joinStatePoll_link s now later idle
    rw [Folded, same.1, same.2]
    exact folded

/-- What `poll` leaves of the join state machine. -/
def polled (chain : Chain) (p : Poll) (s : Station) : Station :=
  if s.due p then (s.pollEvents chain p.got).joinStatePoll p.now p.later else s

theorem linkUp_eq (s : Station) (up : Bool) : (if s.linkUp ≠ up then { s with linkUp := up } else s) =
    { s with linkUp := up } := by
  split
  · rfl
  · next same => rw [← not_not.mp same]

theorem poll_eq (chain : Chain) (p : Poll) (s : Station) : ∃ ticks,
    s.poll chain p =
      { s.polled chain p with
        pollTicks := ticks, linkUp := joinCheck (s.polled chain p).eip != 0 } := by
  unfold poll polled
  by_cases due : s.due p
  · simp only [if_pos due]
    exact ⟨_, linkUp_eq { (s.pollEvents chain p.got).joinStatePoll p.now p.later with
      pollTicks := (ustimeout s.pollTicks p.done 0).2 } _⟩
  · simp only [if_neg due]
    exact ⟨s.pollTicks, linkUp_eq s _⟩

theorem Folded.step (folded : s.Folded) {call : Call} (event : s.HearsEvents chain call) :
    (s.step chain call).Folded := by
  cases call with
  | pollEvents got => exact folded.pollEvents event
  | joinStatePoll now later => exact folded.joinStatePoll now later
  | poll p =>
      obtain ⟨ticks, same⟩ := poll_eq chain p s
      change (s.poll chain p).Folded
      rw [same]
      change (s.polled chain p).Folded
      unfold polled
      by_cases due : s.due p
      · rw [if_pos due]
        exact (folded.pollEvents (event due)).joinStatePoll p.now p.later
      · rw [if_neg due]
        exact folded

/-- As long as `join_event_handler` is given frames of the event channel only, the link word is the
fold of the link events since the last reset. -/
theorem link_is_fold (chain : Chain) (run : List Call)
    (events : Run.Allowed (HearsEvents chain) (step chain) {} run) :
    let s := run.foldl (step chain) {}
    s.eip.link = s.heard.foldl linkStep 0 ∧
      ∀ (stack : Nat → BitVec 16) (eip : EventInfo) (i : Nat), i < chain.length →
        (i < (eventHandle stack chain eip).1.length ↔
          ∀ j < i, (eventHandle stack chain eip).1[j]? = some 0) := by
  refine ⟨?_, fun stack eip i there => eventHandle_runs stack chain eip i there⟩
  exact Run.allowed_preserves Folded (HearsEvents chain) (step chain)
    (fun s call event folded => folded.step event) run {} events rfl

def eventFrame (flags event status : Byte) : Polled where
  n := 60
  chan := 1
  eventbuf := List.flatten [List.replicate 36 0, [0, flags, 0, 0, 0, event, 0, 0, 0, status]]

def dataFrame : Polled := { n := 60, chan := 2, eventbuf := [] }

/-- A network is joined: the link comes up and the keys are agreed on. -/
def joined : List Call :=
  [.joinStatePoll 5 5, .pollEvents (some (eventFrame 1 16 0)), .pollEvents (some (eventFrame 0 46 6)),
    .joinStatePoll 6 6]

theorem link_is_fold_joined :
    (joined.foldl (step [(0, .join)]) {}).eip.link = 3 :=
  (link_is_fold [(0, .join)] joined ⟨trivial, .inl rfl, .inl rfl, trivial, trivial⟩).1.trans (by decide)

/-- A data frame then leaves whatever the stack held in the link word. -/
theorem data_frame_clears_link :
    let s := (joined ++ [Call.pollEvents (some dataFrame)]).foldl (step [(0, .join)]) {}
    s.eip.link = 0 ∧ s.heard.foldl linkStep 0 = 3 := by
  decide

end Station
end QNEthernet.Drivers.Cyw43
