import QNEthernet.Dns.Model

/-! What every step of a lookup keeps: its stamps, its request, and the variables of its caller. -/

namespace QNEthernet.Dns

theorem toNat_sysNow_sub {s now : Nat} (after : s ≤ now) (short : now < s + 2 ^ 32) :
    (sysNow now - sysNow s).toNat = now - s := by
  rw [BitVec.toNat_sub, sysNow, sysNow, BitVec.toNat_ofNat, BitVec.toNat_ofNat]
  omega

namespace Lookup

/-- The `Request` is still there: lwIP keeps it, or has yet to say what it makes of it. -/
def Held (l : Lookup) : Prop := l.pending = true ∨ l.phase = .asking ∧ l.queued = false

instance (l : Lookup) : Decidable l.Held := inferInstanceAs (Decidable (_ ∨ _))

/-- The stamps of a lookup, as true times: the request is made at `made`, the loop begins after that, and
a blocking call that has returned with its request pending has used up its time. -/
structure Stamped (made now : Nat) (l : Lookup) : Prop where
  past : made ≤ now
  startTime : l.startTime = sysNow made
  waiting : ∀ t, l.phase = .waiting t → ∃ began, made ≤ began ∧ began ≤ now ∧ t = sysNow began
  expired : l.blocking = true → l.phase.isReturned = true → l.pending = true → made + l.timeout.toNat ≤ now

/-- What the variables of a blocking call say of its callback. -/
structure Told (l : Lookup) : Prop where
  done : l.lookupDone = true ↔ l.ran ≠ []
  found : l.found = true ↔ ∃ addr, some addr ∈ l.ran
  ip : ∀ addr, some addr ∈ l.ran → l.ip = addr
  result : ∀ result, l.phase = .returned result → result = l.found

structure Sound (base now : Nat) (l : Lookup) : Prop where
  late : l.late = false
  stamped : ∃ made, base ≤ made ∧ l.Stamped made now
  made : l.Held → l.request = true
  pending : l.pending = true → l.queued = true
  unrun : l.Held → l.ran = []
  once : l.ran.length ≤ 1
  deleted : l.deleted = if l.request = true ∧ ¬ l.Held then 1 else 0
  told : l.blocking = true → l.Told

variable {base now : Nat} {l : Lookup}

theorem Sound.later (sound : l.Sound base now) {now' : Nat} (after : now ≤ now') : l.Sound base now' := by
  obtain ⟨made, begun, stamped⟩ := sound.stamped
  refine { sound with stamped := ⟨made, begun, ?_⟩ }
  refine ⟨by have := stamped.past; omega, stamped.startTime, ?_, ?_⟩
  · intro t waiting
    obtain ⟨began, order, past, stamp⟩ := stamped.waiting t waiting
    exact ⟨began, order, by omega, stamp⟩
  · intro blocking returned pending
    have expired := stamped.expired blocking returned pending
    omega

theorem sound_new (after : base ≤ now) (startTime : l.startTime = sysNow now) (late : l.late = false)
    (deleted : l.deleted = 0) (pending : l.pending = false) (ran : l.ran = []) (found : l.found = false)
    (done : l.lookupDone = false)
    (phase : l.phase = .asking ∧ l.queued = false ∧ l.request = true ∨
      l.phase = .returned false ∧ l.request = false) : l.Sound base now := by
  have settled {P : Prop} (still : l.pending = true) : P :=
    absurd (pending.symm.trans still) Bool.false_ne_true
  refine ⟨late, ⟨now, after, Nat.le_refl now, startTime, ?_, fun _ _ => settled⟩, ?_, settled,
    fun _ => ran, ?_, ?_, fun _ => ⟨?_, ?_, ?_, ?_⟩⟩
  · intro t waiting
    rcases phase with ⟨asking, _⟩ | ⟨returned, _⟩
    · cases asking.symm.trans waiting
    · cases returned.symm.trans waiting
  · intro held
    rcases phase with ⟨_, _, request⟩ | ⟨returned, _⟩
    · exact request
    · rcases held with still | asking
      · exact settled still
      · cases returned.symm.trans asking.1
  · rw [ran]
    exact Nat.zero_le 1
  · rw [deleted, if_neg]
    intro gone
    rcases phase with ⟨asking, fresh, _⟩ | ⟨_, refused⟩
    · exact gone.2 (.inr ⟨asking, fresh⟩)
    · exact Bool.false_ne_true (refused.symm.trans gone.1)
  · simp [done, ran]
  · simp [found, ran]
  · intro addr member
    rw [ran] at member
    cases member
  · intro result returned
    rw [found]
    rcases phase with ⟨asking, _⟩ | ⟨refused, _⟩
    · cases asking.symm.trans returned
    · cases refused.symm.trans returned
      rfl

/-- The request of a blocking call that has returned is too old for its callback. -/
theorem Sound.guarded (sound : l.Sound base now) (short : now < base + 2 ^ 32)
    (blocking : l.blocking = true) (pending : l.pending = true)
    (runs : sysNow now - l.startTime < l.timeout) : l.phase.isReturned = false := by
  obtain ⟨made, begun, stamped⟩ := sound.stamped
  have past := stamped.past
  cases returned : l.phase.isReturned with
  | false => rfl
  | true =>
      have expired := stamped.expired blocking returned pending
      rw [stamped.startTime, BitVec.lt_def, toNat_sysNow_sub past (by omega)] at runs
      omega

section Callback

variable (l) (foundIP : Option IpAddress)

@[simp] theorem callback_phase : (l.callback foundIP).phase = l.phase := by
  unfold callback; split <;> rfl

@[simp] theorem callback_blocking : (l.callback foundIP).blocking = l.blocking := by
  unfold callback; split <;> rfl

@[simp] theorem callback_startTime : (l.callback foundIP).startTime = l.startTime := by
  unfold callback; split <;> rfl

@[simp] theorem callback_request : (l.callback foundIP).request = l.request := by
  unfold callback; split <;> rfl

@[simp] theorem callback_queued : (l.callback foundIP).queued = l.queued := by
  unfold callback; split <;> rfl

@[simp] theorem callback_pending : (l.callback foundIP).pending = l.pending := by
  unfold callback; split <;> rfl

@[simp] theorem callback_deleted : (l.callback foundIP).deleted = l.deleted := by
  unfold callback; split <;> rfl

@[simp] theorem callback_ran : (l.callback foundIP).ran = l.ran ++ [foundIP] := by
  unfold callback; split <;> rfl

theorem callback_late (intime : l.blocking = true → l.phase.isReturned = false) :
    (l.callback foundIP).late = l.late := by
  rw [callback]
  split
  · next blocking =>
      change (l.late || l.phase.isReturned) = l.late
      rw [intime blocking, Bool.or_false]
  · rfl

variable {l}

theorem Told.unfound (told : l.Told) (unrun : l.ran = []) : l.found = false := by
  refine eq_false_of_ne_true fun found => ?_
  obtain ⟨addr, member⟩ := told.found.mp found
  rw [unrun] at member
  cases member

theorem Told.callback (told : l.Told) (blocking : l.blocking = true) (unrun : l.ran = [])
    (intime : l.phase.isReturned = false) : (l.callback foundIP).Told := by
  have unfound := told.unfound unrun
  have eq : l.callback foundIP = { l with
      found := foundIP.isSome, ip := foundIP.getD l.ip, lookupDone := true, ran := [foundIP],
      late := l.late || l.phase.isReturned } := by
    rw [Lookup.callback, if_pos blocking, unfound, unrun, Bool.false_or, List.nil_append]
  rw [eq]
  refine ⟨?_, ?_, ?_, ?_⟩
  · simp
  · cases foundIP with
    | none => simp
    | some addr => simp
  · intro addr member
    rw [← List.mem_singleton.mp member]
    rfl
  · intro result returned
    change l.phase = .returned result at returned
    rw [returned] at intime
    cases intime

end Callback

theorem Stamped.released {made : Nat} (stamped : l.Stamped made now) {l' : Lookup}
    (startTime : l'.startTime = l.startTime) (pending : l'.pending = false)
    (waiting : ∀ t, l'.phase = .waiting t → l.phase = .waiting t) : l'.Stamped made now := by
  refine ⟨stamped.past, startTime.trans stamped.startTime, ?_, ?_⟩
  · intro t waits
    exact stamped.waiting t (waiting t waits)
  · intro _ _ still
    rw [pending] at still
    cases still

theorem Sound.settled (sound : l.Sound base now) (held : l.Held) {l' : Lookup} (closed : ¬ l'.Held)
    (late : l'.late = false) (request : l'.request = l.request) (deleted : l'.deleted = l.deleted + 1)
    (startTime : l'.startTime = l.startTime)
    (waiting : ∀ t, l'.phase = .waiting t → l.phase = .waiting t) (once : l'.ran.length ≤ 1)
    (told : l'.blocking = true → l'.Told) : l'.Sound base now := by
  obtain ⟨made, begun, stamped⟩ := sound.stamped
  have pending : l'.pending = false := by
    cases still : l'.pending with
    | false => rfl
    | true => exact absurd (.inl still) closed
  have before : l.deleted = 0 := by
    rw [sound.deleted, if_neg (fun gone => gone.2 held)]
  refine ⟨late, ⟨made, begun, stamped.released startTime pending waiting⟩,
    fun held => absurd held closed, ?_, fun held => absurd held closed, once, ?_, told⟩
  · intro still
    rw [pending] at still
    cases still
  · rw [deleted, before, if_pos ⟨request.trans (sound.made held), closed⟩]

theorem Sound.found (sound : l.Sound base now) (short : now < base + 2 ^ 32) (pending : l.pending = true)
    (ipaddr : Option IpAddress) :
    ({ l.dnsFoundFunc now ipaddr with pending := false } : Lookup).Sound base now := by
  have held : l.Held := .inl pending
  have queued := sound.pending pending
  have unrun := sound.unrun held
  rw [dnsFoundFunc]
  by_cases runs : sysNow now - l.startTime < l.timeout
  · rw [if_pos runs]
    have intime (blocking : l.blocking = true) := sound.guarded short blocking pending runs
    refine sound.settled held ?_ ?_ ?_ ?_ ?_ ?_ ?_ ?_
    · simp [Held, delete, queued]
    · exact (callback_late l ipaddr intime).trans sound.late
    · exact callback_request l ipaddr
    · exact congrArg (· + 1) (callback_deleted l ipaddr)
    · exact callback_startTime l ipaddr
    · intro t waiting
      exact (callback_phase l ipaddr).symm.trans waiting
    · change (l.callback ipaddr).ran.length ≤ 1
      rw [callback_ran, unrun]
      exact Nat.le_refl 1
    · intro blocking
      have before : l.blocking = true := (callback_blocking l ipaddr).symm.trans blocking
      have told := (sound.told before).callback ipaddr before unrun (intime before)
      exact ⟨told.done, told.found, told.ip, told.result⟩
  · rw [if_neg runs]
    refine sound.settled held ?_ sound.late rfl rfl rfl (fun _ waiting => waiting) sound.once ?_
    · simp [Held, delete, queued]
    · intro blocking
      have told := sound.told blocking
      exact ⟨told.done, told.found, told.ip, told.result⟩

theorem Sound.queue (sound : l.Sound base now) (asking : l.phase = .asking) (fresh : l.queued = false) :
    ({ l with queued := true, pending := true } : Lookup).Sound base now := by
  have held : l.Held := .inr ⟨asking, fresh⟩
  obtain ⟨made, begun, stamped⟩ := sound.stamped
  refine ⟨sound.late, ⟨made, begun, ?_⟩, fun _ => sound.made held, fun _ => rfl, fun _ => sound.unrun held,
    sound.once, ?_, ?_⟩
  · refine ⟨stamped.past, stamped.startTime, stamped.waiting, fun _ returned _ => ?_⟩
    change l.phase.isReturned = true at returned
    rw [asking] at returned
    cases returned
  · rw [if_neg (fun gone => gone.2 (.inl rfl))]
    change l.deleted = 0
    rw [sound.deleted, if_neg (fun gone => gone.2 held)]
  · intro blocking
    have told := sound.told blocking
    exact ⟨told.done, told.found, told.ip, told.result⟩

theorem Sound.moved (sound : l.Sound base now) {phase : Phase}
    (past : l.phase ≠ .asking ∨ l.queued = true) (going : phase ≠ .asking)
    (waiting : ∀ t, phase = .waiting t → t = sysNow now)
    (expired : ∀ made, base ≤ made → l.Stamped made now → l.blocking = true → phase.isReturned = true →
      l.pending = true → made + l.timeout.toNat ≤ now)
    (result : l.blocking = true → ∀ result, phase = .returned result → result = l.found) :
    ({ l with phase := phase } : Lookup).Sound base now := by
  obtain ⟨made, begun, stamped⟩ := sound.stamped
  have same : ({ l with phase := phase } : Lookup).Held ↔ l.Held := by
    constructor
    · intro held
      rcases held with pending | asking
      · exact .inl pending
      · exact absurd asking.1 going
    · intro held
      rcases held with pending | ⟨asking, unqueued⟩
      · exact .inl pending
      · rcases past with other | queued
        · exact absurd asking other
        · rw [unqueued] at queued
          cases queued
  refine ⟨sound.late, ⟨made, begun, stamped.past, stamped.startTime, ?_, expired made begun stamped⟩,
    fun held => sound.made (same.mp held), sound.pending, fun held => sound.unrun (same.mp held), sound.once,
    ?_, ?_⟩
  · intro t waits
    exact ⟨now, stamped.past, Nat.le_refl now, waiting t waits⟩
  · exact sound.deleted.trans (if_congr (and_congr_right' (not_congr same.symm)) rfl rfl)
  · intro blocking
    have told := sound.told blocking
    exact ⟨told.done, told.found, told.ip, result blocking⟩

section Leave

variable (l)

theorem leave_ne_asking (result : Bool) : (l.leave result).phase ≠ .asking := by
  rw [leave]
  dsimp only
  split <;> exact Phase.noConfusion

theorem leave_ne_waiting (result : Bool) (t : BitVec 32) : (l.leave result).phase ≠ .waiting t := by
  rw [leave]
  dsimp only
  split <;> exact Phase.noConfusion

variable {l}

theorem leave_answered (blocking : l.blocking = true) : (l.leave true).phase = .answered :=
  if_pos ⟨blocking, rfl⟩

end Leave

theorem Sound.inProgress (sound : l.Sound base now) (queued : l.queued = true) :
    (l.answer .inProgress).Sound base now := by
  refine sound.moved (.inr queued) (leave_ne_asking l true) ?_ ?_ ?_
  · intro t waiting
    exact absurd waiting (leave_ne_waiting l true t)
  · intro _ _ _ blocking returned
    rw [if_pos ⟨blocking, rfl⟩] at returned
    cases returned
  · intro blocking result returned
    cases (leave_answered blocking).symm.trans returned

section Answer

variable (sound : l.Sound base now) (asking : l.phase = .asking)

include sound asking

theorem Sound.unqueued (fresh : l.queued = false) : l.Held ∧ l.pending = false ∧ l.ran = [] := by
  have held : l.Held := .inr ⟨asking, fresh⟩
  refine ⟨held, eq_false_of_ne_true fun pending => ?_, sound.unrun held⟩
  rw [sound.pending pending] at fresh
  cases fresh

theorem Sound.ok (fresh : l.queued = false) (addr : IpAddress) :
    (l.answer (.ok addr)).Sound base now := by
  obtain ⟨held, settled, unrun⟩ := sound.unqueued asking fresh
  have intime : l.phase.isReturned = false := by
    rw [asking]
    rfl
  refine sound.settled held ?_ ?_ ?_ ?_ ?_ ?_ ?_ ?_
  · intro still
    rcases still with pending | again
    · change (l.delete.callback (some addr)).pending = true at pending
      rw [callback_pending] at pending
      exact Bool.false_ne_true (settled.symm.trans pending)
    · exact leave_ne_asking _ true again.1
  · exact (callback_late l.delete (some addr) fun _ => intime).trans sound.late
  · exact callback_request l.delete (some addr)
  · exact callback_deleted l.delete (some addr)
  · exact callback_startTime l.delete (some addr)
  · intro t waiting
    exact absurd waiting (leave_ne_waiting _ true t)
  · change (l.delete.callback (some addr)).ran.length ≤ 1
    rw [callback_ran]
    change (l.ran ++ [some addr]).length ≤ 1
    rw [unrun]
    exact Nat.le_refl 1
  · intro blocking
    have before : l.blocking = true := (callback_blocking l.delete (some addr)).symm.trans blocking
    have told := sound.told before
    have untouched : l.delete.Told := ⟨told.done, told.found, told.ip, told.result⟩
    have after := untouched.callback (some addr) before unrun intime
    refine ⟨after.done, after.found, after.ip, fun result returned => ?_⟩
    cases (leave_answered blocking).symm.trans returned

theorem Sound.error (fresh : l.queued = false) : (l.answer .error).Sound base now := by
  obtain ⟨held, settled, unrun⟩ := sound.unqueued asking fresh
  have eq : l.answer .error = { l.delete with phase := .returned false } := by
    rw [Lookup.answer, leave, if_neg (by simp)]
  rw [eq]
  refine sound.settled held ?_ sound.late rfl rfl rfl ?_ sound.once ?_
  · intro still
    rcases still with pending | again
    · exact Bool.false_ne_true (settled.symm.trans pending)
    · cases again.1
  · intro t waiting
    cases waiting
  · intro blocking
    have told := sound.told blocking
    refine ⟨told.done, told.found, told.ip, fun result returned => ?_⟩
    cases returned
    exact (told.unfound unrun).symm

theorem Sound.answer (a : Answer) (lwip : a = .inProgress ↔ l.queued = true) :
    (l.answer a).Sound base now := by
  cases a with
  | ok addr => exact sound.ok asking (eq_false_of_ne_true fun queued => by cases lwip.mpr queued) addr
  | inProgress => exact sound.inProgress (lwip.mp rfl)
  | error => exact sound.error asking (eq_false_of_ne_true fun queued => by cases lwip.mpr queued)

end Answer

theorem Sound.take (sound : l.Sound base now) (answered : l.phase = .answered) :
    ({ l with phase := .waiting (sysNow now) } : Lookup).Sound base now := by
  refine sound.moved (.inl ?_) Phase.noConfusion ?_ ?_ ?_
  · rw [answered]
    exact Phase.noConfusion
  · intro t waiting
    cases waiting
    rfl
  · intro _ _ _ _ returned
    cases returned
  · intro _ result returned
    cases returned

theorem Sound.turn (sound : l.Sound base now) (short : now < base + 2 ^ 32) :
    (l.turn now).Sound base now := by
  rw [Lookup.turn]
  split
  · next t phase =>
      have past : l.phase ≠ .asking := by
        rw [phase]
        exact Phase.noConfusion
      have returns (expired : ∀ made, base ≤ made → l.Stamped made now → l.blocking = true →
          l.pending = true → made + l.timeout.toNat ≤ now) :
          ({ l with phase := .returned l.found } : Lookup).Sound base now := by
        refine sound.moved (.inl past) Phase.noConfusion ?_ ?_ ?_
        · intro t waiting
          cases waiting
        · intro made begun stamped blocking _ pending
          exact expired made begun stamped blocking pending
        · intro _ result returned
          cases returned
          rfl
      split
      · next done =>
          refine returns fun made begun stamped blocking pending => ?_
          exact absurd (sound.unrun (.inl pending)) ((sound.told blocking).done.mp done)
      · split
        · next late =>
            refine returns fun made begun stamped _ _ => ?_
            -- the loop began after the request was made, so the request is at least as old
            obtain ⟨began, order, before, stamp⟩ := stamped.waiting t phase
            rw [stamp, BitVec.le_def, toNat_sysNow_sub before (by omega)] at late
            omega
        · exact sound
  · exact sound

end Lookup
end QNEthernet.Dns
