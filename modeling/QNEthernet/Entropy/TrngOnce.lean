import QNEthernet.Entropy.TrngPool
import QNEthernet.Lib.Run

/-! Each byte that the generator delivers is given out once at most, in order, whatever comes in between. -/

namespace QNEthernet.Entropy.Trng

open Spans

structure Inv (w : World) : Prop where
  pool : Pool w.m.entropySizeBytes w.m.entropy w.h
  fresh : Fresh w.m.hw w.h.generated w.claimed
  idle : w.m.pc = .idle ↔ w.h.current = none
  current : ∀ r, w.h.current = some r → At w.m w.h r w.m.pc
  done : ∀ d ∈ w.h.done, d.Right

namespace Inv

variable {w : World} {hw : Hw} {entropy : Nat → UInt32} {size : Nat} {pc : Pc} {h : History} {r : Record}

theorem running (inv : Inv w) (busy : w.m.pc ≠ .idle) : ∃ r, w.h.current = some r ∧ At w.m w.h r w.m.pc := by
  cases current : w.h.current with
  | none => exact absurd (inv.idle.mpr current) busy
  | some r => exact ⟨r, rfl, inv.current r current⟩

theorem of_running (current : w.h.current = some r) (busy : w.m.pc ≠ .idle)
    (pool : Pool w.m.entropySizeBytes w.m.entropy w.h) (fresh : Fresh w.m.hw w.h.generated w.claimed)
    (at_ : At w.m w.h r w.m.pc) (done : ∀ d ∈ w.h.done, d.Right) : Inv w where
  pool := pool
  fresh := fresh
  idle := by
    rw [current]
    exact ⟨fun idle => absurd idle busy, fun none => nomatch none⟩
  current := by
    intro r' same
    rw [current] at same
    cases same
    exact at_
  done := done

theorem goto (inv : Inv w) (current : w.h.current = some r) {m : Machine} (sizes : m.entropySizeBytes = w.m.entropySizeBytes)
    (words : m.entropy = w.m.entropy) (fresh : Fresh m.hw w.h.generated (World.claimed ⟨m, w.h⟩)) (busy : m.pc ≠ .idle)
    (at_ : At m w.h r m.pc) : Inv ⟨m, w.h⟩ :=
  of_running current busy (by rw [sizes, words]; exact inv.pool) fresh at_ inv.done

theorem dataErr {n : Nat} (inv : Inv ⟨⟨hw, entropy, size, .dataErr n⟩, h⟩) :
    Inv (World.step ⟨⟨hw, entropy, size, .dataErr n⟩, h⟩ .tick) := by
  obtain ⟨r, current, data⟩ := inv.running nofun
  show Inv ⟨⟨hw, entropy, size, if hw.err then .dataClear n else .loop n n⟩, h⟩
  split
  · exact inv.goto current rfl rfl inv.fresh nofun data
  · exact inv.goto current rfl rfl inv.fresh nofun data

theorem dataClear {n : Nat} (inv : Inv ⟨⟨hw, entropy, size, .dataClear n⟩, h⟩) :
    Inv (World.step ⟨⟨hw, entropy, size, .dataClear n⟩, h⟩ .tick) := by
  obtain ⟨r, current, data⟩ := inv.running nofun
  exact inv.goto current rfl rfl inv.fresh nofun ⟨data, rfl⟩

theorem restart {caller : Caller} (inv : Inv ⟨⟨hw, entropy, size, .restart caller⟩, h⟩) :
    Inv (World.step ⟨⟨hw, entropy, size, .restart caller⟩, h⟩ .tick) := by
  obtain ⟨r, current, restarts⟩ := inv.running nofun
  exact inv.goto current rfl rfl inv.fresh.restart nofun restarts

theorem restarted {caller : Caller} (inv : Inv ⟨⟨hw, entropy, size, .restarted caller⟩, h⟩) :
    Inv (World.step ⟨⟨hw, entropy, size, .restarted caller⟩, h⟩ .tick) := by
  obtain ⟨r, current, restarts⟩ := inv.running nofun
  have seen (none : r.span.values = []) :
      (h.see .discarded).current = some { r with span := ⟨h.stream.length, []⟩ } := by
    show h.current.map _ = _
    rw [current, Option.map_some, if_pos none]
  cases caller with
  | trngData n rem =>
      obtain ⟨data, whole⟩ := restarts
      have written := data.written
      have none : r.span.values = [] := List.length_eq_zero_iff.mp (by omega)
      refine of_running (seen none) nofun (inv.pool.discarded current none) inv.fresh ?_ inv.done
      exact ⟨data.call, by rw [List.length_nil, Nat.zero_add]; exact whole, rfl, data.error⟩
  | trngAvailable => exact restarts.elim
  | trngInit =>
      have init : Record.Init { r with span := ⟨h.stream.length, []⟩ } h.stream.length := ⟨restarts.call, rfl, rfl⟩
      exact of_running (seen restarts.values) nofun (inv.pool.discarded current restarts.values) inv.fresh init.right inv.done

theorem loop {n rem : Nat} (inv : Inv ⟨⟨hw, entropy, size, .loop n rem⟩, h⟩) :
    Inv (World.step ⟨⟨hw, entropy, size, .loop n rem⟩, h⟩ .tick) := by
  obtain ⟨r, current, data⟩ := inv.running nofun
  have written := data.written
  simp only [World.step, Machine.tick]
  split
  · next none =>
      have counted : n = r.span.values.length := by omega
      exact inv.goto current rfl rfl inv.fresh nofun (data.right counted (iff_of_true rfl rfl))
  · next some =>
      split
      · next full => exact inv.goto current rfl rfl inv.fresh nofun ⟨data, some, full⟩
      · next empty => exact inv.goto current rfl rfl inv.fresh nofun ⟨data, some, not_not.mp empty⟩

theorem wait {n rem : Nat} (inv : Inv ⟨⟨hw, entropy, size, .wait n rem⟩, h⟩) :
    Inv (World.step ⟨⟨hw, entropy, size, .wait n rem⟩, h⟩ .tick) := by
  obtain ⟨r, current, data, some, empty⟩ := inv.running nofun
  simp only [World.step, Machine.tick]
  split
  · exact inv
  · next flag =>
      refine inv.goto current rfl rfl inv.fresh nofun ⟨⟨data, some⟩, empty, ?_⟩
      cases valid : hw.entVal
      · cases err : hw.err
        · exact absurd (by rw [valid, err]; rfl) flag
        · exact .inr rfl
      · exact .inl rfl

theorem take {n rem : Nat} (inv : Inv ⟨⟨hw, entropy, size, .take n rem⟩, h⟩) :
    Inv (World.step ⟨⟨hw, entropy, size, .take n rem⟩, h⟩ .tick) := by
  obtain ⟨r, current, data, -, -⟩ := inv.running nofun
  have written := data.written
  have stop := data.stop
  have seen : (h.see (.wrote (Memory.window (bytesOf entropy) (kEntropyCountBytes - size) (min rem size)))).current =
      some { r with span := r.span.extend (Memory.window (bytesOf entropy) (kEntropyCountBytes - size) (min rem size)) } := by
    show h.current.map _ = _
    rw [current, Option.map_some]
  refine of_running seen nofun (inv.pool.wrote current stop (Nat.min_le_right _ _)) inv.fresh ⟨data.call, ?_, ?_, data.error⟩
    inv.done
  · rw [Span.extend, List.length_append, Memory.length_window]
    show r.span.values.length + min rem size + (rem - min rem size) = n
    omega
  · rw [Span.stop, Span.extend, List.length_append, ← Nat.add_assoc]
    exact congrArg (· + _) stop

theorem available (inv : Inv ⟨⟨hw, entropy, size, .available⟩, h⟩) :
    Inv (World.step ⟨⟨hw, entropy, size, .available⟩, h⟩ .tick) := by
  obtain ⟨r, current, nothing⟩ := inv.running nofun
  show Inv ⟨⟨hw, entropy, size, if size = 0 then .availableVal else .availableSize⟩, h⟩
  split
  · next empty => exact inv.goto current rfl rfl inv.fresh nofun ⟨nothing, empty⟩
  · exact inv.goto current rfl rfl inv.fresh nofun nothing

theorem returnSize (inv : Inv ⟨⟨hw, entropy, size, pc⟩, h⟩) (current : h.current = some r) (nothing : r.Available h.next)
    (among : Fresh hw h.generated h.blocks) : Inv ⟨⟨hw, entropy, size, .ret size⟩, h⟩ := by
  have total : h.stream.length = h.next + size := inv.pool.total
  have counted : size = h.unread := by
    rw [History.unread]
    omega
  exact inv.goto current rfl rfl among nofun (nothing.right counted)

theorem availableVal (inv : Inv ⟨⟨hw, entropy, size, .availableVal⟩, h⟩) :
    Inv (World.step ⟨⟨hw, entropy, size, .availableVal⟩, h⟩ .tick) := by
  obtain ⟨r, current, nothing, empty⟩ := inv.running nofun
  have zero : size = 0 := empty
  subst zero
  show Inv ⟨⟨hw, entropy, 0, if hw.entVal then .fillErr .trngAvailable else .ret 0⟩, h⟩
  split
  · next valid => exact inv.goto current rfl rfl inv.fresh nofun ⟨nothing, rfl, .inl valid⟩
  · exact inv.returnSize current nothing inv.fresh

theorem fillErr {caller : Caller} (inv : Inv ⟨⟨hw, entropy, size, .fillErr caller⟩, h⟩) :
    Inv (World.step ⟨⟨hw, entropy, size, .fillErr caller⟩, h⟩ .tick) := by
  obtain ⟨r, current, fills, empty, flag⟩ := inv.running nofun
  simp only [World.step, Machine.tick]
  split
  · have seen : (h.see .failed).current = some { r with error := true } := by
      show h.current.map _ = _
      rw [current, Option.map_some]
    refine of_running seen nofun (inv.pool.of_spans rfl rfl (spans_failed h)) inv.fresh ⟨?_, empty⟩ inv.done
    cases caller with
    | trngData n rem => exact ⟨⟨fills.1.call, fills.1.written, fills.1.stop, rfl⟩, fills.2⟩
    | trngAvailable => exact ⟨fills.call, fills.span, fills.before⟩
    | trngInit => exact fills
  · next noErr =>
      have valid : hw.entVal = true := flag.resolve_right noErr
      refine inv.goto current rfl rfl inv.fresh nofun ⟨fills, empty, valid, by decide, ?_⟩
      intro j before
      exact absurd before (Nat.not_lt_zero j)

theorem fillClear {caller : Caller} (inv : Inv ⟨⟨hw, entropy, size, .fillClear caller⟩, h⟩) :
    Inv (World.step ⟨⟨hw, entropy, size, .fillClear caller⟩, h⟩ .tick) := by
  obtain ⟨r, current, fills, empty⟩ := inv.running nofun
  have zero : size = 0 := empty
  subst zero
  cases caller with
  | trngData n rem =>
      obtain ⟨data, some⟩ := fills
      have written := data.written
      have counted : n - rem = r.span.values.length := by omega
      have short : n - rem ≠ n := by omega
      exact inv.goto current rfl rfl inv.fresh nofun (data.right counted (iff_of_false short (by simp)))
  | trngAvailable =>
      have calm : Inv ⟨⟨{ hw with err := false }, entropy, 0, .availableSize⟩, h⟩ :=
        inv.goto current rfl rfl inv.fresh nofun fills
      exact calm.returnSize current fills inv.fresh
  | trngInit => exact fills.elim

theorem fillCopy {caller : Caller} {i : Nat} (inv : Inv ⟨⟨hw, entropy, size, .fillCopy caller i⟩, h⟩) :
    Inv (World.step ⟨⟨hw, entropy, size, .fillCopy caller i⟩, h⟩ .tick) := by
  obtain ⟨r, current, fills, empty, valid, inside, copied⟩ := inv.running (by simp)
  have zero : size = 0 := empty
  subst zero
  have copied' : ∀ j < i + 1, Function.update entropy i (hw.ent i) j = hw.ent j := by
    intro j before
    rcases Nat.lt_succ_iff_lt_or_eq.mp before with earlier | rfl
    · rw [Function.update_of_ne (Nat.ne_of_lt earlier)]
      exact copied j earlier
    · exact Function.update_self _ _ _
  have pool := inv.pool.of_empty (Function.update entropy i (hw.ent i))
  simp only [World.step, Machine.tick]
  split
  · next more => exact of_running current (by simp) pool inv.fresh ⟨fills, rfl, valid, more, copied'⟩ inv.done
  · next last =>
      have all : blockOf (Function.update entropy i (hw.ent i)) = blockOf hw.ent := by
        apply blockOf_congr
        intro j before
        exact copied' j (by omega)
      have among := inv.fresh
      rw [Fresh, if_pos valid] at among
      obtain ⟨older, same, among⟩ := among
      refine of_running current (by simp) pool ?_ ⟨fills, rfl⟩ inv.done
      show (h.blocks ++ [blockOf (Function.update entropy i (hw.ent i))]).Sublist h.generated
      rw [all, show h.generated = older ++ [blockOf hw.ent] from same]
      exact among.append (.refl _)

theorem fillDummy {caller : Caller} (inv : Inv ⟨⟨hw, entropy, size, .fillDummy caller⟩, h⟩) :
    Inv (World.step ⟨⟨hw, entropy, size, .fillDummy caller⟩, h⟩ .tick) := by
  obtain ⟨r, current, fills, empty⟩ := inv.running nofun
  have zero : size = 0 := empty
  subst zero
  cases caller with
  | trngData n rem =>
      exact of_running current nofun inv.pool.read inv.fresh ⟨fills.1, fills.2, show kEntropyCountBytes ≠ 0 by decide⟩ inv.done
  | trngAvailable => exact of_running current nofun inv.pool.read inv.fresh fills inv.done
  | trngInit => exact fills.elim

theorem ret {n : Nat} (inv : Inv ⟨⟨hw, entropy, size, .ret n⟩, h⟩) :
    Inv (World.step ⟨⟨hw, entropy, size, .ret n⟩, h⟩ .tick) := by
  obtain ⟨r, current, right⟩ := inv.running (by simp)
  have seen : h.see (.returned n) =
      { h with
        done := h.done ++ [{ r with ret := n, next := h.next, unread := h.unread, raised := h.raised }]
        current := none } := by
    rw [History.see, current]
    rfl
  show Inv ⟨⟨hw, entropy, size, .idle⟩, h.see (.returned n)⟩
  exact {
    pool := inv.pool.of_spans rfl rfl (spans_returned h n)
    fresh := inv.fresh
    idle := iff_of_true rfl rfl
    current := fun r none => absurd none.symm (Option.some_ne_none r)
    done := by
      rw [seen]
      intro d member
      rcases List.mem_append.mp member with before | last
      · exact inv.done d before
      · rw [List.mem_singleton.mp last]
        exact right }

theorem tick (inv : Inv w) : Inv (w.step .tick) := by
  obtain ⟨⟨hw, entropy, size, pc⟩, h⟩ := w
  cases pc with
  | idle => exact inv
  | dataErr => exact inv.dataErr
  | dataClear => exact inv.dataClear
  | loop => exact inv.loop
  | wait => exact inv.wait
  | take => exact inv.take
  | available => exact inv.available
  | availableVal => exact inv.availableVal
  | availableSize =>
      obtain ⟨r, current, nothing⟩ := inv.running nofun
      exact inv.returnSize current nothing inv.fresh
  | initProgram =>
      obtain ⟨r, current, init⟩ := inv.running nofun
      exact inv.goto current rfl rfl inv.fresh nofun init
  | initRun =>
      obtain ⟨r, current, init⟩ := inv.running nofun
      exact inv.goto current rfl rfl inv.fresh nofun init
  | restart => exact inv.restart
  | restarted => exact inv.restarted
  | fillErr => exact inv.fillErr
  | fillClear => exact inv.fillClear
  | fillCopy => exact inv.fillCopy
  | fillDummy => exact inv.fillDummy
  | ret => exact inv.ret

theorem call (inv : Inv w) (c : Call) : Inv (w.step (.call c)) := by
  obtain ⟨⟨hw, entropy, size, pc⟩, h⟩ := w
  cases pc with
  | idle =>
      have none : h.current = none := inv.idle.mp rfl
      have before : h.spans = h.done.map (·.span) := by
        rw [History.spans, none]
        exact List.append_nil _
      have spans : History.spans { h with current := some { call := c, before := h.next, span := ⟨h.next, []⟩ }, raised := false } =
          h.spans ++ [⟨h.next, []⟩] := by
        rw [before]
        rfl
      have pool : Pool size entropy { h with current := some { call := c, before := h.next, span := ⟨h.next, []⟩ }, raised := false } := by
        refine ⟨inv.pool.atMost, inv.pool.total, inv.pool.unread, ?_, ?_⟩
        · rw [spans]
          exact inv.pool.ordered.append inv.pool.behind List.nil_prefix
        · rw [spans]
          intro s member
          rcases List.mem_append.mp member with earlier | last
          · exact inv.pool.behind s earlier
          · rw [List.mem_singleton.mp last]
            exact Nat.le_refl _
      cases c with
      | trngData n => exact of_running rfl (by rintro ⟨⟩) pool inv.fresh ⟨rfl, Nat.zero_add n, rfl, rfl⟩ inv.done
      | trngAvailable => exact of_running rfl (by rintro ⟨⟩) pool inv.fresh ⟨rfl, rfl, rfl⟩ inv.done
      | trngInit => exact of_running rfl (by rintro ⟨⟩) pool inv.fresh ⟨rfl, rfl, rfl⟩ inv.done
  | _ => exact inv

theorem valid (inv : Inv w) (block : Nat → UInt32) : Inv (w.step (.valid block)) := by
  obtain ⟨⟨hw, entropy, size, pc⟩, h⟩ := w
  rw [World.step]
  split
  · exact inv
  · next none =>
      have among := inv.fresh
      rw [Fresh, if_neg none] at among
      refine ⟨inv.pool.of_spans rfl rfl rfl, ?_, inv.idle, ?_, inv.done⟩
      · rw [Fresh, if_pos rfl]
        exact ⟨h.generated, rfl, among⟩
      · intro r current
        have at_ := inv.current r current
        cases pc with
        | fillErr caller => exact ⟨at_.1, at_.2.1, .inl rfl⟩
        | fillCopy caller i => exact absurd at_.2.2.1 none
        | _ => exact at_

theorem error (inv : Inv w) : Inv (w.step .error) := by
  obtain ⟨⟨hw, entropy, size, pc⟩, h⟩ := w
  refine ⟨inv.pool.of_spans rfl rfl rfl, inv.fresh, inv.idle, ?_, inv.done⟩
  intro r current
  have at_ := inv.current r current
  cases pc with
  | fillErr caller => exact ⟨at_.1, at_.2.1, .inr rfl⟩
  | ret n => exact ⟨at_.next, at_.data, at_.available, at_.init⟩
  | _ => exact at_

theorem step (inv : Inv w) (e : Event) : Inv (w.step e) := by
  cases e with
  | call c => exact inv.call c
  | tick => exact inv.tick
  | valid block => exact inv.valid block
  | error => exact inv.error

theorem start : Inv {} where
  pool := ⟨Nat.zero_le _, rfl, rfl, ⟨.nil, fun _ member => absurd member List.not_mem_nil⟩,
    fun _ member => absurd member List.not_mem_nil⟩
  fresh := List.Sublist.refl []
  idle := iff_of_true rfl rfl
  current := fun r none => absurd none.symm (Option.some_ne_none r)
  done := fun _ member => absurd member List.not_mem_nil

theorem run (es : List Event) : Inv (World.run es) :=
  Run.foldl_preserves Inv World.step (fun _ e inv => inv.step e) es {} start

/-- No block that was read is read again. -/
theorem blocks_generated (inv : Inv w) : w.h.blocks.Sublist w.h.generated := by
  have claimed : w.h.blocks.Sublist w.claimed := by
    rw [World.claimed]
    split
    · exact List.sublist_append_left _ _
    · exact .refl _
  have among := inv.fresh
  rw [Fresh] at among
  split at among
  · obtain ⟨older, same, among⟩ := among
    rw [same]
    exact (claimed.trans among).trans (List.sublist_append_left _ _)
  · exact claimed.trans among

end Inv

/-- `trng_data` has cleared the flags that were set when it was called. -/
def Pc.Checked : Pc → Prop
  | .loop .. | .wait .. | .take .. => True
  | .restart caller | .restarted caller | .fillErr caller | .fillClear caller | .fillCopy caller _ | .fillDummy caller =>
      ∃ size rem, caller = .trngData size rem
  | _ => False

/-- `trng_data` finds an error only where the generator raised its flag during the call. -/
structure Flagged (w : World) : Prop where
  flag : w.m.pc.Checked → w.m.hw.err = true → w.h.raised = true
  current : ∀ r, w.h.current = some r → ∀ size, r.call = .trngData size → r.error = true → w.h.raised = true
  done : ∀ d ∈ w.h.done, ∀ size, d.call = .trngData size → d.error = true → d.raised = true

namespace Flagged

variable {w : World}

theorem goto (flagged : Flagged w) {m : Machine} {h : History}
    (flag : m.pc.Checked → m.hw.err = true → h.raised = true) (raised : h.raised = w.h.raised)
    (done : h.done = w.h.done) (current : ∀ r, h.current = some r → ∃ r', w.h.current = some r' ∧ r'.call = r.call ∧
      r'.error = r.error) : Flagged ⟨m, h⟩ where
  flag := flag
  current := by
    intro r here size called error
    obtain ⟨r', before, call, same⟩ := current r here
    show h.raised = true
    rw [raised]
    exact flagged.current r' before size (call.trans called) (same.trans error)
  done := by
    show ∀ d ∈ h.done, _
    rw [done]
    exact flagged.done

theorem fillErr {hw : Hw} {entropy : Nat → UInt32} {size : Nat} {caller : Caller} {h : History}
    (inv : Inv ⟨⟨hw, entropy, size, .fillErr caller⟩, h⟩) (flagged : Flagged ⟨⟨hw, entropy, size, .fillErr caller⟩, h⟩)
    (err : hw.err = true) : Flagged ⟨⟨hw, entropy, size, .fillClear caller⟩, h.see .failed⟩ := by
  obtain ⟨r, current, fills, -, -⟩ := inv.running nofun
  refine ⟨fun checked _ => flagged.flag checked err, fun r' here n called _ => ?_, flagged.done⟩
  have seen : (h.see .failed).current = some { r with error := true } := by
    show h.current.map _ = _
    rw [current, Option.map_some]
  rw [seen] at here
  cases here
  cases caller with
  | trngData n' rem => exact flagged.flag ⟨n', rem, rfl⟩ err
  | trngAvailable => cases fills.call.symm.trans called
  | trngInit => exact fills.elim

theorem ret {hw : Hw} {entropy : Nat → UInt32} {size n : Nat} {h : History}
    (flagged : Flagged ⟨⟨hw, entropy, size, .ret n⟩, h⟩) : Flagged ⟨⟨hw, entropy, size, .idle⟩, h.see (.returned n)⟩ := by
  refine ⟨fun checked => checked.elim, fun r none => absurd none.symm (Option.some_ne_none r), ?_⟩
  intro d member n called error
  rcases List.mem_append.mp member with before | last
  · exact flagged.done d before n called error
  · obtain ⟨r, current, rfl⟩ := Option.map_eq_some_iff.mp (Option.mem_toList.mp last)
    exact flagged.current r current n called error

theorem tick (inv : Inv w) (flagged : Flagged w) : Flagged (w.step .tick) := by
  obtain ⟨⟨hw, entropy, size, pc⟩, h⟩ := w
  have same : ∀ r, h.current = some r → ∃ r', h.current = some r' ∧ r'.call = r.call ∧ r'.error = r.error :=
    fun r here => ⟨r, here, rfl, rfl⟩
  have kept {f : Record → Record} (each : ∀ r, (f r).call = r.call ∧ (f r).error = r.error) :
      ∀ r, h.current.map f = some r → ∃ r', h.current = some r' ∧ r'.call = r.call ∧ r'.error = r.error := by
    intro r here
    obtain ⟨r', before, rfl⟩ := Option.map_eq_some_iff.mp here
    exact ⟨r', before, (each r').1.symm, (each r').2.symm⟩
  have flag := flagged.flag
  cases pc with
  | idle => exact flagged
  | dataErr n =>
      refine flagged.goto ?_ rfl rfl same
      show Pc.Checked (if hw.err then .dataClear n else .loop n n) → hw.err = true → _
      split
      · exact fun checked => checked.elim
      · next calm => exact fun _ err => absurd err calm
  | loop n rem =>
      simp only [World.step, Machine.tick]
      split
      · exact flagged.goto (fun checked => checked.elim) rfl rfl same
      · split
        · exact flagged.goto (fun _ => flag trivial) rfl rfl same
        · exact flagged.goto (fun _ => flag trivial) rfl rfl same
  | wait n rem =>
      simp only [World.step, Machine.tick]
      split
      · exact flagged
      · exact flagged.goto (fun _ => flag trivial) rfl rfl same
  | take n rem => exact flagged.goto (fun _ => flag trivial) rfl rfl (kept fun r => ⟨rfl, rfl⟩)
  | available =>
      refine flagged.goto ?_ rfl rfl same
      show Pc.Checked (if size = 0 then .availableVal else .availableSize) → _
      split
      · exact fun checked => checked.elim
      · exact fun checked => checked.elim
  | availableVal =>
      refine flagged.goto ?_ rfl rfl same
      show Pc.Checked (if hw.entVal then .fillErr .trngAvailable else .ret 0) → _
      split
      · exact fun checked => nomatch checked
      · exact fun checked => checked.elim
  | restart caller => exact flagged.goto flag rfl rfl same
  | restarted caller =>
      have seen := @kept fun r => if r.span.values = [] then { r with span := ⟨h.stream.length, []⟩ } else r
      refine flagged.goto ?_ rfl rfl (seen fun r => by split <;> exact ⟨rfl, rfl⟩)
      cases caller with
      | trngData n rem => exact fun _ => flag ⟨n, rem, rfl⟩
      | trngAvailable | trngInit => exact fun checked => checked.elim
  | fillErr caller =>
      simp only [World.step, Machine.tick]
      split
      · next err => exact fillErr inv flagged err
      · exact flagged.goto flag rfl rfl same
  | fillCopy caller i =>
      simp only [World.step, Machine.tick]
      split
      · exact flagged.goto flag rfl rfl same
      · exact flagged.goto flag rfl rfl same
  | fillDummy caller =>
      refine flagged.goto ?_ rfl rfl same
      cases caller with
      | trngData n rem => exact fun _ => flag ⟨n, rem, rfl⟩
      | trngAvailable | trngInit => exact fun checked => checked.elim
  | ret n => exact flagged.ret
  | dataClear n => exact flagged.goto (fun _ => nofun) rfl rfl same
  | fillClear caller => exact flagged.goto (fun _ => nofun) rfl rfl same
  | initProgram => exact flagged.goto (fun _ => nofun) rfl rfl same
  | initRun => exact flagged.goto (fun checked => nomatch checked) rfl rfl same
  | availableSize => exact flagged.goto (fun checked => checked.elim) rfl rfl same

theorem step (inv : Inv w) (flagged : Flagged w) (e : Event) : Flagged (w.step e) := by
  cases e with
  | call c =>
      obtain ⟨⟨hw, entropy, size, pc⟩, h⟩ := w
      cases pc with
      | idle =>
          refine ⟨fun checked => ?_, fun r here size called error => ?_, flagged.done⟩
          · cases c <;> exact checked.elim
          · cases here
            cases error
      | _ => exact flagged
  | tick => exact flagged.tick inv
  | valid block =>
      rw [World.step]
      split
      · exact flagged
      · exact ⟨flagged.flag, flagged.current, flagged.done⟩
  | error => exact ⟨fun _ _ => rfl, fun _ _ _ _ _ => rfl, flagged.done⟩

theorem run (es : List Event) : Flagged (World.run es) := by
  have both : Inv (World.run es) ∧ Flagged (World.run es) :=
    Run.foldl_preserves (fun w => Inv w ∧ Flagged w) World.step
      (fun _ e both => ⟨both.1.step e, both.2.step both.1 e⟩) es {}
      ⟨Inv.start, ⟨fun checked => checked.elim, fun r none => absurd none.symm (Option.some_ne_none r),
        fun _ member => absurd member List.not_mem_nil⟩⟩
  exact both.2

/-- Without an error during the call `trng_data` gives all that was asked for. -/
theorem whole (inv : Inv w) (flagged : Flagged w) :
    ∀ d ∈ w.h.done, ∀ size, d.call = .trngData size → d.raised = false → d.ret = size := by
  intro d member size called calm
  rw [((inv.done d member).data size called).2.2]
  by_contra error
  rw [flagged.done d member size called (Bool.eq_true_of_not_eq_false error)] at calm
  cases calm

end Flagged

/-- The most steps that a call takes from a point on, those aside in which it waits. -/
def Caller.left : Caller → Nat
  | .trngData _ rem => 24 * rem
  | .trngAvailable | .trngInit => 24

def Pc.left : Pc → Nat
  | .idle => 0
  | .ret _ => 1
  | .dataErr size => 24 * size + 6
  | .dataClear size => 24 * size + 5
  | .loop _ rem => 24 * rem + 2
  | .wait _ rem => 24 * rem + 1
  | .take _ rem => 24 * rem - 18
  | .available => 26
  | .availableVal => 25
  | .availableSize => 2
  | .initProgram => 30
  | .initRun => 29
  | .restart caller => caller.left + 4
  | .restarted caller => caller.left + 3
  | .fillErr caller => caller.left
  | .fillClear _ => 2
  | .fillCopy caller i => caller.left - 1 - i
  | .fillDummy caller => caller.left - 17

/-- The call waits for the generator. -/
def Machine.Waits (m : Machine) : Prop :=
  (∃ size rem, m.pc = .wait size rem) ∧ m.hw.entVal = false ∧ m.hw.err = false

theorem Record.Fills.left {r : Record} {next : Nat} {error : Bool} {caller : Caller} (fills : r.Fills next error caller) :
    24 ≤ caller.left := by
  cases caller with
  | trngData n rem =>
      have some := fills.2
      rw [Caller.left]
      omega
  | trngAvailable => exact Nat.le_refl _
  | trngInit => exact fills.elim

theorem Inv.left_tick {w : World} (inv : Inv w) (busy : w.m.pc ≠ .idle) (works : ¬ w.m.Waits) :
    (w.step .tick).m.pc.left < w.m.pc.left := by
  obtain ⟨r, current, at_⟩ := inv.running busy
  obtain ⟨⟨hw, entropy, size, pc⟩, h⟩ := w
  cases pc with
  | idle => exact absurd rfl busy
  | loop n rem =>
      simp only [World.step, Machine.tick]
      split
      · simp only [Pc.left]
        omega
      · split <;> simp only [Pc.left] <;> omega
  | wait n rem =>
      simp only [World.step, Machine.tick]
      split
      · next flags =>
          rw [Bool.and_eq_true, Bool.not_eq_true', Bool.not_eq_true'] at flags
          exact absurd ⟨⟨n, rem, rfl⟩, flags.1, flags.2⟩ works
      · exact Nat.lt_succ_self _
  | take n rem =>
      have some : rem ≠ 0 := at_.2.1
      have full : size ≠ 0 := at_.2.2
      show 24 * (rem - min rem size) + 2 < 24 * rem - 18
      omega
  | fillErr caller =>
      have room := at_.1.left
      simp only [World.step, Machine.tick]
      split <;> simp only [Pc.left] <;> omega
  | fillCopy caller i =>
      have room := at_.1.left
      have inside : i < kEntropyCount := at_.2.2.2.1
      rw [kEntropyCount] at inside
      simp only [World.step, Machine.tick]
      split
      · simp only [Pc.left]
        omega
      · next last =>
          rw [kEntropyCount] at last
          simp only [Pc.left]
          omega
  | fillDummy caller =>
      have room := at_.1.left
      cases caller with
      | trngData n rem =>
          rw [Caller.left] at room
          show 24 * rem - 18 < 24 * rem - 17
          omega
      | trngAvailable => exact show 2 < 24 - 17 by decide
      | trngInit => exact at_.1.elim
  | dataErr n =>
      show (if hw.err then Pc.dataClear n else .loop n n).left < _
      split <;> simp only [Pc.left] <;> omega
  | available =>
      show (if size = 0 then Pc.availableVal else .availableSize).left < 26
      split <;> decide
  | availableVal =>
      show (if hw.entVal then Pc.fillErr .trngAvailable else .ret 0).left < 25
      split <;> decide
  | restarted caller => cases caller <;> simp only [World.step, Machine.tick, Caller.restarted, Pc.left, Caller.left] <;> omega
  | dataClear n => exact Nat.lt_succ_self _
  | restart caller => exact Nat.lt_succ_self _
  | initProgram => exact Nat.lt_succ_self _
  | initRun => exact Nat.lt_succ_self _
  | fillClear caller => exact Nat.lt_succ_self _
  | availableSize => exact Nat.lt_succ_self _
  | ret n => exact Nat.lt_succ_self _

/-- The pool never holds more than a block; what has been written are bytes of the blocks that were read, at positions
that go up, and these blocks are different ones of those that became valid; the calls have returned what they should,
`trng_data` all that was asked for unless the generator raised its error flag meanwhile, and a call that is running
and does not wait for the generator comes to its end. -/
structure Once (w : World) : Prop where
  atMost : w.m.entropySizeBytes ≤ kEntropyCountBytes
  written : (w.h.spans.flatMap Span.values).map some = (w.h.spans.flatMap Span.positions).map (w.h.stream[·]?)
  positions : (w.h.spans.flatMap Span.positions).Pairwise (· < ·)
  blocks : w.h.blocks.Sublist w.h.generated
  calls : ∀ d ∈ w.h.done, d.Right
  whole : ∀ d ∈ w.h.done, ∀ size, d.call = .trngData size → d.raised = false → d.ret = size
  goesOn : w.m.pc ≠ .idle → ¬ w.m.Waits → (w.step .tick).m.pc.left < w.m.pc.left

/-- Whatever calls are made, and whatever the generator does in between. -/
theorem trng_once (es : List Event) : Once (World.run es) where
  atMost := (Inv.run es).pool.atMost
  written := (Inv.run es).pool.ordered.positions.1
  positions := (Inv.run es).pool.ordered.positions.2
  blocks := (Inv.run es).blocks_generated
  calls := (Inv.run es).done
  whole := (Flagged.run es).whole (Inv.run es)
  goesOn := (Inv.run es).left_tick

/-- A byte, and the number of those that are left of its block. -/
example : ((World.run ([.valid fun i => .ofNat i, .call (.trngData 1)] ++ List.replicate 26 .tick ++ [.call .trngAvailable] ++
    List.replicate 4 .tick)).h.done.map (·.ret)) = [1, 63] := by decide

end QNEthernet.Entropy.Trng
