import QNEthernet.Lib.Memory
import QNEthernet.Lib.Partial
import QNEthernet.Lwip.Pbuf

/-! `writeFully` and `writeMagic` of `util/PrintUtils.cpp`, for a `Print` and a break function over any
state. A loop gets a number of turns; it is still going on, and there is no result, when they end before it. -/

namespace QNEthernet.Util

open Lwip Partial

/-- A `Print` accepts some of the first bytes. -/
structure Print (σ : Type) where
  write : List Byte → σ → Nat × σ
  atMost : ∀ bytes s, (write bytes s).1 ≤ bytes.length

structure Outside (σ : Type) where
  s : σ
  attempts : List (Attempt Byte) := []

variable {σ : Type} (p : Print σ)

namespace Outside

def write (bytes : List Byte) (o : Outside σ) : Nat × Outside σ :=
  let (written, s) := p.write bytes o.s
  (written, { s := s, attempts := o.attempts ++ [.offered bytes written] })

def ask (breakf : σ → Bool × σ) (o : Outside σ) : Bool × Outside σ :=
  let (stop, s) := breakf o.s
  (stop, { s := s, attempts := o.attempts ++ [.asked stop] })

end Outside

/-- The loop without a break function, from `pBuf` on. -/
def writeRest (buf : Nat → Byte) : Nat → Nat → Nat → Outside σ → Option (Outside σ)
  | 0, _, _, _ => none
  | turns + 1, pBuf, sizeRem, o =>
      if sizeRem > 0 then
        let (written, o) := o.write p (Memory.window buf pBuf sizeRem)
        writeRest buf turns (pBuf + written) (sizeRem - written) o
      else some o

/-- The loop with one, and what is left at its end. -/
def writeUntil (breakf : σ → Bool × σ) (buf : Nat → Byte) : Nat → Nat → Nat → Outside σ → Option (Nat × Outside σ)
  | 0, _, _, _ => none
  | turns + 1, pBuf, sizeRem, o =>
      if sizeRem > 0 then
        match o.ask breakf with
        | (true, o) => some (sizeRem, o)
        | (false, o) =>
            let (written, o) := o.write p (Memory.window buf pBuf sizeRem)
            writeUntil breakf buf turns (pBuf + written) (sizeRem - written) o
      else some (sizeRem, o)

def writeFully (turns : Nat) (buf : Nat → Byte) (size : Nat) (breakf : Option (σ → Bool × σ)) (o : Outside σ) :
    Option (Nat × Outside σ) :=
  match breakf with
  | none => (writeRest p buf turns 0 size o).map fun o => (size, o)
  | some breakf => (writeUntil p breakf buf turns 0 size o).map fun (sizeRem, o) => (size - sizeRem, o)

def ethHwaddrLen : Nat := 6

def kBroadcastMAC : Nat → Byte := fun _ => 0xff

/-- The loop over the MAC addresses. -/
def writeMacs (turns : Nat) (mac : Nat → Byte) (breakf : Option (σ → Bool × σ)) :
    Nat → Nat → Outside σ → Option (Nat × Outside σ)
  | 0, written, o => some (written, o)
  | i + 1, written, o =>
      match writeFully p turns mac ethHwaddrLen breakf o with
      | none => none
      | some (w, o) =>
          let written := written + w
          if w < ethHwaddrLen then some (written, o) else writeMacs turns mac breakf i written o

def writeMagic (turns : Nat) (mac : Nat → Byte) (breakf : Option (σ → Bool × σ)) (o : Outside σ) :
    Option (Nat × Outside σ) :=
  match writeFully p turns kBroadcastMAC ethHwaddrLen breakf o with
  | none => none
  | some (written, o) =>
      if written < ethHwaddrLen then some (written, o) else writeMacs p turns mac breakf 16 written o

/-- A call of one of the `write` functions; a buffer can be `NULL`. -/
inductive Write where
  | byte (b : Byte)
  | bytes (buffer : Option (Nat → Byte)) (size : Nat)

def Write.data : Write → List Byte
  | .byte b => [b]
  | .bytes none _ => []
  | .bytes (some buffer) size => Memory.window buffer 0 size

def magic (mac : List Byte) : List Byte := List.replicate 6 0xff ++ (List.replicate 16 mac).flatten

/-- From one state to another so many of the values went over. -/
def Carries (values : List Byte) (count : Nat) (o o' : Outside σ) : Prop :=
  ∃ attempts, o'.attempts = o.attempts ++ attempts ∧ Went values count attempts

section Loops

variable {p} {breakf : σ → Bool × σ} {buf : Nat → Byte} {o o' o₁ : Outside σ}

theorem Outside.write_atMost (bytes : List Byte) (o : Outside σ) : (o.write p bytes).1 ≤ bytes.length :=
  p.atMost bytes o.s

theorem Outside.write_attempts (bytes : List Byte) (o : Outside σ) :
    (o.write p bytes).2.attempts = o.attempts ++ [.offered bytes (o.write p bytes).1] := rfl

theorem Outside.ask_attempts {stop : Bool} (asked : o.ask breakf = (stop, o')) :
    o'.attempts = o.attempts ++ [.asked stop] := by
  have answer : (o.ask breakf).1 = stop := congrArg Prod.fst asked
  have after : (o.ask breakf).2 = o' := congrArg Prod.snd asked
  rw [← after, ← answer]
  rfl

theorem Carries.nothing (o : Outside σ) : Carries [] 0 o o := ⟨[], (List.append_nil _).symm, Went.nothing⟩

theorem Carries.stopped {values : List Byte} (left : 0 < values.length) (asked : o.ask breakf = (true, o')) :
    Carries values 0 o o' := ⟨[.asked true], Outside.ask_attempts asked, Went.stopped left⟩

theorem Carries.asked {values : List Byte} {count : Nat} (asked : o.ask breakf = (false, o₁))
    (rest : Carries values count o₁ o') : Carries values count o o' := by
  obtain ⟨attempts, since, went⟩ := rest
  rw [Outside.ask_attempts asked, List.append_assoc] at since
  exact ⟨.asked false :: attempts, since, went.asked⟩

theorem Carries.write {pBuf sizeRem count : Nat}
    (rest : Carries (Memory.window buf (pBuf + (o.write p (Memory.window buf pBuf sizeRem)).1)
      (sizeRem - (o.write p (Memory.window buf pBuf sizeRem)).1)) count
      (o.write p (Memory.window buf pBuf sizeRem)).2 o') :
    Carries (Memory.window buf pBuf sizeRem) ((o.write p (Memory.window buf pBuf sizeRem)).1 + count) o o' := by
  obtain ⟨attempts, since, went⟩ := rest
  have atMost := o.write_atMost (p := p) (Memory.window buf pBuf sizeRem)
  rw [Outside.write_attempts, List.append_assoc] at since
  generalize (o.write p (Memory.window buf pBuf sizeRem)).1 = written at since went atMost ⊢
  refine ⟨.offered (Memory.window buf pBuf sizeRem) written :: attempts, since, ?_⟩
  apply Went.offered atMost
  rw [Memory.length_window] at atMost
  have parts := Memory.window_add buf pBuf written (sizeRem - written)
  rw [Nat.add_sub_cancel' atMost] at parts
  rw [parts, List.drop_left' (Memory.length_window buf pBuf written)]
  exact went

theorem writeRest_carries {turns pBuf sizeRem : Nat} (ran : writeRest p buf turns pBuf sizeRem o = some o') :
    Carries (Memory.window buf pBuf sizeRem) sizeRem o o' := by
  induction turns generalizing pBuf sizeRem o with
  | zero => cases ran
  | succ turns ih =>
      rw [writeRest] at ran
      split at ran
      · next left =>
          have written := o.write_atMost (p := p) (Memory.window buf pBuf sizeRem)
          rw [Memory.length_window] at written
          have carries := Carries.write (ih ran)
          rwa [Nat.add_sub_cancel' written] at carries
      · next none =>
          cases ran
          cases Nat.eq_zero_of_not_pos none
          exact Carries.nothing _

theorem writeUntil_carries {turns pBuf sizeRem sizeRem' : Nat}
    (ran : writeUntil p breakf buf turns pBuf sizeRem o = some (sizeRem', o')) :
    sizeRem' ≤ sizeRem ∧ Carries (Memory.window buf pBuf sizeRem) (sizeRem - sizeRem') o o' := by
  induction turns generalizing pBuf sizeRem o with
  | zero => cases ran
  | succ turns ih =>
      rw [writeUntil] at ran
      split at ran
      · next left =>
          split at ran
          · next o₁ asked =>
              cases ran
              rw [Nat.sub_self]
              refine ⟨Nat.le_refl _, Carries.stopped ?_ asked⟩
              rwa [Memory.length_window]
          · next o₁ asked =>
              have written := o₁.write_atMost (p := p) (Memory.window buf pBuf sizeRem)
              rw [Memory.length_window] at written
              have ran' : writeUntil p breakf buf turns (pBuf + (o₁.write p (Memory.window buf pBuf sizeRem)).1)
                  (sizeRem - (o₁.write p (Memory.window buf pBuf sizeRem)).1)
                  (o₁.write p (Memory.window buf pBuf sizeRem)).2 = some (sizeRem', o') := ran
              obtain ⟨less, rest⟩ := ih ran'
              have carries := (Carries.write rest).asked asked
              have count : (o₁.write p (Memory.window buf pBuf sizeRem)).1 +
                  (sizeRem - (o₁.write p (Memory.window buf pBuf sizeRem)).1 - sizeRem') = sizeRem - sizeRem' := by
                omega
              rw [count] at carries
              exact ⟨by omega, carries⟩
      · next none =>
          cases ran
          cases Nat.eq_zero_of_not_pos none
          exact ⟨Nat.le_refl _, Carries.nothing _⟩

theorem writeRest_keeps {P : Outside σ → Prop} (onWrite : ∀ bytes o, P o → P (o.write p bytes).2)
    {turns pBuf sizeRem : Nat} (start : P o) (ran : writeRest p buf turns pBuf sizeRem o = some o') : P o' := by
  induction turns generalizing pBuf sizeRem o with
  | zero => cases ran
  | succ turns ih =>
      rw [writeRest] at ran
      split at ran
      · exact ih (onWrite _ _ start) ran
      · cases ran
        exact start

theorem writeUntil_keeps {P : Outside σ → Prop} (onWrite : ∀ bytes o, P o → P (o.write p bytes).2)
    (onAsk : ∀ o, P o → P (o.ask breakf).2) {turns pBuf sizeRem sizeRem' : Nat} (start : P o)
    (ran : writeUntil p breakf buf turns pBuf sizeRem o = some (sizeRem', o')) : P o' := by
  induction turns generalizing pBuf sizeRem o with
  | zero => cases ran
  | succ turns ih =>
      rw [writeUntil] at ran
      have asked := onAsk o start
      split at ran
      · split at ran
        · next o₁ answer =>
            cases ran
            rwa [answer] at asked
        · next o₁ answer =>
            rw [answer] at asked
            exact ih (onWrite _ _ asked) ran
      · cases ran
        exact start

variable (progress : ∀ bytes s, 0 < bytes.length → 0 < (p.write bytes s).1)
include progress

theorem writeRest_returns {turns pBuf sizeRem : Nat} (enough : sizeRem < turns) :
    (writeRest p buf turns pBuf sizeRem o).isSome := by
  induction turns generalizing pBuf sizeRem o with
  | zero => exact absurd enough (Nat.not_lt_zero _)
  | succ turns ih =>
      rw [writeRest]
      split
      · next left =>
          have written := progress (Memory.window buf pBuf sizeRem) o.s (by rwa [Memory.length_window])
          exact ih ((Nat.sub_lt left written).trans_le (Nat.le_of_lt_succ enough))
      · rfl

theorem writeUntil_returns {turns pBuf sizeRem : Nat} (enough : sizeRem < turns) :
    (writeUntil p breakf buf turns pBuf sizeRem o).isSome := by
  induction turns generalizing pBuf sizeRem o with
  | zero => exact absurd enough (Nat.not_lt_zero _)
  | succ turns ih =>
      rw [writeUntil]
      split
      · next left =>
          split
          · rfl
          · next o₁ _ =>
              have written := progress (Memory.window buf pBuf sizeRem) o₁.s (by rwa [Memory.length_window])
              exact ih ((Nat.sub_lt left written).trans_le (Nat.le_of_lt_succ enough))
      · rfl

end Loops

section Calls

variable {p} {breakf : Option (σ → Bool × σ)} {buf mac : Nat → Byte} {o o' : Outside σ} {turns size r : Nat}

theorem writeFully_carries (ran : writeFully p turns buf size breakf o = some (r, o')) :
    Carries (Memory.window buf 0 size) r o o' := by
  cases breakf with
  | none =>
      obtain ⟨o₁, rest, same⟩ := Option.map_eq_some_iff.mp ran
      cases same
      exact writeRest_carries rest
  | some breakf =>
      obtain ⟨⟨sizeRem, o₁⟩, rest, same⟩ := Option.map_eq_some_iff.mp ran
      cases same
      exact (writeUntil_carries rest).2

theorem Carries.append {values more : List Byte} {count count' : Nat} {o₁ : Outside σ}
    (first : Carries values count o o₁) (all : values.length ≤ count) (then_ : Carries more count' o₁ o') :
    Carries (values ++ more) (count + count') o o' := by
  obtain ⟨attempts, since, went⟩ := first
  obtain ⟨attempts', since', went'⟩ := then_
  rw [since, List.append_assoc] at since'
  exact ⟨attempts ++ attempts', since', went.append all went'⟩

theorem Carries.cut {values : List Byte} {count : Nat} (carries : Carries values count o o')
    (short : count < values.length) (more : List Byte) : Carries (values ++ more) count o o' := by
  obtain ⟨attempts, since, went⟩ := carries
  exact ⟨attempts, since, went.cut short more⟩

theorem writeMacs_carries {i written : Nat} (ran : writeMacs p turns mac breakf i written o = some (r, o')) :
    ∃ w, r = written + w ∧ Carries (List.replicate i (Memory.window mac 0 ethHwaddrLen)).flatten w o o' := by
  induction i generalizing written o with
  | zero =>
      cases ran
      exact ⟨0, rfl, Carries.nothing _⟩
  | succ i ih =>
      rw [writeMacs] at ran
      rw [List.replicate_succ, List.flatten_cons]
      have length := Memory.length_window mac 0 ethHwaddrLen
      split at ran
      · cases ran
      · next w o₁ piece =>
          have first := writeFully_carries piece
          dsimp only at ran
          split at ran
          · next short =>
              cases ran
              exact ⟨w, rfl, first.cut (by rwa [length]) _⟩
          · next whole =>
              obtain ⟨w', count, rest⟩ := ih ran
              refine ⟨w + w', by omega, first.append ?_ rest⟩
              rw [length]
              exact Nat.le_of_not_lt whole

theorem writeMagic_carries (ran : writeMagic p turns mac breakf o = some (r, o')) :
    Carries (magic (Memory.window mac 0 ethHwaddrLen)) r o o' := by
  rw [writeMagic] at ran
  have length := Memory.length_window kBroadcastMAC 0 ethHwaddrLen
  split at ran
  · cases ran
  · next written o₁ piece =>
      have first := writeFully_carries piece
      split at ran
      · next short =>
          cases ran
          exact first.cut (by rwa [length]) _
      · next whole =>
          obtain ⟨w, count, rest⟩ := writeMacs_carries ran
          rw [count]
          apply first.append _ rest
          rw [length]
          exact Nat.le_of_not_lt whole

theorem length_magic {mac : List Byte} (length : mac.length = 6) : (magic mac).length = 102 := by
  simp [magic, length]

theorem writeFully_keeps {P : Outside σ → Prop} (onWrite : ∀ bytes o, P o → P (o.write p bytes).2)
    (onAsk : ∀ f ∈ breakf, ∀ o, P o → P (o.ask f).2) (start : P o)
    (ran : writeFully p turns buf size breakf o = some (r, o')) : P o' := by
  cases breakf with
  | none =>
      obtain ⟨o₁, rest, same⟩ := Option.map_eq_some_iff.mp ran
      cases same
      exact writeRest_keeps onWrite start rest
  | some breakf =>
      obtain ⟨⟨sizeRem, o₁⟩, rest, same⟩ := Option.map_eq_some_iff.mp ran
      cases same
      exact writeUntil_keeps onWrite (onAsk breakf rfl) start rest

theorem writeFully_returns (progress : ∀ bytes s, 0 < bytes.length → 0 < (p.write bytes s).1)
    (enough : size < turns) : (writeFully p turns buf size breakf o).isSome := by
  cases breakf with
  | none =>
      rw [writeFully, Option.isSome_map]
      exact writeRest_returns progress enough
  | some breakf =>
      rw [writeFully, Option.isSome_map]
      exact writeUntil_returns progress enough

end Calls

end QNEthernet.Util
