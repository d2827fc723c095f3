import QNEthernet.Tcp.Blocks
import QNEthernet.Tcp.Client

/-! The receive side of a connection as a stream of bytes: what the callbacks stored is what the reads
took, followed by what is pending. -/

namespace QNEthernet.Tcp

open Lwip

def ConnectionHolder.pending (x : ConnectionHolder) : List Byte :=
  match x.state with
  | some state => state.buf.drop state.bufPos
  | none => x.remaining.drop x.remainingPos

def Event.storedBytes (h : Nat) : Event → List Byte
  | .stored h' bytes => if h' = h then bytes else []
  | _ => []

def Event.consumedBytes (h : Nat) : Event → List Byte
  | .consumed h' bytes => if h' = h then bytes else []
  | _ => []

def storedBytes (h : Nat) (trace : List Event) : List Byte := trace.flatMap (Event.storedBytes h)

def consumedBytes (h : Nat) (trace : List Event) : List Byte :=
  trace.flatMap (Event.consumedBytes h)

/-- A holder between the bytes stored for it and the bytes taken from it. -/
structure Intact (x : ConnectionHolder) (stored consumed : List Byte) : Prop where
  balance : consumed ++ x.pending = stored
  handover : x.remaining ≠ [] → x.state = none
  position : x.remainingPos < x.remaining.length ∨ x.remainingPos = 0 ∧ x.remaining = []
  room : ∀ state, x.state = some state →
    state.bufPos ≤ state.buf.length ∧ state.buf.length ≤ state.capacity
  heard : ∀ state, x.state = some state → state.buf ≠ [] → x.connected = true

namespace Intact

variable {x : ConnectionHolder} {stored consumed : List Byte}

theorem remaining_empty (intact : Intact x stored consumed) {state : ConnectionState}
    (there : x.state = some state) : x.remaining = [] := by
  by_contra some
  have gone := intact.handover some
  rw [there] at gone
  exact absurd gone (by simp)

theorem flags (intact : Intact x stored consumed) (err : Err) (connected : Bool)
    (kept : x.state ≠ none → x.connected = true → connected = true) :
    Intact { x with lastError := err, connected := connected } stored consumed where
  balance := intact.balance
  handover := intact.handover
  position := intact.position
  room := intact.room
  heard := fun state there some => kept (by simp_all) (intact.heard state there some)

theorem copyRemaining (intact : Intact x stored consumed) {state : ConnectionState}
    (there : x.state = some state) (p : List Byte) (err : Err) :
    Intact
      { x with
        lastError := err, connected := false, state := none, remainingPos := 0,
        remaining := (if state.isAvailable then state.buf.drop state.bufPos else []) ++ p }
      (stored ++ p) consumed where
  balance := by
    have before := intact.balance
    have unread : (if state.isAvailable then state.buf.drop state.bufPos else []) =
        state.buf.drop state.bufPos := by
      unfold ConnectionState.isAvailable
      split
      · rfl
      next drained =>
        symm
        apply List.drop_eq_nil_of_le
        simpa using drained
    simp only [ConnectionHolder.pending, there, unread, List.drop_zero] at before ⊢
    rw [← before, List.append_assoc]
  handover := fun _ => rfl
  position := by
    cases unread : (if state.isAvailable then state.buf.drop state.bufPos else []) ++ p with
    | nil => exact .inr ⟨rfl, rfl⟩
    | cons => exact .inl (by simp)
  room := by simp
  heard := by simp

end Intact

/-- Compaction keeps the unread bytes, and the chain comes after them. -/
theorem ConnectionState.store_spec {state state' : ConnectionState} {p : Pbuf}
    (stored : state.store p = some state')
    (room : state.bufPos ≤ state.buf.length ∧ state.buf.length ≤ state.capacity) :
    state'.buf.drop state'.bufPos = state.buf.drop state.bufPos ++ p.bytes ∧
      state'.bufPos ≤ state'.buf.length ∧ state'.buf.length ≤ state'.capacity := by
  unfold ConnectionState.store at stored
  dsimp only at stored
  split at stored
  next => exact absurd stored (by simp)
  next fits =>
    rw [Option.some.injEq] at stored
    subst stored
    by_cases compact : state.capacity - state.buf.length < p.totLen
    · simp only [compact, if_true, insertLinks_eq, List.length_append, List.length_drop,
        List.drop_zero]
      refine ⟨rfl, Nat.zero_le _, ?_⟩
      have := room.1
      have : p.totLen = p.links.flatten.length := rfl
      omega
    · simp only [compact, if_false, insertLinks_eq, List.length_append]
      have : p.totLen = p.links.flatten.length := rfl
      refine ⟨List.drop_append_of_le_length room.1, by omega, by omega⟩

theorem Intact.store {x : ConnectionHolder} {stored consumed : List Byte}
    (intact : Intact x stored consumed) {state state' : ConnectionState} {p : Pbuf}
    (there : x.state = some state) (fits : state.store p = some state') (err : Err) :
    Intact { x with lastError := err, connected := true, state := some state' }
      (stored ++ p.bytes) consumed := by
  have empty := intact.remaining_empty there
  obtain ⟨unread, inside, bounded⟩ := ConnectionState.store_spec fits (intact.room state there)
  constructor
  · have before := intact.balance
    simp only [ConnectionHolder.pending, there] at before ⊢
    rw [unread, ← List.append_assoc, before]
  · exact fun some => absurd empty some
  · exact intact.position
  · intro s same
    cases same
    exact ⟨inside, bounded⟩
  · exact fun _ _ _ => rfl

namespace World

/-- Every holder is intact, and the ones to come have no bytes. -/
structure Streams (w : World) : Prop where
  intact : ∀ h, Intact (w.holder h) (storedBytes h w.trace) (consumedBytes h w.trace)
  fresh : ∀ h, w.nextHolder ≤ h →
    (w.holder h).state = none ∧ (w.holder h).remaining = [] ∧ storedBytes h w.trace = []

theorem Streams.of_same {w w' : World} (streams : Streams w) (holder : w'.holder = w.holder)
    (trace : w'.trace = w.trace) (next : w'.nextHolder = w.nextHolder) : Streams w' := by
  constructor
  · rw [holder, trace]
    exact streams.intact
  · rw [holder, trace, next]
    exact streams.fresh

theorem Streams.blocks {w w' : World} (streams : Streams w) (blocks : w.BlocksOnly w') :
    Streams w' :=
  streams.of_same blocks.holder blocks.trace blocks.nextHolder

theorem Streams.update {w w' : World} (streams : Streams w) (h : Nat) (x : ConnectionHolder)
    (events : List Event) (holder : w'.holder = Function.update w.holder h x)
    (trace : w'.trace = w.trace ++ events) (next : w'.nextHolder = w.nextHolder)
    (own : ∀ h' ≠ h, storedBytes h' events = [] ∧ consumedBytes h' events = [])
    (changed : Intact x (storedBytes h w.trace ++ storedBytes h events)
      (consumedBytes h w.trace ++ consumedBytes h events))
    (unborn : w.nextHolder ≤ h → x.state = none ∧ x.remaining = [] ∧ storedBytes h events = []) :
    Streams w' := by
  have split_stored (h' : Nat) : storedBytes h' w'.trace =
      storedBytes h' w.trace ++ storedBytes h' events := by
    rw [trace, storedBytes, List.flatMap_append]
    rfl
  have split_consumed (h' : Nat) : consumedBytes h' w'.trace =
      consumedBytes h' w.trace ++ consumedBytes h' events := by
    rw [trace, consumedBytes, List.flatMap_append]
    rfl
  constructor
  · intro h'
    rw [split_stored, split_consumed, holder]
    by_cases same : h' = h
    · subst same
      rw [Function.update_self]
      exact changed
    · rw [Function.update_of_ne same, (own h' same).1, (own h' same).2, List.append_nil,
        List.append_nil]
      exact streams.intact h'
  · intro h' late
    rw [next] at late
    rw [split_stored, holder]
    by_cases same : h' = h
    · subst same
      rw [Function.update_self, (unborn late).2.2, (streams.fresh h' late).2.2]
      exact ⟨(unborn late).1, (unborn late).2.1, rfl⟩
    · rw [Function.update_of_ne same, (own h' same).1, List.append_nil]
      exact streams.fresh h' late

theorem Streams.quiet {w w' : World} (streams : Streams w) (h : Nat) (x : ConnectionHolder)
    (holder : w'.holder = Function.update w.holder h x) (trace : w'.trace = w.trace)
    (next : w'.nextHolder = w.nextHolder)
    (changed : Intact x (storedBytes h w.trace) (consumedBytes h w.trace))
    (unborn : w.nextHolder ≤ h → x.state = none ∧ x.remaining = []) : Streams w' := by
  apply streams.update h x [] holder (by simpa using trace) next
  · exact fun _ _ => ⟨rfl, rfl⟩
  · simpa [storedBytes, consumedBytes] using changed
  · exact fun late => ⟨(unborn late).1, (unborn late).2, rfl⟩

theorem Streams.not_late {w : World} (streams : Streams w) {h : Nat} {state : ConnectionState}
    (there : (w.holder h).state = some state) : ¬ w.nextHolder ≤ h := by
  intro late
  have gone := (streams.fresh h late).1
  rw [there] at gone
  exact absurd gone (by simp)

theorem Streams.flags {w : World} (streams : Streams w) (h : Nat) (err : Err) (connected : Bool)
    (kept : (w.holder h).state ≠ none → (w.holder h).connected = true → connected = true) :
    Streams (w.setHolder h { w.holder h with lastError := err, connected := connected }) :=
  streams.quiet h _ rfl rfl rfl ((streams.intact h).flags err connected kept) fun late =>
    ⟨(streams.fresh h late).1, (streams.fresh h late).2.1⟩

/-- A state goes, with the unread data and the bytes of a last chain copied to `remaining`. -/
theorem Streams.handover {w w' : World} (streams : Streams w) (h : Nat) {state : ConnectionState}
    (there : (w.holder h).state = some state) (p : Option Pbuf) (err : Err)
    (holder : w'.holder = Function.update w.holder h
      { w.holder h with
        lastError := err, connected := false, state := none, remainingPos := 0,
        remaining := (if state.isAvailable then state.buf.drop state.bufPos else []) ++
          (p.map Pbuf.bytes).getD [] })
    (trace : w'.trace = w.trace ++ (p.map fun p => Event.stored h p.bytes).toList)
    (next : w'.nextHolder = w.nextHolder) : Streams w' := by
  apply streams.update h _ _ holder trace next
  · intro h' other
    cases p with
    | none => exact ⟨rfl, rfl⟩
    | some p => simp [storedBytes, consumedBytes, Event.storedBytes, Event.consumedBytes, other.symm]
  · cases p with
    | none =>
        simpa [storedBytes, consumedBytes] using (streams.intact h).copyRemaining there [] err
    | some p =>
        simpa [storedBytes, consumedBytes, Event.storedBytes, Event.consumedBytes] using
          (streams.intact h).copyRemaining there p.bytes err
  · exact fun late => absurd late (streams.not_late there)

theorem errFunc_streams (w : World) (arg : CallbackArg) (err : Err) (streams : Streams w) :
    Streams (w.errFunc arg err) := by
  unfold errFunc
  match arg with
  | .null => exact streams
  | .manager => exact streams
  | .holder h =>
      dsimp only
      split
      next state there =>
        split
        next failed =>
          apply streams.handover h there none err
          · simp [setHolder, ConnectionHolder.maybeCopyRemaining, failed]
          · simp [setHolder]
          · simp [setHolder]
        next fine =>
          apply streams.flags h err
          intro _ _
          simpa using fine
      next gone =>
        apply streams.flags h err
        exact fun there => absurd gone there

theorem keepRemaining_destroyState_streams (w : World) (h : Nat) (p : Option Pbuf) (err : Err)
    (w' : World) (touched : (w.keepRemaining h p err).BlocksOnly w') (streams : Streams w) :
    Streams (w'.destroyState h) := by
  cases there : (w.holder h).state with
  | none =>
      have same : w.keepRemaining h p err =
          w.setHolder h { w.holder h with lastError := err, connected := false } := by
        simp [keepRemaining, there]
      rw [same] at touched
      apply (streams.flags h err false fun some => absurd there some).of_same
      · simp [touched.holder, setHolder, there]
      · simp [touched.trace]
      · simp [touched.nextHolder]
  | some state =>
      apply streams.handover h there p err
      · cases p <;> simp [touched.holder, keepRemaining, there, setHolder, emit,
          ConnectionHolder.maybeCopyRemaining, Pbuf.bytes]
      · cases p <;> simp [touched.trace, keepRemaining, there, setHolder, emit]
      · cases p <;> simp [touched.nextHolder, keepRemaining, there, setHolder, emit]

theorem recvClosed_streams (w : World) (h tpcb : Nat) (p : Option Pbuf) (err : Err) (finOk : Bool)
    (streams : Streams w) : Streams (w.recvClosed h tpcb p err finOk).2 := by
  rcases recvClosed_eq w h tpcb p err finOk with ⟨w', before, after⟩
  exact (keepRemaining_destroyState_streams w h p err w' before streams).blocks after

theorem recvFunc_streams (w : World) (h tpcb : Nat) (p : Option Pbuf) (err : Err) (finOk : Bool)
    (streams : Streams w) : Streams (w.recvFunc h tpcb p err finOk).2 := by
  unfold recvFunc
  cases p with
  | none => exact recvClosed_streams w h tpcb none err finOk streams
  | some p =>
      dsimp only
      split
      · exact recvClosed_streams w h tpcb (some p) err finOk streams
      · split
        next gone =>
          exact (streams.flags h err true fun _ _ => rfl).blocks (touch_blocksOnly _ tpcb)
        next state there =>
          split
          · exact streams.flags h err true fun _ _ => rfl
          next state' fits =>
            apply Streams.blocks _ (touch_blocksOnly _ tpcb)
            apply streams.update h { w.holder h with
              lastError := err, connected := true, state := some state' } [.stored h p.bytes]
            · rfl
            · rfl
            · rfl
            · intro h' other
              simp [storedBytes, consumedBytes, Event.storedBytes, Event.consumedBytes, other.symm]
            · simpa [storedBytes, consumedBytes, Event.storedBytes, Event.consumedBytes] using
                (streams.intact h).store there fits err
            · exact fun late => absurd late (streams.not_late there)

theorem makeHolder_streams (w : World) (p : Nat) (connected accepted : Bool) (streams : Streams w) :
    Streams (w.makeHolder p { connected := connected, accepted := accepted }).2 := by
  obtain ⟨-, -, unheard⟩ := streams.fresh w.nextHolder (le_refl _)
  have untaken : consumedBytes w.nextHolder w.trace = [] := by
    have balance := (streams.intact w.nextHolder).balance
    rw [unheard] at balance
    exact (List.append_eq_nil_iff.mp balance).1
  apply Streams.blocks _ (altcpRecv_blocksOnly _ p)
  apply Streams.blocks _ (altcpErr_blocksOnly _ p)
  apply Streams.blocks _ (altcpArg_blocksOnly _ p _)
  constructor
  · intro h
    by_cases new : h = w.nextHolder
    · subst new
      simp only [setHolder, Function.update_self, unheard, untaken]
      exact ⟨rfl, by simp, .inr ⟨rfl, rfl⟩, by simp, by simp⟩
    · simp only [setHolder, Function.update_of_ne new]
      exact streams.intact h
  · intro h late
    have later : w.nextHolder + 1 ≤ h := late
    have other : h ≠ w.nextHolder := by omega
    simp only [setHolder, Function.update_of_ne other]
    exact streams.fresh h (by omega)

theorem Streams.taken {w : World} (streams : Streams w) (h : Nat) (x : ConnectionHolder)
    (bytes : List Byte) (born : ¬ w.nextHolder ≤ h)
    (changed : Intact x (storedBytes h w.trace) (consumedBytes h w.trace ++ bytes)) :
    Streams ((w.emit (.consumed h bytes)).setHolder h x) := by
  apply streams.update h x [.consumed h bytes]
  · rfl
  · rfl
  · rfl
  · intro h' other
    simp [storedBytes, consumedBytes, Event.storedBytes, Event.consumedBytes, other.symm]
  · simpa [storedBytes, consumedBytes, Event.storedBytes, Event.consumedBytes] using changed
  · exact fun late => absurd late born

theorem takeRemaining_streams (w : World) (h n : Nat) (streams : Streams w)
    (some : (w.holder h).remaining ≠ []) : Streams (w.takeRemaining h n) := by
  have intact := streams.intact h
  have gone := intact.handover some
  have born : ¬ w.nextHolder ≤ h := fun late => some (streams.fresh h late).2.1
  have balance := intact.balance
  simp only [ConnectionHolder.pending, gone] at balance
  unfold takeRemaining
  dsimp only
  split
  next drained =>
    apply streams.taken h _ _ born
    have all : ((w.holder h).remaining.drop (w.holder h).remainingPos).take n =
        (w.holder h).remaining.drop (w.holder h).remainingPos := by
      apply List.take_of_length_le
      rw [List.length_drop]
      omega
    constructor
    · simpa [ConnectionHolder.pending, gone, all] using balance
    · simp
    · exact .inr ⟨rfl, rfl⟩
    · simp [gone]
    · simp [gone]
  next left =>
    apply streams.taken h _ _ born
    constructor
    · simpa [ConnectionHolder.pending, gone, ← List.drop_drop] using balance
    · exact fun _ => gone
    · exact .inl (by simpa using left)
    · simp [gone]
    · simp [gone]

theorem takeBuffered_streams (w : World) (h : Nat) (state : ConnectionState) (n : Nat)
    (streams : Streams w) (there : (w.holder h).state = some state)
    (inside : n ≤ state.buf.length - state.bufPos) : Streams (w.takeBuffered h state n) := by
  have intact := streams.intact h
  have room := intact.room state there
  have balance := intact.balance
  simp only [ConnectionHolder.pending, there] at balance
  apply streams.taken h _ _ (streams.not_late there)
  constructor
  · simpa [ConnectionHolder.pending, ← List.drop_drop] using balance
  · exact fun some => absurd (intact.remaining_empty there) some
  · exact intact.position
  · intro s same
    cases same
    exact ⟨by dsimp only; omega, room.2⟩
  · intro s same some
    cases same
    exact intact.heard state there some

end World
end QNEthernet.Tcp
