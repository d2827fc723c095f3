import QNEthernet.Tcp.Reception

/-! Flow control in `recvFunc`: the vector of a connection with its capacity, and what becomes of a
chain that is given to it. -/

namespace QNEthernet.Tcp

open Lwip World

namespace ConnectionState

/-- `v.insert(v.cend(), first, last)`. Without room the vector grows and its elements move; the second
result counts that. -/
def insert (state : ConnectionState) (bytes : List Byte) : ConnectionState × Nat :=
  let size := state.buf.length
  if size + bytes.length ≤ state.capacity then ({ state with buf := state.buf ++ bytes }, 0)
  else
    ({ state with buf := state.buf ++ bytes, capacity := size + max size bytes.length }, 1)

/-- The copy loop over the links of a chain. -/
def insertAll : ConnectionState → List (List Byte) → ConnectionState × Nat
  | state, [] => (state, 0)
  | state, link :: links =>
      let (state, moved) := state.insert link
      let (state, later) := state.insertAll links
      (state, moved + later)

/-- Moves the unread data to the top: `std::copy_n` inside the vector and `resize`, or `clear`. -/
def compact (state : ConnectionState) : ConnectionState :=
  let n := state.buf.length - state.bufPos
  let buf := if n > 0 then (Ring.overwrite state.buf 0 ((state.buf.drop state.bufPos).take n)).take n
    else []
  { state with buf := buf, bufPos := 0 }

def unread (state : ConnectionState) : Nat := state.buf.length - state.bufPos

end ConnectionState

/-- What `recvFunc` returns and leaves, with its effects: what it tells `altcp_recved`, how often it
frees the chain, and how often the vector grew. -/
structure Received where
  err : Err
  holder : ConnectionHolder
  recved : List Nat := []
  freed : Nat := 0
  reallocations : Nat := 0
  deriving DecidableEq

def ConnectionHolder.recvData (holder : ConnectionHolder) (p : Pbuf) : Received :=
  let holder := { holder with lastError := .ok, connected := true }
  match holder.state with
  | none => { err := .ok, holder := holder, recved := [p.totLen], freed := 1 }
  | some state =>
      let rem := state.capacity - state.buf.length + state.bufPos
      -- lwIP retains a refused chain and retries it
      if rem < p.totLen then { err := .mem, holder := holder }
      else
        let state := if state.capacity - state.buf.length < p.totLen then state.compact else state
        let (state, reallocations) := state.insertAll p.links
        { err := .ok
          holder := { holder with state := some state }
          recved := [p.totLen]
          freed := 1
          reallocations := reallocations }

namespace ConnectionState

theorem compact_eq (state : ConnectionState) :
    state.compact = { state with buf := state.buf.drop state.bufPos, bufPos := 0 } := by
  have whole : (state.buf.drop state.bufPos).take (state.buf.length - state.bufPos) =
      state.buf.drop state.bufPos := by
    apply List.take_of_length_le
    rw [List.length_drop]
  have length : (state.buf.drop state.bufPos).length = state.buf.length - state.bufPos :=
    List.length_drop
  unfold compact
  dsimp only
  split
  · rw [whole, Ring.overwrite, List.take_zero, List.nil_append, ← length, List.take_left]
  · next none =>
      have empty : state.buf.drop state.bufPos = [] := List.drop_eq_nil_iff.mpr (by omega)
      rw [empty]

theorem insertAll_fits (state : ConnectionState) (links : List (List Byte))
    (fits : state.buf.length + links.flatten.length ≤ state.capacity) :
    state.insertAll links = ({ state with buf := state.buf ++ links.flatten }, 0) := by
  induction links generalizing state with
  | nil => simp [insertAll]
  | cons link links ih =>
      rw [List.flatten_cons, List.length_append] at fits
      have first : state.insert link = ({ state with buf := state.buf ++ link }, 0) :=
        if_pos (by omega)
      rw [insertAll, first]
      dsimp only
      rw [ih { state with buf := state.buf ++ link } (by dsimp only; rw [List.length_append]; omega)]
      simp

end ConnectionState

/-- The vector is inside its capacity, which is the one that was reserved. -/
structure ConnectionState.Reserved (mtu : Nat) (state : ConnectionState) : Prop where
  position : state.bufPos ≤ state.buf.length
  size : state.buf.length ≤ state.capacity
  capacity : state.capacity = tcpWnd mtu

/-- What becomes of a chain: it is refused, and everything stays as it was, exactly if it does not fit
behind the unread bytes; otherwise its bytes come after them, and it is freed once and acknowledged. -/
structure FlowControlled (mtu : Nat) (x : ConnectionHolder) (state : ConnectionState) (p : Pbuf) (r : Received) :
    Prop where
  before : state.Reserved mtu
  after : ∃ state', r.holder.state = some state' ∧ state'.Reserved mtu
  unmoved : r.reallocations = 0
  refuses : r.err = .mem ↔ state.capacity < state.unread + p.totLen
  refused : r.err = .mem → r.holder.state = some state ∧ r.holder.remaining = x.remaining ∧
    r.holder.remainingPos = x.remainingPos ∧ r.freed = 0 ∧ r.recved = []
  taken : r.err ≠ .mem → r.err = .ok ∧ r.holder.pending = x.pending ++ p.bytes ∧ r.freed = 1 ∧
    r.recved = [p.totLen]

namespace ConnectionHolder

variable {mtu : Nat} {x : ConnectionHolder} {state : ConnectionState}

theorem recvData_refused (there : x.state = some state) (reserved : state.Reserved mtu) {p : Pbuf}
    (full : state.capacity < state.unread + p.totLen) :
    x.recvData p = { err := .mem, holder := { x with lastError := .ok, connected := true } } := by
  have position := reserved.position
  have size := reserved.size
  unfold ConnectionState.unread at full
  simp only [recvData, there]
  rw [if_pos (by omega)]

theorem recvData_taken (there : x.state = some state) (reserved : state.Reserved mtu) {p : Pbuf}
    (fits : state.unread + p.totLen ≤ state.capacity) :
    ∃ state', x.recvData p =
        { err := .ok
          holder := { x with lastError := .ok, connected := true, state := some state' }
          recved := [p.totLen]
          freed := 1 } ∧
      state'.Reserved mtu ∧ state'.buf.drop state'.bufPos = state.buf.drop state.bufPos ++ p.bytes := by
  have position := reserved.position
  have size := reserved.size
  have chain : p.links.flatten.length = p.totLen := rfl
  unfold ConnectionState.unread at fits
  simp only [recvData, there]
  rw [if_neg (by omega)]
  by_cases behind : state.capacity - state.buf.length < p.totLen
  · rw [if_pos behind, ConnectionState.compact_eq, ConnectionState.insertAll_fits]
    · refine ⟨_, rfl, ⟨Nat.zero_le _, ?_, reserved.capacity⟩, rfl⟩
      dsimp only
      rw [List.length_append, List.length_drop]
      omega
    · dsimp only
      rw [List.length_drop]
      omega
  · rw [if_neg behind, ConnectionState.insertAll_fits _ _ (by omega)]
    refine ⟨_, rfl, ⟨?_, ?_, reserved.capacity⟩, ?_⟩
    · dsimp only
      rw [List.length_append]
      omega
    · dsimp only
      rw [List.length_append]
      omega
    · exact List.drop_append_of_le_length position

theorem flowControlled (there : x.state = some state) (reserved : state.Reserved mtu) (p : Pbuf) :
    FlowControlled mtu x state p (x.recvData p) := by
  by_cases full : state.capacity < state.unread + p.totLen
  · rw [recvData_refused there reserved full]
    exact ⟨reserved, ⟨state, there, reserved⟩, rfl, iff_of_true rfl full,
      fun _ => ⟨there, rfl, rfl, rfl, rfl⟩, fun taken => absurd rfl taken⟩
  · obtain ⟨state', result, reserved', bytes⟩ :=
      recvData_taken there reserved (Nat.le_of_not_lt full)
    rw [result]
    refine ⟨reserved, ⟨state', rfl, reserved'⟩, rfl, iff_of_false (by simp) full, by simp, ?_⟩
    intro _
    refine ⟨rfl, ?_, rfl, rfl⟩
    simp only [pending, there]
    exact bytes

theorem recvData_drained (there : x.state = some state) (reserved : state.Reserved mtu)
    (drained : state.unread = 0) {p : Pbuf} (small : p.totLen ≤ tcpWnd mtu) :
    (x.recvData p).err = .ok := by
  have capacity := reserved.capacity
  obtain ⟨_, result, _⟩ := recvData_taken (p := p) there reserved (by omega)
  rw [result]

end ConnectionHolder

namespace World

structure Reserved (mtu : Nat) (w : World) : Prop where
  build : w.mtu = mtu
  capacity : ∀ h state, (w.holder h).state = some state → state.capacity = tcpWnd mtu

variable {mtu : Nat} {w : World}

theorem Reserved.of_holder (reserved : w.Reserved mtu) {w' : World} (build : w'.mtu = w.mtu)
    (same : w'.holder = w.holder) : w'.Reserved mtu := by
  refine ⟨build.trans reserved.build, ?_⟩
  rw [same]
  exact reserved.capacity

theorem Reserved.update (reserved : w.Reserved mtu) {w' : World} {h : Nat} {x : ConnectionHolder}
    (holder : w'.holder = Function.update w.holder h x) (build : w'.mtu = w.mtu)
    (own : ∀ state, x.state = some state → state.capacity = tcpWnd mtu) : w'.Reserved mtu := by
  refine ⟨build.trans reserved.build, fun h' state there => ?_⟩
  rw [holder] at there
  by_cases same : h' = h
  · subst same
    rw [Function.update_self] at there
    exact own state there
  · rw [Function.update_of_ne same] at there
    exact reserved.capacity h' state there

theorem Reserved.destroyState (reserved : w.Reserved mtu) (h : Nat) : (w.destroyState h).Reserved mtu := by
  refine reserved.update (destroyState_holder w h) (destroyState_mtu w h) fun state there => ?_
  cases there

theorem Reserved.errFunc (reserved : w.Reserved mtu) (h : Nat) (err : Err) :
    (w.errFunc (.holder h) err).Reserved mtu := by
  unfold World.errFunc
  dsimp only
  split
  · next state there =>
      split
      · apply Reserved.destroyState
        exact reserved.update rfl rfl fun state' same => reserved.capacity h state' same
      · exact reserved.update rfl rfl fun state' same => reserved.capacity h state' same
  · exact reserved.update rfl rfl fun state' same => reserved.capacity h state' same

theorem capacity_store {state state' : ConnectionState} {p : Pbuf} (stored : state.store p = some state') :
    state'.capacity = state.capacity := by
  unfold ConnectionState.store at stored
  dsimp only at stored
  split at stored
  · cases stored
  · rw [Option.some.injEq] at stored
    subst stored
    dsimp only
    split <;> rfl

theorem Reserved.recvClosed (reserved : w.Reserved mtu) (h tpcb : Nat) (p : Option Pbuf) (err : Err)
    (finOk : Bool) : (w.recvClosed h tpcb p err finOk).2.Reserved mtu := by
  obtain ⟨w', before, after⟩ := recvClosed_eq w h tpcb p err finOk
  have kept : (w.keepRemaining h p err).Reserved mtu := by
    have same (state : ConnectionState) (there : (w.holder h).state = some state) :=
      reserved.capacity h state there
    unfold keepRemaining
    dsimp only
    split
    · exact reserved.update rfl rfl same
    · next state there =>
        cases p with
        | none => exact reserved.update rfl rfl same
        | some p => exact reserved.update rfl rfl same
  exact (Reserved.destroyState (kept.of_holder before.mtu before.holder) h).of_holder after.mtu after.holder

theorem Reserved.recvFunc (reserved : w.Reserved mtu) (h tpcb : Nat) (p : Option Pbuf) (err : Err)
    (finOk : Bool) : (w.recvFunc h tpcb p err finOk).2.Reserved mtu := by
  unfold World.recvFunc
  cases p with
  | none => exact reserved.recvClosed h tpcb none err finOk
  | some p =>
      dsimp only
      split
      · exact reserved.recvClosed h tpcb (some p) err finOk
      · split
        · next gone =>
            refine reserved.update (h := h) rfl rfl fun state there => ?_
            exact reserved.capacity h state there
        · next state there =>
            split
            · exact reserved.update rfl rfl fun state' same => reserved.capacity h state' same
            · next state' stored =>
                refine reserved.update (h := h) rfl rfl fun state'' same => ?_
                cases same
                rw [capacity_store stored]
                exact reserved.capacity h state there

theorem Reserved.callback (reserved : w.Reserved mtu) (callback : Callback) :
    (w.callback callback).Reserved mtu := by
  cases callback with
  | recv h tpcb p err finOk => exact reserved.recvFunc h tpcb p err finOk
  | err h err => exact reserved.errFunc h err

theorem Reserved.takeRemaining (reserved : w.Reserved mtu) (h n : Nat) : (w.takeRemaining h n).Reserved mtu := by
  unfold World.takeRemaining
  dsimp only
  split
  · exact reserved.update rfl rfl fun state there => reserved.capacity h state there
  · exact reserved.update rfl rfl fun state there => reserved.capacity h state there

theorem Reserved.takeBuffered (reserved : w.Reserved mtu) {h : Nat} {state : ConnectionState}
    (there : (w.holder h).state = some state) (n : Nat) : (w.takeBuffered h state n).Reserved mtu := by
  refine reserved.update (h := h) rfl rfl fun state' same => ?_
  cases same
  exact reserved.capacity h state there

theorem Reserved.receive {α : Type} (reserved : w.Reserved mtu) {c : Nat} (missing : α)
    (fromRemaining : Nat → World → α × World) (fromState : Nat → ConnectionState → World → α × World)
    (settled : (w.client c).pendingConnect = false)
    (onRemaining : ∀ h, (fromRemaining h w).2.Reserved mtu)
    (onState : ∀ h state w', w'.Reserved mtu → (w'.holder h).state = some state →
      (fromState h state w').2.Reserved mtu) (loop : List Callback) :
    ((EthernetClient.receive c missing fromRemaining fromState w).run receiveAnswer [loop]).2.Reserved mtu := by
  have looped : (loop.foldl World.callback w).Reserved mtu :=
    Run.foldl_preserves (World.Reserved mtu) World.callback (fun _ callback kept => kept.callback callback)
      loop w reserved
  cases conn : (w.client c).conn with
  | none =>
      rw [EthernetClient.receive_unowned missing fromRemaining fromState conn]
      exact reserved
  | some h =>
      have checked : EthernetClient.checkState c w = .done (some h) w := by
        simp [EthernetClient.checkState, conn, settled]
      unfold EthernetClient.receive
      rw [checked]
      simp only [Call.bind]
      split
      · exact onRemaining h
      · unfold EthernetClient.getStateAndLoopOrClose
        split
        · exact reserved.of_holder rfl rfl
        · split
          · exact reserved
          · -- after the loop the state is looked up again
            simp only [Ethernet.loop, Call.bind, Call.run, receiveAnswer, List.headI_cons, if_true]
            split
            · exact looped
            · next state there =>
                split
                · exact looped
                · exact onState h state _ looped there

theorem Reserved.makeHolder (reserved : w.Reserved mtu) (p : Nat) (connected accepted : Bool) :
    (w.makeHolder p { connected := connected, accepted := accepted }).2.Reserved mtu := by
  refine reserved.update (h := w.nextHolder) rfl rfl fun state there => ?_
  cases there
  exact congrArg tcpWnd reserved.build

theorem Reserved.streamStep (reserved : w.Reserved mtu) (settled : Settled w) (step : StreamStep) :
    (w.streamStep step).Reserved mtu := by
  cases step with
  | make p connected accepted => exact reserved.makeHolder p connected accepted
  | attach c h => exact reserved.of_holder rfl rfl
  | callback callback => exact reserved.callback callback
  | available c loop =>
      exact reserved.receive _ _ _ (settled c) (fun _ => reserved) (fun _ _ _ kept _ => kept) loop
  | read c loop =>
      exact reserved.receive _ _ _ (settled c) (fun h => reserved.takeRemaining h 1)
        (fun _ _ _ kept there => kept.takeBuffered there 1) loop
  | readBuf c buf size loop =>
      refine reserved.receive _ _ _ (settled c) (fun h => ?_) (fun h state w' kept there => ?_) loop
      · dsimp only
        split
        · exact reserved
        · exact reserved.takeRemaining h _
      · split
        · exact kept
        · exact kept.takeBuffered there _
  | peek c loop =>
      exact reserved.receive _ _ _ (settled c) (fun _ => reserved) (fun _ _ _ kept _ => kept) loop

theorem streamRun_kept (mtu : Nat) (steps : List StreamStep) :
    Streams (streamRun mtu steps) ∧ Settled (streamRun mtu steps) ∧ (streamRun mtu steps).Reserved mtu := by
  apply Run.foldl_preserves (fun w => Streams w ∧ Settled w ∧ w.Reserved mtu) World.streamStep
  · intro w step given
    obtain ⟨streams, settled, reserved⟩ := given
    have kept := streamStep_kept w step ⟨streams, settled⟩
    exact ⟨kept.1, kept.2, reserved.streamStep settled step⟩
  · refine ⟨⟨fun h => ?_, fun h _ => ⟨rfl, rfl, rfl⟩⟩, fun c => rfl, ?_⟩
    · exact ⟨rfl, by simp, .inr ⟨rfl, rfl⟩, by simp, by simp⟩
    · exact ⟨rfl, fun h state there => nomatch there⟩

theorem streamRun_reserved {steps : List StreamStep} {h : Nat} {state : ConnectionState}
    (there : ((streamRun mtu steps).holder h).state = some state) : state.Reserved mtu := by
  obtain ⟨streams, _, reserved⟩ := streamRun_kept mtu steps
  have room := (streams.intact h).room state there
  exact ⟨room.1, room.2, reserved.capacity h state there⟩

theorem recvFunc_data (w : World) (h tpcb : Nat) (p : Pbuf) (finOk : Bool)
    (reserved : ∀ state, (w.holder h).state = some state → state.Reserved mtu) :
    (w.recvFunc h tpcb (some p) .ok finOk).1 = ((w.holder h).recvData p).err ∧
      (w.recvFunc h tpcb (some p) .ok finOk).2.holder =
        Function.update w.holder h ((w.holder h).recvData p).holder := by
  cases there : (w.holder h).state with
  | none => simp [World.recvFunc, ConnectionHolder.recvData, there, touch, setHolder]
  | some state =>
      have kept := reserved state there
      have position := kept.position
      have size := kept.size
      have chain : p.links.flatten.length = p.totLen := rfl
      simp only [World.recvFunc, ConnectionHolder.recvData, ConnectionState.store, there, ne_eq,
        not_true_eq_false, if_false]
      by_cases full : state.capacity - state.buf.length + state.bufPos < p.totLen
      · simp only [if_pos full]
        exact ⟨trivial, rfl⟩
      · simp only [if_neg full, insertLinks_eq]
        by_cases behind : state.capacity - state.buf.length < p.totLen
        · simp only [if_pos behind]
          rw [ConnectionState.compact_eq, ConnectionState.insertAll_fits]
          · exact ⟨trivial, rfl⟩
          · dsimp only
            rw [List.length_drop]
            omega
        · simp only [if_neg behind]
          rw [ConnectionState.insertAll_fits _ _ (by omega)]
          exact ⟨trivial, rfl⟩

/-- A read that asks for all of it drains the buffer, if nothing comes in its loop. -/
theorem readBuf_drains {w : World} {c h : Nat} {state : ConnectionState} (streams : Streams w)
    (settled : (w.client c).pendingConnect = false) (owned : (w.client c).conn = some h)
    (there : (w.holder h).state = some state) (buf : Bool) {size : Nat} (all : state.unread ≤ size) :
    ∃ state', ((w.streamStep (.readBuf c buf size [])).holder h).state = some state' ∧
      state'.unread = 0 := by
  have intact := streams.intact h
  have empty : (w.holder h).remaining = [] := intact.remaining_empty there
  have checked : EthernetClient.checkState c w = .done (some h) w := by
    simp [EthernetClient.checkState, owned, settled]
  unfold ConnectionState.unread at all
  simp only [World.streamStep, EthernetClient.readBuf, EthernetClient.receive, checked, Call.bind, empty,
    List.isEmpty_nil, Bool.not_true, Bool.false_eq_true, if_false, EthernetClient.getStateAndLoopOrClose]
  by_cases connected : (w.holder h).connected = true
  · simp only [connected, Bool.not_true, Bool.false_eq_true, if_false, there, Ethernet.loop, Call.bind,
      Call.run, receiveAnswer, List.headI_cons, List.foldl_nil, if_true]
    by_cases available : state.isAvailable = true
    · have some : state.bufPos < state.buf.length := by
        simpa [ConnectionState.isAvailable] using available
      have asked : size ≠ 0 := by omega
      simp only [available, Bool.not_true, Bool.false_eq_true, if_false, if_neg asked, Call.run]
      refine ⟨{ state with bufPos := state.bufPos + min size (state.buf.length - state.bufPos) },
        by simp [World.takeBuffered, setHolder], ?_⟩
      simp only [ConnectionState.unread]
      omega
    · have none : state.buf.length ≤ state.bufPos := by
        simpa [ConnectionState.isAvailable] using available
      simp only [available, Bool.not_false, if_true, Call.run]
      exact ⟨state, there, Nat.sub_eq_zero_of_le none⟩
  · -- without any data heard there is nothing to drain
    have unheard : state.buf = [] := by
      by_contra data
      exact connected (intact.heard state there data)
    have closed : (w.holder h).connected = false := by simpa using connected
    simp only [closed, Bool.not_false, if_true, Call.bind, Call.run, Bool.false_eq_true, if_false]
    refine ⟨state, there, ?_⟩
    simp [ConnectionState.unread, unheard]

/-- After every run, for every connection and every chain: flow control is exact, a drained buffer takes
every chain of at most `TCP_WND` bytes, and reading all that is there makes room for one. -/
theorem flow_control_exact (mtu : Nat) (steps : List StreamStep) (h : Nat) (state : ConnectionState)
    (there : ((streamRun mtu steps).holder h).state = some state) (p : Pbuf) :
    let w := streamRun mtu steps
    let r := (w.holder h).recvData p
    (∀ tpcb finOk, (w.recvFunc h tpcb (some p) .ok finOk).1 = r.err ∧
      (w.recvFunc h tpcb (some p) .ok finOk).2.holder = Function.update w.holder h r.holder) ∧
    FlowControlled mtu (w.holder h) state p r ∧
    (p.totLen ≤ tcpWnd mtu → state.unread = 0 → r.err = .ok) ∧
    (p.totLen ≤ tcpWnd mtu → ∀ c buf size, (w.client c).conn = some h → state.unread ≤ size →
      (((streamRun mtu (steps ++ [.readBuf c buf size []])).holder h).recvData p).err = .ok) := by
  intro w r
  obtain ⟨streams, settled, _⟩ := streamRun_kept mtu steps
  have reserved := streamRun_reserved there
  refine ⟨fun tpcb finOk => ?_, ConnectionHolder.flowControlled there reserved p, ?_, ?_⟩
  · exact recvFunc_data w h tpcb p finOk fun state' there' => streamRun_reserved there'
  · exact fun small drained => ConnectionHolder.recvData_drained there reserved drained small
  · intro small c buf size owned all
    have later : streamRun mtu (steps ++ [.readBuf c buf size []]) = w.streamStep (.readBuf c buf size []) := by
      simp [streamRun, w]
    obtain ⟨state', there', drained⟩ := readBuf_drains streams (settled c) owned there buf all
    rw [← later] at there'
    exact ConnectionHolder.recvData_drained there' (streamRun_reserved there') drained small

theorem sixBytes_short : ([[1, 2, 3], [4, 5, 6]] : List (List Byte)).flatten.length < 2 ^ 16 := by decide

theorem fiveBytes_short : ([[7, 8, 9], [10, 11]] : List (List Byte)).flatten.length < 2 ^ 16 := by decide

/-- A window of eight bytes: six come, and four of them are read. -/
def twoUnread : List StreamStep :=
  [.make 0 true false, .attach 0 0, .callback (.recv 0 0 (some ⟨[[1, 2, 3], [4, 5, 6]], sixBytes_short⟩) .ok true),
    .readBuf 0 true 4 []]

/-- Five more come to stand behind the two at the top of the vector. -/
theorem flow_control_exact_twoUnread :
    let state : ConnectionState := { pcb := 0, capacity := 8, buf := [1, 2, 3, 4, 5, 6], bufPos := 4 }
    let p : Pbuf := ⟨[[7, 8, 9], [10, 11]], fiveBytes_short⟩
    let r := ((streamRun 42 twoUnread).holder 0).recvData p
    FlowControlled 42 ((streamRun 42 twoUnread).holder 0) state p r ∧
      r.err = .ok ∧ r.holder.state = some { state with buf := [5, 6, 7, 8, 9, 10, 11], bufPos := 0 } :=
  ⟨(flow_control_exact 42 twoUnread 0 _ (by decide) _).2.1, by decide, by decide⟩

end World

end QNEthernet.Tcp
