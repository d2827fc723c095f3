import QNEthernet.Tcp.Callbacks

/-! What lwIP does on its own, from `tcp_in.c` and the timers of `tcp.c`: segments that arrive, data
offered again, pending FINs, timeouts, and blocks given up for want of memory. A segment is described
by what its checks find. -/

namespace QNEthernet.Tcp

open Lwip

structure Segment where
  rst : Bool := false
  synAck : Bool := false
  ack : Bool := false
  acksFin : Bool := false
  data : Option Pbuf := none
  fin : Bool := false

/-- The states of the blocks on `tcp_active_pcbs`. -/
def TcpState.active : TcpState → Bool
  | .closed | .listen | .timeWait => false
  | _ => true

namespace World

/-- `TCP_EVENT_RECV`, or `TCP_EVENT_CLOSED` without data. -/
def recvEvent (w : World) (p : Nat) (data : Option Pbuf) (finOk : Bool) : Err × World :=
  let q := w.pcb p
  if q.recv then
    match q.callbackArg with
    | .holder h => w.recvFunc h p data .ok finOk
    | .null | .manager => (.ok, { w with nullArg := true })
  else (.ok, w)

def tcpProcessRefusedData (w : World) (p : Nat) (finOk : Bool) : Err × World :=
  match (w.pcb p).refusedData with
  | none => (.ok, w)
  | some (data, fin) =>
      let w := w.setPcb p { w.pcb p with refusedData := none }
      match w.recvEvent p (some data) finOk with
      | (.ok, w) => if fin then w.recvEvent p none finOk else (.ok, w)
      | (.abrt, w) => (.abrt, w)
      | (_, w) => (.inprogress, w.setPcb p { w.pcb p with refusedData := some (data, fin) })

/-- The data of a segment, if it is not aborted for coming after a close. -/
def deliverData (w : World) (p : Nat) (data : Option Pbuf) (finOk : Bool) : Err × World :=
  match data with
  | none => (.ok, w)
  | some data =>
      if (w.pcb p).rxClosed then (.abrt, w.tcpAbandon p)
      else
        match w.recvEvent p (some data) finOk with
        | (.ok, w) => (.ok, w)
        | (.abrt, w) => (.abrt, w)
        | (_, w) => (.ok, w.setPcb p { w.pcb p with refusedData := some (data, false) })

/-- The FIN of a segment, which waits behind refused data. -/
def deliverFin (w : World) (p : Nat) (finOk : Bool) : World :=
  match (w.pcb p).refusedData with
  | some (data, _) => w.setPcb p { w.pcb p with refusedData := some (data, true) }
  | none => (w.recvEvent p none finOk).2

def deliver (w : World) (p : Nat) (seg : Segment) (finOk : Bool) : World :=
  match w.deliverData p seg.data finOk with
  | (.abrt, w) => w
  | (_, w) => if seg.fin then w.deliverFin p finOk else w

/-- A state change of a connection; entering TIME-WAIT purges the block. -/
def enter (w : World) (p : Nat) (next : TcpState) : World :=
  let q := w.pcb p
  w.setPcb p { q with
    state := next
    refusedData := if next = .timeWait then none else q.refusedData }

/-- The handshake of an incoming connection is complete. -/
def tcpAccept (w : World) (p : Nat) (seg : Segment) (finOk : Bool) : World :=
  let w := w.enter p .established
  match (w.pcb p).listener with
  | none => w.tcpAbandon p
  | some _ =>
      match w.acceptFunc (some p) .ok finOk with
      | (.ok, w) => (if seg.fin then w.enter p .closeWait else w).deliver p seg finOk
      | (.abrt, w) => w
      | (_, w) => w.tcpAbandon p

def tcpConnected (w : World) (p : Nat) (finOk : Bool) : World :=
  let w := w.enter p .established
  match (w.pcb p).callbackArg with
  | .holder h => (w.connectedFunc h p .ok finOk).2
  | .null | .manager => { w with nullArg := true }

/-- The connection is closed on both sides. Only a block whose receive side is open gets a call. -/
def tcpClosed (w : World) (p : Nat) : World :=
  let q := w.pcb p
  (if q.rxClosed then w else w.tcpEventErr q .clsd).tcpFree p

def tcpProcess (w : World) (p : Nat) (seg : Segment) (finOk : Bool) : World :=
  let q := w.pcb p
  if seg.rst then (w.tcpEventErr q .rst).tcpFree p
  else
    match q.state with
    | .synSent => if seg.synAck then w.tcpConnected p finOk else w
    | .synRcvd => if seg.ack then w.tcpAccept p seg finOk else w
    | .established => (if seg.fin then w.enter p .closeWait else w).deliver p seg finOk
    | .finWait1 =>
        let next : TcpState := if seg.fin then if seg.acksFin then .timeWait else .closing
          else if seg.acksFin then .finWait2 else .finWait1
        (w.enter p next).deliver p seg finOk
    | .finWait2 => (if seg.fin then w.enter p .timeWait else w).deliver p seg finOk
    | .closing => if seg.acksFin then w.enter p .timeWait else w
    | .lastAck => if seg.acksFin then w.tcpClosed p else w
    | .closeWait | .closed | .listen | .timeWait => w

def tcpInput (w : World) (p : Nat) (seg : Segment) (finOk : Bool) : World :=
  match w.tcpProcessRefusedData p finOk with
  | (.abrt, w) => w
  | (_, w) =>
      if (w.pcb p).refusedData.isSome ∧ (seg.data.isSome ∨ seg.fin ∨ seg.synAck) then w
      else w.tcpProcess p seg finOk

def tcpHandleClosepend (w : World) (p : Nat) (finOk : Bool) : World :=
  if (w.pcb p).closePend then
    (w.setPcb p { w.pcb p with closePend := false }).tcpCloseShutdownFin p finOk
  else w

def tcpFasttmr (w : World) (p : Nat) (finOk : Bool) : World :=
  ((w.tcpHandleClosepend p finOk).tcpProcessRefusedData p finOk).2

/-- `tcp_slowtmr` gives up on a connection. -/
def tcpTimeout (w : World) (p : Nat) : World :=
  let q := w.pcb p
  (w.tcpFree p).tcpEventErr q .abrt

/-- The next block, at a place that was free. -/
def newBlock (w : World) (place : Nat) (free : List Nat) : World :=
  { w with
    nextPcb := w.nextPcb + 1
    pool := w.nextPcb :: w.pool
    place := Function.update w.place w.nextPcb place
    free := free }

@[simp] theorem newBlock_pcb (w : World) (place : Nat) (free : List Nat) :
    (w.newBlock place free).pcb = w.pcb := rfl

@[simp] theorem newBlock_pool (w : World) (place : Nat) (free : List Nat) :
    (w.newBlock place free).pool = w.nextPcb :: w.pool := rfl

def tcpAlloc (w : World) (q : TcpPcb) : Option (Nat × World) :=
  match w.free with
  | [] => none
  | place :: free => some (w.nextPcb, (w.newBlock place free).setPcb w.nextPcb q)

theorem tcpAlloc_some {w w' : World} {q : TcpPcb} {p : Nat} (room : w.tcpAlloc q = some (p, w')) :
    ∃ place free, w.free = place :: free ∧ p = w.nextPcb ∧ w' = (w.newBlock place free).setPcb w.nextPcb q := by
  rw [tcpAlloc] at room
  split at room
  · cases room
  next place free space =>
    cases room
    exact ⟨place, free, space, rfl, rfl⟩

/-- A SYN for a listening block. Without a block the accept function gets none either. -/
def tcpListenInput (w : World) (l : Nat) : World :=
  let lpcb := w.pcb l
  match w.tcpAlloc { state := .synRcvd, localPort := lpcb.localPort, callbackArg := lpcb.callbackArg,
                     listener := some l } with
  | none => (w.acceptFunc none .mem true).2
  | some (_, w) => w

end World

/-- `abandon` is a connection aborted because the address changed. `closepend` and `kill` are what
`tcp_alloc` tries when there is no block left; all connections have the same priority, so it does not
give up an open one. -/
inductive LwipEvent where
  | input (p : Nat) (seg : Segment) (finOk : Bool)
  | fasttmr (p : Nat) (finOk : Bool)
  | timeout (p : Nat)
  | expire (p : Nat)
  | abandon (p : Nat)
  | closepend (p : Nat) (finOk : Bool)
  | kill (p : Nat)
  | syn (l : Nat)

/-- The states of the blocks that `tcp_kill_timewait` and `tcp_kill_state` look for. -/
def TcpState.expendable : TcpState → Bool
  | .timeWait | .lastAck | .closing => true
  | _ => false

/-- What can happen inside `tcp_alloc`. -/
def LwipEvent.inAlloc : LwipEvent → Bool
  | .closepend _ _ | .kill _ => true
  | _ => false

namespace World

/-- An event for a block that is not there, or not in the right state, does not happen. -/
def lwip (w : World) : LwipEvent → World
  | .input p seg finOk =>
      if p ∈ w.pool ∧ (w.pcb p).state.active then w.tcpInput p seg finOk else w
  | .fasttmr p finOk => if p ∈ w.pool ∧ (w.pcb p).state.active then w.tcpFasttmr p finOk else w
  | .timeout p => if p ∈ w.pool ∧ (w.pcb p).state.active then w.tcpTimeout p else w
  | .expire p => if p ∈ w.pool ∧ (w.pcb p).state = .timeWait then w.tcpFree p else w
  | .abandon p => if p ∈ w.pool ∧ (w.pcb p).state.active then w.tcpAbandon p else w
  | .closepend p finOk =>
      if p ∈ w.pool ∧ (w.pcb p).state.active ∧ w.pool.length = mempNumTcpPcb then
        w.tcpHandleClosepend p finOk
      else w
  | .kill p =>
      if p ∈ w.pool ∧ (w.pcb p).state.expendable ∧ w.pool.length = mempNumTcpPcb then w.tcpAbandon p
      else w
  | .syn l => if l ∈ w.listenPool then w.tcpListenInput l else w

def loop (events : List LwipEvent) (w : World) : World := events.foldl lwip w

section Cases

variable (w : World) (p : Nat) (finOk : Bool)

theorem tcpProcessRefusedData_cases :
    (w.tcpProcessRefusedData p finOk).2 = w ∨
      ∃ data fin, (w.pcb p).refusedData = some (data, fin) ∧
        ∃ offered, offered = ((w.setPcb p { w.pcb p with refusedData := none }).recvEvent p (some data)
            finOk).2 ∧
          ((w.tcpProcessRefusedData p finOk).2 = offered ∨
            (w.tcpProcessRefusedData p finOk).2 = (offered.recvEvent p none finOk).2 ∨
            (w.tcpProcessRefusedData p finOk).2 =
              offered.setPcb p { offered.pcb p with refusedData := some (data, fin) }) := by
  rw [tcpProcessRefusedData]
  split
  · exact .inl rfl
  next data fin refused =>
    refine .inr ⟨data, fin, refused, _, rfl, ?_⟩
    dsimp only
    split
    next w' result =>
      rw [result]
      cases fin with
      | false => exact .inl rfl
      | true => exact .inr (.inl rfl)
    next w' result =>
      rw [result]
      exact .inl rfl
    next w' _ _ result =>
      rw [result]
      exact .inr (.inr rfl)

theorem deliverData_cases (data : Option Pbuf) :
    (w.deliverData p data finOk).2 = w ∨
      ∃ bytes, data = some bytes ∧
        ((w.pcb p).rxClosed = true ∧ (w.deliverData p data finOk).2 = w.tcpAbandon p ∨
          ∃ offered, offered = (w.recvEvent p (some bytes) finOk).2 ∧
            ((w.deliverData p data finOk).2 = offered ∨
              (w.deliverData p data finOk).2 =
                offered.setPcb p { offered.pcb p with refusedData := some (bytes, false) })) := by
  cases data with
  | none => exact .inl rfl
  | some bytes =>
      refine .inr ⟨bytes, rfl, ?_⟩
      rw [deliverData]
      split
      next closed => exact .inl ⟨closed, rfl⟩
      next =>
        refine .inr ⟨_, rfl, ?_⟩
        split
        next w' result =>
          rw [result]
          exact .inl rfl
        next w' result =>
          rw [result]
          exact .inl rfl
        next w' _ _ result =>
          rw [result]
          exact .inr rfl

theorem deliver_cases (seg : Segment) :
    ∃ brought, brought = (w.deliverData p seg.data finOk).2 ∧
      (w.deliver p seg finOk = brought ∨ w.deliver p seg finOk = brought.deliverFin p finOk) := by
  refine ⟨_, rfl, ?_⟩
  rw [deliver]
  split
  next w' result =>
    rw [result]
    exact .inl rfl
  next w' _ result =>
    rw [result]
    split
    · exact .inr rfl
    · exact .inl rfl

theorem tcpInput_cases (seg : Segment) :
    ∃ offered, offered = (w.tcpProcessRefusedData p finOk).2 ∧
      (w.tcpInput p seg finOk = offered ∨
        w.tcpInput p seg finOk = offered.tcpProcess p seg finOk ∧
          (seg.data.isSome → (offered.pcb p).refusedData = none)) := by
  refine ⟨_, rfl, ?_⟩
  rw [tcpInput]
  split
  next w' result =>
    rw [result]
    exact .inl rfl
  next w' _ result =>
    rw [result]
    split
    · exact .inl rfl
    next taken =>
      refine .inr ⟨rfl, fun data => ?_⟩
      exact Option.not_isSome_iff_eq_none.mp fun left => taken ⟨left, .inl data⟩

end Cases

end World
end QNEthernet.Tcp
