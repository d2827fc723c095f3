import QNEthernet.Tcp.World

/-! The connection callbacks of `internal/ConnectionManager.cpp`, with the parts of lwIP's `tcp.c` that
they call. `LWIP_ALTCP` is off, so the altcp functions are the tcp ones. `finOk` says whether lwIP
finds memory for a FIN segment. -/

namespace QNEthernet.Tcp

open Lwip

/-- Check if there's data available in the buffer. -/
def ConnectionState.isAvailable (state : ConnectionState) : Bool :=
  decide (state.bufPos < state.buf.length)

/-- Takes over the unread data of a state that is about to go. -/
def ConnectionHolder.maybeCopyRemaining (holder : ConnectionHolder) (state : ConnectionState) :
    ConnectionHolder :=
  { holder with
    remaining := if state.isAvailable then state.buf.drop state.bufPos else []
    remainingPos := 0 }

/-- Stores a chain if there is room for it, moving the unread data to the top if it has to. -/
def ConnectionState.store (state : ConnectionState) (p : Pbuf) : Option ConnectionState :=
  let rem := state.capacity - state.buf.length + state.bufPos
  if rem < p.totLen then none
  else
    let state := if state.capacity - state.buf.length < p.totLen then
      { state with buf := state.buf.drop state.bufPos, bufPos := 0 } else state
    some { state with buf := insertLinks state.buf p.links }

namespace World

def altcpArg (w : World) (p : Nat) (arg : CallbackArg) : World :=
  let w := w.touch p
  w.setPcb p { w.pcb p with callbackArg := arg }

/-- `holder->state = nullptr`: the destructor detaches the block, then removes the connection. -/
def destroyState (w : World) (h : Nat) : World :=
  match (w.holder h).state with
  | none => w
  | some state =>
      let w := w.setHolder h { w.holder h with state := none }
      let w := w.altcpArg state.pcb .null
      if state.removeFunc then { w with connections := w.connections.erase h } else w

def errFunc (w : World) (arg : CallbackArg) (err : Err) : World :=
  match arg with
  | .null | .manager => w
  | .holder h =>
      let holder : ConnectionHolder :=
        { w.holder h with lastError := err, connected := decide (err = .ok) }
      match holder.state with
      | some state =>
          if err ≠ .ok then
            (w.setHolder h (holder.maybeCopyRemaining state)).destroyState h
          else w.setHolder h holder
      | none => w.setHolder h holder

def tcpFree (w : World) (p : Nat) : World :=
  { w with pool := w.pool.erase p, free := if p ∈ w.pool then w.place p :: w.free else w.free }

/-- `TCP_EVENT_ERR` for a block that was read before it was released. -/
def tcpEventErr (w : World) (q : TcpPcb) (err : Err) : World :=
  if q.errf then w.errFunc q.callbackArg err else w

/-- `tcp_abandon`, which `tcp_abort` is: the block is released before the callback is called. -/
def tcpAbandon (w : World) (p : Nat) : World :=
  let q := w.pcb p
  if q.state = .timeWait then w.tcpFree p
  else (w.tcpFree p).tcpEventErr q .abrt

def altcpAbort (w : World) (p : Nat) : World := (w.touch p).tcpAbandon p

/-- `tcp_close_shutdown_fin`: sends a FIN, or marks the block to have it sent later. -/
def tcpCloseShutdownFin (w : World) (p : Nat) (finOk : Bool) : World :=
  let q := w.pcb p
  match q.state with
  | .synRcvd | .established =>
      if finOk then w.setPcb p { q with state := .finWait1 }
      else w.setPcb p { q with closePend := true }
  | .closeWait =>
      if finOk then w.setPcb p { q with state := .lastAck }
      else w.setPcb p { q with closePend := true }
  | _ => w

/-- Releases a listening block; connections being set up forget about it. -/
def tcpListenClosed (w : World) (p : Nat) : World :=
  { w with
    pcb := fun p' =>
      if (w.pcb p').listener = some p then { w.pcb p' with listener := none } else w.pcb p'
    listenPool := w.listenPool.erase p }

/-- Everything a callback accepts is acknowledged at once, so the window is smaller than its maximum
exactly while there is refused data. -/
def tcpCloseShutdown (w : World) (p : Nat) (rstOnUnackedData finOk : Bool) : World :=
  let q := w.pcb p
  if rstOnUnackedData ∧ (q.state = .established ∨ q.state = .closeWait) ∧ q.refusedData.isSome then
    (w.setPcb p { q with refusedData := none }).tcpFree p
  else
    match q.state with
    | .closed | .synSent => w.tcpFree p
    | .listen => w.tcpListenClosed p
    | _ => w.tcpCloseShutdownFin p finOk

/-- `tcp_close`, which reports success for every valid block. -/
def altcpClose (w : World) (p : Nat) (finOk : Bool) : Err × World :=
  let w := w.touch p
  let q := w.pcb p
  let w := if q.state ≠ .listen then w.setPcb p { q with rxClosed := true } else w
  (.ok, w.tcpCloseShutdown p true finOk)

def altcpShutdownTx (w : World) (p : Nat) (finOk : Bool) : World :=
  let w := w.touch p
  match (w.pcb p).state with
  | .synRcvd | .established | .closeWait => w.tcpCloseShutdown p false finOk
  | _ => w

/-- The close that a callback ends with: it has to abort if closing fails. -/
def closeOrAbort (w : World) (p : Nat) (finOk : Bool) : Err × World :=
  match w.altcpClose p finOk with
  | (.ok, w) => (.ok, w)
  | (_, w) => (.abrt, w.altcpAbort p)

def connectedFunc (w : World) (h tpcb : Nat) (err : Err) (finOk : Bool) : Err × World :=
  let w := w.setHolder h { w.holder h with lastError := err, connected := decide (err = .ok) }
  if err ≠ .ok then
    let w := w.destroyState h
    if err ≠ .clsd then w.closeOrAbort tpcb finOk else (.ok, w)
  else (.ok, w)

/-- The data that `recvFunc` keeps when the connection ends. -/
def keepRemaining (w : World) (h : Nat) (p : Option Pbuf) (err : Err) : World :=
  let holder : ConnectionHolder := { w.holder h with lastError := err, connected := false }
  match holder.state with
  | none => w.setHolder h holder
  | some state =>
      let holder := holder.maybeCopyRemaining state
      match p with
      | none => w.setHolder h holder
      | some p =>
          (w.setHolder h { holder with remaining := insertLinks holder.remaining p.links }).emit
            (.stored h p.bytes)

/-- The part of `recvFunc` for errors and closed connections. -/
def recvClosed (w : World) (h tpcb : Nat) (p : Option Pbuf) (err : Err) (finOk : Bool) : Err × World :=
  let w := w.keepRemaining h p err
  let w := if p.isSome then w.touch tpcb else w
  let w := w.destroyState h
  if err ≠ .clsd then w.closeOrAbort tpcb finOk else (.ok, w)

def recvFunc (w : World) (h tpcb : Nat) (p : Option Pbuf) (err : Err) (finOk : Bool) : Err × World :=
  match p with
  | none => w.recvClosed h tpcb none err finOk
  | some p =>
      if err ≠ .ok then w.recvClosed h tpcb (some p) err finOk
      else
        let holder : ConnectionHolder := { w.holder h with lastError := err, connected := true }
        match holder.state with
        | none => (.ok, (w.setHolder h holder).touch tpcb)
        | some state =>
            match state.store p with
            | none => (.mem, w.setHolder h holder)
            | some state =>
                (.ok, ((w.setHolder h { holder with state := some state }).emit
                  (.stored h p.bytes)).touch tpcb)

def altcpErr (w : World) (p : Nat) : World :=
  let w := w.touch p
  w.setPcb p { w.pcb p with errf := true }

def altcpRecv (w : World) (p : Nat) : World :=
  let w := w.touch p
  w.setPcb p { w.pcb p with recv := true }

/-- A holder with a state for the block, registered with it: the constructor of `ConnectionState`
sets the callback argument. -/
def makeHolder (w : World) (p : Nat) (holder : ConnectionHolder) : Nat × World :=
  let h := w.nextHolder
  let w := { w with nextHolder := h + 1 }.setHolder h { holder with state := some { pcb := p, capacity := tcpWnd w.mtu } }
  (h, ((w.altcpArg p (.holder h)).altcpErr p).altcpRecv p)

def addConnection (w : World) (h : Nat) : World :=
  let holder := w.holder h
  { w with connections := w.connections ++ [h] }.setHolder h
    { holder with
      state := holder.state.map fun state : ConnectionState => { state with removeFunc := true } }

def acceptFunc (w : World) (newpcb : Option Nat) (err : Err) (finOk : Bool) : Err × World :=
  match newpcb with
  | none => (.arg, w)
  | some newpcb =>
      if err ≠ .ok then
        if err ≠ .clsd then w.closeOrAbort newpcb finOk else (.ok, w)
      else
        match w.makeHolder newpcb { lastError := err, connected := true, accepted := false } with
        | (h, w) => (.ok, (w.addConnection h).emit (.arrived h (w.pcb newpcb).localPort))

theorem acceptFunc_ok (w : World) (p : Nat) (finOk : Bool) : (w.acceptFunc (some p) .ok finOk).1 = .ok := rfl

end World
end QNEthernet.Tcp
