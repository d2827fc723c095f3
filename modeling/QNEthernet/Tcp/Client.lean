import QNEthernet.Tcp.Manager

/-! `QNEthernetClient.cpp`. A call that waits takes the clock readings it gets; when they end before
it does, it is still waiting and its result is `none`. -/

namespace QNEthernet.Tcp

open Lwip

def World.dropConn (w : World) (c : Nat) : World := w.setClient c { w.client c with conn := none }

namespace EthernetClient

def watchPendingConnect (c h : Nat) (w : World) : TcpCall Bool :=
  match (w.holder h).state with
  | none => .done false (w.dropConn c)
  | some _ =>
      Ethernet.loop (w.setClient c { w.client c with pendingConnect := !(w.holder h).connected })
        (.done true)

def connecting (c : Nat) (w : World) : TcpCall Bool :=
  match (w.client c).conn with
  | none => .done false w
  | some h =>
      if !(w.client c).pendingConnect then .done false w
      else (watchPendingConnect c h w).bind fun ok w => .done (ok && !(w.holder h).connected) w

def connected (c : Nat) (w : World) : TcpCall Bool :=
  match (w.client c).conn with
  | none => .done false w
  | some h =>
      if (w.client c).pendingConnect then
        (watchPendingConnect c h w).bind fun ok w => .done (ok && (w.holder h).connected) w
      else if !(w.holder h).connected && (w.holder h).remaining.isEmpty then
        .done false (w.dropConn c)
      else Ethernet.loop w (.done true)

def operatorBool (c : Nat) (w : World) : TcpCall Bool :=
  match (w.client c).conn with
  | none => .done false w
  | some h =>
      if (w.client c).pendingConnect then
        (watchPendingConnect c h w).bind fun ok w => .done (ok && (w.holder h).connected) w
      else if !(w.holder h).connected then
        .done false (if (w.holder h).remaining.isEmpty then w.dropConn c else w)
      else Ethernet.loop w (.done true)

/-- The connection is there and its `connected` flag is as given. -/
def connIs (w : World) (c : Nat) (flag : Bool) : Bool :=
  match (w.client c).conn with
  | none => false
  | some h => (w.holder h).connected == flag

def closeWait (c : Nat) (t : UInt32) : List UInt32 → World → TcpCall (Option Unit)
  | [], w => if connIs w c true then .done none w else .done (some ()) (w.dropConn c)
  | now :: clock, w =>
      if connIs w c true ∧ ¬ (w.client c).connTimeout ≤ now - t then
        Ethernet.loop w (closeWait c t clock)
      else .done (some ()) (w.dropConn c)

/-- The rest of `close`, where the state is checked again. -/
def closeState (c h : Nat) (wait : Bool) (clock : List UInt32) (w : World) :
    TcpCall (Option Unit) :=
  match (w.holder h).state with
  | none => .done (some ()) (w.dropConn c)
  | some state =>
      altcpCloseOrAbort state.pcb w fun err w =>
        if err = .ok ∧ wait then
          match clock with
          | [] => .done none w
          | t :: clock => closeWait c t clock w
        else .done (some ()) (w.dropConn c)

def close (c : Nat) (wait : Bool) (clock : List UInt32) (w : World) : TcpCall (Option Unit) :=
  match (w.client c).conn with
  | none => .done (some ()) w
  | some h =>
      match (w.holder h).state with
      | none => .done (some ()) (w.dropConn c)
      | some state =>
          if !(w.client c).pendingConnect then
            if (w.holder h).connected then
              -- First try to flush any data
              Ethernet.loop (w.touch state.pcb) (closeState c h wait clock)
            else .done (some ()) (w.dropConn c)
          else if !(w.holder h).connected then
            altcpCloseOrAbort state.pcb w fun _ w => .done (some ()) ((w.destroyState h).dropConn c)
          else closeState c h wait clock w

def stop (c : Nat) (clock : List UInt32) (w : World) : TcpCall (Option Unit) :=
  close c (w.client c).connTimeoutEnabled clock w

/-- What follows the wait for a connection. -/
def connectDone (c : Nat) (w : World) : TcpCall (Option Bool) :=
  if connIs w c true then .done (some true) w
  else (close c false [] w).bind fun _ w => .done (some false) w

def connectWait (c : Nat) (t : UInt32) : List UInt32 → World → TcpCall (Option Bool)
  | [], w => if connIs w c false then .done none w else connectDone c w
  | now :: clock, w =>
      if connIs w c false ∧ ¬ (w.client c).connTimeout ≤ now - t then
        Ethernet.loop w (connectWait c t clock)
      else connectDone c w

def connect (c : Nat) (ipaddr : Option UInt32) (attempt : Attempt) (wait : Bool)
    (clock : List UInt32) (w : World) : TcpCall (Option Bool) :=
  -- First close any existing connection (without waiting)
  (close c false [] w).bind fun _ w =>
    (ConnectionManager.connect ipaddr attempt w).bind fun conn w =>
      let w := w.setClient c { w.client c with conn := conn }
      match conn with
      | none => .done (some false) w
      | some _ =>
          let w := w.setClient c { w.client c with pendingConnect := !wait }
          if wait then
            match clock with
            | [] => .done none w
            | t :: clock => connectWait c t clock w
          else .done (some true) w

/-- The state of a connection that `operator bool` reports as there. -/
def openState (c : Nat) (ok : Bool) (w : World) : Option (Nat × ConnectionState) :=
  if ok then
    (w.client c).conn.bind fun h => (w.holder h).state.map fun state => (h, state)
  else none

def closeOutput (c : Nat) (finOk : Bool) (w : World) : TcpCall Unit :=
  (operatorBool c w).bind fun ok w =>
    match openState c ok w with
    | none => .done () w
    | some (h, state) =>
        -- First try to flush any data
        Ethernet.loop (w.touch state.pcb) fun w =>
          match (w.holder h).state with
          | none => .done () w
          | some state => .done () (w.altcpShutdownTx state.pcb finOk)

def abort (c : Nat) (w : World) : TcpCall Unit :=
  match (w.client c).conn with
  | none => .done () w
  | some h =>
      match (w.holder h).state with
      | none => .done () (w.dropConn c)
      | some state => altcpAbort state.pcb w fun w => .done () (w.dropConn c)

def localPort (c : Nat) (w : World) : TcpCall UInt16 :=
  (operatorBool c w).bind fun ok w =>
    match openState c ok w with
    | none => .done 0 w
    | some (_, state) =>
        let (port, w) := w.getLocalPort state.pcb
        .done port w

/-- `sndBufSize` and `sndBufSize'` are the room before and after a flush, `err` is what `altcp_write`
answers. -/
def write (c size sndBufSize sndBufSize' : Nat) (err : Err) (w : World) : TcpCall Nat :=
  (operatorBool c w).bind fun ok w =>
    match openState c ok w with
    | none => .done 0 w
    | some (h, state) =>
        if size = 0 then Ethernet.loop w (.done 0)
        else if sndBufSize = 0 then
          Ethernet.loop (w.touch state.pcb) fun w =>
            match (w.holder h).state with
            | none => .done 0 w
            | some state =>
                Ethernet.loop (w.touch state.pcb)
                  (.done (if err = .ok then min size sndBufSize' else 0))
        else
          Ethernet.loop (w.touch state.pcb) (.done (if err = .ok then min size sndBufSize else 0))

def availableForWrite (c sndBufSize : Nat) (w : World) : TcpCall Nat :=
  (operatorBool c w).bind fun ok w =>
    match openState c ok w with
    | none => .done 0 w
    | some (h, state) =>
        Ethernet.loop (w.touch state.pcb) fun w =>
          match (w.holder h).state with
          | none => .done 0 w
          | some state => .done sndBufSize (w.touch state.pcb)

def flush (c : Nat) (w : World) : TcpCall Unit :=
  (operatorBool c w).bind fun ok w =>
    match openState c ok w with
    | none => .done () w
    | some (_, state) => Ethernet.loop (w.touch state.pcb) (.done ())

/-- The status and the socket options: each uses the block once, without `Ethernet.loop()`. -/
def useState (c : Nat) (w : World) : TcpCall Unit :=
  match (w.client c).conn.bind fun h => (w.holder h).state with
  | none => .done () w
  | some state => .done () (w.touch state.pcb)

def checkState (c : Nat) (w : World) : TcpCall (Option Nat) :=
  match (w.client c).conn with
  | none => .done none w
  | some h =>
      -- For non-blocking connect
      if (w.client c).pendingConnect then
        (watchPendingConnect c h w).bind fun _ w => .done none w
      else .done (some h) w

/-- Whether there is a state to look at; it may be gone again after the loop. -/
def getStateAndLoopOrClose (c h : Nat) (w : World) : TcpCall Bool :=
  if !(w.holder h).connected then .done false (w.dropConn c)
  else
    match (w.holder h).state with
    | none => .done false w
    | some _ => Ethernet.loop w (.done true)

/-- A receive function: `missing` without a connection, `fromRemaining` when data remained after a
close, `fromState` for the state after its loop. -/
def receive {α : Type} (c : Nat) (missing : α) (fromRemaining : Nat → World → α × World)
    (fromState : Nat → ConnectionState → World → α × World) (w : World) : TcpCall α :=
  (checkState c w).bind fun conn w =>
    match conn with
    | none => .done missing w
    | some h =>
        if !(w.holder h).remaining.isEmpty then
          let (value, w) := fromRemaining h w
          .done value w
        else
          (getStateAndLoopOrClose c h w).bind fun ok w =>
            match if ok then (w.holder h).state else none with
            | none => .done missing w
            | some state =>
                -- NOTE: loop() requires a re-check of the state
                if !state.isAvailable then .done missing w
                else
                  let (value, w) := fromState h state w
                  .done value w

end EthernetClient

namespace World

/-- Takes `n` bytes of the remaining data, which is reset at its end. -/
def takeRemaining (w : World) (h n : Nat) : World :=
  let holder := w.holder h
  let bytes := (holder.remaining.drop holder.remainingPos).take n
  let w := w.emit (.consumed h bytes)
  if holder.remaining.length ≤ holder.remainingPos + n then
    w.setHolder h { holder with remaining := [], remainingPos := 0 }
  else w.setHolder h { holder with remainingPos := holder.remainingPos + n }

/-- Takes `n` bytes of the buffered data. -/
def takeBuffered (w : World) (h : Nat) (state : ConnectionState) (n : Nat) : World :=
  (w.emit (.consumed h ((state.buf.drop state.bufPos).take n))).setHolder h
    { w.holder h with state := some { state with bufPos := state.bufPos + n } }

end World

namespace EthernetClient

def available (c : Nat) : World → TcpCall Nat :=
  receive c 0
    (fun h w => ((w.holder h).remaining.length - (w.holder h).remainingPos, w))
    (fun _ state w => (state.buf.length - state.bufPos, w))

/-- Without a byte the result is -1. -/
def read (c : Nat) : World → TcpCall (Option Byte) :=
  receive c none
    (fun h w => ((w.holder h).remaining[(w.holder h).remainingPos]?, w.takeRemaining h 1))
    (fun h state w => (state.buf[state.bufPos]?, w.takeBuffered h state 1))

/-- The result and the bytes copied to `buf`, none if it is `NULL`. -/
def readBuf (c : Nat) (buf : Bool) (size : Nat) : World → TcpCall (Nat × List Byte) :=
  receive c (0, [])
    (fun h w =>
      let holder := w.holder h
      if size = 0 then ((0, []), w)
      else
        let actualSize := min size (holder.remaining.length - holder.remainingPos)
        ((actualSize, if buf then (holder.remaining.drop holder.remainingPos).take actualSize else []),
          w.takeRemaining h actualSize))
    (fun h state w =>
      if size = 0 then ((0, []), w)
      else
        let actualSize := min size (state.buf.length - state.bufPos)
        ((actualSize, if buf then (state.buf.drop state.bufPos).take actualSize else []),
          w.takeBuffered h state actualSize))

def peek (c : Nat) : World → TcpCall (Option Byte) :=
  receive c none
    (fun h w => ((w.holder h).remaining[(w.holder h).remainingPos]?, w))
    (fun _ state w => (state.buf[state.bufPos]?, w))

end EthernetClient
end QNEthernet.Tcp
