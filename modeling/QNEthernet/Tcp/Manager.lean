import QNEthernet.Lib.Call
import QNEthernet.Tcp.Lwip

/-! The operations of `internal/ConnectionManager.cpp`. An operation stops at each call into lwIP that
may call back or give up a block: `Ethernet.loop()`, `tcp_alloc`, `altcp_close` and `altcp_abort`. -/

namespace QNEthernet.Tcp

open Lwip

inductive Request where
  | loop
  | alloc
  | close (p : Nat)
  | abort (p : Nat)

/-- What lwIP does when it is called: the events it handles, and whether it can send a FIN. -/
structure Turn where
  events : List LwipEvent := []
  finOk : Bool := true

instance : Inhabited Turn := ⟨{}⟩

def World.answer : Request → Turn → World → Err × World
  | .loop, turn, w => (.ok, w.loop turn.events)
  | .alloc, turn, w => (.ok, w.loop (turn.events.filter LwipEvent.inAlloc))
  | .close p, turn, w => w.altcpClose p turn.finOk
  | .abort p, _, w => (.ok, w.altcpAbort p)

abbrev TcpCall (α : Type) := Call World Request Err α

def Ethernet.loop {α : Type} (w : World) (next : World → TcpCall α) : TcpCall α :=
  .request .loop w fun _ w => next w

def altcpAbort {α : Type} (p : Nat) (w : World) (next : World → TcpCall α) : TcpCall α :=
  .request (.abort p) w fun _ w => next w

/-- `altcp_close`, and `altcp_abort` should it fail. -/
def altcpCloseOrAbort {α : Type} (p : Nat) (w : World) (next : Err → World → TcpCall α) :
    TcpCall α :=
  .request (.close p) w fun err w =>
    if err ≠ .ok then altcpAbort p w (next err) else next err w

/-- What lwIP answers when a block is bound, connected or made to listen. -/
structure Attempt where
  bindErr : Err := .ok
  localPort : UInt16 := 49152
  err : Err := .ok

namespace World

def getLocalPort (w : World) (p : Nat) : UInt16 × World := ((w.pcb p).localPort, w.touch p)

/-- `std::find_if` with a predicate that may use a block. -/
def findIf (pred : Nat → World → Bool × World) : List Nat → World → Option Nat × World
  | [], w => (none, w)
  | x :: xs, w =>
      match pred x w with
      | (true, w) => (some x, w)
      | (false, w) => findIf pred xs w

theorem findIf_eq {pred : Nat → World → Bool × World} {w : World} {p : Nat → Bool}
    (looks : ∀ x misuse, ∃ misuse',
      pred x { w with misuse := misuse } = (p x, { w with misuse := misuse' })) (xs : List Nat) :
    ∀ misuse, ∃ misuse',
      findIf pred xs { w with misuse := misuse } = (xs.find? p, { w with misuse := misuse' }) := by
  induction xs with
  | nil => exact fun misuse => ⟨misuse, rfl⟩
  | cons x xs ih =>
      intro misuse
      rcases looks x misuse with ⟨used, looked⟩
      cases here : p x with
      | true => exact ⟨used, by simp [findIf, looked, here]⟩
      | false =>
          rcases ih used with ⟨misuse', rest⟩
          exact ⟨misuse', by simp [findIf, looked, here, rest]⟩

def findUnacknowledged (w : World) (port : UInt16) : Option Nat × World :=
  findIf (fun h w =>
    match (w.holder h).state with
    | none => (false, w)
    | some state =>
        if (w.holder h).accepted then (false, w)
        else
          let (localPort, w) := w.getLocalPort state.pcb
          (localPort == port, w)) w.connections w

def findAvailable (w : World) (port : UInt16) : Option Nat × World :=
  findIf (fun h w =>
    match (w.holder h).state with
    | none => (false, w)
    | some state =>
        let (localPort, w) := w.getLocalPort state.pcb
        (localPort == port && state.isAvailable, w)) w.connections w

def findListener (w : World) (port : UInt16) : Option Nat × World :=
  findIf (fun p w =>
    let (localPort, w) := w.getLocalPort p
    (localPort == port, w)) w.listeners w

/-- The copies that `iterateConnections` and `iterateListeners` go through. -/
def connSnapshot (w : World) : List Nat :=
  (w.connections.filterMap fun h => (w.holder h).state.map (·.pcb)).take (mempNumTcpPcb * 3 / 2)

def lstnSnapshot (w : World) : List Nat := w.listeners.take (mempNumTcpPcbListen * 3 / 2)

/-- `tcp_listen_with_backlog_and_err`: a block of the other pool takes the place of a bound one. -/
def tcpListen (w : World) (p : Nat) : Option (Nat × World) :=
  if w.listenPool.length < mempNumTcpPcbListen then
    let l := w.nextPcb
    let w := { w with nextPcb := l + 1, listenPool := l :: w.listenPool }.setPcb l
      { state := .listen, localPort := (w.pcb p).localPort, callbackArg := (w.pcb p).callbackArg }
    some (l, w.tcpFree p)
  else none

theorem tcpListen_some {w w' : World} {p l : Nat} (room : w.tcpListen p = some (l, w')) :
    w.listenPool.length < mempNumTcpPcbListen ∧ l = w.nextPcb ∧
      w' = ({ w with nextPcb := w.nextPcb + 1, listenPool := w.nextPcb :: w.listenPool }.setPcb w.nextPcb
        { state := .listen, localPort := (w.pcb p).localPort, callbackArg := (w.pcb p).callbackArg }).tcpFree p := by
  rw [tcpListen] at room
  split at room
  next space =>
    cases room
    exact ⟨space, rfl, rfl⟩
  · cases room

end World

namespace ConnectionManager

def createAltcpPcb {α : Type} (w : World) (next : Option Nat → World → TcpCall α) : TcpCall α :=
  .request .alloc w fun _ w =>
    match w.tcpAlloc {} with
    | none => next none w
    | some (p, w) => next (some p) w

def connect (ipaddr : Option UInt32) (attempt : Attempt) (w : World) : TcpCall (Option Nat) :=
  match ipaddr with
  | none => Ethernet.loop w (.done none)
  | some _ =>
      createAltcpPcb w fun pcb w =>
        match pcb with
        | none => Ethernet.loop w (.done none)
        | some p =>
            -- Try to bind
            let w := w.touch p
            if attempt.bindErr ≠ .ok then altcpAbort p w fun w => Ethernet.loop w (.done none)
            else
              let w := w.setPcb p { w.pcb p with localPort := attempt.localPort }
              -- Connect listeners
              match w.makeHolder p { accepted := true } with
              | (h, w) =>
                  -- Try to connect
                  let w := w.touch p
                  if attempt.err ≠ .ok then altcpAbort p w fun w => Ethernet.loop w (.done none)
                  else
                    .done (some h) ((w.setPcb p { w.pcb p with state := .synSent }).addConnection h)

/-- The reuse option only matters to what lwIP answers. -/
def listen (port : UInt16) (attempt : Attempt) (w : World) : TcpCall (Option UInt16) :=
  createAltcpPcb w fun pcb w =>
    match pcb with
    | none => Ethernet.loop w (.done none)
    | some p =>
        -- Try to bind
        let w := w.touch p
        if attempt.bindErr ≠ .ok then altcpAbort p w fun w => Ethernet.loop w (.done none)
        else
          let w := w.setPcb p
            { w.pcb p with localPort := if port = 0 then attempt.localPort else port }
          -- Try to listen
          let w := w.touch p
          match if attempt.err = .ok then w.tcpListen p else none with
          | none => altcpAbort p w fun w => Ethernet.loop w (.done none)
          | some (l, w) =>
              -- Finally, accept connections
              let w := { w with listeners := w.listeners ++ [l] }.altcpArg l .manager
              let (actualPort, w) := if port = 0 then w.getLocalPort l else (port, w)
              .done (some actualPort) w

def stopListening (port : UInt16) (w : World) : TcpCall Bool :=
  match w.findListener port with
  | (none, w) => .done false w
  | (some l, w) =>
      altcpCloseOrAbort l { w with listeners := w.listeners.erase l } fun _ w => .done true w

def iterate (f : Nat → World → TcpCall Unit) : List Nat → World → TcpCall Unit
  | [], w => .done () w
  | p :: ps, w => (f p w).bind fun _ w => iterate f ps w

def iterateConnections (f : Nat → World → TcpCall Unit) (w : World) : TcpCall Unit :=
  iterate f w.connSnapshot w

def iterateListeners (f : Nat → World → TcpCall Unit) (w : World) : TcpCall Unit :=
  iterate f w.lstnSnapshot w

def abortAll (w : World) : TcpCall Unit :=
  iterateConnections (fun p w => altcpAbort p w (.done ())) w

/-- Uses each block of a port, to write to it, flush it or ask for its buffer space. -/
def useConnections (port : UInt16) (w : World) : TcpCall Unit :=
  iterateConnections (fun p w =>
    let (localPort, w) := w.getLocalPort p
    .done () (if localPort ≠ port then w else w.touch p)) w

def write (port : UInt16) (len : Nat) (w : World) : TcpCall Nat :=
  (useConnections port w).bind fun _ w => Ethernet.loop w (.done (min len 65535))

def flush (port : UInt16) (w : World) : TcpCall Unit :=
  (useConnections port w).bind fun _ w => Ethernet.loop w (.done ())

end ConnectionManager
end QNEthernet.Tcp
