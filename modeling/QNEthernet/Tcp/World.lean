import QNEthernet.Lwip.Pbuf
import Mathlib.Logic.Function.Basic

/-! The TCP side: lwIP's control blocks, the connections kept in `internal/ConnectionManager.h`, and
the `EthernetClient` and `EthernetServer` objects. Blocks, holders and objects are numbered. -/

namespace QNEthernet.Tcp

open Lwip

def mempNumTcpPcb : Nat := 8
def mempNumTcpPcbListen : Nat := 8
def tcpMss (mtu : Nat) : Nat := mtu - 40
def tcpWnd (mtu : Nat) : Nat := 4 * tcpMss mtu

inductive TcpState where
  | closed | listen | synSent | synRcvd | established | finWait1 | finWait2 | closeWait
  | closing | lastAck | timeWait
  deriving DecidableEq, Repr

/-- What `callback_arg` points to. -/
inductive CallbackArg where
  | null
  | manager
  | holder (h : Nat)
  deriving DecidableEq, Repr

/-- The fields of `struct tcp_pcb` that decide which callbacks are called. `errf` and `recv` say
whether the manager's functions are registered; refused data carries its FIN flag. -/
structure TcpPcb where
  state : TcpState := .closed
  localPort : UInt16 := 0
  callbackArg : CallbackArg := .null
  errf : Bool := false
  recv : Bool := false
  refusedData : Option (Pbuf × Bool) := none
  rxClosed : Bool := false
  closePend : Bool := false
  listener : Option Nat := none
  deriving DecidableEq

/-- `ConnectionState.h`. `removeFunc` says whether the connection is on the manager's list. -/
structure ConnectionState where
  pcb : Nat
  capacity : Nat
  buf : List Byte := []
  bufPos : Nat := 0
  removeFunc : Bool := false
  deriving DecidableEq

structure ConnectionHolder where
  lastError : Err := .ok
  connected : Bool := false
  state : Option ConnectionState := none
  accepted : Bool := false
  remainingPos : Nat := 0
  remaining : List Byte := []
  deriving DecidableEq

structure EthernetClient where
  conn : Option Nat := none
  pendingConnect : Bool := false
  connTimeout : UInt32 := 1000
  connTimeoutEnabled : Bool := true
  deriving DecidableEq

structure EthernetServer where
  port : Option UInt16 := none
  listeningPort : UInt16 := 0
  reuse : Bool := false
  deriving DecidableEq

/-- What happens to the bytes of a connection, and to the connections of a port. -/
inductive Event where
  | stored (h : Nat) (bytes : List Byte)
  | consumed (h : Nat) (bytes : List Byte)
  | arrived (h : Nat) (port : UInt16)
  | returned (h : Nat) (port : UInt16)
  deriving DecidableEq

/-- Numbers are not used again, but places are: a block of `pool` lies at a `place`, and `free` is memp's
list of the places without one, the first of which is handed out next. Released blocks keep their last
content, and a function that is applied to one goes on with that. `misuse`, `nullArg` and `trace` are
history variables: whether a function was applied to a released block, whether a callback that needs a
holder got none, and what happened so far. -/
structure World where
  mtu : Nat
  pcb : Nat → TcpPcb := fun _ => {}
  place : Nat → Nat := fun _ => 0
  pool : List Nat := []
  -- `memp_init_pool` puts each element in front of those before it.
  free : List Nat := (List.range mempNumTcpPcb).reverse
  listenPool : List Nat := []
  nextPcb : Nat := 0
  holder : Nat → ConnectionHolder := fun _ => {}
  nextHolder : Nat := 0
  connections : List Nat := []
  listeners : List Nat := []
  client : Nat → EthernetClient := fun _ => {}
  server : Nat → EthernetServer := fun _ => {}
  misuse : Bool := false
  nullArg : Bool := false
  trace : List Event := []

namespace World

def setPcb (w : World) (p : Nat) (q : TcpPcb) : World := { w with pcb := Function.update w.pcb p q }

def setHolder (w : World) (h : Nat) (x : ConnectionHolder) : World :=
  { w with holder := Function.update w.holder h x }

def setClient (w : World) (c : Nat) (x : EthernetClient) : World :=
  { w with client := Function.update w.client c x }

def setServer (w : World) (s : Nat) (x : EthernetServer) : World :=
  { w with server := Function.update w.server s x }

def emit (w : World) (event : Event) : World := { w with trace := w.trace ++ [event] }

/-- Every call of an altcp function starts with this: is the block still allocated? -/
def touch (w : World) (p : Nat) : World :=
  { w with misuse := w.misuse || decide (p ∉ w.pool ∧ p ∉ w.listenPool) }

/-- Whether a `ConnectionState` refers to the block. -/
def attached (w : World) (p : Nat) : Bool :=
  (List.range w.nextHolder).any fun h => (w.holder h).state.any (·.pcb == p)

end World
end QNEthernet.Tcp
