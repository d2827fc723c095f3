import QNEthernet.Tcp.Client

/-! `QNEthernetServer.cpp`, and the whole system: sketches that make any sequence of calls on any
number of clients and servers. -/

namespace QNEthernet.Tcp

open Lwip

namespace EthernetServer

def endListening (s : Nat) (w : World) : TcpCall Unit :=
  if 0 < (w.server s).listeningPort then
    (ConnectionManager.stopListening (w.server s).listeningPort w).bind fun _ w =>
      .done () (w.setServer s { w.server s with listeningPort := 0 })
  else .done () w

def startListening (s : Nat) (port : UInt16) (reuse : Bool) (attempt : Attempt) (w : World) :
    TcpCall Bool :=
  (ConnectionManager.listen port attempt w).bind fun p w =>
    -- Only change the port if listening was successful
    match p with
    | none => .done false w
    | some value =>
        if 0 < value then
          .done true (w.setServer s
            { listeningPort := value, port := some (if port = 0 then 0 else value), reuse := reuse })
        else .done false w

def beginListening (s : Nat) (port : UInt16) (reuse : Bool) (attempt : Attempt) (w : World) :
    TcpCall Bool :=
  if 0 < (w.server s).listeningPort then
    -- Only call end() if parameters have changed
    if port ≠ 0 ∧ (w.server s).port = some port ∧ (w.server s).reuse = reuse then .done true w
    else (endListening s w).bind fun _ w => startListening s port reuse attempt w
  else startListening s port reuse attempt w

/-- The client that is returned becomes client `c`. -/
def accept (s c : Nat) (w : World) : TcpCall (Option Nat) :=
  if 0 < (w.server s).listeningPort then
    let port := (w.server s).listeningPort
    match w.findUnacknowledged port with
    | (conn, w) =>
        Ethernet.loop w fun w =>
          match conn with
          | none => .done none (w.setClient c {})
          | some h =>
              .done (some h)
                (((w.setHolder h { w.holder h with accepted := true }).emit (.returned h port)).setClient
                  c { conn := some h })
  else .done none (w.setClient c {})

def available (s c : Nat) (w : World) : TcpCall (Option Nat) :=
  if 0 < (w.server s).listeningPort then
    match w.findAvailable (w.server s).listeningPort with
    | (conn, w) => Ethernet.loop w fun w => .done conn (w.setClient c { conn := conn })
  else .done none (w.setClient c {})

def write (s size : Nat) (w : World) : TcpCall Nat :=
  if (w.server s).listeningPort = 0 then .done size w
  else ConnectionManager.write (w.server s).listeningPort size w

def availableForWrite (s : Nat) (w : World) : TcpCall Unit :=
  if (w.server s).listeningPort = 0 then .done () w
  else ConnectionManager.useConnections (w.server s).listeningPort w

def flush (s : Nat) (w : World) : TcpCall Unit :=
  if (w.server s).listeningPort = 0 then .done () w
  else ConnectionManager.flush (w.server s).listeningPort w

end EthernetServer

/-- The calls of a sketch; `loop` is its own `Ethernet.loop()`. -/
inductive Op where
  | loop
  | connect (c : Nat) (ipaddr : Option UInt32) (attempt : Attempt) (wait : Bool)
      (clock : List UInt32)
  | connecting (c : Nat)
  | connected (c : Nat)
  | operatorBool (c : Nat)
  | close (c : Nat)
  | stop (c : Nat) (clock : List UInt32)
  | closeOutput (c : Nat) (finOk : Bool)
  | abort (c : Nat)
  | localPort (c : Nat)
  | useState (c : Nat)
  | write (c size sndBufSize sndBufSize' : Nat) (err : Err)
  | availableForWrite (c sndBufSize : Nat)
  | flush (c : Nat)
  | available (c : Nat)
  | read (c : Nat)
  | readBuf (c : Nat) (buf : Bool) (size : Nat)
  | peek (c : Nat)
  | setConnectionTimeout (c : Nat) (timeout : UInt32) (enabled : Bool)
  | copy (c c' : Nat)
  | move (c c' : Nat)
  | beginListening (s : Nat) (port : UInt16) (reuse : Bool) (attempt : Attempt)
  | endListening (s : Nat)
  | accept (s c : Nat)
  | serverAvailable (s c : Nat)
  | serverWrite (s size : Nat)
  | serverAvailableForWrite (s : Nat)
  | serverFlush (s : Nat)
  | moveServer (s s' : Nat)
  | abortAll

namespace Op

def call : Op → World → TcpCall Unit
  | .loop, w => Ethernet.loop w (.done ())
  | .connect c ipaddr attempt wait clock, w =>
      (EthernetClient.connect c ipaddr attempt wait clock w).forget
  | .connecting c, w => (EthernetClient.connecting c w).forget
  | .connected c, w => (EthernetClient.connected c w).forget
  | .operatorBool c, w => (EthernetClient.operatorBool c w).forget
  | .close c, w => (EthernetClient.close c false [] w).forget
  | .stop c clock, w => (EthernetClient.stop c clock w).forget
  | .closeOutput c finOk, w => EthernetClient.closeOutput c finOk w
  | .abort c, w => EthernetClient.abort c w
  | .localPort c, w => (EthernetClient.localPort c w).forget
  | .useState c, w => EthernetClient.useState c w
  | .write c size sndBufSize sndBufSize' err, w =>
      (EthernetClient.write c size sndBufSize sndBufSize' err w).forget
  | .availableForWrite c sndBufSize, w =>
      (EthernetClient.availableForWrite c sndBufSize w).forget
  | .flush c, w => EthernetClient.flush c w
  | .available c, w => (EthernetClient.available c w).forget
  | .read c, w => (EthernetClient.read c w).forget
  | .readBuf c buf size, w => (EthernetClient.readBuf c buf size w).forget
  | .peek c, w => (EthernetClient.peek c w).forget
  | .setConnectionTimeout c timeout enabled, w =>
      .done () (w.setClient c
        { w.client c with connTimeout := timeout, connTimeoutEnabled := enabled })
  | .copy c c', w => .done () (w.setClient c' (w.client c))
  | .move c c', w => .done () ((w.dropConn c).setClient c' (w.client c))
  | .beginListening s port reuse attempt, w =>
      (EthernetServer.beginListening s port reuse attempt w).forget
  | .endListening s, w => EthernetServer.endListening s w
  | .accept s c, w => (EthernetServer.accept s c w).forget
  | .serverAvailable s c, w => (EthernetServer.available s c w).forget
  | .serverWrite s size, w => (EthernetServer.write s size w).forget
  | .serverAvailableForWrite s, w => EthernetServer.availableForWrite s w
  | .serverFlush s, w => EthernetServer.flush s w
  | .moveServer s s', w => .done () (w.setServer s' (w.server s))
  | .abortAll, w => ConnectionManager.abortAll w

end Op

structure Step where
  op : Op
  turns : List Turn := []

namespace World

def step (w : World) (s : Step) : World := ((s.op.call w).run answer s.turns).2

def exec (mtu : Nat) (steps : List Step) : World := steps.foldl step { mtu }

end World
end QNEthernet.Tcp
