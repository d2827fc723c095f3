import QNEthernet.Internal.CircularBuffer
import QNEthernet.Lwip.Pbuf
import QNEthernet.Lib.Run

/-! `QNEthernetUDP.cpp` over lwIP's UDP control blocks.

A call that fails inside lwIP takes the outcome as an argument, and `loop` lists the datagrams that
the call's own `Ethernet.loop()` delivers. -/

namespace QNEthernet.Udp

open Internal Lwip

abbrev ObjId := Nat
abbrev PcbId := Nat
abbrev IpAddr := UInt32

def inaddrNone : IpAddr := 0
def kMaxPossiblePayloadSize : Nat := 65535 - (20 + 8)

structure Packet where
  diffServ : UInt8 := 0
  ttl : UInt8 := 0
  data : List Byte := []
  addr : IpAddr := 0
  port : UInt16 := 0
  destAddr : IpAddr := 0
  receivedTimestamp : UInt32 := 0
  deriving DecidableEq, Repr, Inhabited

def Packet.clear (_ : Packet) : Packet :=
  { diffServ := 0, ttl := 0, data := [], addr := 0, port := 0, destAddr := 0, receivedTimestamp := 0 }

/-- A move takes the data vector and copies the scalars. -/
def Packet.movedFrom (p : Packet) : Packet := { p with data := [] }

structure OutPacket where
  hasValue : Bool := false
  value : Packet := {}
  deriving DecidableEq, Repr

structure EthernetUDP where
  pcb : Option PcbId := none
  listening : Bool := false
  listenReuse : Bool := false
  listeningMulticast : Bool := false
  multicastIP : IpAddr := 0
  inBuf : CircularBuffer Packet
  packet : Packet := {}
  packetPos : Int := -1
  outPacket : OutPacket := {}
  droppedReceiveCount : UInt32 := 0
  totalReceiveCount : UInt32 := 0
  deriving DecidableEq

def EthernetUDP.movedFrom (u : EthernetUDP) : EthernetUDP :=
  { u with
    inBuf := u.inBuf.movedFrom
    packet := u.packet.movedFrom
    outPacket := { u.outPacket with value := u.outPacket.value.movedFrom } }

/-- `recvArg` is the object given to `udp_recv`, which only ever registers `recvFunc`. -/
structure UdpPcb where
  localPort : UInt16 := 0
  recvArg : Option ObjId := none
  reuseAddr : Bool := false
  tos : UInt8 := 0
  ttl : UInt8 := 255
  deriving DecidableEq, Repr

/-- What lwIP passes to the receive callback, with the clock and the current destination address. -/
structure Datagram where
  p : Pbuf
  addr : IpAddr
  port : UInt16
  dest : IpAddr
  now : UInt32
  deriving DecidableEq

/-- What an object's receive side sees and answers. -/
inductive Event where
  | arrived (q : UdpPcb) (d : Datagram)
  | resized (capacity : Nat)
  | parsed (packet : Packet) (ret : Int)
  | noPacket
  | noPcb
  | available (ret : Int)
  | peeked (ret : Int)
  | readOne (ret : Int)
  | read (len : Nat) (bytes : List Byte)
  | started (queued : Nat)
  deriving DecidableEq

/-- `trace`, `removed` and `sent` are history variables: nothing reads them. -/
structure World where
  pcbs : PcbId → Option UdpPcb := fun _ => none
  nextPcb : PcbId := 0
  obj : ObjId → EthernetUDP := fun _ => { inBuf := CircularBuffer.make 1 }
  live : List ObjId := []
  groups : List IpAddr := []
  trace : List (ObjId × Event) := []
  removed : List PcbId := []
  sent : List (Option PcbId × Bool) := []

namespace World

def setObj (w : World) (o : ObjId) (u : EthernetUDP) : World :=
  { w with obj := Function.update w.obj o u }

def emit (w : World) (o : ObjId) (event : Event) : World :=
  { w with trace := w.trace ++ [(o, event)] }

def setPcb (w : World) (p : PcbId) (q : Option UdpPcb) : World :=
  { w with pcbs := Function.update w.pcbs p q }

def udpRemove (w : World) (p : PcbId) : World :=
  { w.setPcb p none with removed := w.removed ++ [p] }

/-- Records whether the block was allocated at the time of the call. -/
def udpSendto (w : World) (p : Option PcbId) : World :=
  { w with sent := w.sent ++ [(p, (p.bind w.pcbs).isSome)] }

def leaveMulticast (w : World) (o : ObjId) : World :=
  let u := w.obj o
  if u.listeningMulticast then
    { w with groups := w.groups.erase u.multicastIP }.setObj o
      { u with listeningMulticast := false, multicastIP := inaddrNone }
  else w

def stop (w : World) (o : ObjId) : World :=
  match (w.obj o).pcb with
  | none => w
  | some p =>
      let w := w.leaveMulticast o
      (w.udpRemove p).setObj o
        { w.obj o with pcb := none, listening := false, listenReuse := false }

/-- The packet that the slot of a new datagram holds once it is filled in. -/
def fillPacket (slot : Packet) (q : UdpPcb) (d : Datagram) : Packet :=
  let packet := slot.clear
  let packet := if d.p.totLen > 0 then
    { packet with data := insertLinks packet.data d.p.links } else packet
  { packet with
    addr := d.addr
    port := d.port
    destAddr := d.dest
    receivedTimestamp := d.now
    diffServ := q.tos
    ttl := q.ttl }

def recvFunc (w : World) (o : ObjId) (pcb : Option PcbId) (d : Option Datagram) : World :=
  match pcb, d with
  | none, _ => w
  | some _, none => w.stop o
  | some p, some d =>
      let q := (w.pcbs p).getD {}
      let u := w.obj o
      let u := if u.inBuf.full then
        { u with droppedReceiveCount := u.droppedReceiveCount + 1 } else u
      let slot := u.inBuf.put
      let packet := fillPacket (slot.2.buf.getD slot.1 default) q d
      (w.setObj o { u with
        inBuf := slot.2.store slot.1 packet
        totalReceiveCount := u.totalReceiveCount + 1 }).emit o (.arrived q d)

/-- `udp_input` hands a datagram for an allocated block to its callback, if one is set. -/
def deliver (w : World) (arrival : PcbId × Option Datagram) : World :=
  match (w.pcbs arrival.1).bind (·.recvArg) with
  | none => w
  | some o => w.recvFunc o (some arrival.1) arrival.2

def loop (w : World) (arrivals : List (PcbId × Option Datagram)) : World := arrivals.foldl deliver w

def construct (w : World) (o : ObjId) (capacity : Nat) : World :=
  { w.setObj o { inBuf := CircularBuffer.make (max capacity 1) } with live := o :: w.live }

def destroy (w : World) (o : ObjId) : World :=
  let w := w.stop o
  { w with live := w.live.erase o }

def setReceiveQueueCapacity (w : World) (o : ObjId) (capacity : Nat) : World :=
  let u := w.obj o
  (w.setObj o { u with inBuf := u.inBuf.setCapacity capacity }).emit o (.resized capacity)

/-- How the lwIP calls made by one method turn out. -/
structure Env where
  alloc : Bool := true
  bindErr : Err := .ok
  port : UInt16 := 0
  joined : Bool := true
  pbufAlloc : Bool := true
  sendPort : UInt16 := 0
  loop : List (PcbId × Option Datagram) := []

/-- A successful `udp_new_ip_type`, with the result kept in `pcb_`. -/
def udpNew (w : World) (o : ObjId) : World :=
  ({ w with nextPcb := w.nextPcb + 1 }.setPcb w.nextPcb (some {})).setObj o
    { w.obj o with pcb := some w.nextPcb }

def tryCreatePCB (w : World) (o : ObjId) (env : Env) : Bool × World :=
  match (w.obj o).pcb with
  | some _ => (true, w)
  | none => if env.alloc then (true, w.udpNew o) else (false, w.loop env.loop)

def udpBind (w : World) (p : PcbId) (reuse : Bool) (localPort : UInt16) (env : Env) : Err × World :=
  let w := match w.pcbs p with
    | some q => w.setPcb p (some { q with reuseAddr := q.reuseAddr || reuse })
    | none => w
  if env.bindErr = .ok then
    match w.pcbs p with
    | some q =>
        (.ok, w.setPcb p (some { q with localPort := if localPort = 0 then env.port else localPort }))
    | none => (.ok, w)
  else (env.bindErr, w)

def udpRecv (w : World) (p : PcbId) (o : ObjId) : World :=
  match w.pcbs p with
  | some q => w.setPcb p (some { q with recvArg := some o })
  | none => w

/-- The part of `begin` after the early return. -/
def beginNew (w : World) (o : ObjId) (localPort : UInt16) (reuse : Bool) (env : Env) : Bool × World :=
  match w.tryCreatePCB o env with
  | (false, w) => (false, w)
  | (true, w) =>
      match (w.obj o).pcb with
      | none => (false, w)
      | some p =>
          match w.udpBind p reuse localPort env with
          | (.ok, w) =>
              let w := w.setObj o { w.obj o with listening := true, listenReuse := reuse }
              let w := w.udpRecv p o
              (true, (w.setObj o { w.obj o with
                droppedReceiveCount := 0, totalReceiveCount := 0 }).emit o
                  (.started (w.obj o).inBuf.size))
          | (_, w) => (false, w.stop o)

/-- Whether `pcb_->local_port` and the reuse option are already as asked for. -/
def alreadyListening (w : World) (o : ObjId) (localPort : UInt16) (reuse : Bool) : Bool :=
  match (w.obj o).pcb.bind w.pcbs with
  | some q => q.localPort == localPort && (w.obj o).listenReuse == reuse
  | none => false

def «begin» (w : World) (o : ObjId) (localPort : UInt16) (reuse : Bool) (env : Env) : Bool × World :=
  if (w.obj o).listening then
    if w.alreadyListening o localPort reuse then (true, w)
    else (w.stop o).beginNew o localPort reuse env
  else w.beginNew o localPort reuse env

def beginMulticast (w : World) (o : ObjId) (ip : IpAddr) (localPort : UInt16) (reuse : Bool)
    (env : Env) : Bool × World :=
  match w.begin o localPort reuse env with
  | (false, w) => (false, w)
  | (true, w) =>
      if env.joined then
        (true, { w with groups := ip :: w.groups }.setObj o
          { w.obj o with listeningMulticast := true, multicastIP := ip })
      else (false, w.stop o)

def parsePacket (w : World) (o : ObjId) (arrivals : List (PcbId × Option Datagram)) : Int × World :=
  if (w.obj o).pcb = none then (-1, w.emit o .noPcb)
  else
    let w := w.loop arrivals
    let u := w.obj o
    if u.inBuf.empty then (-1, (w.setObj o { u with packetPos := -1 }).emit o .noPacket)
    else
      let popped := u.inBuf.get Packet.movedFrom
      let ret : Int := popped.1.data.length
      (ret, (w.setObj o { u with packet := popped.1, inBuf := popped.2, packetPos := 0 }).emit o
        (.parsed popped.1 ret))

def isAvailable (u : EthernetUDP) : Bool :=
  decide (0 ≤ u.packetPos) && decide (u.packetPos.toNat < u.packet.data.length)

def available (w : World) (o : ObjId) : Int × World :=
  let u := w.obj o
  let ret : Int := if isAvailable u then u.packet.data.length - u.packetPos else 0
  (ret, w.emit o (.available ret))

def read (w : World) (o : ObjId) : Int × World :=
  let u := w.obj o
  if isAvailable u then
    let b : Int := (u.packet.data.getD u.packetPos.toNat 0).toNat
    (b, (w.setObj o { u with packetPos := u.packetPos + 1 }).emit o (.readOne b))
  else (-1, w.emit o (.readOne (-1)))

/-- Returns the bytes copied to `buffer`; a NULL buffer skips the same bytes. -/
def readBuf (w : World) (o : ObjId) (len : Nat) : List Byte × World :=
  let u := w.obj o
  if len = 0 || !isAvailable u then ([], w.emit o (.read len []))
  else
    let actualLen := min len (u.packet.data.length - u.packetPos.toNat)
    let bytes := (u.packet.data.drop u.packetPos.toNat).take actualLen
    (bytes, (w.setObj o { u with packetPos := u.packetPos + actualLen }).emit o (.read len bytes))

def peek (w : World) (o : ObjId) : Int × World :=
  let u := w.obj o
  let ret : Int := if isAvailable u then (u.packet.data.getD u.packetPos.toNat 0).toNat else -1
  (ret, w.emit o (.peeked ret))

/-- The setters of the outgoing header fields create the block they change. -/
def setOutgoing (w : World) (o : ObjId) (change : UdpPcb → UdpPcb) (env : Env) : Bool × World :=
  match w.tryCreatePCB o env with
  | (false, w) => (false, w)
  | (true, w) =>
      match (w.obj o).pcb with
      | none => (true, w)
      | some p => (true, w.setPcb p ((w.pcbs p).map change))

def setOutgoingDiffServ (w : World) (o : ObjId) (ds : UInt8) (env : Env) : Bool × World :=
  w.setOutgoing o (fun q => { q with tos := ds }) env

def setOutgoingTTL (w : World) (o : ObjId) (ttl : UInt8) (env : Env) : Bool × World :=
  w.setOutgoing o (fun q => { q with ttl := ttl }) env

def beginPacket (w : World) (o : ObjId) (addr : IpAddr) (port : UInt16) (env : Env) : Bool × World :=
  match w.tryCreatePCB o env with
  | (false, w) => (false, w)
  | (true, w) =>
      let u := w.obj o
      (true, w.setObj o { u with
        outPacket := { hasValue := true, value := { u.outPacket.value with addr := addr, port := port, data := [] } } })

/-- `write(buffer, size)` on the packet being assembled. -/
def write (w : World) (o : ObjId) (buffer : List Byte) : Nat × World :=
  let u := w.obj o
  if !u.outPacket.hasValue || buffer.isEmpty then (0, w)
  else
    let data := u.outPacket.value.data
    let actualSize := min (kMaxPossiblePayloadSize - data.length) buffer.length
    (actualSize, w.setObj o { u with
      outPacket := { u.outPacket with
        value := { u.outPacket.value with data := data ++ buffer.take actualSize } } })

def dropOutPacket (w : World) (o : ObjId) : World :=
  let u := w.obj o
  w.setObj o { u with outPacket := { hasValue := false, value := u.outPacket.value.clear } }

def endPacket (w : World) (o : ObjId) (env : Env) : Bool × World :=
  let u := w.obj o
  if !u.outPacket.hasValue then (false, w)
  else if !env.pbufAlloc then (false, (w.dropOutPacket o).loop env.loop)
  else (decide (env.bindErr = .ok), (w.udpSendto u.pcb).dropOutPacket o)

def send (w : World) (o : ObjId) (len : Nat) (env : Env) : Bool × World :=
  if len > kMaxPossiblePayloadSize then (false, w)
  else
    match w.tryCreatePCB o env with
    | (false, w) => (false, w)
    | (true, w) =>
        if !env.pbufAlloc then (false, w.loop env.loop)
        else (decide (env.bindErr = .ok), w.udpSendto (w.obj o).pcb)

/-- Both defaulted moves copy the block pointer and the flags; only the vectors change hands. -/
def move (w : World) (dst src : ObjId) : World :=
  let u := w.obj src
  (w.setObj dst u).setObj src u.movedFrom

end World

/-- The methods of one object, and the stack running on its own. -/
inductive Call where
  | loop (arrivals : List (PcbId × Option Datagram))
  | setReceiveQueueCapacity (capacity : Nat)
  | begin (localPort : UInt16) (reuse : Bool) (env : World.Env)
  | beginMulticast (ip : IpAddr) (localPort : UInt16) (reuse : Bool) (env : World.Env)
  | stop
  | setOutgoingDiffServ (ds : UInt8) (env : World.Env)
  | setOutgoingTTL (ttl : UInt8) (env : World.Env)
  | parsePacket (arrivals : List (PcbId × Option Datagram))
  | available
  | read
  | readBuf (len : Nat)
  | peek
  | beginPacket (addr : IpAddr) (port : UInt16) (env : World.Env)
  | write (buffer : List Byte)
  | endPacket (env : World.Env)
  | send (len : Nat) (env : World.Env)

namespace World

def call (w : World) (o : ObjId) : Call → World
  | .loop arrivals => w.loop arrivals
  | .setReceiveQueueCapacity capacity => w.setReceiveQueueCapacity o capacity
  | .begin localPort reuse env => (w.begin o localPort reuse env).2
  | .beginMulticast ip localPort reuse env => (w.beginMulticast o ip localPort reuse env).2
  | .stop => w.stop o
  | .setOutgoingDiffServ ds env => (w.setOutgoingDiffServ o ds env).2
  | .setOutgoingTTL ttl env => (w.setOutgoingTTL o ttl env).2
  | .parsePacket arrivals => (w.parsePacket o arrivals).2
  | .available => (w.available o).2
  | .read => (w.read o).2
  | .readBuf len => (w.readBuf o len).2
  | .peek => (w.peek o).2
  | .beginPacket addr port env => (w.beginPacket o addr port env).2
  | .write buffer => (w.write o buffer).2
  | .endPacket env => (w.endPacket o env).2
  | .send len env => (w.send o len env).2

end World

inductive Op where
  | call (o : ObjId) (c : Call)
  | construct (o : ObjId) (capacity : Nat)
  | destroy (o : ObjId)
  | moveConstruct (dst src : ObjId)
  | moveAssign (dst src : ObjId)

/-- An operation on storage that holds no object, or a construction over one, is not a step. -/
def World.step (w : World) : Op → World
  | .call o c => if o ∈ w.live then w.call o c else w
  | .construct o capacity => if o ∈ w.live then w else w.construct o capacity
  | .destroy o => if o ∈ w.live then w.destroy o else w
  | .moveConstruct dst src =>
      if src ∈ w.live ∧ dst ∉ w.live then { w.move dst src with live := dst :: w.live } else w
  | .moveAssign dst src => if src ∈ w.live ∧ dst ∈ w.live then w.move dst src else w

end QNEthernet.Udp
