import QNEthernet.Lwip.Chain
import QNEthernet.Lwip.Icmp

/-! `QNPing.cpp`: echo requests out, echo replies in. The `Ethernet.loop()` at the end of `send` is left out. -/

namespace QNEthernet

open Lwip
open Words (ByteOrder)

namespace Lwip

/-- What `Ping` sets in a `raw_pcb`, and where that is. -/
structure RawPcb where
  address : Nat
  ttl : Byte
  mcastTtl : Byte
  deriving DecidableEq

def rawTtl : Byte := 255

end Lwip

/-- The data are the bytes that the pointer points to. -/
structure PingData where
  ip : UInt32
  ttl : Byte := 64
  id : UInt16 := 0x514E
  seq : UInt16 := 0
  data : Option (List Byte) := none
  dataSize : Nat := 0
  deriving DecidableEq

/-- The object, with whether a reply function is set. -/
structure Ping where
  replyf : Bool := false
  pcb : Option RawPcb := none
  bound : Bool := false
  dataBuf : List Byte := []
  deriving DecidableEq

namespace Ping

def icmpEr : Byte := 0
def icmpEcho : Byte := 8
def ipHlen : Nat := 20
def kEchoHdrSize : Nat := 8
def kMaxOutHdrSize : Nat := ipHlen + kEchoHdrSize

inductive Errno where
  | einval | enomem
  | errToErrno (err : Err)
  deriving DecidableEq

/-- The payload of a new pbuf: what the memory holds, and whether it is at an odd address. -/
structure Payload where
  memory : Nat → Byte
  odd : Bool

structure Sendto where
  pcb : Option RawPcb
  message : List Byte
  ipaddr : UInt32
  deriving DecidableEq

/-- What the rest of the system does during `send`, and how the library was built. -/
structure SendEnv where
  order : ByteOrder
  softwareChecksum : Bool
  rawNew : Option Nat
  rawBind : Err
  pbufAlloc : Nat → Option Payload
  rawSendto : Sendto → Err

structure Sent where
  ret : Bool
  errno : Option Errno := none
  sendto : Option Sendto := none
  freed : Nat := 0
  ping : Ping
  deriving DecidableEq

/-- The error, and the object. -/
def tryCreatePCB (ping : Ping) (env : SendEnv) : Option Errno × Ping :=
  let (created, ping) := match ping.pcb, env.rawNew with
    | some _, _ => (true, ping)
    | none, some address => (true, { ping with pcb := some ⟨address, rawTtl, rawTtl⟩ })
    | none, none => (false, ping)
  if !created then (some .enomem, ping)
  else if ping.bound then (none, ping)
  else if env.rawBind ≠ .ok then (some (.errToErrno env.rawBind), ping)
  else (none, { ping with bound := true })

/-- The data behind the header, if there are any. -/
def takeData (p : List Byte) (req : PingData) : Err × List Byte :=
  match req.data with
  | some data =>
      if req.dataSize ≠ 0 then pbufTakeAt p (data.take (req.dataSize % 2 ^ 16)) kEchoHdrSize else (.ok, p)
  | none => (.ok, p)

/-- The packet from the header and the data on to the checksum; an error ends it. -/
def packet (env : SendEnv) (payload : Payload) (packetSize : Nat) (req : PingData) : Err × List Byte :=
  let p := Memory.window payload.memory 0 (packetSize % 2 ^ 16)
  let echo : IcmpEchoHdr :=
    { type := icmpEcho, code := 0, chksum := 0, id := htons env.order req.id, seqno := htons env.order req.seq }
  match pbufTake p (some fun i => (echo.bytes env.order).getD i 0) kEchoHdrSize with
  | (.ok, p) =>
      match takeData p req with
      | (.ok, p) =>
          if env.softwareChecksum then
            let chksum := inetChksum env.order payload.odd (p.take (packetSize % 2 ^ 16))
            (.ok, (pbufTakeAt p (env.order.store 2 chksum) 2).2)
          else (.ok, p)
      | failed => failed
  | failed => failed

def send (ping : Ping) (env : SendEnv) (req : PingData) : Sent :=
  if req.dataSize > 2 ^ 16 - 1 - kMaxOutHdrSize then { ret := false, errno := some .einval, ping }
  else
    match tryCreatePCB ping env with
    | (some errno, ping) => { ret := false, errno := some errno, ping }
    | (none, ping) =>
        let packetSize := kEchoHdrSize + req.dataSize
        match env.pbufAlloc (packetSize % 2 ^ 16) with
        | none => { ret := false, errno := some .enomem, ping }
        | some payload =>
            match packet env payload packetSize req with
            | (.ok, p) =>
                let pcb := ping.pcb.map fun pcb => { pcb with ttl := req.ttl, mcastTtl := req.ttl }
                let sendto : Sendto := { pcb, message := p, ipaddr := req.ip }
                let err := env.rawSendto sendto
                { ret := decide (err = .ok), errno := if err = .ok then none else some (.errToErrno err),
                  sendto := some sendto, freed := 1, ping := { ping with pcb } }
            | (err, _) => { ret := false, errno := some (.errToErrno err), freed := 1, ping }

/-- What `recvFunc` returns, the calls of the reply function, whether the pbuf is freed, and the object then. -/
structure Received where
  ret : Nat
  replies : List PingData := []
  freed : Bool := false
  ping : Ping
  deriving DecidableEq

def resize (v : List Byte) (size : Nat) : List Byte := (v ++ List.replicate (size - v.length) 0).take size

/-- The reply's data, which is not copied when the first pbuf is all of it. `none` where an assertion fails. -/
def replyData (ping : Ping) (p : Pbuf) (hdrSize dataSize : Nat) : Option (Option (List Byte) × Ping) :=
  if dataSize ≠ 0 then
    let payload := p.links.headD []
    if payload.length = p.totLen then some (some ((payload.drop hdrSize).take dataSize), ping)
    else
      match pbufCopyPartial p.links (resize ping.dataBuf dataSize) (dataSize % 2 ^ 16) hdrSize with
      | (copied, dataBuf) =>
          if copied ≠ dataSize then none
          else some (some (dataBuf.take dataSize), { ping with dataBuf })
  else some (none, ping)

/-- `ipHdrSize` is what `ip_current_header_tot_len` gives, and `echo` what the variable held before. -/
def recvFunc (order : ByteOrder) (echo : Vector Byte 8) (ping : Ping) (pcb : Nat) (p : Pbuf)
    (ipHdrSize : Nat) (addr : UInt32) : Option Received :=
  let hdrSize := (ipHdrSize + kEchoHdrSize) % 2 ^ 16
  if ping.pcb.map RawPcb.address ≠ some pcb ∨ p.totLen < hdrSize ∨
      pbufGetAt p.links ipHdrSize ≠ icmpEr ∨ pbufGetAt p.links ((ipHdrSize + 1) % 2 ^ 16) ≠ 0 then
    some { ret := 0, ping }
  else if ping.replyf then
    match pbufCopyPartial p.links echo.toList kEchoHdrSize ipHdrSize with
    | (copied, echo) =>
        if copied ≠ kEchoHdrSize then none
        else
          let dataSize := p.totLen - hdrSize
          match replyData ping p hdrSize dataSize with
          | none => none
          | some (data, ping) =>
              let echo := IcmpEchoHdr.ofBytes order echo
              let reply : PingData :=
                { ip := addr, ttl := pbufGetAt p.links 8, id := htons order echo.id,
                  seq := htons order echo.seqno, data, dataSize }
              some { ret := 1, replies := [reply], freed := true, ping }
  else some { ret := 1, freed := true, ping }

end Ping
end QNEthernet
