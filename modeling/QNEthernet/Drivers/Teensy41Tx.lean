import QNEthernet.Drivers.Teensy41

/-! The transmit ring of the Teensy 4.1 driver. The hardware may send a ready descriptor's frame between
any two accesses the driver makes. -/

namespace QNEthernet.Drivers.Teensy41

open Lwip

def kReady : BitVec 16 := 0x8000
def kLast : BitVec 16 := 0x0800
def kTxCrc : BitVec 16 := 0x0400

def BufferDescriptor.ready (bd : BufferDescriptor) : Bool := bits bd.control kReady

/-- The control field that `update_bufdesc` writes. -/
def readyControl (control : BitVec 16) : BitVec 16 := (control &&& kWrap) ||| kTxCrc ||| kLast ||| kReady

/-- A pbuf chain whose `tot_len` is within the buffer size; its links may hold more or less. -/
structure Chain where
  links : List (List Byte)
  totLen : Nat
  fits : totLen ≤ kBufSize
  deriving DecidableEq

inductive TxCall where
  | output (p : Chain)
  | outputFrame (frame : List Byte)
  deriving DecidableEq

inductive TxAnswer where
  | err (e : Err)
  | flag (ok : Bool)
  deriving DecidableEq

/-- Where a call is, once it has its descriptor. -/
inductive TxPoint where
  | getBufdesc
  | copyPartial (totLen : Nat) (rest : List (List Byte)) (left len : Nat)
  | memcpy (frame : List Byte)
  | setLength (len : Nat)
  | readControl
  | setControl (control : BitVec 16)
  | advance
  deriving DecidableEq

inductive TxPc where
  | idle
  | inCall (c : TxCall) (pBD : Nat) (point : TxPoint)
  deriving DecidableEq

/-- What goes over the wire: the length field, and the bytes without the padding. -/
structure Frame where
  length : Nat
  bytes : List Byte
  deriving DecidableEq

def BufferDescriptor.frame (bd : BufferDescriptor) : Frame where
  length := bd.length
  bytes := (bd.buffer.take bd.length).drop ethPadSize

structure Tx where
  ring : Nat → BufferDescriptor
  pTxBD : Nat := 0
  initState : InitStates := .initialized
  pc : TxPc := .idle
  -- The hardware's place in the ring.
  hw : Nat := 0
  -- What has happened so far.
  calls : List TxCall := []
  answers : List TxAnswer := []
  sent : List Frame := []
  lastReady : Option Nat := none
  wroteReady : Bool := false

namespace Tx

def write (s : Tx) (pBD : Nat) (bd : BufferDescriptor) : Tx :=
  { s with
    ring := Function.update s.ring pBD bd
    wroteReady := s.wroteReady || (s.ring pBD).ready }

def goto (s : Tx) (c : TxCall) (pBD : Nat) (point : TxPoint) : Tx := { s with pc := .inCall c pBD point }

def answer : TxCall → Bool → TxAnswer
  | .output _, ok => .err (if ok then .ok else .buf)
  | .outputFrame _, ok => .flag ok

def ret (s : Tx) (c : TxCall) (ok : Bool) : Tx :=
  { s with pc := .idle, answers := s.answers ++ [answer c ok] }

/-- The loop of `pbuf_copy_partial` without an offset: one link at a time. -/
def copyPartial (s : Tx) (c : TxCall) (pBD totLen : Nat) (rest : List (List Byte)) (left len : Nat) : Tx :=
  match rest, len with
  | link :: rest, len + 1 =>
      let count := min link.length (len + 1)
      let bd := s.ring pBD
      (s.write pBD { bd with buffer := Ring.overwrite bd.buffer left (link.take count) }).goto c pBD
        (.copyPartial totLen rest (left + count) (len + 1 - count))
  | _, _ => if left ≠ totLen then s.ret c false else s.goto c pBD (.setLength left)

/-- How a call fills its buffer. -/
def copyPoint : TxCall → TxPoint
  | .output p => .copyPartial p.totLen p.links 0 p.totLen
  | .outputFrame frame => .memcpy frame

def advance (s : Tx) : Tx :=
  match s.pc with
  | .idle => s
  | .inCall c pBD point =>
      let bd := s.ring pBD
      match point with
      | .getBufdesc =>
          if bd.ready then s else s.goto c pBD (copyPoint c)
      | .copyPartial totLen rest left len => s.copyPartial c pBD totLen rest left len
      | .memcpy frame =>
          (s.write pBD { bd with buffer := Ring.overwrite bd.buffer ethPadSize frame }).goto c pBD
            (.setLength ((frame.length + ethPadSize) % 2 ^ 16))
      | .setLength len => (s.write pBD { bd with length := len }).goto c pBD .readControl
      | .readControl => s.goto c pBD (.setControl (readyControl bd.control))
      | .setControl control =>
          ({ s.write pBD { bd with control := control } with lastReady := some pBD }).goto c pBD .advance
      | .advance => ({ s with pTxBD := nextBD bd s.pTxBD }).ret c true

/-- A call enters the driver; there is one thread. -/
def call (s : Tx) (c : TxCall) : Tx :=
  match s.pc with
  | .inCall _ _ _ => s
  | .idle =>
      let s := { s with calls := s.calls ++ [c] }
      match c with
      | .output _ => s.goto c s.pTxBD .getBufdesc
      | .outputFrame frame =>
          if s.initState ≠ .initialized then s.ret c false
          else if frame.length > kBufSize - ethPadSize then s.ret c false
          else s.goto c s.pTxBD .getBufdesc

/-- The hardware sends the frame of its descriptor, and gives it back. -/
def send (s : Tx) : Tx :=
  let bd := s.ring s.hw
  if bd.ready then
    { s with
      ring := Function.update s.ring s.hw { bd with control := bd.control &&& ~~~kReady }
      sent := s.sent ++ [bd.frame]
      hw := nextBD bd s.hw }
  else s

end Tx

inductive TxStep where
  | call (c : TxCall)
  | advance
  | send
  deriving DecidableEq

def Tx.step (s : Tx) : TxStep → Tx
  | .call c => s.call c
  | .advance => s.advance
  | .send => s.send

/-- The ring as `init` sets it up; the buffers are not cleared. -/
def Tx.init (n : Nat) (bufs : Nat → Vector Byte kBufSize) : Tx where
  ring i :=
    { length := 0
      control := if i + 1 = n then kTxCrc ||| kWrap else kTxCrc
      buffer := (bufs i).toList }

end QNEthernet.Drivers.Teensy41
