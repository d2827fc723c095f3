import QNEthernet.Internal.ByteBuffer
import QNEthernet.Drivers.Port

/-! The receive path of `drivers/driver_w5500.cpp`, over a model of the chip's RX buffer.

The chip moves bytes from the wire to its buffer at any time; a poll says how many arrive at each
point of one `readAndScan`, and what the two reads of `Sn_RX_RSR` return. -/

namespace QNEthernet.Drivers.W5500

open Internal Lwip

def kMaxFrameLen : Nat := Port.w5500.maxFrameLen
def kRxBufSizeKB : Nat := 16
def kRxBufSize : Nat := kRxBufSizeKB * 1024
def kLocalInputBufSize : Nat := 2 * kRxBufSizeKB * 1024
def ethPadSize : Nat := 0

/-- The socket's RX memory, `Sn_RX_RD`, the chip's own write pointer, and the bytes on the wire. -/
structure Chip where
  mem : List Byte
  rxRd : UInt16
  rxWr : UInt16
  wire : List Byte
  full : mem.length = kRxBufSize

namespace Chip

def unread (c : Chip) : Nat := (c.rxWr - c.rxRd).toNat

/-- Stores the next bytes from the wire, as far as there is room. -/
def receive (c : Chip) (n : Nat) : Chip :=
  let count := min n (min c.wire.length (kRxBufSize - c.unread))
  { c with
    mem := Ring.splice c.mem (c.rxWr.toNat % kRxBufSize) (c.wire.take count)
    rxWr := c.rxWr + UInt16.ofNat count
    wire := c.wire.drop count
    full := by
      rw [Ring.length_splice, c.full]
      · rw [c.full]
        exact Nat.le_of_lt (Nat.mod_lt _ (by decide))
      · rw [c.full, List.length_take]
        omega }

def rxRsr (c : Chip) (n : Nat) : Nat := min n c.unread

def read (c : Chip) (ptr : UInt16) (len : Nat) : List Byte :=
  Ring.window c.mem (ptr.toNat % kRxBufSize) len

end Chip

/-- `asserted` and `taken` are history variables: whether a platform assertion was reached, and what
became of each frame that `proc_input` took from the local buffer. -/
structure Driver where
  chip : Chip
  initialized : Bool := true
  buf : ByteBuffer := { buf := List.replicate kLocalInputBufSize 0 }
  asserted : Bool := false
  taken : List (Option (List Byte)) := []

/-- What one `readAndScan` meets. -/
structure Poll where
  arriving : Nat × Nat × Nat × Nat := (0, 0, 0, 0)
  rsr : Nat × Nat
  macraw : Bool := true

def readFrameLen : List Byte → Nat
  | high :: low :: _ => high.toNat * 256 + low.toNat
  | _ => 0

structure Scan where
  retval : Bool
  bad : Bool
  stop : Nat
  buf : ByteBuffer
  asserted : Bool

/-- The loop over the bytes read from the chip, from index `pos` on. -/
def scan (rxBuf : List Byte) (pos : Nat) (buf : ByteBuffer) (asserted : Bool) : Scan :=
  if pos + 2 ≤ rxBuf.length then
    let frameLen := readFrameLen (rxBuf.drop pos)
    if frameLen < 2 then { retval := true, bad := true, stop := pos, buf, asserted }
    else if pos + frameLen > rxBuf.length then
      { retval := true, bad := false, stop := pos, buf, asserted }
    else if frameLen - 2 ≤ kMaxFrameLen then
      if frameLen > buf.remaining then
        { retval := false, bad := false, stop := pos, buf, asserted }
      else
        let written := buf.write ((rxBuf.drop pos).take frameLen)
        scan rxBuf (pos + frameLen) written.2 (asserted || decide (written.1 ≠ frameLen))
    else scan rxBuf (pos + frameLen) buf asserted
  else { retval := true, bad := false, stop := pos, buf, asserted }
termination_by rxBuf.length - pos

namespace Driver

def receive (d : Driver) (n : Nat) : Driver := { d with chip := d.chip.receive n }

/-- Closing and opening the socket empties the RX buffer. -/
def restartSocket (d : Driver) (macraw : Bool) : Driver :=
  { d with
    chip := { d.chip with rxRd := 0, rxWr := 0 }
    initialized := d.initialized && macraw }

/-- The value of `Sn_RX_RSR` if two reads agree on it, or zero. -/
def rxSize (d : Driver) (poll : Poll) : Nat × Driver :=
  let d := d.receive poll.arriving.1
  let v1 := d.chip.rxRsr poll.rsr.1
  let d := d.receive poll.arriving.2.1
  let v2 := d.chip.rxRsr poll.rsr.2
  (if v1 ≠ v2 then 0 else v2, d)

/-- Reads the counted bytes, scans them, and tells the chip how many are done with. -/
def scanRx (d : Driver) (rxSize : Nat) (poll : Poll) : Bool × Driver :=
  let ptr := d.chip.rxRd
  let d := d.receive poll.arriving.2.2.1
  let rxBuf := d.chip.read ptr rxSize
  let d := d.receive poll.arriving.2.2.2
  let result := scan rxBuf 0 d.buf d.asserted
  let d := { d with buf := result.buf, asserted := result.asserted }
  if result.bad then (result.retval, d.restartSocket poll.macraw)
  else if result.stop ≠ 0 then
    (result.retval, { d with chip := { d.chip with rxRd := ptr + UInt16.ofNat result.stop } })
  else (result.retval, d)

def readAndScan (d : Driver) (poll : Poll) : Bool × Driver :=
  let counted := d.rxSize poll
  if counted.1 ≥ 2 then counted.2.scanRx counted.1 poll else (false, counted.2)

/-- The drain loop, as far as the polls go; the flag says whether it has ended. -/
def drain (d : Driver) : List Poll → Bool × Driver
  | [] => (false, d)
  | poll :: polls =>
      match d.readAndScan poll with
      | (true, d) => d.drain polls
      | (false, d) => (true, d)

/-- Takes one frame from the local buffer. `alloc` is the memory that `pbuf_alloc` finds. -/
def takeFrame (d : Driver) (alloc : Option (Nat → Byte)) : Driver :=
  let v := d.buf.read 2
  let d := { d with buf := v.2, asserted := d.asserted || decide (v.1.length ≠ 2) }
  let frameLen := readFrameLen v.1
  let frameSize := (frameLen + (2 ^ 16 - 2)) % 2 ^ 16
  match alloc with
  | none => { d with buf := (d.buf.skip frameSize).2, taken := d.taken ++ [none] }
  | some fresh =>
      let p := (List.range ((frameSize + ethPadSize) % 2 ^ 16)).map fresh
      let read := d.buf.readPbuf p ethPadSize
      { d with
        buf := read.2.2
        asserted := d.asserted || decide (read.1 ≠ .ok)
        taken := d.taken ++ [some read.2.1] }

/-- A call whose drain loop has not ended yet has done nothing else so far. -/
def procInput (d : Driver) (polls : List Poll) (alloc : Option (Nat → Byte)) : Driver :=
  if !d.initialized then d
  else
    match d.drain polls with
    | (false, d) => d
    | (true, d) => if d.buf.empty then d else d.takeFrame alloc

end Driver

inductive Event where
  | receive (n : Nat)
  | procInput (polls : List Poll) (alloc : Option (Nat → Byte))

def Driver.step (d : Driver) : Event → Driver
  | .receive n => d.receive n
  | .procInput polls alloc => d.procInput polls alloc

end QNEthernet.Drivers.W5500
