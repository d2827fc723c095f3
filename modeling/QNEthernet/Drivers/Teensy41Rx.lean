import QNEthernet.Drivers.Teensy41

/-! The receive ring of the Teensy 4.1 driver, with `enet::proc_input` around it. The hardware may fill
descriptors, and the interrupt may come, between any two accesses the driver makes. -/

namespace QNEthernet.Drivers.Teensy41

open Lwip

def kEmpty : BitVec 16 := 0x8000
def kLengthViolation : BitVec 16 := 0x0020
def kNonOctet : BitVec 16 := 0x0010
def kCrc : BitVec 16 := 0x0004
def kOverrun : BitVec 16 := 0x0002
def kTrunc : BitVec 16 := 0x0001
def errMask : BitVec 16 := kTrunc ||| kOverrun ||| kCrc ||| kNonOctet ||| kLengthViolation

def BufferDescriptor.empty (bd : BufferDescriptor) : Bool := bits bd.control kEmpty

/-- A frame as the hardware stores it: status bits, and the bytes with the padding in front. -/
structure RxFrame where
  status : BitVec 16
  data : List Byte
  fits : data.length ≤ kBufSize
  deriving DecidableEq

/-- One release of a descriptor: the frame examined, whether `pbuf_alloc` had memory, and the pbuf. -/
structure Consumed where
  frame : Nat
  alloc : Bool
  p : Option (List Byte)
  deriving DecidableEq

inductive RxPc where
  | idle
  | enter (counter : Nat)
  -- `rxbd_next` is about to read the status, or has read that it is empty.
  | scan (counter pBD : Nat)
  | skip (counter pBD : Nat)
  | found (counter pBD : Nat)
  | lowLevelInput (counter pBD : Nat)
  | setEmpty (counter pBD : Nat) (input : Consumed)
  deriving DecidableEq

structure Rx where
  ring : Nat → BufferDescriptor
  pRxBD : Nat := 0
  rxNotAvail : Bool := true
  -- `EIR::RXF`
  rxf : Bool := false
  pc : RxPc := .idle
  -- The hardware's place in the ring.
  hw : Nat := 0
  -- What has happened so far; `tag` is the number of the frame that was last stored in a descriptor.
  filled : List RxFrame := []
  tag : Nat → Nat := fun _ => 0
  consumed : List Consumed := []
  overlooked : Bool := false

namespace Rx

/-- The descriptor that the hardware leaves behind. -/
def filledBD (bd : BufferDescriptor) (frame : RxFrame) : BufferDescriptor where
  length := frame.data.length
  control := (bd.control &&& kWrap) ||| (frame.status &&& ~~~(kEmpty ||| kWrap))
  buffer := Ring.overwrite bd.buffer 0 frame.data

/-- The hardware stores a frame in its descriptor, if that is empty. -/
def fill (s : Rx) (frame : RxFrame) : Rx :=
  let bd := s.ring s.hw
  if bd.empty then
    { s with
      ring := Function.update s.ring s.hw (filledBD bd frame)
      rxf := true
      hw := nextBD bd s.hw
      filled := s.filled ++ [frame]
      tag := Function.update s.tag s.hw s.filled.length }
  else s

def enetIsr (s : Rx) : Rx := if s.rxf then { s with rxf := false, rxNotAvail := false } else s

/-- `low_level_input` up to the release of the descriptor; `alloc` says whether `pbuf_alloc` succeeds. -/
def pbufOf (bd : BufferDescriptor) (alloc : Bool) : Option (List Byte) :=
  if bits bd.control errMask then none
  else if alloc then some (bd.buffer.take bd.length)
  else none

def advance (n : Nat) (s : Rx) (alloc : Bool) : Rx :=
  match s.pc with
  | .idle => { s with pc := .enter 0 }
  | .enter counter =>
      if counter = 0 then
        if s.rxNotAvail then { s with pc := .idle }
        else { s with rxNotAvail := true, pc := .scan counter s.pRxBD }
      else if counter ≥ n * 2 then { s with pc := .idle }
      else { s with pc := .scan counter s.pRxBD }
  | .scan counter pBD =>
      if (s.ring pBD).empty then { s with pc := .skip counter pBD }
      else { s with pc := .found counter pBD }
  | .skip counter pBD =>
      let pBD := nextBD (s.ring pBD) pBD
      if pBD = s.pRxBD then { s with pc := .idle } else { s with pc := .scan counter pBD }
  | .found counter pBD =>
      { s with pRxBD := nextBD (s.ring s.pRxBD) s.pRxBD, pc := .lowLevelInput counter pBD }
  | .lowLevelInput counter pBD =>
      { s with
        pc := .setEmpty counter pBD
          { frame := s.tag pBD, alloc := alloc, p := pbufOf (s.ring pBD) alloc } }
  | .setEmpty counter pBD input =>
      let bd := s.ring pBD
      { s with
        ring := Function.update s.ring pBD { bd with control := (bd.control &&& kWrap) ||| kEmpty }
        pc := if input.p.isSome then .enter (counter + 1) else .idle
        consumed := s.consumed ++ [input]
        overlooked := s.overlooked || bd.empty || decide (s.tag pBD ≠ input.frame) }

end Rx

inductive RxStep where
  | fill (frame : RxFrame)
  | enetIsr
  | advance (alloc : Bool)
  deriving DecidableEq

def Rx.step (n : Nat) (s : Rx) : RxStep → Rx
  | .fill frame => s.fill frame
  | .enetIsr => s.enetIsr
  | .advance alloc => s.advance n alloc

/-- The ring as `init` sets it up; the buffers are not cleared. -/
def Rx.init (n : Nat) (bufs : Nat → Vector Byte kBufSize) : Rx where
  ring i :=
    { length := 0
      control := if i + 1 = n then kEmpty ||| kWrap else kEmpty
      buffer := (bufs i).toList }

theorem empty_eq (bd : BufferDescriptor) : bd.empty = bd.control.getLsbD 15 :=
  bits_twoPow bd.control 15

theorem Rx.fill_stored (s : Rx) (frame : RxFrame) (empty : (s.ring s.hw).empty = true) :
    s.fill frame = { s with
      ring := Function.update s.ring s.hw (filledBD (s.ring s.hw) frame)
      rxf := true
      hw := nextBD (s.ring s.hw) s.hw
      filled := s.filled ++ [frame]
      tag := Function.update s.tag s.hw s.filled.length } := if_pos empty

theorem Rx.fill_dropped (s : Rx) (frame : RxFrame) (full : ¬ (s.ring s.hw).empty = true) : s.fill frame = s :=
  if_neg full

theorem Rx.filledBD_wrap (bd : BufferDescriptor) (frame : RxFrame) :
    bits (Rx.filledBD bd frame).control kWrap = bits bd.control kWrap := by
  rw [wrap_eq, wrap_eq]
  simp [Rx.filledBD, kEmpty, kWrap]

end QNEthernet.Drivers.Teensy41
