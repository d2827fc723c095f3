import QNEthernet.Internal.CircularBuffer
import QNEthernet.Lwip.Pbuf

/-! The receive side of `QNEthernetFrame.cpp`. -/

namespace QNEthernet.RawFrame

open Internal Lwip

structure Frame where
  data : List Byte := []
  receivedTimestamp : UInt32 := 0
  deriving DecidableEq, Repr, Inhabited

/-- A move takes the data vector and copies the timestamp. -/
def Frame.movedFrom (frame : Frame) : Frame := { frame with data := [] }

/-- `returned` is a history variable: it counts the frames that `parseFrame` made current. -/
structure EthernetFrame where
  inBuf : CircularBuffer Frame := CircularBuffer.make 1
  frame : Frame := {}
  framePos : Int := -1
  droppedReceiveCount : UInt32 := 0
  totalReceiveCount : UInt32 := 0
  returned : Nat := 0

namespace EthernetFrame

def fillFrame (slot : Frame) (p : Pbuf) (now : UInt32) : Frame :=
  let frame := { slot with data := [] }
  let frame := if p.totLen > 0 then { frame with data := insertLinks frame.data p.links } else frame
  { frame with receivedTimestamp := now }

def recvFunc (f : EthernetFrame) (arrival : Pbuf × UInt32) : EthernetFrame :=
  let f := if f.inBuf.full then { f with droppedReceiveCount := f.droppedReceiveCount + 1 } else f
  let slot := f.inBuf.put
  let frame := fillFrame (slot.2.buf.getD slot.1 default) arrival.1 arrival.2
  { f with
    inBuf := slot.2.store slot.1 frame
    totalReceiveCount := f.totalReceiveCount + 1 }

def loop (f : EthernetFrame) (arrivals : List (Pbuf × UInt32)) : EthernetFrame :=
  arrivals.foldl recvFunc f

/-- The frame is popped before the stack runs, unlike `EthernetUDP::parsePacket`. -/
def parseFrame (f : EthernetFrame) (arrivals : List (Pbuf × UInt32)) : Int × EthernetFrame :=
  if f.inBuf.empty then (-1, { f with framePos := -1 })
  else
    let popped := f.inBuf.get Frame.movedFrom
    let f := { f with frame := popped.1, inBuf := popped.2, returned := f.returned + 1 }
    let f := f.loop arrivals
    if f.frame.data.length > 0 then (f.frame.data.length, { f with framePos := 0 })
    else (0, { f with framePos := -1 })

def setReceiveQueueCapacity (f : EthernetFrame) (capacity : Nat) : EthernetFrame :=
  { f with inBuf := f.inBuf.setCapacity capacity }

end EthernetFrame

inductive Call where
  | loop (arrivals : List (Pbuf × UInt32))
  | parseFrame (arrivals : List (Pbuf × UInt32))
  | setReceiveQueueCapacity (capacity : Nat)

def EthernetFrame.call (f : EthernetFrame) : Call → EthernetFrame
  | .loop arrivals => f.loop arrivals
  | .parseFrame arrivals => (f.parseFrame arrivals).2
  | .setReceiveQueueCapacity capacity => f.setReceiveQueueCapacity capacity

end QNEthernet.RawFrame
