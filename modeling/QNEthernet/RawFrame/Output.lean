import QNEthernet.Drivers.Teensy41TxRing
import QNEthernet.Drivers.W5500Stage

/-! The send side of `QNEthernetFrame.cpp`: `enet::output_frame` of `lwip_driver.cpp`, over the
`output_frame` of the Teensy 4.1 driver and of the W5500 driver. -/

namespace QNEthernet

open Lwip

namespace Lwip

/-- The values of `err_enum_t`. -/
def Err.code : Err → Int
  | .ok => 0
  | .mem => -1
  | .buf => -2
  | .timeout => -3
  | .rte => -4
  | .inprogress => -5
  | .val => -6
  | .wouldblock => -7
  | .use => -8
  | .already => -9
  | .isconn => -10
  | .conn => -11
  | .netif => -12
  | .abrt => -13
  | .rst => -14
  | .clsd => -15
  | .arg => -16

/-- An `err_t` where the language wants a `bool`. -/
def Err.toBool (e : Err) : Bool := e.code != 0

end Lwip

/-- What a driver's `output_frame` returns, and the frames that it hands to the hardware. -/
structure DriverResult where
  ret : Bool
  hardware : List (List Byte)
  deriving DecidableEq

namespace Drivers.Teensy41

/-- A descriptor that `get_bufdesc` has found free. -/
structure FreeBD where
  bd : BufferDescriptor
  free : bd.ready = false
  sized : bd.buffer.length = kBufSize

def outputFrame (initState : InitStates) (pBD : FreeBD) (frame : List Byte) : DriverResult :=
  if initState ≠ .initialized then ⟨false, []⟩
  else if frame.length > kBufSize - ethPadSize then ⟨false, []⟩
  else
    let bd := { pBD.bd with buffer := Ring.overwrite pBD.bd.buffer ethPadSize frame }
    -- `update_bufdesc`
    let bd := { bd with length := (frame.length + ethPadSize) % 2 ^ 16 }
    let bd := { bd with control := readyControl bd.control }
    ⟨true, [bd.frame.bytes]⟩

end Drivers.Teensy41

namespace Drivers.W5500

/-- `send_frame` once the chip has room: what it returns, and what the chip is sent as a frame. The
waiting before it only reads registers. -/
def sendFrame (buf : SpiBuf) (ptr : UInt16) (miso : Nat → Byte) (len : Nat) : Err × List (List Byte) :=
  if len = 0 then (.ok, [])
  else (.ok, [((buf.read kSnTxWR miso).writeFrame ⟨ptr, kSocketTx⟩ len miso).2])

def outputFrame (initState : EnetInitStates) (buf : SpiBuf) (ptr : UInt16) (miso : Nat → Byte)
    (frame : List Byte) : DriverResult :=
  if initState ≠ .initialized then ⟨false, []⟩
  else
    let (err, hardware) := sendFrame (buf.store 3 frame) ptr miso frame.length
    ⟨err.toBool, hardware⟩

end Drivers.W5500

namespace RawFrame

/-- The driver of the build, with what its `output_frame` finds. -/
inductive Driver where
  | teensy41 (initState : Drivers.Teensy41.InitStates) (pBD : Drivers.Teensy41.FreeBD)
  | w5500 (initState : Drivers.W5500.EnetInitStates) (buf : Drivers.W5500.SpiBuf) (ptr : UInt16)
      (miso : Nat → Byte)

namespace Driver

def Initialized : Driver → Prop
  | .teensy41 initState _ => initState = .initialized
  | .w5500 initState _ _ _ => initState = .initialized

def port : Driver → Drivers.Port
  | .teensy41 _ _ => .teensy41
  | .w5500 _ _ _ _ => .w5500

def isW5500 : Driver → Bool
  | .teensy41 _ _ => false
  | .w5500 _ _ _ _ => true

def ethPadSize : Driver → Nat
  | .teensy41 _ _ => Drivers.Teensy41.ethPadSize
  | .w5500 _ _ _ _ => 0

def outputFrame (frame : List Byte) : Driver → DriverResult
  | .teensy41 initState pBD => Drivers.Teensy41.outputFrame initState pBD frame
  | .w5500 initState buf ptr miso => Drivers.W5500.outputFrame initState buf ptr miso frame

end Driver

def ethtypeVlan : UInt16 := 0x8100

def kBroadcastMAC : List Byte := [0xff, 0xff, 0xff, 0xff, 0xff, 0xff]

/-- `pool` is what a fresh pbuf holds. -/
structure Enet where
  driver : Driver
  loopback : Bool
  mac : Vector Byte 6
  pool : Nat → Byte

/-- What `output_frame` returns, the frames that the hardware gets, and the pbufs that
`s_netif.input` gets. -/
structure Outcome where
  ret : Bool
  hardware : List (List Byte)
  stack : List (List Byte)
  deriving DecidableEq

def bytesAt (frame : Nat → Byte) (len : Nat) : List Byte := (List.range len).map frame

def isVlan (frame : Nat → Byte) : Bool :=
  frame 12 == (ethtypeVlan >>> 8).toUInt8 && frame 13 == ethtypeVlan.toUInt8

namespace Enet

def isOurMAC (e : Enet) (frame : Nat → Byte) : Bool := bytesAt frame 6 == e.mac.toList

def isBroadcast (frame : Nat → Byte) : Bool := bytesAt frame 6 == kBroadcastMAC

def loopbackPbuf (e : Enet) (frame : List Byte) : List Byte :=
  let p := (List.range ((frame.length + e.driver.ethPadSize) % 2 ^ 16)).map e.pool
  (pbufTakeAt p frame e.driver.ethPadSize).2

def deliver (e : Enet) (frame : Nat → Byte) (len : Nat) : Outcome :=
  let bytes := bytesAt frame len
  if e.loopback ∧ (e.isOurMAC frame ∨ isBroadcast frame) then
    if e.isOurMAC frame then ⟨true, [], [e.loopbackPbuf bytes]⟩
    else
      let sent := e.driver.outputFrame bytes
      ⟨sent.ret, sent.hardware, [e.loopbackPbuf bytes]⟩
  else
    let sent := e.driver.outputFrame bytes
    ⟨sent.ret, sent.hardware, []⟩

def outputFrame (e : Enet) (frame : Option (Nat → Byte)) (len : Nat) : Outcome :=
  match frame with
  | none => ⟨false, [], []⟩
  | some frame =>
      if len < 6 + 6 + 2 then ⟨false, [], []⟩
      else if len > 65535 - e.driver.ethPadSize then ⟨false, [], []⟩
      else if isVlan frame then
        if len < 6 + 6 + 2 + 2 + 2 then ⟨false, [], []⟩
        else if len > e.driver.port.maxFrameLen then ⟨false, [], []⟩
        else e.deliver frame len
      else if e.driver.port.maxFrameLen < 4 ∨ len > e.driver.port.maxFrameLen - 4 then ⟨false, [], []⟩
      else e.deliver frame len

end Enet

structure OutFrame where
  hasValue : Bool := false
  data : List Byte := []
  deriving DecidableEq

namespace OutFrame

def pointer (out : OutFrame) : Option (Nat → Byte) :=
  if out.hasValue then some fun i => out.data.getD i 0 else none

def endFrame (out : OutFrame) (e : Enet) : Outcome × OutFrame :=
  if out.hasValue = false then (⟨false, [], []⟩, out)
  else (e.outputFrame (some fun i => out.data.getD i 0) out.data.length, { hasValue := false, data := [] })

end OutFrame

inductive SendCall where
  | outputFrame (frame : Option (Nat → Byte)) (len : Nat)
  | send (frame : Option (Nat → Byte)) (len : Nat)
  | endFrame (out : OutFrame)

namespace SendCall

def frame : SendCall → Option (Nat → Byte)
  | .outputFrame frame _ => frame
  | .send frame _ => frame
  | .endFrame out => out.pointer

def len : SendCall → Nat
  | .outputFrame _ len => len
  | .send _ len => len
  | .endFrame out => out.data.length

def run (e : Enet) : SendCall → Outcome
  | .outputFrame frame len => e.outputFrame frame len
  | .send frame len => e.outputFrame frame len
  | .endFrame out => (out.endFrame e).1

end SendCall

end RawFrame

namespace Drivers.Teensy41

theorem outputFrame_eq (pBD : FreeBD) (frame : List Byte) (fits : frame.length ≤ kBufSize - ethPadSize) :
    outputFrame .initialized pBD frame = ⟨true, [frame]⟩ := by
  have room : ethPadSize + frame.length ≤ pBD.bd.buffer.length := by
    rw [pBD.sized]
    unfold kBufSize ethPadSize at *
    omega
  have short : (frame.length + ethPadSize) % 2 ^ 16 = ethPadSize + frame.length := by
    unfold kBufSize ethPadSize at *
    omega
  have padding : (pBD.bd.buffer.take ethPadSize).length = ethPadSize := by
    rw [List.length_take]
    omega
  have wire : ((Ring.overwrite pBD.bd.buffer ethPadSize frame).take (ethPadSize + frame.length)).drop ethPadSize
      = frame := by
    rw [Ring.take_overwrite _ _ _ room, List.drop_append, padding, Nat.sub_self, List.drop_zero,
      List.drop_eq_nil_of_le padding.le, List.nil_append]
  simp only [outputFrame, BufferDescriptor.frame, short, wire, ne_eq, not_true_eq_false, if_false,
    if_neg (Nat.not_lt.mpr fits)]

/-- The driver's accesses, when no frame is sent in between, come to what `outputFrame` says. -/
theorem Tx.outputFrame_run (s : Tx) (idle : s.pc = .idle) (pBD : FreeBD) (next : s.ring s.pTxBD = pBD.bd)
    (frame : List Byte) :
    let result := outputFrame s.initState pBD frame
    let t := Tx.advance^[6] (s.call (.outputFrame frame))
    t.pc = .idle ∧ t.answers = s.answers ++ [.flag result.ret] ∧
      (result.ret = true → result.hardware = [(t.ring s.pTxBD).frame.bytes]) := by
  have free : (s.ring s.pTxBD).ready = false := next ▸ pBD.free
  unfold outputFrame Tx.call
  rw [idle]
  dsimp only
  by_cases started : s.initState ≠ .initialized
  · simp [started, Tx.ret, Tx.answer, Tx.advance]
  · by_cases long : frame.length > kBufSize - ethPadSize
    · simp [started, long, Tx.ret, Tx.answer, Tx.advance]
    · simp [started, long, Tx.ret, Tx.answer, Tx.advance, Tx.goto, Tx.write, Tx.copyPoint, free, ← next]

end Drivers.Teensy41

namespace Drivers.W5500

theorem SpiBuf.frame_store (b : SpiBuf) (frame : List Byte) : (b.store 3 frame).frame frame.length = frame :=
  Memory.window_write b 3 frame

theorem outputFrame_eq (buf : SpiBuf) (ptr : UInt16) (miso : Nat → Byte) (frame : List Byte)
    (some_bytes : frame.length ≠ 0) :
    outputFrame .initialized buf ptr miso frame = ⟨false, [frame]⟩ := by
  have written : (((buf.store 3 frame).read kSnTxWR miso).writeFrame ⟨ptr, kSocketTx⟩ frame.length miso).2 = frame := by
    rw [SpiBuf.writeFrame_written, SpiBuf.frame_read, SpiBuf.frame_store]
  simp only [outputFrame, sendFrame, if_neg some_bytes, written, ne_eq, not_true_eq_false, if_false]
  rfl

namespace Stager

/-- What a call to `output_frame` has added to the records so far. -/
def Filed (before : List Record) (f : Frame) (t : Stager) : Prop :=
  match t.pc with
  | .copy job _ | .start job => job = .frame f ∧ t.records = before
  | .waitDone g | .waitSpace g | .writeFrame g => g = f ∧ t.records = before
  | .setTxWr g _ => g = f ∧ ∃ written addr txWr, t.records = before ++ [.frame f.bytes written addr txWr]
  | .sendCommand | .commandWait | .idle =>
      ∃ written addr txWr last next,
        t.records = before ++ [.frame f.bytes written addr txWr, .moved f.bytes last next]

theorem Filed.advance {before : List Record} {f : Frame} {t : Stager} (some_bytes : f.bytes.length ≠ 0)
    (filed : Filed before f t) (a : Answer) : Filed before f (t.advance a) := by
  unfold Filed at filed
  unfold Stager.advance
  split at filed
  · next job i pc =>
      rw [pc]
      dsimp only
      split
      · exact filed
      · exact filed
  · next job pc =>
      obtain ⟨rfl, records⟩ := filed
      rw [pc]
      dsimp only
      rw [if_neg some_bytes]
      exact ⟨rfl, records⟩
  · next g pc =>
      rw [pc]
      dsimp only
      split
      · split
        · simpa only [Filed, pc] using filed
        · exact filed
      · split
        · exact filed
        · split
          · simpa only [Filed, pc] using filed
          · exact filed
  · next g pc =>
      rw [pc]
      dsimp only
      split
      · simpa only [Filed, pc] using filed
      · split
        · exact filed
        · simpa only [Filed, pc] using filed
  · next g pc =>
      obtain ⟨rfl, records⟩ := filed
      rw [pc]
      exact ⟨rfl, _, _, _, by rw [← records]⟩
  · next g ptr pc =>
      obtain ⟨rfl, written, addr, txWr, records⟩ := filed
      rw [pc]
      exact ⟨written, addr, txWr, _, _, by dsimp only; rw [records, List.append_assoc]; rfl⟩
  · next pc =>
      rw [pc]
      exact filed
  · next pc =>
      rw [pc]
      dsimp only
      split
      · simpa only [Filed, pc] using filed
      · exact filed
  · next pc =>
      rw [pc]
      simpa only [Filed, pc] using filed

/-- A call that is left alone and returns has sent the chip what `outputFrame` says, once. -/
theorem outputFrame_run (s : Stager) (intact : s.Intact) (idle : s.pc = .idle)
    (started : s.initState = .initialized) (f : Frame) (some_bytes : f.bytes.length ≠ 0) (answers : List Answer)
    (done : (answers.foldl advance (s.call (.outputFrame f))).pc = .idle) :
    let t := answers.foldl advance (s.call (.outputFrame f))
    ∃ written ptr last, (W5500.outputFrame s.initState s.buf ptr (fun _ => 0) f.bytes).hardware = [written] ∧
      t.records = s.records ++
        [.frame f.bytes written ptr ptr, .moved f.bytes last (last + UInt16.ofNat f.bytes.length)] := by
  have begun : Filed s.records f (s.call (.outputFrame f)) := by
    simp [Filed, call, outputFrame, idle, started]
  have kept := Run.foldl_preserves (fun t => t.Intact ∧ Filed s.records f t) advance
    (fun t a held => ⟨held.1.advance a, held.2.advance some_bytes a⟩) answers _ ⟨intact.call _, begun⟩
  obtain ⟨right, filed⟩ := kept
  simp only [Filed, done] at filed
  obtain ⟨written, addr, txWr, last, next, records⟩ := filed
  obtain ⟨same, place⟩ : written = f.bytes ∧ addr = txWr :=
    right.right (.frame f.bytes written addr txWr) (by simp [records])
  have moved : next = last + UInt16.ofNat f.bytes.length :=
    right.right (.moved f.bytes last next) (by simp [records])
  refine ⟨f.bytes, addr, last, ?_, ?_⟩
  · rw [started, W5500.outputFrame_eq s.buf addr _ f.bytes some_bytes]
  · rw [records, same, ← place, moved]

end Stager

end Drivers.W5500

namespace RawFrame

theorem Driver.ethPadSize_le (d : Driver) : d.ethPadSize ≤ 2 := by
  cases d with
  | teensy41 initState pBD => exact Nat.le_refl 2
  | w5500 initState buf ptr miso => exact Nat.zero_le 2

theorem Driver.maxFrameLen_eq (d : Driver) : d.port.maxFrameLen = 1518 := by
  cases d with
  | teensy41 | w5500 => rfl

namespace Enet

/-- The frames that go out: without a VLAN tag from 14 bytes on, with one from 18 on. -/
def Valid (e : Enet) (frame : Option (Nat → Byte)) (len : Nat) : Prop :=
  ∃ bytes, frame = some bytes ∧
    (isVlan bytes = false ∧ 14 ≤ len ∧ len ≤ e.driver.port.maxFrameLen - 4 ∨
      isVlan bytes = true ∧ 18 ≤ len ∧ len ≤ e.driver.port.maxFrameLen)

/-- The frame comes back to the stack and does not go out. -/
def ToUs (e : Enet) (frame : Option (Nat → Byte)) : Prop :=
  e.loopback = true ∧ ∃ bytes, frame = some bytes ∧ e.isOurMAC bytes = true

def ToAll (e : Enet) (frame : Option (Nat → Byte)) : Prop :=
  e.loopback = true ∧ ∃ bytes, frame = some bytes ∧ isBroadcast bytes = true

/-- The result says whether the frame went where it belongs: just once, byte for byte. -/
structure Exact (e : Enet) (frame : Option (Nat → Byte)) (len : Nat) (o : Outcome) : Prop where
  ret : o.ret = true ↔ e.Valid frame len
  sent : ∀ bytes, frame = some bytes → e.Valid frame len →
    (e.ToUs frame → o.hardware = []) ∧
    (¬ e.ToUs frame → o.hardware = [bytesAt bytes len]) ∧
    (e.ToUs frame ∨ e.ToAll frame → o.stack.map (List.drop e.driver.ethPadSize) = [bytesAt bytes len]) ∧
    (¬ e.ToUs frame → ¬ e.ToAll frame → o.stack = [])
  quiet : o.ret = false → o.hardware = [] ∧ o.stack = []

variable {e : Enet} {frame : Nat → Byte} {len : Nat}

theorem outputFrame_invalid (e : Enet) {frame : Option (Nat → Byte)} (invalid : ¬ e.Valid frame len) :
    e.outputFrame frame len = ⟨false, [], []⟩ := by
  cases frame with
  | none => rfl
  | some frame =>
      simp only [Valid, Option.some.injEq, exists_eq_left'] at invalid
      unfold outputFrame
      dsimp only
      split
      · rfl
      · split
        · rfl
        · have size := e.driver.maxFrameLen_eq
          cases tag : isVlan frame with
          | true =>
              simp only [if_true]
              split
              · rfl
              · split
                · rfl
                · exact absurd (.inr ⟨tag, by omega, by omega⟩) invalid
          | false =>
              simp only [Bool.false_eq_true, if_false]
              split
              · rfl
              · exact absurd (.inl ⟨tag, by omega, by omega⟩) invalid

theorem Valid.bounds (valid : e.Valid (some frame) len) : 14 ≤ len ∧ len ≤ 1518 := by
  have size := e.driver.maxFrameLen_eq
  obtain ⟨_, -, ⟨-, low, high⟩ | ⟨-, low, high⟩⟩ := valid
  · exact ⟨low, by omega⟩
  · exact ⟨by omega, by omega⟩

theorem outputFrame_valid (e : Enet) (valid : e.Valid (some frame) len) :
    e.outputFrame (some frame) len = e.deliver frame len := by
  obtain ⟨low, high⟩ := Valid.bounds valid
  simp only [Valid, Option.some.injEq, exists_eq_left'] at valid
  have pad := e.driver.ethPadSize_le
  have size := e.driver.maxFrameLen_eq
  unfold outputFrame
  dsimp only
  rw [if_neg (by omega), if_neg (by omega)]
  rcases valid with ⟨tag, low, high⟩ | ⟨tag, low, high⟩
  · rw [tag, if_neg Bool.false_ne_true, if_neg (by omega)]
  · rw [tag, if_pos rfl, if_neg (by omega), if_neg (by omega)]

theorem length_bytesAt : (bytesAt frame len).length = len := by
  simp [bytesAt]

theorem loopbackPbuf_drop (e : Enet) (bytes : List Byte) (some_bytes : bytes.length ≠ 0)
    (short : bytes.length ≤ 1518) : (e.loopbackPbuf bytes).drop e.driver.ethPadSize = bytes := by
  have pad := e.driver.ethPadSize_le
  have fits : (bytes.length + e.driver.ethPadSize) % 2 ^ 16 = e.driver.ethPadSize + bytes.length := by
    omega
  have room (p : List Byte) (length : p.length = e.driver.ethPadSize + bytes.length) :
      (pbufTakeAt p bytes e.driver.ethPadSize).2 = p.take e.driver.ethPadSize ++ bytes := by
    rw [pbufTakeAt, if_pos ⟨by omega, by omega⟩]
    exact Ring.overwrite_end p _ bytes length.symm
  have padding : (((List.range (e.driver.ethPadSize + bytes.length)).map e.pool).take
      e.driver.ethPadSize).length = e.driver.ethPadSize := by
    simp
  rw [loopbackPbuf, fits, room _ (by simp), List.drop_append, padding, Nat.sub_self, List.drop_zero,
    List.drop_eq_nil_of_le padding.le, List.nil_append]

theorem driver_outputFrame (ready : e.driver.Initialized) (bytes : List Byte) (some_bytes : bytes.length ≠ 0)
    (short : bytes.length ≤ 1518) : e.driver.outputFrame bytes = ⟨!e.driver.isW5500, [bytes]⟩ := by
  cases driver : e.driver with
  | teensy41 initState pBD =>
      rw [driver] at ready
      cases ready
      exact Drivers.Teensy41.outputFrame_eq pBD bytes (short.trans (by decide))
  | w5500 initState buf ptr miso =>
      rw [driver] at ready
      cases ready
      exact Drivers.W5500.outputFrame_eq buf ptr miso bytes some_bytes

theorem deliver_toUs (valid : e.Valid (some frame) len) (ours : e.ToUs (some frame)) :
    (e.deliver frame len).ret = true ∧ (e.deliver frame len).hardware = [] ∧
      (e.deliver frame len).stack.map (List.drop e.driver.ethPadSize) = [bytesAt frame len] := by
  obtain ⟨low, high⟩ := Valid.bounds valid
  obtain ⟨loopback, _, same, mac⟩ := ours
  cases same
  have back := e.loopbackPbuf_drop (bytesAt frame len) (by rw [length_bytesAt]; omega) (by rw [length_bytesAt]; omega)
  simp [deliver, loopback, mac, back]

theorem deliver_out (ready : e.driver.Initialized) (valid : e.Valid (some frame) len) (ours : ¬ e.ToUs (some frame)) :
    (e.deliver frame len).ret = !e.driver.isW5500 ∧ (e.deliver frame len).hardware = [bytesAt frame len] ∧
      (e.ToAll (some frame) →
        (e.deliver frame len).stack.map (List.drop e.driver.ethPadSize) = [bytesAt frame len]) ∧
      (¬ e.ToAll (some frame) → (e.deliver frame len).stack = []) := by
  obtain ⟨low, high⟩ := Valid.bounds valid
  have nonempty : (bytesAt frame len).length ≠ 0 := by rw [length_bytesAt]; omega
  have short : (bytesAt frame len).length ≤ 1518 := by rw [length_bytesAt]; omega
  have back := e.loopbackPbuf_drop (bytesAt frame len) nonempty short
  have sent := driver_outputFrame ready (bytesAt frame len) nonempty short
  have other : e.loopback = true → e.isOurMAC frame = false := by
    intro loopback
    exact Bool.eq_false_iff.mpr fun mac => ours ⟨loopback, frame, rfl, mac⟩
  cases loopback : e.loopback with
  | false => simp [deliver, loopback, sent, ToAll]
  | true => cases all : isBroadcast frame <;> simp [deliver, loopback, sent, ToAll, all, other loopback, back]

end Enet

theorem SendCall.run_eq (e : Enet) (c : SendCall) : c.run e = e.outputFrame c.frame c.len := by
  cases c with
  | outputFrame frame len => rfl
  | send frame len => rfl
  | endFrame out =>
      cases begun : out.hasValue with
      | false => simp [SendCall.run, SendCall.frame, OutFrame.endFrame, OutFrame.pointer, begun, Enet.outputFrame]
      | true => simp [SendCall.run, SendCall.frame, SendCall.len, OutFrame.endFrame, OutFrame.pointer, begun]

/-- The result is exact unless the frame goes out by the W5500. -/
theorem SendCall.exact_iff (e : Enet) (ready : e.driver.Initialized) (c : SendCall) :
    e.Exact c.frame c.len (c.run e) ↔
      ¬ (e.driver.isW5500 = true ∧ e.Valid c.frame c.len ∧ ¬ e.ToUs c.frame) := by
  rw [c.run_eq e]
  generalize c.frame = frame, c.len = len
  by_cases valid : e.Valid frame len
  · obtain ⟨bytes, rfl, -⟩ := id valid
    rw [e.outputFrame_valid valid]
    by_cases ours : e.ToUs (some bytes)
    · obtain ⟨ret, hardware, stack⟩ := Enet.deliver_toUs valid ours
      refine iff_of_true ⟨by simp [ret, valid], ?_, by simp [ret]⟩ (fun bad => bad.2.2 ours)
      intro _ same _
      cases same
      exact ⟨fun _ => hardware, fun out => absurd ours out, fun _ => stack, fun out => absurd ours out⟩
    · obtain ⟨ret, hardware, broadcast, unicast⟩ := Enet.deliver_out ready valid ours
      constructor
      · intro exactly bad
        obtain ⟨chip, -, -⟩ := bad
        have told := exactly.ret.mpr valid
        rw [ret, chip] at told
        cases told
      · intro other
        have chip : e.driver.isW5500 = false := Bool.eq_false_iff.mpr fun chip => other ⟨chip, valid, ours⟩
        rw [chip] at ret
        refine ⟨by simp [ret, valid], ?_, by simp [ret]⟩
        intro _ same _
        cases same
        exact ⟨fun back => absurd back ours, fun _ => hardware,
          fun back => back.elim (fun back => absurd back ours) broadcast, fun _ => unicast⟩
  · rw [e.outputFrame_invalid valid]
    refine iff_of_true ⟨by simp [valid], fun _ _ good => absurd good valid, fun _ => ⟨rfl, rfl⟩⟩ ?_
    exact fun bad => valid bad.2.1

def teensy : Enet where
  driver := .teensy41 .initialized
    ⟨{ length := 0, control := 0, buffer := List.replicate Drivers.Teensy41.kBufSize 0 }, by decide,
      List.length_replicate⟩
  loopback := true
  mac := #v[2, 0, 0, 0, 0, 1]
  pool _ := 0

theorem SendCall.exact_teensy :
    teensy.Exact (some fun _ => 7) 60 ((SendCall.send (some fun _ => 7) 60).run teensy) :=
  (SendCall.exact_iff teensy rfl (.send (some fun _ => 7) 60)).mpr (fun bad => Bool.false_ne_true bad.1)

/-- A frame of 14 bytes goes out by the W5500, and `send` returns `false`. -/
theorem SendCall.w5500_denies :
    let e : Enet := { teensy with driver := .w5500 .initialized (fun _ => 0) 0 fun _ => 0 }
    let o := (SendCall.send (some fun _ => 7) 14).run e
    o = ⟨false, [List.replicate 14 7], []⟩ ∧ ¬ e.Exact (some fun _ => 7) 14 o := by
  intro e o
  have sent : o = ⟨false, [List.replicate 14 7], []⟩ := by decide
  refine ⟨sent, fun exactly => ?_⟩
  have quiet := (exactly.quiet (by rw [sent])).1
  rw [sent] at quiet
  cases quiet

end RawFrame

end QNEthernet
