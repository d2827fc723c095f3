import QNEthernet.RawFrame.Output
import QNEthernet.Udp.Transmit

/-! The frames that `EthernetFrame` puts together between `beginFrame` and `endFrame`. -/

namespace QNEthernet.RawFrame

open Lwip Util Drivers

namespace OutFrame

def availableForWrite (port : Port) (out : OutFrame) : Int :=
  if !out.hasValue then 0
  else if out.data.length > port.maxFrameLen then 0
  else ((2 ^ 32 + port.maxFrameLen - out.data.length) % 2 ^ 32 : Nat)

def writeByte (port : Port) (out : OutFrame) (b : Byte) : Nat × OutFrame :=
  if !out.hasValue || out.availableForWrite port ≤ 0 then (0, out)
  else (1, { out with data := out.data ++ [b] })

def writeBytes (port : Port) (out : OutFrame) (buffer : Option (Nat → Byte)) (size : Nat) : Nat × OutFrame :=
  let avail := out.availableForWrite port
  match buffer with
  | none => (0, out)
  | some buffer =>
      if !out.hasValue || size = 0 || avail ≤ 0 then (0, out)
      else
        let actualSize := min size avail.toNat
        (actualSize, { out with data := out.data ++ Memory.window buffer 0 actualSize })

def write (port : Port) (out : OutFrame) : Write → Nat × OutFrame
  | .byte b => out.writeByte port b
  | .bytes buffer size => out.writeBytes port buffer size

def beginFrame (_ : OutFrame) : OutFrame := { hasValue := true, data := [] }

def field (x : UInt16) : List Write := [.byte (x >>> 8).toUInt8, .byte x.toUInt8]

def addresses (dstAddr srcAddr : Nat → Byte) : List Write := [.bytes (some dstAddr) 6, .bytes (some srcAddr) 6]

/-- `beginFrame` with addresses: what its writes return. -/
def beginFrameTo (port : Port) (out : OutFrame) (dstAddr srcAddr : Nat → Byte) (typeOrLength : UInt16) :
    List Nat × OutFrame :=
  Run.trace (write port) out.beginFrame (addresses dstAddr srcAddr ++ field typeOrLength)

/-- What its own writes return. -/
def beginVLANFrame (port : Port) (out : OutFrame) (dstAddr srcAddr : Nat → Byte) (vlanInfo typeOrLength : UInt16) :
    List Nat × OutFrame :=
  Run.trace (write port) (out.beginFrameTo port dstAddr srcAddr ethtypeVlan).2 (field vlanInfo ++ field typeOrLength)

/-- `endFrame` over any `output_frame`, which gets the bytes; there is no result if it is not called. -/
def endFrameOver {ρ : Type} (output : List Byte → ρ) (out : OutFrame) : Option ρ × OutFrame :=
  if out.hasValue = false then (none, out) else (some (output out.data), { hasValue := false, data := [] })

structure Holds (port : Port) (out : OutFrame) (data : List Byte) : Prop where
  same : out = { hasValue := true, data := data }
  atMost : data.length ≤ port.maxFrameLen

variable {port : Port} {out : OutFrame} {data : List Byte}

theorem maxFrameLen_bounds (port : Port) : 18 ≤ port.maxFrameLen ∧ port.maxFrameLen < 2 ^ 31 := by
  cases port <;> decide

theorem Holds.available (holds : Holds port out data) :
    out.availableForWrite port = (port.maxFrameLen : Int) - data.length := by
  have atMost := holds.atMost
  have bounds := maxFrameLen_bounds port
  rw [holds.same]
  simp only [availableForWrite, Bool.not_true, Bool.false_eq_true, if_false]
  split <;> omega

theorem Holds.unchanged (holds : Holds port out data) {piece : List Byte}
    (none : min (port.maxFrameLen - data.length) piece.length = 0) :
    0 = (Limited.put port.maxFrameLen data piece).1 ∧ Holds port out (Limited.put port.maxFrameLen data piece).2 := by
  rw [Limited.put_nothing _ none]
  exact ⟨rfl, holds⟩

theorem Holds.append (holds : Holds port out data) (piece : List Byte) :
    Holds port { out with data := data ++ piece.take (port.maxFrameLen - data.length) }
      (Limited.put port.maxFrameLen data piece).2 where
  same := by
    rw [holds.same]
    rfl
  atMost := Limited.put_atMost _ holds.atMost piece

theorem Holds.write (holds : Holds port out data) (x : Write) :
    (out.write port x).1 = (Limited.put port.maxFrameLen data x.data).1 ∧
      Holds port (out.write port x).2 (Limited.put port.maxFrameLen data x.data).2 := by
  have available := holds.available
  have atMost := holds.atMost
  have pending : out.hasValue = true := by rw [holds.same]
  have content : out.data = data := by rw [holds.same]
  cases x with
  | byte b =>
      simp only [OutFrame.write, writeByte, pending, available, content, Write.data, Bool.not_true, Bool.false_or,
        decide_eq_true_eq]
      split
      · next full => exact holds.unchanged (by omega)
      · next room =>
          have appended := holds.append [b]
          rw [List.take_of_length_le (by rw [List.length_singleton]; omega), pending] at appended
          refine ⟨?_, appended⟩
          simp only [Limited.put, List.length_singleton]
          omega
  | bytes buffer size =>
      cases buffer with
      | none => exact holds.unchanged (by rw [Write.data]; exact Nat.min_zero _)
      | some buffer =>
          have room : ((port.maxFrameLen : Int) - data.length).toNat = port.maxFrameLen - data.length := by omega
          simp only [OutFrame.write, writeBytes, pending, available, content, room, Write.data, Bool.not_true,
            Bool.false_or, Bool.or_eq_true, decide_eq_true_eq]
          split
          · next none =>
              apply holds.unchanged
              rw [Memory.length_window]
              omega
          · have appended := holds.append (Memory.window buffer 0 size)
            rw [Memory.take_window, pending] at appended
            rw [Nat.min_comm size]
            exact ⟨by rw [Limited.put, Memory.length_window], appended⟩

theorem Holds.writes {bytes : List Byte} (holds : Holds port out (bytes.take port.maxFrameLen)) (writes : List Write) :
    Holds port (Run.trace (OutFrame.write port) out writes).2
        ((bytes ++ writes.flatMap Write.data).take port.maxFrameLen) ∧
      (bytes.take port.maxFrameLen).length + (Run.trace (OutFrame.write port) out writes).1.sum =
        ((bytes ++ writes.flatMap Write.data).take port.maxFrameLen).length := by
  obtain ⟨answers, built⟩ := Run.trace_simulates (Holds port) (OutFrame.write port)
    (fun data (x : Write) => Limited.put port.maxFrameLen data x.data)
    (fun _ _ x holds => holds.write x) writes out _ holds
  have content := Limited.trace_put port.maxFrameLen Write.data bytes writes
  have sum := Limited.trace_put_sum port.maxFrameLen Write.data (bytes.take port.maxFrameLen) writes
  rw [content] at built sum
  exact ⟨built, by rw [answers, sum]⟩

theorem beginFrame_holds (port : Port) (out : OutFrame) : Holds port out.beginFrame (([] : List Byte).take port.maxFrameLen) :=
  ⟨by rw [List.take_nil]; rfl, by rw [List.take_nil]; exact Nat.zero_le _⟩

end OutFrame

theorem Enet.outputFrame_congr (e : Enet) {frame frame' : Nat → Byte} {len : Nat}
    (same : ∀ i < len, frame i = frame' i) : e.outputFrame (some frame) len = e.outputFrame (some frame') len := by
  have bytes (n : Nat) (inside : n ≤ len) : bytesAt frame n = bytesAt frame' n := by
    apply List.map_congr_left
    intro i member
    exact same i ((List.mem_range.mp member).trans_le inside)
  unfold Enet.outputFrame
  dsimp only
  by_cases short : len < 6 + 6 + 2
  · rw [if_pos short, if_pos short]
  · rw [if_neg short, if_neg short]
    have vlan : isVlan frame = isVlan frame' := by
      rw [isVlan, isVlan, same 12 (by omega), same 13 (by omega)]
    have ours : e.isOurMAC frame = e.isOurMAC frame' := by
      rw [Enet.isOurMAC, Enet.isOurMAC, bytes 6 (by omega)]
    have everyones : isBroadcast frame = isBroadcast frame' := by
      rw [isBroadcast, isBroadcast, bytes 6 (by omega)]
    have delivered : e.deliver frame len = e.deliver frame' len := by
      rw [Enet.deliver, Enet.deliver, ours, everyones, bytes len (Nat.le_refl len)]
    rw [vlan, delivered]

inductive Start where
  | plain
  | addressed (dstAddr srcAddr : Nat → Byte) (typeOrLength : UInt16)
  | vlan (dstAddr srcAddr : Nat → Byte) (vlanInfo typeOrLength : UInt16)

namespace Start

def «begin» (port : Port) (out : OutFrame) : Start → OutFrame
  | .plain => out.beginFrame
  | .addressed dstAddr srcAddr typeOrLength => (out.beginFrameTo port dstAddr srcAddr typeOrLength).2
  | .vlan dstAddr srcAddr vlanInfo typeOrLength => (out.beginVLANFrame port dstAddr srcAddr vlanInfo typeOrLength).2

def writes : Start → List Write
  | .plain => []
  | .addressed dstAddr srcAddr typeOrLength => OutFrame.addresses dstAddr srcAddr ++ OutFrame.field typeOrLength
  | .vlan dstAddr srcAddr vlanInfo typeOrLength =>
      OutFrame.addresses dstAddr srcAddr ++ OutFrame.field ethtypeVlan ++
        (OutFrame.field vlanInfo ++ OutFrame.field typeOrLength)

/-- The header that a frame has from its beginning. -/
def header (start : Start) : List Byte := start.writes.flatMap Write.data

theorem length_header (start : Start) : start.header.length ≤ 18 := by
  cases start <;> simp [header, writes, OutFrame.addresses, OutFrame.field, Write.data, Memory.length_window]

theorem begin_holds (port : Port) (out : OutFrame) (start : Start) :
    OutFrame.Holds port (start.begin port out) (start.header.take port.maxFrameLen) := by
  have plain := OutFrame.beginFrame_holds port out
  cases start with
  | plain => exact plain
  | addressed dstAddr srcAddr typeOrLength =>
      exact (plain.writes (OutFrame.addresses dstAddr srcAddr ++ OutFrame.field typeOrLength)).1
  | vlan dstAddr srcAddr vlanInfo typeOrLength =>
      have addressed := (plain.writes (OutFrame.addresses dstAddr srcAddr ++ OutFrame.field ethtypeVlan)).1
      have tagged := (addressed.writes (OutFrame.field vlanInfo ++ OutFrame.field typeOrLength)).1
      rwa [List.nil_append, ← List.flatMap_append] at tagged

end Start

namespace OutFrame

variable (port : Port) (out : OutFrame) (dstAddr srcAddr : Nat → Byte) (vlanInfo typeOrLength : UInt16)

theorem beginFrameTo_written : (out.beginFrameTo port dstAddr srcAddr typeOrLength).1.sum = 14 := by
  have bounds := maxFrameLen_bounds port
  have sum := ((beginFrame_holds port out).writes (addresses dstAddr srcAddr ++ field typeOrLength)).2
  have length : ((addresses dstAddr srcAddr ++ field typeOrLength).flatMap Write.data).length = 14 := by
    simp [addresses, field, Write.data, Memory.length_window]
  rw [List.take_nil, List.nil_append, List.length_take, length, List.length_nil] at sum
  rw [beginFrameTo]
  omega

theorem beginVLANFrame_written :
    (out.beginVLANFrame port dstAddr srcAddr vlanInfo typeOrLength).1.sum = 4 := by
  have bounds := maxFrameLen_bounds port
  have addressed := ((beginFrame_holds port out).writes (addresses dstAddr srcAddr ++ field ethtypeVlan)).1
  have sum := (addressed.writes (field vlanInfo ++ field typeOrLength)).2
  have first : ((addresses dstAddr srcAddr ++ field ethtypeVlan).flatMap Write.data).length = 14 := by
    simp [addresses, field, Write.data, Memory.length_window]
  have second : ((field vlanInfo ++ field typeOrLength).flatMap Write.data).length = 4 := by
    simp [field, Write.data]
  rw [List.nil_append, List.length_take, List.length_take, List.length_append, first, second] at sum
  rw [beginVLANFrame, beginFrameTo]
  omega

end OutFrame

section Frames

variable (port : Port) (start : Start) (writes : List Write) (out : OutFrame)

/-- A frame is begun and written to: the answers of the writes, and the frame. -/
def build : List Nat × OutFrame := Run.trace (OutFrame.write port) (start.begin port out) writes

/-- What becomes of a frame: `output_frame` gets what fits of its bytes, as `send` would give it. -/
structure FrameBuilt : Prop where
  data : (build port start writes out).2.data = (start.header ++ writes.flatMap Write.data).take port.maxFrameLen
  sum : start.header.length + (build port start writes out).1.sum = (build port start writes out).2.data.length
  available : (build port start writes out).2.availableForWrite port =
    (port.maxFrameLen : Int) - (build port start writes out).2.data.length
  output : ∀ (ρ : Type) (output : List Byte → ρ), (build port start writes out).2.endFrameOver output =
    (some (output (build port start writes out).2.data), { hasValue := false, data := [] })
  sent : ∀ (e : Enet) (frame : Nat → Byte),
    Memory.window frame 0 (build port start writes out).2.data.length = (build port start writes out).2.data →
      ((build port start writes out).2.endFrame e).1 =
        (SendCall.send (some frame) (build port start writes out).2.data.length).run e

theorem frameBuilt : FrameBuilt port start writes out := by
  obtain ⟨built, sum⟩ := (start.begin_holds port out).writes writes
  have content : (build port start writes out).2 =
      { hasValue := true, data := (start.header ++ writes.flatMap Write.data).take port.maxFrameLen } := built.same
  have header : (start.header.take port.maxFrameLen).length = start.header.length := by
    have bounds := OutFrame.maxFrameLen_bounds port
    have short := start.length_header
    rw [List.length_take]
    omega
  have data : (build port start writes out).2.data = (start.header ++ writes.flatMap Write.data).take port.maxFrameLen := by
    rw [content]
  rw [header] at sum
  constructor
  · exact data
  · rw [data]
    exact sum
  · rw [data]
    exact built.available
  · intro ρ output
    rw [content]
    rfl
  · intro e frame same
    have ended : ((build port start writes out).2.endFrame e).1 = e.outputFrame
        (some fun i => (build port start writes out).2.data.getD i 0) (build port start writes out).2.data.length := by
      rw [content]
      rfl
    rw [ended, SendCall.run]
    apply Enet.outputFrame_congr
    intro i inside
    rw [← same]
    simp [Memory.window, inside]

end Frames

/-- Building a packet or a frame comes to sending what fits of its bytes at once. -/
theorem building_sends :
    (∀ (w : Udp.World) (o : Udp.ObjId) (addr : Udp.IpAddr) (port : UInt16) (writes : List Write)
      (begun ended : Udp.TransmitEnv),
      ((w.endBuilt o addr port writes begun ended).w.obj o).outPacket.hasValue = false ∧
        ((w.beginPacket o addr port begun.create).1 = true → Udp.Built w o addr port writes begun ended) ∧
        ((w.beginPacket o addr port begun.create).1 = false → Udp.NotBuilt w o addr port writes begun ended)) ∧
    ∀ (port : Port) (start : Start) (writes : List Write) (out : OutFrame), FrameBuilt port start writes out :=
  ⟨fun w o addr port writes begun ended =>
    ⟨Udp.World.endPacketData_done _ o ended, w.build_built o addr port writes begun ended,
      w.build_notBuilt o addr port writes begun ended⟩, frameBuilt⟩

def fourBytes : List Write := [.byte 1, .bytes none 5, .bytes (some UInt8.ofNat) 3]

theorem building_sends_fourBytes :
    Udp.Built {} 0 7 53 fourBytes {} {} ∧
      ((({} : Udp.World).endBuilt 0 7 53 fourBytes {} {}).ret,
        (({} : Udp.World).endBuilt 0 7 53 fourBytes {} {}).sendto) =
        (true, some { pcb := some 0, bytes := [1, 0, 1, 2], addr := 7, port := 53 }) ∧
      (({} : Udp.World).sendData 0 7 53 (some fun i => [1, 0, 1, 2].getD i 0) 4 {}).ret = true ∧
      (build .w5500 .plain fourBytes {}).2.data = [1, 0, 1, 2] := by
  have built := (building_sends.1 {} 0 7 53 fourBytes {} {}).2.1 rfl
  refine ⟨built, rfl, ?_, (building_sends.2 .w5500 .plain fourBytes {}).data⟩
  exact (built.sent (by decide) (fun i => [1, 0, 1, 2].getD i 0) rfl).1.symm.trans rfl

end QNEthernet.RawFrame
