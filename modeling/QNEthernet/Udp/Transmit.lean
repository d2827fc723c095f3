import QNEthernet.Lib.Limited
import QNEthernet.Udp.Receive
import QNEthernet.Util.PrintUtils

/-! The datagrams of `EthernetUDP`: one that is put together between `beginPacket` and `endPacket`, and
one that is sent at once. -/

namespace QNEthernet.Lwip

theorem pbufTake_allocated (pool data : Nat → Byte) (len : Nat) :
    pbufTake (Memory.window pool 0 len) (some data) len = (.ok, Memory.window data 0 len) := by
  have length := Memory.length_window pool 0 len
  rw [pbufTake, if_neg (by omega), List.drop_of_length_le length.le, List.append_nil]

theorem pbufTake_some (pool data : Nat → Byte) (len : Nat) :
    (if len = 0 then (.ok, Memory.window pool 0 len) else pbufTake (Memory.window pool 0 len) (some data) len) =
      (.ok, Memory.window data 0 len) := by
  split
  · next none =>
      subst none
      rfl
  · exact pbufTake_allocated pool data len

theorem pbufTake_vector (pool : Nat → Byte) (data : List Byte) :
    (if data.isEmpty then (.ok, Memory.window pool 0 data.length)
      else pbufTake (Memory.window pool 0 data.length) (some fun i => data.getD i 0) data.length) = (.ok, data) := by
  have took := pbufTake_some pool (fun i => data.getD i 0) data.length
  rw [Memory.window_getD] at took
  simpa only [List.isEmpty_iff_length_eq_zero] using took

end QNEthernet.Lwip

namespace QNEthernet.Udp

open Lwip Util

structure Sendto where
  pcb : Option PcbId
  bytes : List Byte
  addr : IpAddr
  port : UInt16
  deriving DecidableEq

/-- How the lwIP calls turn out: what `udp_new_ip_type` and `pbuf_alloc` find, a fresh chain's content,
and what `udp_sendto` makes of a datagram. -/
structure TransmitEnv where
  alloc : Bool := true
  pbufAlloc : Nat → Bool := fun _ => true
  pool : Nat → Byte := fun _ => 0
  sendto : Sendto → Err := fun _ => .ok
  loop : List (PcbId × Option Datagram) := []

def TransmitEnv.create (env : TransmitEnv) : World.Env := { alloc := env.alloc, loop := env.loop }

/-- The first check of `udp_sendto` is for the block. -/
def TransmitEnv.udpSendto (env : TransmitEnv) (s : Sendto) : Err := if s.pcb = none then .arg else env.sendto s

/-- The result of a call, and the datagram that it gave to lwIP. -/
structure Transmission where
  ret : Bool
  sendto : Option Sendto := none
  w : World

namespace World

def setOutData (w : World) (o : ObjId) (data : List Byte) : World :=
  let u := w.obj o
  w.setObj o { u with outPacket := { u.outPacket with value := { u.outPacket.value with data := data } } }

def writeByte (w : World) (o : ObjId) (b : Byte) : Nat × World :=
  let u := w.obj o
  if !u.outPacket.hasValue then (0, w)
  else if u.outPacket.value.data.length ≥ kMaxPossiblePayloadSize then (0, w)
  else (1, w.setOutData o (u.outPacket.value.data ++ [b]))

def writeBytes (w : World) (o : ObjId) (buffer : Option (Nat → Byte)) (size : Nat) : Nat × World :=
  let u := w.obj o
  match buffer with
  | none => (0, w)
  | some buffer =>
      if !u.outPacket.hasValue || size = 0 then (0, w)
      else
        let data := u.outPacket.value.data
        let actualSize := min ((2 ^ 32 + kMaxPossiblePayloadSize - data.length) % 2 ^ 32) size
        (actualSize, w.setOutData o (data ++ Memory.window buffer 0 actualSize))

def writeOut (w : World) (o : ObjId) : Write → Nat × World
  | .byte b => w.writeByte o b
  | .bytes buffer size => w.writeBytes o buffer size

def availableForWrite (w : World) (o : ObjId) : Int :=
  let u := w.obj o
  if !u.outPacket.hasValue then 0
  else if u.outPacket.value.data.length ≥ kMaxPossiblePayloadSize then 0
  else ((2 ^ 32 + kMaxPossiblePayloadSize - u.outPacket.value.data.length) % 2 ^ 32 : Nat)

def endPacketData (w : World) (o : ObjId) (env : TransmitEnv) : Transmission :=
  let u := w.obj o
  if !u.outPacket.hasValue then { ret := false, w := w }
  else
    let op := u.outPacket.value
    let outSize := op.data.length % 2 ^ 16
    if !env.pbufAlloc outSize then { ret := false, w := (w.dropOutPacket o).loop env.loop }
    else
      let p := Memory.window env.pool 0 outSize
      -- pbuf_take() considers NULL data an error
      match if op.data.isEmpty then (.ok, p) else pbufTake p (some fun i => op.data.getD i 0) outSize with
      | (.ok, p) =>
          let s : Sendto := { pcb := u.pcb, bytes := p, addr := op.addr, port := op.port }
          { ret := decide (env.udpSendto s = .ok), sendto := some s, w := (w.udpSendto u.pcb).dropOutPacket o }
      | _ => { ret := false, w := (w.dropOutPacket o).loop env.loop }

def sendData (w : World) (o : ObjId) (addr : IpAddr) (port : UInt16) (data : Option (Nat → Byte)) (len : Nat)
    (env : TransmitEnv) : Transmission :=
  if len > kMaxPossiblePayloadSize then { ret := false, w := w }
  else
    match w.tryCreatePCB o env.create with
    | (false, w) => { ret := false, w := w }
    | (true, w) =>
        -- Adjust the length's type to 16 bits
        let adjLen := len % 2 ^ 16
        if !env.pbufAlloc adjLen then { ret := false, w := w.loop env.loop }
        else
          let p := Memory.window env.pool 0 adjLen
          -- pbuf_take() considers NULL data an error
          match if adjLen = 0 then (.ok, p) else pbufTake p data adjLen with
          | (.ok, p) =>
              let s : Sendto := { pcb := (w.obj o).pcb, bytes := p, addr := addr, port := port }
              { ret := decide (env.udpSendto s = .ok), sendto := some s, w := w.udpSendto (w.obj o).pcb }
          | _ => { ret := false, w := w }

variable {w : World} {o : ObjId}

theorem setOutData_obj (w : World) (o : ObjId) (data : List Byte) :
    (w.setOutData o data).obj o = { w.obj o with
      outPacket := { (w.obj o).outPacket with value := { (w.obj o).outPacket.value with data := data } } } :=
  setObj_obj_self ..

theorem setOutData_self (w : World) (o : ObjId) : w.setOutData o (w.obj o).outPacket.value.data = w := by
  rw [setOutData, setObj, Function.update_eq_self]

theorem setOutData_again (w : World) (o : ObjId) (data data' : List Byte) :
    (w.setOutData o data).setOutData o data' = w.setOutData o data' := by
  rw [setOutData, setOutData_obj, setOutData, setOutData, setObj, setObj, setObj, Function.update_idem]

/-- There is a packet, and the world is as it was when it was begun but for its data. -/
structure Building (begun : World) (o : ObjId) (w : World) (data : List Byte) : Prop where
  same : w = begun.setOutData o data
  pending : (begun.obj o).outPacket.hasValue = true
  atMost : data.length ≤ kMaxPossiblePayloadSize

variable {begun : World} {data : List Byte}

theorem Building.obj (building : Building begun o w data) :
    (w.obj o).outPacket.hasValue = true ∧ (w.obj o).outPacket.value.data = data := by
  rw [building.same, setOutData_obj]
  exact ⟨building.pending, rfl⟩

theorem Building.unchanged (building : Building begun o w data) {piece : List Byte}
    (none : min (kMaxPossiblePayloadSize - data.length) piece.length = 0) :
    0 = (Limited.put kMaxPossiblePayloadSize data piece).1 ∧
      Building begun o w (Limited.put kMaxPossiblePayloadSize data piece).2 := by
  rw [Limited.put_nothing _ none]
  exact ⟨rfl, building⟩

theorem Building.append (building : Building begun o w data) (piece : List Byte) :
    Building begun o (w.setOutData o (data ++ piece.take (kMaxPossiblePayloadSize - data.length)))
      (Limited.put kMaxPossiblePayloadSize data piece).2 where
  same := by
    rw [building.same, setOutData_again]
    rfl
  pending := building.pending
  atMost := Limited.put_atMost _ building.atMost piece

theorem Building.write (building : Building begun o w data) (x : Write) :
    (w.writeOut o x).1 = (Limited.put kMaxPossiblePayloadSize data x.data).1 ∧
      Building begun o (w.writeOut o x).2 (Limited.put kMaxPossiblePayloadSize data x.data).2 := by
  obtain ⟨pending, content⟩ := building.obj
  have atMost := building.atMost
  cases x with
  | byte b =>
      simp only [writeOut, writeByte, pending, content, Write.data, Bool.not_true, Bool.false_eq_true, if_false]
      split
      · next full => exact building.unchanged (by omega)
      · next room =>
          have appended := building.append [b]
          rw [List.take_of_length_le (by rw [List.length_singleton]; omega)] at appended
          refine ⟨?_, appended⟩
          simp only [Limited.put, List.length_singleton]
          omega
  | bytes buffer size =>
      cases buffer with
      | none => exact building.unchanged (by rw [Write.data]; exact Nat.min_zero _)
      | some buffer =>
          have room : (2 ^ 32 + kMaxPossiblePayloadSize - data.length) % 2 ^ 32 =
              kMaxPossiblePayloadSize - data.length := by
            unfold kMaxPossiblePayloadSize at *
            omega
          simp only [writeOut, writeBytes, pending, content, Write.data, Bool.not_true, Bool.false_or,
            decide_eq_true_eq, room]
          split
          · next empty =>
              subst empty
              exact building.unchanged (Nat.min_zero _)
          · have appended := building.append (Memory.window buffer 0 size)
            rw [Memory.take_window] at appended
            exact ⟨by rw [Limited.put, Memory.length_window], appended⟩

theorem Building.writeBytes_eq (building : Building begun o w data) (buffer : Nat → Byte) (size : Nat) :
    w.writeBytes o (some buffer) size = World.write w o (Memory.window buffer 0 size) := by
  obtain ⟨pending, content⟩ := building.obj
  have atMost := building.atMost
  have room : (2 ^ 32 + kMaxPossiblePayloadSize - data.length) % 2 ^ 32 = kMaxPossiblePayloadSize - data.length := by
    unfold kMaxPossiblePayloadSize at *
    omega
  have cut : (Memory.window buffer 0 size).take (min (kMaxPossiblePayloadSize - data.length) size) =
      Memory.window buffer 0 (min (kMaxPossiblePayloadSize - data.length) size) := by
    rw [Memory.take_window, Nat.min_eq_left (Nat.min_le_right _ _)]
  simp only [writeBytes, World.write, setOutData, pending, content, room, Bool.not_true, Bool.false_or,
    decide_eq_true_eq, List.isEmpty_iff_length_eq_zero, Memory.length_window, cut]

theorem Building.available (building : Building begun o w data) :
    w.availableForWrite o = (kMaxPossiblePayloadSize : Int) - data.length := by
  obtain ⟨pending, content⟩ := building.obj
  have atMost := building.atMost
  simp only [availableForWrite, pending, content, Bool.not_true, Bool.false_eq_true, if_false]
  unfold kMaxPossiblePayloadSize at *
  split <;> omega

theorem Building.writes (building : Building begun o w []) (writes : List Write) :
    Building begun o (Run.trace (writeOut · o) w writes).2
        ((writes.flatMap Write.data).take kMaxPossiblePayloadSize) ∧
      (Run.trace (writeOut · o) w writes).1.sum =
        ((writes.flatMap Write.data).take kMaxPossiblePayloadSize).length := by
  obtain ⟨answers, built⟩ := Run.trace_simulates (Building begun o) (writeOut · o)
    (fun data (x : Write) => Limited.put kMaxPossiblePayloadSize data x.data)
    (fun _ _ x building => building.write x) writes w [] building
  have content := Limited.trace_put kMaxPossiblePayloadSize Write.data [] writes
  have sum := Limited.trace_put_sum kMaxPossiblePayloadSize Write.data [] writes
  rw [List.take_nil, List.nil_append] at content
  rw [content] at built sum
  rw [List.length_nil, Nat.zero_add] at sum
  exact ⟨built, by rw [answers, sum]⟩

/-- What the stack does on its own leaves an object's packets alone, and gives it no block. -/
structure Idle (u u' : EthernetUDP) : Prop where
  outPacket : u'.outPacket = u.outPacket
  pcb : u.pcb = none → u'.pcb = none

theorem Idle.refl (u : EthernetUDP) : Idle u u := ⟨rfl, id⟩

theorem Idle.trans {u u' u'' : EthernetUDP} (first : Idle u u') (then_ : Idle u' u'') : Idle u u'' :=
  ⟨then_.outPacket.trans first.outPacket, then_.pcb ∘ first.pcb⟩

theorem setObj_idle (w : World) (o o' : ObjId) (u : EthernetUDP) (idle : Idle (w.obj o') u) :
    Idle (w.obj o) ((w.setObj o' u).obj o) := by
  by_cases target : o = o'
  · subst target
    rwa [setObj_obj_self]
  · rw [setObj_obj_ne w o' o u target]
    exact Idle.refl _

theorem stop_idle (w : World) (o o' : ObjId) : Idle (w.obj o) ((w.stop o').obj o) := by
  unfold stop
  split
  · exact Idle.refl _
  next p held =>
    have left : Idle (w.obj o) ((w.leaveMulticast o').obj o) := by
      unfold leaveMulticast
      dsimp only
      split
      · exact setObj_idle { w with groups := _ } o o' _ ⟨rfl, id⟩
      · exact Idle.refl _
    exact left.trans (setObj_idle ((w.leaveMulticast o').udpRemove p) o o' _ ⟨rfl, fun _ => rfl⟩)

theorem deliver_idle (w : World) (o : ObjId) (arrival : PcbId × Option Datagram) :
    Idle (w.obj o) ((w.deliver arrival).obj o) := by
  unfold deliver
  split
  · exact Idle.refl _
  next o' _ =>
    cases arrival.2 with
    | none => exact stop_idle w o o'
    | some d =>
        apply setObj_idle w o o'
        split <;> exact ⟨rfl, id⟩

theorem loop_idle (w : World) (o : ObjId) (arrivals : List (PcbId × Option Datagram)) :
    Idle (w.obj o) ((w.loop arrivals).obj o) := by
  induction arrivals generalizing w with
  | nil => exact Idle.refl _
  | cons arrival arrivals ih => exact (deliver_idle w o arrival).trans (ih (w.deliver arrival))

theorem dropOutPacket_loop (w : World) (o : ObjId) (arrivals : List (PcbId × Option Datagram)) :
    (((w.dropOutPacket o).loop arrivals).obj o).outPacket.hasValue = false := by
  rw [(loop_idle _ o arrivals).outPacket, dropOutPacket, setObj_obj_self]

theorem endPacketData_done (w : World) (o : ObjId) (env : TransmitEnv) :
    ((w.endPacketData o env).w.obj o).outPacket.hasValue = false := by
  rw [endPacketData]
  split
  · next none => simpa using none
  · dsimp only
    split
    · exact dropOutPacket_loop w o env.loop
    · split
      · rw [dropOutPacket, setObj_obj_self]
      · exact dropOutPacket_loop w o env.loop

theorem Building.outSize (building : Building begun o w data) : data.length % 2 ^ 16 = data.length := by
  have atMost := building.atMost
  unfold kMaxPossiblePayloadSize at atMost
  omega

theorem Building.ended (building : Building begun o w data) (env : TransmitEnv) :
    let s : Sendto :=
      { pcb := (begun.obj o).pcb
        bytes := data
        addr := (begun.obj o).outPacket.value.addr
        port := (begun.obj o).outPacket.value.port }
    (w.endPacketData o env).ret = (env.pbufAlloc data.length && decide (env.udpSendto s = .ok)) ∧
      (w.endPacketData o env).sendto = if env.pbufAlloc data.length then some s else none := by
  intro s
  rw [building.same]
  simp only [endPacketData, building.pending, Bool.not_true, Bool.false_eq_true, if_false, setOutData_obj,
    building.outSize, pbufTake_vector]
  by_cases room : env.pbufAlloc data.length = true
  · simp only [room, Bool.not_true, Bool.false_eq_true, if_false, if_true, Bool.true_and]
    exact ⟨rfl, rfl⟩
  · simp [room]

theorem Building.endPacket_eq (building : Building begun o w data) (env : TransmitEnv) :
    ((w.endPacketData o env).ret, (w.endPacketData o env).w) = w.endPacket o
      { pbufAlloc := env.pbufAlloc data.length
        bindErr := env.udpSendto
          { pcb := (begun.obj o).pcb
            bytes := data
            addr := (begun.obj o).outPacket.value.addr
            port := (begun.obj o).outPacket.value.port }
        loop := env.loop } := by
  rw [building.same]
  simp only [endPacketData, World.endPacket, building.pending, Bool.not_true, Bool.false_eq_true, if_false,
    setOutData_obj, building.outSize, pbufTake_vector]
  by_cases room : env.pbufAlloc data.length = true
  · simp only [room, Bool.not_true, Bool.false_eq_true, if_false]
  · simp [room]

theorem sendData_eq (w : World) (o : ObjId) (addr : IpAddr) (port : UInt16) (data : Nat → Byte) {len : Nat}
    (small : len ≤ kMaxPossiblePayloadSize) (env : TransmitEnv) (created : (w.tryCreatePCB o env.create).1 = true) :
    let s : Sendto :=
      { pcb := ((w.tryCreatePCB o env.create).2.obj o).pcb
        bytes := Memory.window data 0 len
        addr := addr
        port := port }
    (w.sendData o addr port (some data) len env).ret = (env.pbufAlloc len && decide (env.udpSendto s = .ok)) ∧
      (w.sendData o addr port (some data) len env).sendto = if env.pbufAlloc len then some s else none := by
  intro s
  have size : len % 2 ^ 16 = len := by
    unfold kMaxPossiblePayloadSize at small
    omega
  have block : w.tryCreatePCB o env.create = (true, (w.tryCreatePCB o env.create).2) := Prod.ext created rfl
  rw [sendData, if_neg (Nat.not_lt.mpr small), block]
  simp only [size, pbufTake_some]
  by_cases room : env.pbufAlloc len = true
  · simp only [room, Bool.not_true, Bool.false_eq_true, if_false, if_true, Bool.true_and]
    exact ⟨rfl, rfl⟩
  · simp [room]

theorem sendData_failed (w : World) (o : ObjId) (addr : IpAddr) (port : UInt16) (data : Option (Nat → Byte)) (len : Nat)
    (env : TransmitEnv) (failed : (w.tryCreatePCB o env.create).1 = false) :
    (w.sendData o addr port data len env).ret = false := by
  have block : w.tryCreatePCB o env.create = (false, (w.tryCreatePCB o env.create).2) := Prod.ext failed rfl
  rw [sendData, block]
  split <;> rfl

theorem beginPacket_eq (w : World) (o : ObjId) (addr : IpAddr) (port : UInt16) (env : Env) :
    (w.beginPacket o addr port env).1 = (w.tryCreatePCB o env).1 := by
  rw [beginPacket]
  split <;> next created => rw [created]

theorem beginPacket_building (w : World) (o : ObjId) (addr : IpAddr) (port : UInt16) (env : Env)
    (begun : (w.beginPacket o addr port env).1 = true) :
    Building (w.beginPacket o addr port env).2 o (w.beginPacket o addr port env).2 [] ∧
      ((w.beginPacket o addr port env).2.obj o).pcb = ((w.tryCreatePCB o env).2.obj o).pcb ∧
      ((w.beginPacket o addr port env).2.obj o).outPacket.value.addr = addr ∧
      ((w.beginPacket o addr port env).2.obj o).outPacket.value.port = port := by
  rw [beginPacket_eq] at begun
  have block : w.tryCreatePCB o env = (true, (w.tryCreatePCB o env).2) := Prod.ext begun rfl
  have packet : ((w.beginPacket o addr port env).2.obj o) = { (w.tryCreatePCB o env).2.obj o with
      outPacket :=
        { hasValue := true
          value := { ((w.tryCreatePCB o env).2.obj o).outPacket.value with addr := addr, port := port, data := [] } } } := by
    rw [beginPacket, block, setObj_obj_self]
  have same := setOutData_self (w.beginPacket o addr port env).2 o
  rw [packet] at same ⊢
  exact ⟨⟨same.symm, by rw [packet], Nat.zero_le _⟩, rfl, rfl, rfl⟩

theorem beginPacket_failed (w : World) (o : ObjId) (addr : IpAddr) (port : UInt16) (env : Env)
    (failed : (w.beginPacket o addr port env).1 = false) :
    ((w.beginPacket o addr port env).2.obj o).pcb = none := by
  rw [beginPacket_eq] at failed
  have block : w.tryCreatePCB o env = (false, (w.tryCreatePCB o env).2) := Prod.ext failed rfl
  rw [beginPacket, block]
  unfold tryCreatePCB at failed ⊢
  split at failed
  · cases failed
  · next free =>
      split at failed
      · cases failed
      · next none =>
          rw [if_neg none]
          exact (loop_idle w o env.loop).pcb free

theorem writeOut_pcb (w : World) (o : ObjId) (x : Write) : ((w.writeOut o x).2.obj o).pcb = (w.obj o).pcb := by
  have data (bytes : List Byte) : ((w.setOutData o bytes).obj o).pcb = (w.obj o).pcb := by rw [setOutData_obj]
  cases x with
  | byte b =>
      simp only [writeOut, writeByte]
      split
      · rfl
      · split
        · rfl
        · exact data _
  | bytes buffer size =>
      cases buffer with
      | none => rfl
      | some buffer =>
          simp only [writeOut, writeBytes]
          split
          · rfl
          · exact data _

theorem writes_pcb (w : World) (o : ObjId) (writes : List Write) :
    ((Run.trace (writeOut · o) w writes).2.obj o).pcb = (w.obj o).pcb := by
  induction writes generalizing w with
  | nil => rfl
  | cons x writes ih => exact (ih (w.writeOut o x).2).trans (writeOut_pcb w o x)

theorem endPacketData_failed (w : World) (o : ObjId) (env : TransmitEnv) (none : (w.obj o).pcb = none) :
    (w.endPacketData o env).ret = false ∧ ∀ s ∈ (w.endPacketData o env).sendto, s.pcb = .none := by
  have refused (s : Sendto) (block : s.pcb = .none) : decide (env.udpSendto s = .ok) = false := by
    rw [TransmitEnv.udpSendto, if_pos block]
    rfl
  rw [endPacketData]
  split
  · exact ⟨rfl, fun _ nothing => by cases nothing⟩
  · dsimp only
    split
    · exact ⟨rfl, fun _ nothing => by cases nothing⟩
    · split
      · exact ⟨refused _ none, fun _ same => by cases same; exact none⟩
      · exact ⟨rfl, fun _ nothing => by cases nothing⟩

end World

/-- A packet is begun and written to: the answers of the writes, and the world then. -/
def World.build (w : World) (o : ObjId) (addr : IpAddr) (port : UInt16) (writes : List Write) (begun : TransmitEnv) :
    List Nat × World :=
  Run.trace (World.writeOut · o) (w.beginPacket o addr port begun.create).2 writes

section Building

variable (w : World) (o : ObjId) (addr : IpAddr) (port : UInt16) (writes : List Write) (begun ended : TransmitEnv)

def World.endBuilt : Transmission := (w.build o addr port writes begun).2.endPacketData o ended

/-- What becomes of a packet, and of the same bytes when they are sent at once. -/
structure Built : Prop where
  data : ((w.build o addr port writes begun).2.obj o).outPacket.value.data =
    (writes.flatMap Write.data).take kMaxPossiblePayloadSize
  sum : (w.build o addr port writes begun).1.sum =
    ((w.build o addr port writes begun).2.obj o).outPacket.value.data.length
  available : (w.build o addr port writes begun).2.availableForWrite o =
    (65507 : Int) - ((w.build o addr port writes begun).2.obj o).outPacket.value.data.length
  sendto : ∀ s ∈ (w.endBuilt o addr port writes begun ended).sendto,
    s.bytes = (writes.flatMap Write.data).take kMaxPossiblePayloadSize
  sent : (writes.flatMap Write.data).length ≤ kMaxPossiblePayloadSize →
    ∀ data, Memory.window data 0 (writes.flatMap Write.data).length = writes.flatMap Write.data →
      let sent := w.sendData o addr port (some data) (writes.flatMap Write.data).length
        { ended with alloc := begun.alloc }
      (w.endBuilt o addr port writes begun ended).ret = sent.ret ∧
        (w.endBuilt o addr port writes begun ended).sendto = sent.sendto

/-- There was no block for a new packet: nothing goes out, and neither would the bytes sent at once. -/
structure NotBuilt : Prop where
  ret : (w.endBuilt o addr port writes begun ended).ret = false
  sendto : ∀ s ∈ (w.endBuilt o addr port writes begun ended).sendto, s.pcb = none
  sent : ∀ data len, (w.sendData o addr port data len { ended with alloc := begun.alloc }).ret = false

end Building

theorem World.tryCreatePCB_alloc (w : World) (o : ObjId) (env env' : Env) (alloc : env.alloc = env'.alloc) :
    (w.tryCreatePCB o env).1 = (w.tryCreatePCB o env').1 ∧
      ((w.tryCreatePCB o env).1 = true → (w.tryCreatePCB o env).2 = (w.tryCreatePCB o env').2) := by
  unfold tryCreatePCB
  split
  · exact ⟨rfl, fun _ => rfl⟩
  · rw [alloc]
    split
    · exact ⟨rfl, fun _ => rfl⟩
    · exact ⟨rfl, fun created => by cases created⟩

theorem World.build_built (w : World) (o : ObjId) (addr : IpAddr) (port : UInt16) (writes : List Write)
    (begun ended : TransmitEnv) (began : (w.beginPacket o addr port begun.create).1 = true) :
    Built w o addr port writes begun ended := by
  obtain ⟨building, pcb, address, port'⟩ := beginPacket_building w o addr port begun.create began
  obtain ⟨built, sum⟩ := building.writes writes
  have content : ((w.build o addr port writes begun).2.obj o).outPacket.value.data = _ := built.obj.2
  obtain ⟨ret, sendto⟩ := built.ended ended
  rw [beginPacket_eq] at began
  rw [pcb, address, port'] at ret sendto
  constructor
  · exact content
  · rw [content]
    exact sum
  · rw [content]
    exact built.available
  · intro s passed
    rw [endBuilt, build, sendto] at passed
    split at passed
    · cases passed
      rfl
    · cases passed
  · intro small data same
    have block := w.tryCreatePCB_alloc o begun.create { ended with alloc := begun.alloc }.create rfl
    have sent := w.sendData_eq o addr port data small { ended with alloc := begun.alloc } (block.1 ▸ began)
    rw [List.take_of_length_le small] at ret sendto
    rw [← block.2 began, same] at sent
    exact ⟨ret.trans sent.1.symm, sendto.trans sent.2.symm⟩

theorem World.build_notBuilt (w : World) (o : ObjId) (addr : IpAddr) (port : UInt16) (writes : List Write)
    (begun ended : TransmitEnv) (failed : (w.beginPacket o addr port begun.create).1 = false) :
    NotBuilt w o addr port writes begun ended := by
  have block := w.tryCreatePCB_alloc o begun.create { ended with alloc := begun.alloc }.create rfl
  have pcb : ((w.build o addr port writes begun).2.obj o).pcb = none :=
    (writes_pcb _ o writes).trans (beginPacket_failed w o addr port begun.create failed)
  obtain ⟨ret, sendto⟩ := endPacketData_failed _ o ended pcb
  rw [beginPacket_eq, block.1] at failed
  exact ⟨ret, sendto, fun data len => sendData_failed w o addr port data len _ failed⟩

end QNEthernet.Udp
