import Mathlib.Data.List.GetD
import QNEthernet.Ping.Model

/-! Pings there and back: the echo request on the wire, and the reply however it is cut into pbufs. -/

namespace QNEthernet.Ping

open Lwip
open Words (ByteOrder)
open OnesSum (wordSum carried)

section Request

variable {ping : Ping} (env : SendEnv) {req : PingData}

/-- The bytes that the request's pointer points to; none for a null pointer. -/
def payload (req : PingData) : List Byte := req.data.getD []

theorem pbufTakeAt_middle (front old back data : List Byte) (same : data.length = old.length) (some : data ≠ []) :
    pbufTakeAt (front ++ old ++ back) data front.length = (.ok, front ++ data ++ back) := by
  have positive : 0 < data.length := List.length_pos_iff.mpr some
  have room : front.length < (front ++ old ++ back).length ∧
      front.length + data.length ≤ (front ++ old ++ back).length := by
    simp only [List.length_append]
    omega
  rw [pbufTakeAt, if_pos room, Ring.overwrite_middle front old back data same]

theorem takeData_eq {header rest : List Byte} (eight : header.length = kEchoHdrSize)
    (room : rest.length = req.dataSize) (present : (payload req).length = req.dataSize)
    (short : req.dataSize < 2 ^ 16) : takeData (header ++ rest) req = (.ok, header ++ payload req) := by
  have nothing (zero : req.dataSize = 0) : rest = payload req := by
    rw [zero, List.length_eq_zero_iff] at room present
    rw [room, present]
  cases pointer : req.data with
  | none =>
    have empty : req.dataSize = 0 := by
      rw [← present, payload, pointer]
      rfl
    rw [takeData, pointer, nothing empty]
  | some data =>
    have bytes : payload req = data := by
      rw [payload, pointer]
      rfl
    by_cases zero : req.dataSize = 0
    · simp only [takeData, pointer, zero, ne_eq, not_true_eq_false, if_false, nothing zero]
    · have whole : data.take (req.dataSize % 2 ^ 16) = data := by
        rw [Nat.mod_eq_of_lt short, ← present, bytes, List.take_length]
      have nonempty : data ≠ [] := by
        intro empty
        rw [← present, bytes, empty] at zero
        exact zero rfl
      have same : data.length = rest.length := by
        rw [room, ← present, bytes]
      have written := pbufTakeAt_middle header rest [] data same nonempty
      rw [List.append_nil, List.append_nil, eight] at written
      simp only [takeData, pointer, ne_eq, zero, not_false_eq_true, if_true, whole, written, bytes]

/-- The checksum field of the request, as `send` leaves it. -/
def requestChksum (odd : Bool) (req : PingData) : List Byte :=
  if env.softwareChecksum then
    env.order.store 2 (inetChksum env.order odd (echoMessage icmpEcho [0, 0] req.id req.seq (payload req)))
  else [0, 0]

theorem length_requestChksum (odd : Bool) (req : PingData) :
    (requestChksum env odd req).length = 2 := by
  unfold requestChksum
  split
  · exact ByteOrder.length_store ..
  · rfl

theorem packetSize_lt (fits : req.dataSize ≤ 2 ^ 16 - 1 - kMaxOutHdrSize) : kEchoHdrSize + req.dataSize < 2 ^ 16 := by
  simp only [kMaxOutHdrSize, ipHlen, kEchoHdrSize] at fits ⊢
  omega

theorem packet_eq (memory : Payload) (present : (payload req).length = req.dataSize)
    (short : kEchoHdrSize + req.dataSize < 2 ^ 16) :
    packet env memory (kEchoHdrSize + req.dataSize) req =
      (.ok, echoMessage icmpEcho (requestChksum env memory.odd req) req.id req.seq (payload req)) := by
  obtain ⟨header, filled⟩ : ∃ header, header =
    IcmpEchoHdr.bytes env.order ⟨icmpEcho, 0, 0, htons env.order req.id, htons env.order req.seq⟩ := ⟨_, rfl⟩
  have eight : header.length = kEchoHdrSize := by
    rw [filled]
    simp only [IcmpEchoHdr.bytes, List.length_append, List.length_cons, List.length_nil, ByteOrder.length_store]
    rfl
  have whole : header ++ payload req = echoMessage icmpEcho [0, 0] req.id req.seq (payload req) := by
    rw [filled]
    exact bytes_append ..
  have taken : pbufTake (Memory.window memory.memory 0 (kEchoHdrSize + req.dataSize))
      (some fun i => header.getD i 0) kEchoHdrSize =
        (.ok, header ++ Memory.window memory.memory kEchoHdrSize req.dataSize) := by
    have length := Memory.length_window memory.memory 0 (kEchoHdrSize + req.dataSize)
    have copied := Memory.window_getD header 0
    rw [eight] at copied
    rw [pbufTake, if_neg (by omega), copied, Memory.drop_window, Nat.zero_add, Nat.add_sub_cancel_left]
  have placed := takeData_eq eight (Memory.length_window memory.memory kEchoHdrSize req.dataSize) present
    (by omega : req.dataSize < 2 ^ 16)
  have all (chksum : List Byte) (two : chksum.length = 2) :
      (echoMessage icmpEcho chksum req.id req.seq (payload req)).take (kEchoHdrSize + req.dataSize) =
        echoMessage icmpEcho chksum req.id req.seq (payload req) := by
    apply List.take_of_length_le
    rw [length_echoMessage _ two, present]
    rfl
  simp only [packet, Nat.mod_eq_of_lt short, ← filled, taken, placed, whole, all [0, 0] rfl]
  cases software : env.softwareChecksum with
  | false => simp [requestChksum, software]
  | true =>
    have parts (chksum : List Byte) : echoMessage icmpEcho chksum req.id req.seq (payload req) =
        [icmpEcho, 0] ++ chksum ++ (ByteOrder.store .big 2 req.id.toNat ++
          ByteOrder.store .big 2 req.seq.toNat ++ payload req) := by
      simp only [echoMessage, List.append_assoc]
    have two := length_requestChksum env memory.odd req
    have nonempty : requestChksum env memory.odd req ≠ [] := by
      intro empty
      rw [empty] at two
      exact absurd two (by decide)
    have written : pbufTakeAt (echoMessage icmpEcho [0, 0] req.id req.seq (payload req))
        (requestChksum env memory.odd req) 2 =
          (.ok, echoMessage icmpEcho (requestChksum env memory.odd req) req.id req.seq (payload req)) := by
      rw [parts, parts]
      exact pbufTakeAt_middle [icmpEcho, 0] [0, 0] _ _ two nonempty
    have field : env.order.store 2
        (inetChksum env.order memory.odd (echoMessage icmpEcho [0, 0] req.id req.seq (payload req))) =
          requestChksum env memory.odd req :=
      (if_pos software).symm
    simp only [if_true, field, written]

def request (odd : Bool) (pcb : Option RawPcb) (req : PingData) : Sendto where
  pcb := pcb.map fun pcb => { pcb with ttl := req.ttl, mcastTtl := req.ttl }
  message := echoMessage icmpEcho (requestChksum env odd req) req.id req.seq (payload req)
  ipaddr := req.ip

theorem send_eq {created : Ping} {memory : Payload} (fits : req.dataSize ≤ 2 ^ 16 - 1 - kMaxOutHdrSize)
    (present : (payload req).length = req.dataSize) (pcb : tryCreatePCB ping env = (none, created))
    (allocated : env.pbufAlloc (kEchoHdrSize + req.dataSize) = some memory) :
    let s := request env memory.odd created.pcb req
    send ping env req = {
      ret := decide (env.rawSendto s = .ok)
      errno := if env.rawSendto s = .ok then none else some (.errToErrno (env.rawSendto s))
      sendto := some s
      freed := 1
      ping := { created with pcb := s.pcb } } := by
  have short := packetSize_lt fits
  have filled := packet_eq env memory present short
  simp only [send, if_neg (Nat.not_lt.mpr fits), pcb, Nat.mod_eq_of_lt short, allocated, filled, request]
  rfl

theorem data_eq (present : (payload req).length = req.dataSize) :
    (if req.dataSize = 0 then none else some (payload req)) = if req.dataSize = 0 then none else req.data := by
  split
  · rfl
  · next nonzero =>
    cases pointer : req.data with
    | none =>
      rw [← present, payload, pointer] at nonzero
      exact absurd rfl nonzero
    | some data =>
      rw [payload, pointer]
      rfl

theorem sendto_eq {s : Sendto} (present : (payload req).length = req.dataSize)
    (sent : (send ping env req).sendto = some s) : ∃ odd pcb, s = request env odd pcb req := by
  by_cases large : req.dataSize > 2 ^ 16 - 1 - kMaxOutHdrSize
  · simp only [send, if_pos large] at sent
    cases sent
  · have fits := Nat.not_lt.mp large
    have short := packetSize_lt fits
    cases pcb : tryCreatePCB ping env with
    | mk errno created =>
      cases errno with
      | some errno =>
        simp only [send, if_neg large, pcb] at sent
        cases sent
      | none =>
        cases allocated : env.pbufAlloc (kEchoHdrSize + req.dataSize) with
        | none =>
          simp only [send, if_neg large, pcb, Nat.mod_eq_of_lt short, allocated] at sent
          cases sent
        | some memory =>
          rw [send_eq env fits present pcb allocated, Option.some.injEq] at sent
          exact ⟨memory.odd, created.pcb, sent.symm⟩

theorem request_verifies (odd : Bool) (pcb : Option RawPcb) (software : env.softwareChecksum = true)
    (fits : req.dataSize ≤ 2 ^ 16 - 1 - kMaxOutHdrSize) (present : (payload req).length = req.dataSize) :
    carried (wordSum .big (request env odd pcb req).message) = 65535 ∧
      ∀ order odd', inetChksum order odd' (request env odd pcb req).message = 0 := by
  have short : 8 + (payload req).length < 2 ^ 16 := by
    rw [present]
    exact packetSize_lt fits
  have ones (order : ByteOrder) : carried (wordSum order (request env odd pcb req).message) = 65535 := by
    simp only [request, requestChksum, if_pos software]
    exact carried_echoMessage env.order odd (by decide) req.id req.seq short order
  have length := length_echoMessage icmpEcho (length_requestChksum env odd req) req.id req.seq (payload req)
  refine ⟨ones .big, ?_⟩
  intro order odd'
  rw [inetChksum_eq_zero order odd' (by rw [request, length]; omega)]
  exact ones order

end Request

section Reply

variable {order : ByteOrder} {echo : Vector Byte 8} {ping : Ping} {pcb : Nat} {p : Pbuf} {ipHdrSize : Nat}
  {addr : UInt32}

/-- Too short for an echo reply, or not one. -/
def Passed (bytes : List Byte) (ipHdrSize : Nat) : Prop :=
  bytes.length < ipHdrSize + kEchoHdrSize ∨ bytes.getD ipHdrSize 0 ≠ icmpEr ∨ bytes.getD (ipHdrSize + 1) 0 ≠ 0

instance (bytes : List Byte) (ipHdrSize : Nat) : Decidable (Passed bytes ipHdrSize) :=
  inferInstanceAs (Decidable (_ ∨ _ ∨ _))

/-- What a packet's bytes say, when it is an echo reply. -/
def replyIn (bytes : List Byte) (ipHdrSize : Nat) (addr : UInt32) : Option PingData :=
  if Passed bytes ipHdrSize then none
  else some {
    ip := addr
    ttl := bytes.getD 8 0
    id := .ofNat (ByteOrder.load .big ((bytes.drop (ipHdrSize + 4)).take 2))
    seq := .ofNat (ByteOrder.load .big ((bytes.drop (ipHdrSize + 6)).take 2))
    data := if bytes.length = ipHdrSize + kEchoHdrSize then none else some (bytes.drop (ipHdrSize + kEchoHdrSize))
    dataSize := bytes.length - (ipHdrSize + kEchoHdrSize) }

theorem length_resize (v : List Byte) (size : Nat) : (resize v size).length = size := by
  rw [resize, List.length_take, List.length_append, List.length_replicate]
  omega

theorem replyData_eq (ping : Ping) {hdrSize dataSize : Nat} (whole : p.totLen = hdrSize + dataSize) :
    ∃ dataBuf, replyData ping p hdrSize dataSize =
      some (if dataSize = 0 then none else some (p.bytes.drop hdrSize), { ping with dataBuf }) := by
  have length : p.bytes.length = hdrSize + dataSize := whole
  have all : (p.bytes.drop hdrSize).take dataSize = p.bytes.drop hdrSize := by
    apply List.take_of_length_le
    rw [List.length_drop]
    omega
  by_cases nothing : dataSize = 0
  · exact ⟨ping.dataBuf, by simp [replyData, nothing]⟩
  · rw [replyData, if_pos nothing, if_neg nothing]
    by_cases contiguous : (p.links.headD []).length = p.totLen
    · have first : p.links.headD [] = p.bytes := by
        rw [Pbuf.totLen, Pbuf.bytes] at contiguous
        rw [Pbuf.bytes]
        cases links : p.links with
        | nil => rfl
        | cons link rest =>
          rw [links, List.headD_cons, List.flatten_cons, List.length_append] at contiguous
          have empty : rest.flatten = [] := List.length_eq_zero_iff.mp (by omega)
          rw [List.headD_cons, List.flatten_cons, empty, List.append_nil]
      refine ⟨ping.dataBuf, ?_⟩
      simp only [first, all]
      exact if_pos rfl
    · have size : dataSize % 2 ^ 16 = dataSize := by
        have short : p.bytes.length < 2 ^ 16 := p.short
        exact Nat.mod_eq_of_lt (by omega)
      have copied := pbufCopyPartial_whole (length_resize ping.dataBuf dataSize) length.ge
      have result : (p.links.flatten.drop hdrSize).take dataSize = p.bytes.drop hdrSize := all
      have again : (p.bytes.drop hdrSize).take dataSize = p.bytes.drop hdrSize := all
      refine ⟨p.bytes.drop hdrSize, ?_⟩
      simp only [if_neg contiguous, size, copied, result, again, ne_eq, not_true_eq_false, if_false]

theorem ofBytes_fields (order : ByteOrder) {bytes : List Byte} {start : Nat}
    (there : start + kEchoHdrSize ≤ bytes.length) :
    htons order (IcmpEchoHdr.ofBytes order ((bytes.drop start).take kEchoHdrSize)).id =
        .ofNat (ByteOrder.load .big ((bytes.drop (start + 4)).take 2)) ∧
      htons order (IcmpEchoHdr.ofBytes order ((bytes.drop start).take kEchoHdrSize)).seqno =
        .ofNat (ByteOrder.load .big ((bytes.drop (start + 6)).take 2)) := by
  have field (i : Nat) (inside : i + 2 ≤ kEchoHdrSize) :
      ((((bytes.drop start).take kEchoHdrSize).drop i).take 2) = (bytes.drop (start + i)).take 2 := by
    rw [List.drop_take, List.take_take, List.drop_drop, Nat.min_eq_left (by omega)]
  have turned (i : Nat) (inside : i + 2 ≤ kEchoHdrSize) :
      htons order (.ofNat (order.load ((bytes.drop (start + i)).take 2))) =
        .ofNat (ByteOrder.load .big ((bytes.drop (start + i)).take 2)) := by
    have two : ((bytes.drop (start + i)).take 2).length = 2 := by
      rw [List.length_take, List.length_drop]
      omega
    obtain ⟨a, b, pair⟩ := List.length_eq_two.mp two
    rw [pair]
    exact htons_load order a b
  constructor
  · rw [← turned 4 (by decide), ← field 4 (by decide)]
    rfl
  · rw [← turned 6 (by decide), ← field 6 (by decide)]
    rfl

theorem offsets_eq (fits : ipHdrSize + kEchoHdrSize < 2 ^ 16) :
    (ipHdrSize + kEchoHdrSize) % 2 ^ 16 = ipHdrSize + kEchoHdrSize ∧ (ipHdrSize + 1) % 2 ^ 16 = ipHdrSize + 1 := by
  simp only [kEchoHdrSize] at fits ⊢
  omega

theorem recvFunc_passed (order : ByteOrder) (echo : Vector Byte 8) (ping : Ping) (pcb : Nat) (p : Pbuf)
    (addr : UInt32) (fits : ipHdrSize + kEchoHdrSize < 2 ^ 16)
    (passed : ping.pcb.map RawPcb.address ≠ some pcb ∨ Passed p.bytes ipHdrSize) :
    recvFunc order echo ping pcb p ipHdrSize addr = some { ret := 0, ping } := by
  obtain ⟨size, next⟩ := offsets_eq fits
  simp only [recvFunc, size, next, Pbuf.getAt_eq]
  exact if_pos passed

/-- Over any chain `recvFunc` does what the bytes in a row say. -/
theorem recvFunc_taken (order : ByteOrder) (echo : Vector Byte 8) (ping : Ping) (pcb : Nat) (p : Pbuf)
    (addr : UInt32) (owned : ping.pcb.map RawPcb.address = some pcb) {reply : PingData}
    (fits : ipHdrSize + kEchoHdrSize < 2 ^ 16) (stated : replyIn p.bytes ipHdrSize addr = some reply) :
    ∃ dataBuf, recvFunc order echo ping pcb p ipHdrSize addr =
      some { ret := 1, replies := if ping.replyf then [reply] else [], freed := true,
             ping := { ping with dataBuf } } := by
  obtain ⟨size, next⟩ := offsets_eq fits
  by_cases passed : Passed p.bytes ipHdrSize
  · rw [replyIn, if_pos passed] at stated
    cases stated
  · rw [replyIn, if_neg passed, Option.some.injEq] at stated
    have kept : ¬ (ping.pcb.map RawPcb.address ≠ some pcb ∨ p.totLen < ipHdrSize + kEchoHdrSize ∨
        p.bytes.getD ipHdrSize 0 ≠ icmpEr ∨ p.bytes.getD (ipHdrSize + 1) 0 ≠ 0) := by
      rintro (other | gone)
      · exact other owned
      · exact passed gone
    have there : ipHdrSize + kEchoHdrSize ≤ p.bytes.length := Nat.not_lt.mp fun shorter => passed (Or.inl shorter)
    have whole : p.totLen = ipHdrSize + kEchoHdrSize + (p.totLen - (ipHdrSize + kEchoHdrSize)) :=
      (Nat.add_sub_cancel' there).symm
    obtain ⟨dataBuf, given⟩ := replyData_eq ping whole
    have copied := pbufCopyPartial_whole (by simp [kEchoHdrSize] : echo.toList.length = kEchoHdrSize) there
    obtain ⟨id, seqno⟩ := ofBytes_fields order there
    have empty : p.totLen - (ipHdrSize + kEchoHdrSize) = 0 ↔ p.bytes.length = ipHdrSize + kEchoHdrSize := by
      rw [Pbuf.totLen]
      omega
    simp only [recvFunc, size, next, Pbuf.getAt_eq, if_neg kept]
    cases replies : ping.replyf with
    | false =>
      refine ⟨ping.dataBuf, ?_⟩
      simp only [Bool.false_eq_true, if_false]
      rw [← replies]
    | true =>
      refine ⟨dataBuf, ?_⟩
      simp only [if_true, copied, ne_eq, not_true_eq_false, if_false, given, ← stated, empty, replies]
      rw [← Pbuf.bytes, id, seqno]
      rfl

def Received.view (r : Received) : Nat × List PingData × Bool := (r.ret, r.replies, r.freed)

/-- That is a function of the bytes: neither the cuts nor what the buffers held before have a part in it. -/
theorem recvFunc_view (order : ByteOrder) (echo : Vector Byte 8) (ping : Ping) (pcb : Nat) (p : Pbuf)
    (addr : UInt32) (fits : ipHdrSize + kEchoHdrSize < 2 ^ 16) :
    (recvFunc order echo ping pcb p ipHdrSize addr).map Received.view = some
      (match if ping.pcb.map RawPcb.address = some pcb then replyIn p.bytes ipHdrSize addr else none with
        | none => (0, [], false)
        | some reply => (1, if ping.replyf then [reply] else [], true)) := by
  by_cases owned : ping.pcb.map RawPcb.address = some pcb
  · rw [if_pos owned]
    cases stated : replyIn p.bytes ipHdrSize addr with
    | none =>
      have passed : Passed p.bytes ipHdrSize := by
        by_contra kept
        rw [replyIn, if_neg kept] at stated
        cases stated
      rw [recvFunc_passed order echo ping pcb p addr fits (Or.inr passed)]
      rfl
    | some reply =>
      obtain ⟨dataBuf, result⟩ := recvFunc_taken order echo ping pcb p addr owned fits stated
      rw [result]
      rfl
  · rw [if_neg owned, recvFunc_passed order echo ping pcb p addr fits (Or.inl owned)]
    rfl

theorem ofNat_load_store (n : UInt16) : UInt16.ofNat (ByteOrder.load .big (ByteOrder.store .big 2 n.toNat)) = n := by
  have word : n.toNat % 256 ^ 2 = n.toNat := Nat.mod_eq_of_lt n.toNat_lt
  rw [ByteOrder.load_store, word, UInt16.ofNat_toNat]

theorem replyIn_echoMessage (header : List Byte) {chksum : List Byte} (two : chksum.length = 2) (id seq : UInt16)
    (data : List Byte) (addr : UInt32) :
    replyIn (header ++ echoMessage icmpEr chksum id seq data) header.length addr = some {
      ip := addr
      ttl := (header ++ echoMessage icmpEr chksum id seq data).getD 8 0
      id, seq
      data := if data.length = 0 then none else some data
      dataSize := data.length } := by
  obtain ⟨message, whole⟩ : ∃ message, message = echoMessage icmpEr chksum id seq data := ⟨_, rfl⟩
  have behind (i : Nat) : (header ++ message).drop (header.length + i) = message.drop i :=
    List.drop_length_add_append i
  have at_front : message.getD 0 0 = icmpEr ∧ message.getD 1 0 = 0 ∧
      (message.drop 4).take 2 = ByteOrder.store .big 2 id.toNat ∧
      (message.drop 6).take 2 = ByteOrder.store .big 2 seq.toNat ∧ message.drop 8 = data := by
    obtain ⟨_, _, chksum_pair⟩ := List.length_eq_two.mp two
    obtain ⟨_, _, id_pair⟩ := List.length_eq_two.mp (ByteOrder.length_store .big 2 id.toNat)
    obtain ⟨_, _, seq_pair⟩ := List.length_eq_two.mp (ByteOrder.length_store .big 2 seq.toNat)
    rw [whole, echoMessage, chksum_pair, id_pair, seq_pair]
    exact ⟨rfl, rfl, rfl, rfl, rfl⟩
  have length : (header ++ message).length = header.length + kEchoHdrSize + data.length := by
    rw [List.length_append, whole, length_echoMessage icmpEr two, ← Nat.add_assoc]
    rfl
  have type_there : (header ++ message).getD header.length 0 = icmpEr := by
    rw [List.getD_append_right _ _ _ _ le_rfl, Nat.sub_self, at_front.1]
  have code_there : (header ++ message).getD (header.length + 1) 0 = 0 := by
    rw [List.getD_append_right _ _ _ _ (Nat.le_add_right _ _), Nat.add_sub_cancel_left, at_front.2.1]
  have taken : ¬ Passed (header ++ message) header.length := by
    rintro (shorter | other | other)
    · omega
    · exact other type_there
    · exact other code_there
  obtain ⟨-, -, id_there, seq_there, data_there⟩ := at_front
  have empty : (header ++ message).length = header.length + kEchoHdrSize ↔ data.length = 0 := by
    omega
  have data_behind : (header ++ message).drop (header.length + kEchoHdrSize) = data := by
    rw [behind]
    exact data_there
  have size : (header ++ message).length - (header.length + kEchoHdrSize) = data.length := by
    omega
  rw [← whole, replyIn, if_neg taken, size, data_behind, behind, behind, id_there, seq_there, ofNat_load_store,
    ofNat_load_store]
  simp only [empty]

end Reply

/-- A request, and every reply to it in any chain: the message sent is the request in network order with a checksum
that verifies, and each reply is handed over once with what the request had. Only the bytes matter, not how they
are cut, and what is no echo reply is left to others. -/
theorem ping_round_trip (ping : Ping) (env : SendEnv) (req : PingData)
    (fits : req.dataSize ≤ 2 ^ 16 - 1 - kMaxOutHdrSize) (present : (payload req).length = req.dataSize) :
    (∀ created memory, tryCreatePCB ping env = (none, created) →
      env.pbufAlloc (kEchoHdrSize + req.dataSize) = some memory → ((send ping env req).sendto).isSome) ∧
    (∀ s, (send ping env req).sendto = some s →
      (∃ chksum, chksum.length = 2 ∧ s.message = echoMessage icmpEcho chksum req.id req.seq (payload req)) ∧
      s.ipaddr = req.ip ∧
      (env.softwareChecksum = true → carried (wordSum .big s.message) = 65535 ∧
        ∀ order odd, inetChksum order odd s.message = 0)) ∧
    (∀ (order : ByteOrder) (echo : Vector Byte 8) (receiver : Ping) (pcb : Nat) (p : Pbuf) (header chksum : List Byte)
      (addr : UInt32), receiver.pcb.map RawPcb.address = some pcb → receiver.replyf = true → chksum.length = 2 →
      p.bytes = header ++ echoMessage icmpEr chksum req.id req.seq (payload req) →
      ∃ dataBuf, recvFunc order echo receiver pcb p header.length addr = some {
        ret := 1
        replies := [{
          ip := addr
          ttl := p.bytes.getD 8 0
          id := req.id
          seq := req.seq
          data := if req.dataSize = 0 then none else req.data
          dataSize := req.dataSize }]
        freed := true
        ping := { receiver with dataBuf } }) ∧
    (∀ (order : ByteOrder) (echo echo' : Vector Byte 8) (receiver receiver' : Ping) (pcb : Nat) (p p' : Pbuf)
      (ipHdrSize : Nat) (addr : UInt32), ipHdrSize + kEchoHdrSize < 2 ^ 16 →
      receiver.pcb.map RawPcb.address = receiver'.pcb.map RawPcb.address → receiver.replyf = receiver'.replyf →
      p.bytes = p'.bytes →
      (recvFunc order echo receiver pcb p ipHdrSize addr).map Received.view =
        (recvFunc order echo' receiver' pcb p' ipHdrSize addr).map Received.view) ∧
    ∀ (order : ByteOrder) (echo : Vector Byte 8) (receiver : Ping) (pcb : Nat) (p : Pbuf) (ipHdrSize : Nat)
      (addr : UInt32), ipHdrSize + kEchoHdrSize < 2 ^ 16 →
      p.totLen < ipHdrSize + kEchoHdrSize ∨ p.bytes.getD ipHdrSize 0 ≠ icmpEr ∨ p.bytes.getD (ipHdrSize + 1) 0 ≠ 0 →
      recvFunc order echo receiver pcb p ipHdrSize addr =
        some { ret := 0, replies := [], freed := false, ping := receiver } := by
  refine ⟨?_, ?_, ?_, ?_, ?_⟩
  · intro created memory pcb allocated
    rw [send_eq env fits present pcb allocated]
    rfl
  · intro s sent
    obtain ⟨odd, pcb, call⟩ := sendto_eq env present sent
    rw [call]
    exact ⟨⟨_, length_requestChksum env odd req, rfl⟩, rfl,
      fun software => request_verifies env odd pcb software fits present⟩
  · intro order echo receiver pcb p header chksum addr owned replies two carries
    have stated := replyIn_echoMessage header two req.id req.seq (payload req) addr
    rw [← carries, present, data_eq present] at stated
    have room : header.length + kEchoHdrSize < 2 ^ 16 := by
      have short : p.bytes.length < 2 ^ 16 := p.short
      rw [carries, List.length_append, length_echoMessage icmpEr two] at short
      simp only [kEchoHdrSize]
      omega
    obtain ⟨dataBuf, result⟩ := recvFunc_taken order echo receiver pcb p addr owned room stated
    rw [if_pos replies] at result
    exact ⟨dataBuf, result⟩
  · intro order echo echo' receiver receiver' pcb p p' ipHdrSize addr room same_pcb same_replyf same_bytes
    rw [recvFunc_view order echo receiver pcb p addr room, recvFunc_view order echo' receiver' pcb p' addr room,
      same_pcb, same_replyf, same_bytes]
  · intro order echo receiver pcb p ipHdrSize addr room passed
    exact recvFunc_passed order echo receiver pcb p addr room (Or.inr passed)

/-- A reply with every boundary inside a header or the data. -/
theorem ping_round_trip_threeBytes :
    ∃ dataBuf, recvFunc .little (Vector.replicate 8 0xff) { replyf := true, pcb := some ⟨5, 64, 64⟩ } 5
      ⟨[[0x45, 0, 0, 31, 0, 0, 0, 0, 63, 1, 0], [0, 10, 0, 0, 1, 10, 0, 0, 2, 0], [0, 0xb2, 0xc4, 0x12],
        [], [0x34, 0x56], [0x78, 1, 2], [3]], by decide⟩ 20 7 = some {
        ret := 1
        replies := [{ ip := 7, ttl := 63, id := 0x1234, seq := 0x5678, data := some [1, 2, 3], dataSize := 3 }]
        freed := true
        ping := { replyf := true, pcb := some ⟨5, 64, 64⟩, dataBuf } } :=
  (ping_round_trip {}
    { order := .little, softwareChecksum := true, rawNew := some 5, rawBind := .ok, rawSendto := fun _ => .ok,
      pbufAlloc := fun _ => some ⟨fun _ => 0xff, false⟩ }
    { ip := 7, id := 0x1234, seq := 0x5678, data := some [1, 2, 3], dataSize := 3 } (by decide) rfl).2.2.1
    .little _ _ 5 _ [0x45, 0, 0, 31, 0, 0, 0, 0, 63, 1, 0, 0, 10, 0, 0, 1, 10, 0, 0, 2] [0xb2, 0xc4] 7
    rfl rfl rfl (by decide)

end QNEthernet.Ping
