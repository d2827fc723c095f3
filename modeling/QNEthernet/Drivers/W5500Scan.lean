import QNEthernet.Drivers.W5500

/-! Streams of length-prefixed frames: what one scan and the chip's buffer do with them. -/

namespace QNEthernet.Drivers.W5500

open Internal Lwip

theorem wf_localBuf : ({ buf := List.replicate kLocalInputBufSize 0 } : ByteBuffer).WF := by
  apply ByteBuffer.wf_fresh
  rw [List.length_replicate]
  decide

/-- A frame as the chip stores it, behind a 16-bit length that counts itself. -/
structure WireFrame where
  payload : List Byte
  short : payload.length + 2 < 2 ^ 16

namespace WireFrame

def len (f : WireFrame) : Nat := f.payload.length + 2

def encode (f : WireFrame) : List Byte :=
  UInt8.ofNat (f.len / 256) :: UInt8.ofNat (f.len % 256) :: f.payload

def accepted (f : WireFrame) : Bool := decide (f.payload.length ≤ kMaxFrameLen)

@[simp] theorem length_encode (f : WireFrame) : f.encode.length = f.len := by
  simp [encode, len]

theorem readFrameLen_encode (f : WireFrame) (rest : List Byte) :
    readFrameLen (f.encode ++ rest) = f.len := by
  have short : f.len < 2 ^ 16 := f.short
  have high : (UInt8.ofNat (f.len / 256)).toNat = f.len / 256 :=
    UInt8.toNat_ofNat_of_lt (by change f.len / 256 < 256; omega)
  have low : (UInt8.ofNat (f.len % 256)).toNat = f.len % 256 :=
    UInt8.toNat_ofNat_of_lt (by change f.len % 256 < 256; omega)
  simp only [encode, List.cons_append, readFrameLen, high, low]
  omega

end WireFrame

open WireFrame (encode)

def stream (frames : List WireFrame) : List Byte := frames.flatMap encode

@[simp] theorem stream_nil : stream [] = [] := rfl

@[simp] theorem stream_cons (f : WireFrame) (frames : List WireFrame) :
    stream (f :: frames) = f.encode ++ stream frames := List.flatMap_cons

@[simp] theorem stream_append (frames more : List WireFrame) :
    stream (frames ++ more) = stream frames ++ stream more := List.flatMap_append

theorem stream_take_append_drop (frames : List WireFrame) (n : Nat) :
    stream frames = stream (frames.take n) ++ stream (frames.drop n) := by
  rw [← stream_append, List.take_append_drop]

/-- The next bytes of a stream show the length of its first frame, and the frame once it is whole. -/
theorem head_of_prefix {bytes : List Byte} {f : WireFrame} {rest : List WireFrame}
    (next : bytes <+: stream (f :: rest)) (some : 2 ≤ bytes.length) :
    readFrameLen bytes = f.len ∧
      (f.len ≤ bytes.length → bytes.take f.len = f.encode ∧ bytes.drop f.len <+: stream rest) := by
  rcases next with ⟨later, whole⟩
  rw [stream_cons] at whole
  constructor
  · match bytes, some with
    | high :: low :: bytes, _ =>
        rw [← f.readFrameLen_encode (stream rest), ← whole]
        rfl
  · intro complete
    have head : bytes.take f.len = f.encode := by
      have cut := congrArg (List.take f.len) whole
      have self : f.encode.take f.len = f.encode := List.take_of_length_le (by rw [f.length_encode])
      rwa [List.take_append_of_le_length complete,
        List.take_append_of_le_length (by rw [f.length_encode]), self] at cut
    refine ⟨head, later, ?_⟩
    rw [← List.take_append_drop f.len bytes, head, List.append_assoc] at whole
    exact List.append_cancel_left whole

/-- Of the next frames, how many are whole in so many bytes, up to an accepted one that does not fit into
`room`; and whether there is none such. -/
def takeFrames (bytes room : Nat) : List WireFrame → Nat × Bool
  | [] => (0, true)
  | f :: rest =>
      if f.len > bytes then (0, true)
      else if f.accepted then
        if f.len > room then (0, false)
        else
          let taken := takeFrames (bytes - f.len) (room - f.len) rest
          (taken.1 + 1, taken.2)
      else
        let taken := takeFrames (bytes - f.len) room rest
        (taken.1 + 1, taken.2)

/-- What the scan loop does with bytes that start a stream: it takes whole frames from the front and
stores those that are not too large. -/
structure Scanned (rxBuf : List Byte) (pos : Nat) (buf : ByteBuffer) (asserted : Bool)
    (rest : List WireFrame) (result : Scan) (taken : Nat × Bool) : Prop where
  count : taken.1 ≤ rest.length
  retval : result.retval = taken.2
  good : result.bad = false
  unasserted : result.asserted = asserted
  stop : result.stop = pos + (stream (rest.take taken.1)).length
  inside : result.stop ≤ rxBuf.length
  wf : result.buf.WF
  capacity : result.buf.capacity = buf.capacity
  contents : result.buf.contents =
    buf.contents ++ stream ((rest.take taken.1).filter WireFrame.accepted)

theorem Scanned.stopped {rxBuf : List Byte} {pos : Nat} {buf : ByteBuffer} {asserted retval : Bool}
    (wf : buf.WF) (inside : pos ≤ rxBuf.length) (rest : List WireFrame) :
    Scanned rxBuf pos buf asserted rest { retval, bad := false, stop := pos, buf, asserted } (0, retval) where
  count := Nat.zero_le _
  retval := rfl
  good := rfl
  unasserted := rfl
  stop := by simp
  inside := inside
  wf := wf
  capacity := rfl
  contents := by simp

theorem Scanned.next {rxBuf : List Byte} {pos : Nat} {taken : Nat × Bool} {buf next : ByteBuffer} {asserted : Bool}
    {f : WireFrame} {rest : List WireFrame} {result : Scan}
    (scanned : Scanned rxBuf (pos + f.len) next asserted rest result taken)
    (capacity : next.capacity = buf.capacity)
    (contents : next.contents = buf.contents ++ stream ([f].filter WireFrame.accepted)) :
    Scanned rxBuf pos buf asserted (f :: rest) result (taken.1 + 1, taken.2) where
  count := Nat.succ_le_succ scanned.count
  retval := scanned.retval
  good := scanned.good
  unasserted := scanned.unasserted
  stop := by
    rw [scanned.stop, List.take_succ_cons, stream_cons, List.length_append, f.length_encode]
    omega
  inside := scanned.inside
  wf := scanned.wf
  capacity := scanned.capacity.trans capacity
  contents := by
    have split : (f :: rest.take taken.1).filter WireFrame.accepted =
        [f].filter WireFrame.accepted ++ (rest.take taken.1).filter WireFrame.accepted :=
      List.filter_append [f] _
    rw [scanned.contents, contents, List.take_succ_cons, split, stream_append, List.append_assoc]

theorem remaining_eq (buf : ByteBuffer) (wf : buf.WF) : buf.remaining = buf.capacity - buf.contents.length := by
  rw [buf.length_contents wf, ByteBuffer.remaining]

theorem scan_spec (rxBuf : List Byte) (rest : List WireFrame) (pos : Nat) (buf : ByteBuffer)
    (asserted : Bool) (wf : buf.WF) (inside : pos ≤ rxBuf.length)
    (next : rxBuf.drop pos <+: stream rest) :
    Scanned rxBuf pos buf asserted rest (scan rxBuf pos buf asserted)
      (takeFrames (rxBuf.length - pos) buf.remaining rest) := by
  induction rest generalizing pos buf with
  | nil =>
      have done : rxBuf.drop pos = [] := List.prefix_nil.mp next
      have last : rxBuf.length ≤ pos := List.drop_eq_nil_iff.mp done
      rw [scan, if_neg (by omega), takeFrames]
      exact .stopped wf inside _
  | cons f rest ih =>
      have two : 2 ≤ f.len := Nat.le_add_left 2 _
      by_cases header : pos + 2 ≤ rxBuf.length
      · have bytes : (rxBuf.drop pos).length = rxBuf.length - pos := List.length_drop
        rcases head_of_prefix next (by omega) with ⟨length, complete⟩
        rw [scan, if_pos header, takeFrames]
        simp only [length]
        rw [if_neg (show ¬ f.len < 2 by omega)]
        by_cases early : pos + f.len > rxBuf.length
        · rw [if_pos early, if_pos (show f.len > rxBuf.length - pos by omega)]
          exact .stopped wf inside _
        · rw [if_neg early, if_neg (show ¬ f.len > rxBuf.length - pos by omega)]
          rcases complete (by omega) with ⟨head, tail⟩
          rw [List.drop_drop] at tail
          have left : rxBuf.length - (pos + f.len) = rxBuf.length - pos - f.len := by omega
          by_cases small : f.len - 2 ≤ kMaxFrameLen
          · have kept : f.accepted = true := by
              simpa [WireFrame.accepted, WireFrame.len] using small
            rw [if_pos small, if_pos kept]
            by_cases space : f.len > buf.remaining
            · rw [if_pos space, if_pos space]
              exact .stopped wf inside _
            · rw [if_neg space, if_neg space, head]
              rcases buf.write_contents wf f.encode (by rw [f.length_encode]; omega) with
                ⟨count, written, contents, capacity⟩
              have room : (buf.write f.encode).2.remaining = buf.remaining - f.len := by
                rw [remaining_eq _ written, remaining_eq _ wf, capacity, contents, List.length_append, f.length_encode]
                omega
              rw [count, f.length_encode]
              simp only [ne_eq, not_true_eq_false, decide_false, Bool.or_false]
              have scanned := ih (pos + f.len) _ written (by omega) tail
              rw [room, left] at scanned
              exact scanned.next capacity (by simp [contents, kept])
          · have skipped : f.accepted = false := by
              simpa [WireFrame.accepted, WireFrame.len] using small
            rw [if_neg small, if_neg (by simp [skipped])]
            have scanned := ih (pos + f.len) buf wf (by omega) tail
            rw [left] at scanned
            exact scanned.next rfl (by simp [skipped])
      · rw [scan, if_neg header, takeFrames, if_pos (show f.len > rxBuf.length - pos by omega)]
        exact .stopped wf inside _

namespace Chip

def pending (c : Chip) : List Byte := Ring.window c.mem (c.rxRd.toNat % kRxBufSize) c.unread

/-- The chip never holds more than its buffer does. -/
def Bounded (c : Chip) : Prop := c.unread ≤ kRxBufSize

theorem length_pending (c : Chip) (bounded : c.Bounded) : c.pending.length = c.unread :=
  Ring.length_window _ _ _ (c.full.symm ▸ bounded)

theorem rxWr_eq (c : Chip) : c.rxWr.toNat = (c.rxRd.toNat + c.unread) % 2 ^ 16 := by
  have sum : c.rxWr = c.rxRd + (c.rxWr - c.rxRd) := by grind
  rw [unread, ← UInt16.toNat_add, ← sum]

/-- Both pointers run over 16 bits, a whole number of turns of the buffer. -/
theorem mod_size (n : Nat) : n % 2 ^ 16 % kRxBufSize = n % kRxBufSize :=
  Nat.mod_mod_of_dvd n (by decide)

theorem write_position (c : Chip) :
    c.rxWr.toNat % kRxBufSize = (c.rxRd.toNat % kRxBufSize + c.unread) % c.mem.length := by
  rw [c.rxWr_eq, mod_size, c.full, Nat.mod_add_mod]

theorem unread_add (c : Chip) (count : Nat) (room : c.unread + count ≤ kRxBufSize) :
    (c.rxWr + UInt16.ofNat count - c.rxRd).toNat = c.unread + count := by
  have limit : kRxBufSize < 2 ^ 16 := by decide
  have swap : c.rxWr + UInt16.ofNat count - c.rxRd = c.rxWr - c.rxRd + UInt16.ofNat count := by
    grind
  have small : (UInt16.ofNat count).toNat = count :=
    UInt16.toNat_ofNat_of_lt (by change count < 2 ^ 16; omega)
  rw [swap, UInt16.toNat_add, ← unread, small, Nat.mod_eq_of_lt (by omega)]

theorem unread_receive (c : Chip) (bounded : c.Bounded) (n : Nat) :
    (c.receive n).unread = c.unread + min n (min c.wire.length (kRxBufSize - c.unread)) := by
  have hold : c.unread ≤ kRxBufSize := bounded
  exact c.unread_add _ (by omega)

theorem receive_spec (c : Chip) (bounded : c.Bounded) (n : Nat) :
    (c.receive n).Bounded ∧ (c.receive n).rxRd = c.rxRd ∧ c.unread ≤ (c.receive n).unread ∧
      (c.receive n).pending ++ (c.receive n).wire = c.pending ++ c.wire ∧
      c.pending <+: (c.receive n).pending := by
  have hold : c.unread ≤ kRxBufSize := bounded
  obtain ⟨count, chosen⟩ : ∃ count, count = min n (min c.wire.length (kRxBufSize - c.unread)) :=
    ⟨_, rfl⟩
  have length : (c.wire.take count).length = count := by
    rw [List.length_take]
    omega
  have more : (c.receive n).unread = c.unread + count := by
    rw [chosen]
    exact c.unread_receive bounded n
  have joined : (c.receive n).pending = c.pending ++ c.wire.take count := by
    rw [pending, more]
    simp only [receive, ← chosen]
    rw [c.write_position]
    have appended := Ring.window_splice c.mem (c.rxRd.toNat % kRxBufSize) c.unread
      (c.wire.take count) (by rw [length, c.full]; omega) (by rw [c.full]; decide)
    rwa [length] at appended
  refine ⟨?_, rfl, by omega, ?_, joined ▸ List.prefix_append _ _⟩
  · rw [Bounded, more]
    omega
  · have rest : (c.receive n).wire = c.wire.drop count := by simp only [receive, ← chosen]
    rw [joined, rest, List.append_assoc, List.take_append_drop]

theorem read_eq (c : Chip) (len : Nat) (inside : len ≤ c.unread) :
    c.read c.rxRd len = c.pending.take len :=
  (Ring.take_window _ _ _ _ inside).symm

theorem commit_spec (c : Chip) (bounded : c.Bounded) (stop : Nat) (inside : stop ≤ c.unread) :
    let c' : Chip := { c with rxRd := c.rxRd + UInt16.ofNat stop }
    c'.Bounded ∧ c'.pending = c.pending.drop stop ∧ c'.unread + stop = c.unread := by
  intro c'
  have hold : c.unread ≤ kRxBufSize := bounded
  have limit : kRxBufSize < 2 ^ 16 := by decide
  have small : (UInt16.ofNat stop).toNat = stop :=
    UInt16.toNat_ofNat_of_lt (by change stop < 2 ^ 16; omega)
  have fewer : c'.unread = c.unread - stop := by
    have swap : c.rxWr - (c.rxRd + UInt16.ofNat stop) = c.rxWr - c.rxRd - UInt16.ofNat stop := by
      grind
    have order : UInt16.ofNat stop ≤ c.rxWr - c.rxRd := by
      rw [UInt16.le_iff_toNat_le, small]
      exact inside
    change (c.rxWr - (c.rxRd + UInt16.ofNat stop)).toNat = _
    rw [swap, UInt16.toNat_sub_of_le _ _ order, small]
    rfl
  refine ⟨?_, ?_, by omega⟩
  · rw [Bounded, fewer]
    omega
  · have position : c'.rxRd.toNat % kRxBufSize = (c.rxRd.toNat % kRxBufSize + stop) % c.mem.length := by
      change (c.rxRd + UInt16.ofNat stop).toNat % kRxBufSize = _
      rw [UInt16.toNat_add, small, mod_size, c.full, Nat.mod_add_mod]
    rw [pending, pending, fewer, position, Ring.drop_window _ _ _ _ (by rw [c.full]; omega) inside]

end Chip

end QNEthernet.Drivers.W5500
