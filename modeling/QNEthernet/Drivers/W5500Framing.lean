import QNEthernet.Drivers.W5500Scan
import QNEthernet.Lib.Run

/-! Framing on the W5500 receive path: from the wire through both buffers to the frames returned. The
driver is compared with a receiver that sees frames and no bytes. -/

namespace QNEthernet.Drivers.W5500

open Internal Lwip

/-- The frames among the first `k` that are not too large for the driver. -/
def acceptedOf (frames : List WireFrame) (k : Nat) : List WireFrame :=
  (frames.take k).filter WireFrame.accepted

/-- How many bytes have come to the chip, how many frames were read from it, and what became of each accepted
one that was taken from the local buffer: `none` stands for one that no pbuf was found for. -/
structure Receiver where
  arrived : Nat := 0
  read : Nat := 0
  taken : List (Option WireFrame) := []

namespace Receiver

variable (frames : List WireFrame)

def unread (r : Receiver) : Nat := r.arrived - (stream (frames.take r.read)).length

/-- The accepted frames that were read and not taken yet. -/
def waiting (r : Receiver) : List WireFrame := (acceptedOf frames r.read).drop r.taken.length

def room (r : Receiver) : Nat := kLocalInputBufSize - (stream (r.waiting frames)).length

/-- More bytes come, as far as there are any and the chip has room. -/
def receive (r : Receiver) (n : Nat) : Receiver :=
  { r with arrived :=
      r.arrived + min n (min ((stream frames).length - r.arrived) (kRxBufSize - r.unread frames)) }

/-- The count that two reads agree on, or zero. -/
def rxSize (r : Receiver) (poll : Poll) : Nat × Receiver :=
  let first := r.receive frames poll.arriving.1
  let second := first.receive frames poll.arriving.2.1
  let v1 := min poll.rsr.1 (first.unread frames)
  let v2 := min poll.rsr.2 (second.unread frames)
  (if v1 ≠ v2 then 0 else v2, second)

/-- The frames that are whole in the bytes counted are read, as long as the local buffer has room; and whether
it has. -/
def poll (r : Receiver) (poll : Poll) : Bool × Receiver :=
  let (size, r) := r.rxSize frames poll
  if size ≥ 2 then
    let whole := takeFrames size (r.room frames) (frames.drop r.read)
    let r := (r.receive frames poll.arriving.2.2.1).receive frames poll.arriving.2.2.2
    (whole.2, { r with read := r.read + whole.1 })
  else (false, r)

/-- Polls as long as there may be more; the flag says whether that has ended. -/
def drain (r : Receiver) : List Poll → Bool × Receiver
  | [] => (false, r)
  | poll :: polls =>
      match r.poll frames poll with
      | (true, r) => r.drain polls
      | (false, r) => (true, r)

/-- A call that returns takes the next frame, which is lost exactly if the allocation fails. -/
def procInput (r : Receiver) (polls : List Poll) (alloc : Option (Nat → Byte)) : Receiver :=
  match r.drain frames polls with
  | (false, r) => r
  | (true, r) =>
      match r.waiting frames with
      | [] => r
      | f :: _ => { r with taken := r.taken ++ [alloc.map fun _ => f] }

def step (r : Receiver) : Event → Receiver
  | .receive n => r.receive frames n
  | .procInput polls alloc => r.procInput frames polls alloc

end Receiver

/-- The frame of an entry in the order of the stream, or a frame that was dropped. -/
def InTurn (entry : Option WireFrame) (f : WireFrame) : Prop := entry = none ∨ entry = some f

/-- The driver against the receiver: the chip's buffer goes on with the frame behind those that were read, the
local buffer holds the accepted ones that are not taken yet, and the frames returned are those of the receiver,
which are the accepted ones in order. -/
structure Framed (frames : List WireFrame) (start : UInt16) (d : Driver) (r : Receiver) : Prop where
  consumed : r.read ≤ frames.length
  bounded : d.chip.Bounded
  pointer : d.chip.rxRd = start + UInt16.ofNat (stream (frames.take r.read)).length
  next : d.chip.pending ++ d.chip.wire = stream (frames.drop r.read)
  arrived : (stream (frames.take r.read)).length + d.chip.unread = r.arrived
  wf : d.buf.WF
  capacity : d.buf.capacity = kLocalInputBufSize
  count : r.taken.length ≤ (acceptedOf frames r.read).length
  buffered : d.buf.contents = stream (r.waiting frames)
  returned : d.taken.map (·.map (·.drop ethPadSize)) = r.taken.map (·.map WireFrame.payload)
  inTurn : List.Forall₂ InTurn r.taken ((acceptedOf frames r.read).take r.taken.length)
  unasserted : d.asserted = false
  initialized : d.initialized = true

namespace Framed

variable {frames : List WireFrame} {start : UInt16} {d : Driver} {r : Receiver}

theorem unread (framed : Framed frames start d r) : r.unread frames = d.chip.unread := by
  rw [Receiver.unread, ← framed.arrived, Nat.add_sub_cancel_left]

theorem wire (framed : Framed frames start d r) : d.chip.wire.length = (stream frames).length - r.arrived := by
  have split := congrArg List.length (stream_take_append_drop frames r.read)
  have next := congrArg List.length framed.next
  rw [List.length_append, d.chip.length_pending framed.bounded] at next
  rw [List.length_append] at split
  have arrived := framed.arrived
  omega

theorem room (framed : Framed frames start d r) : r.room frames = d.buf.remaining := by
  rw [remaining_eq d.buf framed.wf, framed.capacity, framed.buffered, Receiver.room]

theorem receive (framed : Framed frames start d r) (n : Nat) :
    Framed frames start (d.receive n) (r.receive frames n) := by
  rcases d.chip.receive_spec framed.bounded n with ⟨bounded, pointer, -, next, -⟩
  exact { framed with
    bounded := bounded
    pointer := pointer.trans framed.pointer
    next := next.trans framed.next
    arrived := by
      dsimp only [Driver.receive, Receiver.receive]
      rw [d.chip.unread_receive framed.bounded, framed.wire, framed.unread, ← framed.arrived, Nat.add_assoc] }

theorem consume (framed : Framed frames start d r) (n stop : Nat) (buf : ByteBuffer)
    (count : n ≤ (frames.drop r.read).length)
    (length : stop = (stream ((frames.drop r.read).take n)).length) (inside : stop ≤ d.chip.unread)
    (wf : buf.WF) (capacity : buf.capacity = d.buf.capacity) (contents : buf.contents =
      d.buf.contents ++ stream (((frames.drop r.read).take n).filter WireFrame.accepted)) :
    Framed frames start
      { d with buf := buf, chip := { d.chip with rxRd := d.chip.rxRd + UInt16.ofNat stop } }
      { r with read := r.read + n } := by
  have consumed := framed.consumed
  have taken := framed.count
  have split : frames.take (r.read + n) = frames.take r.read ++ (frames.drop r.read).take n := List.take_add
  have more : acceptedOf frames (r.read + n) =
      acceptedOf frames r.read ++ ((frames.drop r.read).take n).filter WireFrame.accepted := by
    rw [acceptedOf, split, List.filter_append, acceptedOf]
  have sum : (stream (frames.take (r.read + n))).length = (stream (frames.take r.read)).length + stop := by
    rw [split, stream_append, List.length_append, length]
  have pending := d.chip.length_pending framed.bounded
  rcases d.chip.commit_spec framed.bounded stop inside with ⟨bounded, freed, fewer⟩
  rw [List.length_drop] at count
  exact {
    consumed := by
      dsimp only
      omega
    bounded := bounded
    pointer := by
      dsimp only
      rw [sum, framed.pointer, UInt16.ofNat_add]
      grind
    next := by
      have rest := stream_take_append_drop (frames.drop r.read) n
      have joined := framed.next
      rw [rest, List.drop_drop] at joined
      dsimp only
      rw [freed]
      have cut := congrArg (List.drop stop) joined
      rwa [List.drop_append_of_le_length (by omega), length, List.drop_left, ← length] at cut
    arrived := by
      have arrived := framed.arrived
      dsimp only at fewer ⊢
      rw [sum]
      omega
    wf := wf
    capacity := capacity.trans framed.capacity
    count := by
      dsimp only
      rw [more, List.length_append]
      exact Nat.le_add_right_of_le taken
    buffered := by
      rw [contents, framed.buffered, Receiver.waiting, Receiver.waiting, more,
        List.drop_append_of_le_length taken, stream_append]
    returned := framed.returned
    inTurn := by
      dsimp only
      rw [more, List.take_append_of_le_length taken]
      exact framed.inTurn
    unasserted := framed.unasserted
    initialized := framed.initialized }

theorem rxSize (framed : Framed frames start d r) (poll : Poll) :
    (d.rxSize poll).1 = (r.rxSize frames poll).1 ∧
      Framed frames start (d.rxSize poll).2 (r.rxSize frames poll).2 ∧
      (d.rxSize poll).1 ≤ (d.rxSize poll).2.chip.unread := by
  have first := framed.receive poll.arriving.1
  have second := first.receive poll.arriving.2.1
  refine ⟨?_, second, ?_⟩
  · dsimp only [Driver.rxSize, Receiver.rxSize, Chip.rxRsr]
    rw [first.unread, second.unread]
    rfl
  · unfold Driver.rxSize
    dsimp only
    split
    · exact Nat.zero_le _
    · exact Nat.min_le_right _ _

theorem scanRx (framed : Framed frames start d r) (rxSize : Nat) (poll : Poll)
    (inside : rxSize ≤ d.chip.unread) :
    let whole := takeFrames rxSize (r.room frames) (frames.drop r.read)
    let r' := (r.receive frames poll.arriving.2.2.1).receive frames poll.arriving.2.2.2
    (d.scanRx rxSize poll).1 = whole.2 ∧
      Framed frames start (d.scanRx rxSize poll).2 { r' with read := r'.read + whole.1 } := by
  have third := framed.receive poll.arriving.2.2.1
  have fourth := third.receive poll.arriving.2.2.2
  have room := framed.room
  rcases d.chip.receive_spec framed.bounded poll.arriving.2.2.1 with ⟨-, ptr, grows, -, -⟩
  rcases (d.receive poll.arriving.2.2.1).chip.receive_spec third.bounded poll.arriving.2.2.2 with
    ⟨-, ptr', grows', -, -⟩
  have bytes : (d.receive poll.arriving.2.2.1).chip.read d.chip.rxRd rxSize =
      (d.receive poll.arriving.2.2.1).chip.pending.take rxSize := by
    have read := (d.chip.receive poll.arriving.2.2.1).read_eq rxSize (Nat.le_trans inside grows)
    rw [ptr] at read
    exact read
  have amount : ((d.receive poll.arriving.2.2.1).chip.pending.take rxSize).length = rxSize := by
    rw [List.length_take, Chip.length_pending _ third.bounded]
    exact Nat.min_eq_left (Nat.le_trans inside grows)
  have begins : ((d.receive poll.arriving.2.2.1).chip.pending.take rxSize).drop 0 <+:
      stream (frames.drop r.read) := by
    have next : (d.receive poll.arriving.2.2.1).chip.pending ++ (d.receive poll.arriving.2.2.1).chip.wire =
        stream (frames.drop r.read) := third.next
    rw [List.drop_zero, ← next]
    exact (List.take_prefix _ _).trans (List.prefix_append _ _)
  -- Arrivals after the read change neither what was read nor where reading goes on.
  generalize last : (d.receive poll.arriving.2.2.1).receive poll.arriving.2.2.2 = d' at fourth
  have pointer : d'.chip.rxRd = d.chip.rxRd := by
    rw [← last]
    exact ptr'.trans ptr
  have waiting : rxSize ≤ d'.chip.unread := by
    rw [← last]
    exact Nat.le_trans inside (Nat.le_trans grows grows')
  have room : d'.buf.remaining = r.room frames := fourth.room.symm
  have scanned := scan_spec _ (frames.drop r.read) 0 d'.buf d'.asserted fourth.wf (Nat.zero_le _) begins
  rw [amount, Nat.sub_zero, room] at scanned
  have stop := scanned.stop
  have limit := scanned.inside
  rw [Nat.zero_add] at stop
  rw [amount] at limit
  have done := fourth.consume _ _ _ scanned.count stop (Nat.le_trans limit waiting) scanned.wf
    scanned.capacity scanned.contents
  simp only [Driver.scanRx, last, bytes, scanned.good, Bool.false_eq_true, if_false,
    scanned.unasserted]
  rw [← pointer]
  split
  · exact ⟨scanned.retval, done⟩
  next zero =>
    have none : (scan ((d.receive poll.arriving.2.2.1).chip.pending.take rxSize) 0 d'.buf
      d'.asserted).stop = 0 := by simpa using zero
    rw [none] at done
    have same : d'.chip.rxRd + UInt16.ofNat 0 = d'.chip.rxRd := by simp
    rw [same] at done
    exact ⟨scanned.retval, done⟩

theorem readAndScan (framed : Framed frames start d r) (poll : Poll) :
    (d.readAndScan poll).1 = (r.poll frames poll).1 ∧
      Framed frames start (d.readAndScan poll).2 (r.poll frames poll).2 := by
  rcases framed.rxSize poll with ⟨size, counted, inside⟩
  unfold Driver.readAndScan Receiver.poll
  dsimp only
  rw [← size]
  split
  · exact counted.scanRx _ poll inside
  · exact ⟨rfl, counted⟩

theorem drain (framed : Framed frames start d r) (polls : List Poll) :
    (d.drain polls).1 = (r.drain frames polls).1 ∧
      Framed frames start (d.drain polls).2 (r.drain frames polls).2 := by
  induction polls generalizing d r with
  | nil => exact ⟨rfl, framed⟩
  | cons poll polls ih =>
      rcases framed.readAndScan poll with ⟨same, scanned⟩
      rw [Driver.drain, Receiver.drain]
      generalize d.readAndScan poll = now at same scanned
      generalize r.poll frames poll = then_ at same scanned
      obtain ⟨more, d'⟩ := now
      obtain ⟨more', r'⟩ := then_
      dsimp only at same scanned
      subst same
      cases more with
      | true => exact ih scanned
      | false => exact ⟨rfl, scanned⟩

theorem head (framed : Framed frames start d r) (some : d.buf.empty = false) :
    ∃ f rest, r.waiting frames = f :: rest ∧ d.buf.contents = f.encode ++ stream rest := by
  have buffered := framed.buffered
  match found : r.waiting frames with
  | [] =>
      rw [found] at buffered
      have none := ByteBuffer.length_contents d.buf framed.wf
      rw [buffered] at none
      simp [ByteBuffer.empty, ← none] at some
  | f :: rest =>
      rw [found, stream_cons] at buffered
      exact ⟨f, rest, rfl, buffered⟩

theorem nothing (framed : Framed frames start d r) (none : d.buf.empty = true) : r.waiting frames = [] := by
  have size := ByteBuffer.length_contents d.buf framed.wf
  rw [eq_of_beq none, framed.buffered] at size
  match found : r.waiting frames with
  | [] => rfl
  | f :: rest =>
      rw [found, stream_cons, List.length_append, f.length_encode, WireFrame.len] at size
      omega

theorem take (framed : Framed frames start d r) (f : WireFrame) (rest : List WireFrame)
    (found : r.waiting frames = f :: rest) (buf : ByteBuffer)
    (bytes : Option (List Byte)) (entry : Option WireFrame) (wf : buf.WF) (capacity : buf.capacity = d.buf.capacity)
    (contents : buf.contents = stream rest) (inTurn : InTurn entry f)
    (returned : bytes.map (·.drop ethPadSize) = entry.map WireFrame.payload) :
    Framed frames start { d with buf := buf, taken := d.taken ++ [bytes] }
      { r with taken := r.taken ++ [entry] } := by
  unfold Receiver.waiting at found
  have short : r.taken.length < (acceptedOf frames r.read).length := by
    by_contra long
    rw [List.drop_eq_nil_of_le (Nat.le_of_not_lt long)] at found
    cases found
  have first : (acceptedOf frames r.read)[r.taken.length] = f := by
    rw [List.drop_eq_getElem_cons short] at found
    exact (List.cons.inj found).1
  have after : (acceptedOf frames r.read).drop (r.taken.length + 1) = rest := by
    rw [List.drop_eq_getElem_cons short] at found
    exact (List.cons.inj found).2
  have length : (r.taken ++ [entry]).length = r.taken.length + 1 := by simp
  exact { framed with
    wf := wf
    capacity := capacity.trans framed.capacity
    count := by
      rw [length]
      exact short
    buffered := by
      dsimp only [Receiver.waiting]
      rw [length, after, contents]
    returned := by
      rw [List.map_append, List.map_append, framed.returned, List.map_singleton, List.map_singleton, returned]
    inTurn := by
      dsimp only
      rw [length, List.take_succ_eq_append_getElem short, first]
      exact List.rel_append framed.inTurn (List.Forall₂.cons inTurn List.Forall₂.nil) }

theorem takeFrame (framed : Framed frames start d r) {f : WireFrame} {rest : List WireFrame}
    (found : r.waiting frames = f :: rest) (contents : d.buf.contents = f.encode ++ stream rest)
    (alloc : Option (Nat → Byte)) :
    Framed frames start (d.takeFrame alloc) { r with taken := r.taken ++ [alloc.map fun _ => f] } := by
  have short := f.short
  have size := ByteBuffer.length_contents d.buf framed.wf
  rw [contents, List.length_append, f.length_encode, WireFrame.len] at size
  rcases d.buf.read_contents framed.wf 2 (by omega) with ⟨wf, header, behind, sized⟩
  rw [contents] at header behind
  have two : (d.buf.read 2).1.length = 2 := by rw [header]; rfl
  have length : readFrameLen (d.buf.read 2).1 = f.len := by
    rw [header, ← f.readFrameLen_encode (stream rest)]
    rfl
  have body : (d.buf.read 2).2.contents = f.payload ++ stream rest := by
    rw [behind]
    rfl
  have frameSize : (f.len + (2 ^ 16 - 2)) % 2 ^ 16 = f.payload.length := by
    rw [WireFrame.len, show f.payload.length + 2 + (2 ^ 16 - 2) = f.payload.length + 2 ^ 16 by omega,
      Nat.add_mod_right, Nat.mod_eq_of_lt (by omega)]
  have left := ByteBuffer.length_contents _ wf
  rw [body, List.length_append] at left
  simp only [Driver.takeFrame, two, length, frameSize, ne_eq, not_true_eq_false, decide_false,
    Bool.or_false]
  cases alloc with
  | none =>
      rcases (d.buf.read 2).2.skip_contents wf f.payload.length (by omega) with ⟨skipped, after, kept⟩
      rw [body, List.drop_left] at after
      exact framed.take f rest found _ none none skipped (kept.trans sized) after (.inl rfl) rfl
  | some fresh =>
      have pbuf : ((List.range ((f.payload.length + ethPadSize) % 2 ^ 16)).map fresh).length =
          f.payload.length := by
        rw [List.length_map, List.length_range, ethPadSize, Nat.add_zero]
        exact Nat.mod_eq_of_lt (by omega)
      dsimp only
      generalize (List.range ((f.payload.length + ethPadSize) % 2 ^ 16)).map fresh = p at pbuf ⊢
      rcases (d.buf.read 2).2.readPbuf_contents wf p ethPadSize (by omega) (Nat.zero_le _)
        (by rw [pbuf, ethPadSize]; omega) with ⟨ok, filled, read, after, kept⟩
      rw [pbuf, body] at filled after
      have whole : f.payload.length - ethPadSize = f.payload.length := rfl
      rw [whole, List.take_left] at filled
      rw [whole, List.drop_left] at after
      have taken := framed.take f rest found _ (some ((d.buf.read 2).2.readPbuf p ethPadSize).2.1) (some f) read
        (kept.trans sized) after (.inr rfl) (by rw [filled]; rfl)
      simpa only [ok, not_true_eq_false, decide_false, Bool.or_false, Option.map_some] using taken

theorem procInput (framed : Framed frames start d r) (polls : List Poll)
    (alloc : Option (Nat → Byte)) :
    Framed frames start (d.procInput polls alloc) (r.procInput frames polls alloc) := by
  rcases framed.drain polls with ⟨same, drained⟩
  simp only [Driver.procInput, Receiver.procInput, framed.initialized, Bool.not_true, Bool.false_eq_true, if_false]
  generalize d.drain polls = now at same drained
  generalize r.drain frames polls = then_ at same drained
  obtain ⟨ended, d'⟩ := now
  obtain ⟨ended', r'⟩ := then_
  dsimp only at same drained
  subst same
  cases ended with
  | false => exact drained
  | true =>
      dsimp only
      split
      · next none =>
          rw [drained.nothing none]
          exact drained
      · next some =>
          obtain ⟨f, rest, found, contents⟩ := drained.head (by simpa using some)
          rw [found]
          exact drained.takeFrame found contents alloc

theorem step (framed : Framed frames start d r) (event : Event) :
    Framed frames start (d.step event) (r.step frames event) := by
  cases event with
  | receive n => exact framed.receive n
  | procInput polls alloc => exact framed.procInput polls alloc

end Framed

/-- An initialized driver whose chip has nothing in its buffer yet. -/
def Driver.boot (c : Chip) (frames : List WireFrame) : Driver :=
  { chip := { c with rxWr := c.rxRd, wire := stream frames } }

theorem boot_framed (c : Chip) (frames : List WireFrame) :
    Framed frames c.rxRd (Driver.boot c frames) {} where
  consumed := Nat.zero_le _
  bounded := by simp [Driver.boot, Chip.Bounded, Chip.unread]
  pointer := by simp [Driver.boot]
  next := by simp [Driver.boot, Chip.pending, Chip.unread, Ring.window_zero]
  arrived := by simp [Driver.boot, Chip.unread]
  wf := wf_localBuf
  capacity := List.length_replicate
  count := Nat.zero_le _
  buffered := by
    simp [Driver.boot, ByteBuffer.contents, Ring.window_zero, Receiver.waiting, acceptedOf, stream]
  returned := rfl
  inTurn := List.Forall₂.nil
  unasserted := rfl
  initialized := rfl

/-- After every run the driver is where the receiver is. -/
theorem receive_framing (c : Chip) (frames : List WireFrame) (events : List Event) :
    Framed frames c.rxRd (events.foldl Driver.step (Driver.boot c frames))
      (events.foldl (Receiver.step frames) {}) :=
  List.foldl_rel (boot_framed c frames) fun event _ _ _ framed => framed.step event

/-- Two frames come; the first is dropped, and the second returned. -/
example : ((([.receive 7, .procInput [{ rsr := (7, 7) }, { rsr := (0, 0) }] none,
    .procInput [{ rsr := (0, 0) }] (some fun _ => 0)] : List Event).foldl
      (Receiver.step [⟨[5], by decide⟩, ⟨[6, 7], by decide⟩]) {}).taken.map (·.map WireFrame.payload)) =
    [none, some [6, 7]] := by decide

end QNEthernet.Drivers.W5500
