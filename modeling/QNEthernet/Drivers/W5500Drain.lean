import QNEthernet.Drivers.W5500Scan

/-! The drain loop of `proc_input` when nothing more arrives: it ends unless the waiting bytes end in
a frame that is longer than what there is of it. -/

namespace QNEthernet.Drivers.W5500

open Internal Lwip

/-- A poll during which nothing arrives: both reads of `Sn_RX_RSR` count all the waiting bytes. -/
def Poll.quiet (macraw : Bool) : Poll := { rsr := (kRxBufSize, kRxBufSize), macraw }

/-- Whole frames, the accepted of which fit into `room`, and behind them the length of a frame that
runs past the end. -/
def CutOff (bytes : List Byte) (room : Nat) : Prop :=
  ∃ (frames : List WireFrame) (rest : List Byte), bytes = stream frames ++ rest ∧ 2 ≤ rest.length ∧
    rest.length < readFrameLen rest ∧ (stream (frames.filter WireFrame.accepted)).length ≤ room

theorem readFrameLen_lt (bytes : List Byte) : readFrameLen bytes < 2 ^ 16 := by
  match bytes with
  | [] => exact Nat.two_pow_pos 16
  | [_] => exact Nat.two_pow_pos 16
  | high :: low :: _ =>
      have first := high.toNat_lt
      have second := low.toNat_lt
      simp only [readFrameLen]
      omega

theorem frame_of_bytes {bytes : List Byte} (two : 2 ≤ readFrameLen bytes)
    (inside : readFrameLen bytes ≤ bytes.length) :
    ∃ f : WireFrame, f.len = readFrameLen bytes ∧ f.encode = bytes.take (readFrameLen bytes) := by
  have limit := readFrameLen_lt bytes
  match bytes, two, inside, limit with
  | high :: low :: rest, two, inside, limit =>
      generalize length : readFrameLen (high :: low :: rest) = n at two inside limit
      have value : high.toNat * 256 + low.toNat = n := length
      have second := low.toNat_lt
      rw [List.length_cons, List.length_cons] at inside
      have size : (rest.take (n - 2)).length + 2 = n := by
        rw [List.length_take]
        omega
      refine ⟨⟨rest.take (n - 2), by omega⟩, size, ?_⟩
      have top : UInt8.ofNat (n / 256) = high := by
        rw [show n / 256 = high.toNat by omega, UInt8.ofNat_toNat]
      have bottom : UInt8.ofNat (n % 256) = low := by
        rw [show n % 256 = low.toNat by omega, UInt8.ofNat_toNat]
      simp only [WireFrame.encode, WireFrame.len, size, top, bottom]
      rw [show n = n - 2 + 1 + 1 by omega, List.take_succ_cons, List.take_succ_cons]
      simp

theorem length_accepted_cons (f : WireFrame) (frames : List WireFrame) :
    (stream ((f :: frames).filter WireFrame.accepted)).length =
      (stream ([f].filter WireFrame.accepted)).length +
        (stream (frames.filter WireFrame.accepted)).length := by
  rw [← List.length_append, ← stream_append, ← List.filter_append]
  rfl

namespace CutOff

variable {bytes : List Byte} {room : Nat}

theorem header (cut : CutOff bytes room) : 2 ≤ bytes.length ∧ 2 ≤ readFrameLen bytes := by
  obtain ⟨frames, rest, rfl, two, long, _⟩ := cut
  cases frames with
  | nil => exact ⟨two, by simp only [stream_nil, List.nil_append]; omega⟩
  | cons f frames =>
      have header : 2 ≤ f.len := Nat.le_add_left 2 _
      rw [stream_cons, List.append_assoc]
      constructor
      · rw [List.length_append, f.length_encode]
        omega
      · rw [f.readFrameLen_encode]
        exact header

theorem here (two : 2 ≤ bytes.length) (long : bytes.length < readFrameLen bytes) :
    CutOff bytes room :=
  ⟨[], bytes, rfl, two, long, Nat.zero_le _⟩

theorem behind {f : WireFrame} {rest : List Byte} :
    CutOff (f.encode ++ rest) room ↔
      (stream ([f].filter WireFrame.accepted)).length ≤ room ∧
        CutOff rest (room - (stream ([f].filter WireFrame.accepted)).length) := by
  constructor
  · intro ⟨frames, last, same, two, long, fits⟩
    cases frames with
    | nil =>
        -- The long frame cannot be the first one, which is whole.
        rw [stream_nil, List.nil_append] at same
        rw [← same, f.readFrameLen_encode, List.length_append, f.length_encode] at long
        omega
    | cons g frames =>
        rw [stream_cons, List.append_assoc] at same
        have length : f.len = g.len := by
          rw [← f.readFrameLen_encode rest, same, g.readFrameLen_encode]
        obtain ⟨head, tail⟩ := List.append_inj same (by rw [f.length_encode, g.length_encode, length])
        have payload : f.payload = g.payload := congrArg (List.drop 2) head
        have equal : f = g := by
          cases f
          cases g
          simpa using payload
        rw [← equal, length_accepted_cons] at fits
        exact ⟨by omega, frames, last, tail, two, long, by omega⟩
  · intro ⟨stored, frames, last, same, two, long, fits⟩
    refine ⟨f :: frames, last, ?_, two, long, ?_⟩
    · rw [stream_cons, List.append_assoc, same]
    · rw [length_accepted_cons]
      omega

end CutOff

/-- How a scan ends, with what it returns and whether it found bad data. -/
inductive Ending (rest : List Byte) (buf : ByteBuffer) : Bool → Bool → Prop where
  | short (few : rest.length < 2) : Ending rest buf true false
  | bad (two : 2 ≤ rest.length) (corrupt : readFrameLen rest < 2) : Ending rest buf true true
  | cut (two : 2 ≤ rest.length) (long : rest.length < readFrameLen rest) : Ending rest buf true false
  | full (two : 2 ≤ readFrameLen rest) (whole : readFrameLen rest ≤ rest.length)
      (wanted : readFrameLen rest - 2 ≤ kMaxFrameLen) (room : buf.remaining < readFrameLen rest) :
      Ending rest buf false false

/-- What a scan of arbitrary bytes leaves. -/
structure Stopped (rxBuf : List Byte) (pos : Nat) (buf : ByteBuffer) (result : Scan) : Prop where
  ending : Ending (rxBuf.drop result.stop) result.buf result.retval result.bad
  forward : pos ≤ result.stop
  inside : result.stop ≤ rxBuf.length
  wf : result.buf.WF
  cutOff : CutOff (rxBuf.drop pos) buf.remaining ↔
    CutOff (rxBuf.drop result.stop) result.buf.remaining

theorem length_accepted (f : WireFrame) :
    (stream ([f].filter WireFrame.accepted)).length = if f.len - 2 ≤ kMaxFrameLen then f.len else 0 := by
  have same : f.accepted = decide (f.len - 2 ≤ kMaxFrameLen) := rfl
  by_cases small : f.len - 2 ≤ kMaxFrameLen
  · simp [same, small]
  · simp [same, small]

theorem Stopped.here {rxBuf : List Byte} {pos : Nat} {buf : ByteBuffer} {retval bad asserted : Bool}
    (ending : Ending (rxBuf.drop pos) buf retval bad) (wf : buf.WF) (inside : pos ≤ rxBuf.length) :
    Stopped rxBuf pos buf { retval, bad, stop := pos, buf, asserted } :=
  ⟨ending, Nat.le_refl _, inside, wf, Iff.rfl⟩

theorem Stopped.next {rxBuf : List Byte} {pos : Nat} {buf next : ByteBuffer} {result : Scan}
    (two : 2 ≤ readFrameLen (rxBuf.drop pos))
    (whole : pos + readFrameLen (rxBuf.drop pos) ≤ rxBuf.length)
    (room : readFrameLen (rxBuf.drop pos) - 2 ≤ kMaxFrameLen →
      readFrameLen (rxBuf.drop pos) ≤ buf.remaining)
    (left : next.remaining = buf.remaining - if readFrameLen (rxBuf.drop pos) - 2 ≤ kMaxFrameLen then
      readFrameLen (rxBuf.drop pos) else 0)
    (stopped : Stopped rxBuf (pos + readFrameLen (rxBuf.drop pos)) next result) :
    Stopped rxBuf pos buf result := by
  obtain ⟨f, length, bytes⟩ := frame_of_bytes two (by rw [List.length_drop]; omega)
  have split : rxBuf.drop pos = f.encode ++ rxBuf.drop (pos + readFrameLen (rxBuf.drop pos)) := by
    rw [bytes, ← List.drop_drop, List.take_append_drop]
  rw [← length] at room left
  rw [← length_accepted] at left
  have stored : (stream ([f].filter WireFrame.accepted)).length ≤ buf.remaining := by
    rw [length_accepted]
    split
    · next small => exact room small
    · exact Nat.zero_le _
  refine ⟨stopped.ending, Nat.le_trans (Nat.le_add_right _ _) stopped.forward, stopped.inside,
    stopped.wf, ?_⟩
  rw [split, CutOff.behind, ← left, ← stopped.cutOff]
  exact and_iff_right stored

theorem remaining_write {buf : ByteBuffer} (wf : buf.WF) {bytes : List Byte}
    (fits : bytes.length ≤ buf.remaining) :
    (buf.write bytes).2.WF ∧ (buf.write bytes).2.remaining = buf.remaining - bytes.length := by
  obtain ⟨_, written, contents, capacity⟩ := buf.write_contents wf bytes fits
  have size := ByteBuffer.length_contents _ written
  rw [contents, List.length_append, ByteBuffer.length_contents _ wf] at size
  refine ⟨written, ?_⟩
  rw [ByteBuffer.remaining, capacity, ← size, ByteBuffer.remaining, Nat.sub_add_eq]

theorem scan_stopped (rxBuf : List Byte) (pos : Nat) (buf : ByteBuffer) (asserted : Bool)
    (wf : buf.WF) (inside : pos ≤ rxBuf.length) :
    Stopped rxBuf pos buf (scan rxBuf pos buf asserted) := by
  have bytes : (rxBuf.drop pos).length = rxBuf.length - pos := List.length_drop
  fun_induction scan rxBuf pos buf asserted with
  | case1 pos buf asserted header frameLen corrupt =>
      exact .here (.bad (by omega) corrupt) wf inside
  | case2 pos buf asserted header frameLen good long =>
      exact .here (.cut (by omega) (by omega)) wf inside
  | case3 pos buf asserted header frameLen good whole wanted room =>
      exact .here (.full (by omega) (by omega) wanted room) wf inside
  | case4 pos buf asserted header frameLen good whole wanted room written ih =>
      have length : ((rxBuf.drop pos).take frameLen).length = frameLen := by
        rw [List.length_take]
        omega
      have fits : ((rxBuf.drop pos).take frameLen).length ≤ buf.remaining := by omega
      obtain ⟨stored, left⟩ := remaining_write wf fits
      rw [length] at left
      apply Stopped.next (by omega) (by omega) (fun _ => by omega)
      · rw [if_pos wanted]
        exact left
      · exact ih stored (by omega) List.length_drop
  | case5 pos buf asserted header frameLen good whole large ih =>
      apply Stopped.next (by omega) (by omega) (fun small => absurd small large)
      · rw [if_neg large]
        rfl
      · exact ih wf (by omega) List.length_drop
  | case6 pos buf asserted few =>
      exact .here (.short (by omega)) wf inside

theorem Chip.receive_none (c : Chip) : c.receive 0 = c := by
  have position : c.rxWr.toNat % kRxBufSize < c.mem.length := by
    rw [c.full]
    exact Nat.mod_lt _ (by decide)
  have kept : Ring.splice c.mem (c.rxWr.toNat % kRxBufSize) [] = c.mem := by
    rw [Ring.splice, List.length_nil, Nat.add_zero, if_pos position, Ring.overwrite]
    simp
  simp [Chip.receive, kept]

namespace Driver

variable {d : Driver}

theorem receive_none (d : Driver) : d.receive 0 = d := by
  rw [receive, Chip.receive_none]

/-- What is left of the bytes that wait once the scan of all of them is done with its part. -/
def advance (d : Driver) (result : Scan) : Driver :=
  { d with
    buf := result.buf
    asserted := result.asserted
    chip := { d.chip with rxRd := d.chip.rxRd + UInt16.ofNat result.stop } }

theorem readAndScan_quiet (bounded : d.chip.Bounded) (macraw : Bool) :
    d.readAndScan (.quiet macraw) =
      if 2 ≤ d.chip.unread then
        let result := scan d.chip.pending 0 d.buf d.asserted
        if result.bad then
          (result.retval,
            { d with buf := result.buf, asserted := result.asserted }.restartSocket macraw)
        else (result.retval, d.advance result)
      else (false, d) := by
  have counted : d.rxSize (.quiet macraw) = (d.chip.unread, d) := by
    have all : d.chip.rxRsr kRxBufSize = d.chip.unread := Nat.min_eq_right bounded
    simp only [rxSize, Poll.quiet, receive_none, all, ne_eq, not_true_eq_false, if_false]
  have bytes : d.chip.read d.chip.rxRd d.chip.unread = d.chip.pending := rfl
  simp only [readAndScan, counted]
  split
  · simp only [scanRx, Poll.quiet, receive_none, bytes]
    split
    · rfl
    · split
      · rfl
      · next zero =>
          have none : (scan d.chip.pending 0 d.buf d.asserted).stop = 0 := by simpa using zero
          simp [advance, none]
  · rfl

structure Ready (d : Driver) : Prop where
  bounded : d.chip.Bounded
  wf : d.buf.WF

/-- The waiting bytes end in a frame that is cut off, and the scan gets to it. -/
def Stuck (d : Driver) : Prop := CutOff d.chip.pending d.buf.remaining

/-- `Sn_RX_RD` moves on by some of the waiting bytes, or the socket is restarted. -/
def Moves (d d' : Driver) : Prop :=
  (∃ n, 0 < n ∧ n ≤ d.chip.unread ∧ d'.chip.rxRd = d.chip.rxRd + UInt16.ofNat n) ∨
    d'.chip = { d.chip with rxRd := 0, rxWr := 0 }

/-- The states that the loop comes to when nothing arrives: every call before returned true. -/
inductive Loops (d : Driver) : Driver → Prop where
  | start : Loops d d
  | again {d' : Driver} (macraw : Bool) (before : Loops d d')
      (more : (d'.readAndScan (.quiet macraw)).1 = true) :
      Loops d (d'.readAndScan (.quiet macraw)).2

/-- The loop ends after some number of calls, whatever a restart of the socket answers. -/
def Ends (d : Driver) : Prop :=
  ∃ n, ∀ answers : List Bool, n ≤ answers.length → (d.drain (answers.map Poll.quiet)).1 = true

theorem Ready.scanned (ready : d.Ready) :
    Stopped d.chip.pending 0 d.buf (scan d.chip.pending 0 d.buf d.asserted) :=
  scan_stopped _ 0 _ _ ready.wf (Nat.zero_le _)

theorem Ready.advance (ready : d.Ready) :
    (d.advance (scan d.chip.pending 0 d.buf d.asserted)).Ready ∧
      (d.advance (scan d.chip.pending 0 d.buf d.asserted)).chip.pending =
        d.chip.pending.drop (scan d.chip.pending 0 d.buf d.asserted).stop := by
  have inside := ready.scanned.inside
  rw [Chip.length_pending _ ready.bounded] at inside
  obtain ⟨bounded, pending, -⟩ := d.chip.commit_spec ready.bounded _ inside
  exact ⟨⟨bounded, ready.scanned.wf⟩, pending⟩

theorem Ready.unread_advance (ready : d.Ready) :
    (d.advance (scan d.chip.pending 0 d.buf d.asserted)).chip.unread =
      d.chip.unread - (scan d.chip.pending 0 d.buf d.asserted).stop := by
  obtain ⟨after, pending⟩ := ready.advance
  rw [← Chip.length_pending _ after.bounded, pending, List.length_drop,
    Chip.length_pending _ ready.bounded]

theorem Stuck.turn (ready : d.Ready) (stuck : d.Stuck) (macraw : Bool) :
    (d.readAndScan (.quiet macraw)).1 = true ∧ (d.readAndScan (.quiet macraw)).2.Ready ∧
      (d.readAndScan (.quiet macraw)).2.Stuck := by
  have two := stuck.header.1
  rw [Chip.length_pending _ ready.bounded] at two
  rw [readAndScan_quiet ready.bounded, if_pos two]
  dsimp only
  have stopped := ready.scanned
  obtain ⟨after, pending⟩ := ready.advance
  have cut : CutOff (d.chip.pending.drop (scan d.chip.pending 0 d.buf d.asserted).stop)
      (scan d.chip.pending 0 d.buf d.asserted).buf.remaining := stopped.cutOff.mp stuck
  have ending := stopped.ending
  generalize scan d.chip.pending 0 d.buf d.asserted = result at *
  obtain ⟨retval, bad, stop, buf, asserted⟩ := result
  cases ending with
  | short few => exact absurd cut.header.1 (by omega)
  | bad two corrupt => exact absurd cut.header.2 (by omega)
  | cut two long =>
      refine ⟨rfl, after, ?_⟩
      change CutOff (d.advance _).chip.pending buf.remaining
      rw [pending]
      exact cut
  | full two whole wanted room =>
      obtain ⟨f, length, bytes⟩ := frame_of_bytes two whole
      rw [← List.take_append_drop (readFrameLen _) (d.chip.pending.drop _), ← bytes, CutOff.behind,
        length_accepted, length, if_pos wanted] at cut
      exact absurd cut.1 (by omega)

/-- Fewer than two bytes hold no frame at all. -/
theorem Ready.free_of_few (ready : d.Ready) (few : d.chip.unread < 2) : ¬ d.Stuck := by
  intro stuck
  have two := stuck.header.1
  rw [Chip.length_pending _ ready.bounded] at two
  omega

theorem restarted (wf : d.buf.WF) (macraw : Bool) :
    (d.restartSocket macraw).Ready ∧ (d.restartSocket macraw).chip.unread = 0 := by
  have none : (d.restartSocket macraw).chip.unread = 0 := by
    simp [restartSocket, Chip.unread]
  exact ⟨⟨Nat.le_trans (Nat.le_of_eq none) (Nat.zero_le _), wf⟩, none⟩

/-- Otherwise a call that returns true has moved, and the next one finds fewer bytes. -/
theorem turn_moves (ready : d.Ready) (free : ¬ d.Stuck) (macraw : Bool)
    (more : (d.readAndScan (.quiet macraw)).1 = true) :
    d.Moves (d.readAndScan (.quiet macraw)).2 ∧ (d.readAndScan (.quiet macraw)).2.Ready ∧
      ¬ (d.readAndScan (.quiet macraw)).2.Stuck ∧
      (d.readAndScan (.quiet macraw)).2.chip.unread < d.chip.unread := by
  rw [readAndScan_quiet ready.bounded] at more ⊢
  by_cases two : 2 ≤ d.chip.unread
  · simp only [if_pos two] at more ⊢
    have stopped := ready.scanned
    obtain ⟨after, pending⟩ := ready.advance
    have fewer := ready.unread_advance
    have length := Chip.length_pending _ ready.bounded
    have inside := stopped.inside
    have whole : ¬ CutOff (d.chip.pending.drop (scan d.chip.pending 0 d.buf d.asserted).stop)
        (scan d.chip.pending 0 d.buf d.asserted).buf.remaining :=
      fun cut => free (stopped.cutOff.mpr cut)
    have ending := stopped.ending
    have wf := stopped.wf
    generalize scan d.chip.pending 0 d.buf d.asserted = result at *
    obtain ⟨retval, bad, stop, buf, asserted⟩ := result
    dsimp only at *
    cases ending with
    | short few =>
        rw [List.length_drop] at few
        rw [if_neg Bool.false_ne_true]
        dsimp only
        exact ⟨.inl ⟨stop, by omega, by omega, rfl⟩, after, after.free_of_few (by omega), by omega⟩
    | bad two corrupt =>
        obtain ⟨ready', none⟩ := restarted (d := { d with buf := buf, asserted := asserted }) wf macraw
        rw [if_pos rfl]
        dsimp only
        exact ⟨.inr rfl, ready', ready'.free_of_few (by omega), by omega⟩
    | cut two long => exact absurd (.here two long) whole
    | full two whole wanted room => cases more
  · rw [if_neg two] at more
    cases more

theorem Ready.still (ready : d.Ready) (two : 2 ≤ d.chip.unread)
    (long : d.chip.unread < readFrameLen d.chip.pending) (macraw : Bool) :
    ¬ d.Moves (d.readAndScan (.quiet macraw)).2 := by
  have length := Chip.length_pending _ ready.bounded
  have first : scan d.chip.pending 0 d.buf d.asserted =
      { retval := true, bad := false, stop := 0, buf := d.buf, asserted := d.asserted } := by
    rw [scan, if_pos (by omega)]
    simp only [List.drop_zero]
    rw [if_neg (by omega), if_pos (by omega)]
  have still : (d.readAndScan (.quiet macraw)).2.chip = d.chip := by
    rw [readAndScan_quiet ready.bounded, if_pos two, first]
    simp [Driver.advance]
  intro moves
  rcases moves with ⟨n, some, inside, moved⟩ | moved
  · rw [still] at moved
    have zero : UInt16.ofNat n = 0 := by simpa using moved.symm
    have limit : kRxBufSize < 2 ^ 16 := by decide
    have bounded : d.chip.unread ≤ kRxBufSize := ready.bounded
    have value : (UInt16.ofNat n).toNat = n :=
      UInt16.toNat_ofNat_of_lt (by change n < 2 ^ 16; omega)
    rw [zero] at value
    change 0 = n at value
    omega
  · rw [still] at moved
    have none : d.chip.unread = 0 := by
      rw [moved]
      simp [Chip.unread]
    omega

theorem Loops.free {d' : Driver} (loops : Loops d d') (ready : d.Ready) (free : ¬ d.Stuck) :
    d'.Ready ∧ ¬ d'.Stuck := by
  induction loops with
  | start => exact ⟨ready, free⟩
  | again macraw before more ih =>
      obtain ⟨_, after, stays, _⟩ := turn_moves ih.1 ih.2 macraw more
      exact ⟨after, stays⟩

theorem drain_cons (d : Driver) (poll : Poll) (polls : List Poll) :
    d.drain (poll :: polls) =
      if (d.readAndScan poll).1 then (d.readAndScan poll).2.drain polls
      else (true, (d.readAndScan poll).2) := by
  rw [drain]
  split
  · next d' more => simp [more]
  · next d' done => simp [done]

/-- One call for each byte that waits and a last one are enough. -/
theorem ends_of_free (ready : d.Ready) (free : ¬ d.Stuck) (answers : List Bool)
    (enough : d.chip.unread < answers.length) : (d.drain (answers.map Poll.quiet)).1 = true := by
  induction answers generalizing d with
  | nil => exact absurd enough (Nat.not_lt_zero _)
  | cons macraw answers ih =>
      rw [List.map_cons, drain_cons]
      by_cases more : (d.readAndScan (.quiet macraw)).1 = true
      · obtain ⟨_, after, stays, fewer⟩ := turn_moves ready free macraw more
        rw [if_pos more]
        rw [List.length_cons] at enough
        exact ih after stays (by omega)
      · rw [if_neg more]

theorem Stuck.never_ends (ready : d.Ready) (stuck : d.Stuck) (answers : List Bool) :
    (d.drain (answers.map Poll.quiet)).1 = false := by
  induction answers generalizing d with
  | nil => rfl
  | cons macraw answers ih =>
      obtain ⟨more, after, stays⟩ := stuck.turn ready macraw
      rw [List.map_cons, drain_cons, if_pos more]
      exact ih after stays

theorem Stuck.not_ends (ready : d.Ready) (stuck : d.Stuck) : ¬ d.Ends := by
  intro ended
  obtain ⟨n, ends⟩ := ended
  have never := stuck.never_ends ready (List.replicate n true)
  rw [ends _ (by rw [List.length_replicate])] at never
  cases never

/-- For every content of both buffers, when nothing arrives: the loop ends, and each of its calls that
returns true moves, exactly when the scan does not get to a frame that is cut off. -/
theorem drain_ends_iff (d : Driver) (bounded : d.chip.unread ≤ kRxBufSize) (wf : d.buf.WF) :
    (d.Ends ∧ ∀ d', Loops d d' → ∀ macraw, (d'.readAndScan (.quiet macraw)).1 = true →
        d'.Moves (d'.readAndScan (.quiet macraw)).2) ↔
      ¬ CutOff d.chip.pending d.buf.remaining := by
  have ready : d.Ready := ⟨bounded, wf⟩
  constructor
  · intro given stuck
    exact Stuck.not_ends ready stuck given.1
  · intro free
    refine ⟨⟨d.chip.unread + 1, fun answers enough => ends_of_free ready free answers enough⟩, ?_⟩
    intro d' loops macraw more
    obtain ⟨ready', free'⟩ := loops.free ready free
    exact (turn_moves ready' free' macraw more).1

/-- A driver with an empty local buffer, on a chip in which these bytes wait. -/
def holding (bytes : List Byte) (fits : bytes.length ≤ kRxBufSize) : Driver where
  chip :=
    { mem := bytes ++ List.replicate (kRxBufSize - bytes.length) 0
      rxRd := 0
      rxWr := UInt16.ofNat bytes.length
      wire := []
      full := by
        rw [List.length_append, List.length_replicate]
        omega }

section Holding

variable (bytes : List Byte) (fits : bytes.length ≤ kRxBufSize)

theorem unread_holding : (holding bytes fits).chip.unread = bytes.length := by
  have limit : kRxBufSize < 2 ^ 16 := by decide
  have small : (UInt16.ofNat bytes.length).toNat = bytes.length :=
    UInt16.toNat_ofNat_of_lt (by change bytes.length < 2 ^ 16; omega)
  simp only [holding, Chip.unread, UInt16.sub_zero, small]

theorem pending_holding : (holding bytes fits).chip.pending = bytes := by
  rw [Chip.pending, unread_holding]
  change Ring.window (bytes ++ List.replicate (kRxBufSize - bytes.length) 0) 0 bytes.length = bytes
  rw [Ring.window_straight _ _ _ (by rw [List.length_append]; omega), List.drop_zero, List.take_left]

theorem wf_holding : (holding bytes fits).buf.WF := wf_localBuf

end Holding

/-- One whole frame of two bytes. -/
theorem drain_ends_frame : (holding [0, 4, 1, 2] (by decide)).Ends := by
  refine ((drain_ends_iff _ ?_ ?_).mpr ?_).1
  · rw [unread_holding]
    decide
  · exact wf_holding _ _
  · rw [pending_holding]
    generalize ByteBuffer.remaining _ = room
    intro cut
    have frame : [0, 4, 1, 2] = (⟨[1, 2], by decide⟩ : WireFrame).encode ++ [] := by decide
    rw [frame, CutOff.behind] at cut
    exact absurd cut.2.header.1 (by decide)

/-- Two bytes that announce a frame of 1500: the loop goes on for ever, and its calls move nothing. -/
theorem drain_never_ends :
    let d := holding [0x05, 0xdc] (by decide)
    ¬ d.Ends ∧ (d.readAndScan (.quiet true)).1 = true ∧ ¬ d.Moves (d.readAndScan (.quiet true)).2 := by
  intro d
  have stuck : d.Stuck := by
    rw [Stuck, pending_holding]
    exact .here (by decide) (by decide)
  have ready : d.Ready := ⟨by rw [Chip.Bounded, unread_holding]; decide, wf_holding _ _⟩
  refine ⟨stuck.not_ends ready, (stuck.turn ready true).1, ?_⟩
  apply ready.still
  · rw [unread_holding]
    decide
  · rw [unread_holding, pending_holding]
    decide

end Driver

end QNEthernet.Drivers.W5500
