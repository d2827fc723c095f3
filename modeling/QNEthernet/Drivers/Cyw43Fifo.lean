import QNEthernet.Lib.Memory
import QNEthernet.Drivers.Cyw43Frames

/-! The radio function as a stream of bytes, and how `ioctl_get_event` takes frames out of it. -/

namespace QNEthernet.Drivers.Cyw43

open Lwip

/-- What the card makes of the nine bits that hold a byte count. -/
def byteCount (size : Nat) : Nat := if size &&& 0x1FF = 0 then 512 else size &&& 0x1FF

/-- The words that `cardCMD53` moves over the data port, counted in 16 bits. -/
def wordCount (size : Nat) : Nat := (size / 4 + if size % 4 > 0 then 1 else 0) % 2 ^ 16

/-- What a transfer leaves in the caller's buffer. Only the first `count` bytes come from the card. -/
structure Store where
  start : Nat
  count : Nat
  bytes : List Byte
  deriving DecidableEq

def fill (data : Message) (stores : List Store) : Message :=
  stores.foldl (fun data s => data.poke s.start s.bytes) data

/-- The bytes that the chip gives, one after the other, and the sizes that it was asked for. -/
structure Fifo where
  bytes : Nat → Byte
  pos : Nat := 0
  requests : List Nat := []

namespace Fifo

/-- `cardCMD53_read` to an offset of a buffer, or to a null pointer. The last word is filled up with
`pad`. -/
def cardCMD53Read (pad : Byte) (buffer : Option Nat) (size : Nat) (f : Fifo) : (Bool × List Store) × Fifo :=
  match buffer with
  | none => ((false, []), f)
  | some start =>
      let word i := if i < byteCount size then f.bytes (f.pos + i) else pad
      ((true, [⟨start, byteCount size, (List.range (4 * wordCount size)).map word⟩]),
        { f with pos := f.pos + byteCount size, requests := f.requests ++ [size] })

/-- The first loop of `ioctl_get_event`; `fuel` bounds the turns, each of which asks for a byte at least. -/
def readLoop (pad : Byte) (len maxlen : Nat) : Nat → Nat → Fifo → (Nat × List Store) × Fifo
  | 0, n, f => ((n, []), f)
  | fuel + 1, n, f =>
      if n < len - 12 ∧ n < maxlen then
        let blklen := min (min (maxlen - n) (len - n)) ioctlMaxBlklen
        let ((_, stored), f) := f.cardCMD53Read pad (some n) blklen
        let ((n, stores), f) := readLoop pad len maxlen fuel (n + blklen) f
        ((n, stored ++ stores), f)
      else ((n, []), f)

/-- The second loop, which is to discard the bytes over `maxlen`. -/
def discardLoop (pad : Byte) (len : Nat) : Nat → Nat → Fifo → Nat × Fifo
  | 0, n, f => (n, f)
  | fuel + 1, n, f =>
      if n < len - 12 then
        let blklen := min (len - n) ioctlMaxBlklen
        let (_, f) := f.cardCMD53Read pad none blklen
        discardLoop pad len fuel (n + blklen) f
      else (n, f)

/-- What `ioctl_get_event` returns, what it stores in the caller's buffer, and how far both loops
have counted. -/
structure Got where
  ret : Nat
  stores : List Store
  n : Nat
  fifo : Fifo

def headerLen (hp : List Byte) : Nat := (load16 hp 0).toNat

/-- The check of `ioctl_get_event`. -/
def accepts (hp : List Byte) : Bool :=
  headerLen hp > 12 && load16 hp 2 != 0 && load16 hp 0 == load16 hp 2 ^^^ 0xffff

/-- The two loops, once the header is accepted. -/
def takePayload (pad : Byte) (len maxlen : Nat) (f : Fifo) : Got :=
  let dlen := len - 12
  let ((n, stores), f) := readLoop pad len maxlen dlen 0 f
  let (n, f) := discardLoop pad len dlen n f
  ⟨if dlen > maxlen then maxlen else dlen, stores, n, f⟩

def ioctlGetEvent (pad : Byte) (maxlen : Nat) (f : Fifo) : Got :=
  let ((res, stored), f) := f.cardCMD53Read pad (some 0) 12
  let hp := stored.flatMap Store.bytes
  if res ∧ accepts hp then takePayload pad (headerLen hp) maxlen f else ⟨0, [], 0, f⟩

def peek (f : Fifo) (n : Nat) : List Byte := (List.range n).map fun i => f.bytes (f.pos + i)

end Fifo

theorem byteCount_eq {size : Nat} (some_bytes : 0 < size) (small : size ≤ 512) : byteCount size = size := by
  have low : size &&& 0x1FF = size % 512 := Nat.and_two_pow_sub_one_eq_mod size 9
  unfold byteCount
  rw [low]
  split
  · omega
  · omega

theorem wordCount_eq {size : Nat} (small : size < 2 ^ 16) : wordCount size = (size + 3) / 4 := by
  unfold wordCount
  split
  · omega
  · omega

theorem Message.poke_eq (data : Message) (start : Nat) (bytes : List Byte) :
    data.poke start bytes = Memory.write data start bytes := rfl

theorem fill_before (stores : List Store) (data : Message) {i : Nat} (before : ∀ s ∈ stores, i < s.start) :
    fill data stores i = data i := by
  induction stores generalizing data with
  | nil => rfl
  | cons s stores ih =>
      rw [fill, List.foldl_cons, ← fill, ih _ fun t member => before t (List.mem_cons_of_mem _ member)]
      exact Memory.write_before data (before s List.mem_cons_self)

namespace Fifo

/-- How far the first loop counts. The last block is cut by what is left of the whole length, header
included, and not by what is left of the payload. -/
def received (len maxlen : Nat) : Nat :=
  let dlen := len - 12
  if maxlen ≤ dlen then maxlen
  else if dlen % 512 = 0 then dlen
  else dlen + min (maxlen - dlen) (min 12 (512 - dlen % 512))

/-- What a loop that has counted from `n` to `n'` has done to the stream and to the buffer. -/
structure Took (n n' : Nat) (stores : List Store) (f f' : Fifo) : Prop where
  le : n ≤ n'
  bytes : f'.bytes = f.bytes
  pos : f'.pos = f.pos + (n' - n)
  requests : ∃ sizes : List Nat, f'.requests = f.requests ++ sizes ∧ sizes.sum = n' - n ∧ ∀ size ∈ sizes, 0 < size ∧ size ≤ 512
  behind : ∀ s ∈ stores, n ≤ s.start
  data : ∀ data i, n ≤ i → i < n' → fill data stores i = f.bytes (f.pos + (i - n))

theorem received_cases (len maxlen : Nat) :
    maxlen ≤ len - 12 ∧ received len maxlen = maxlen ∨
      len - 12 < maxlen ∧ (len - 12) % 512 = 0 ∧ received len maxlen = len - 12 ∨
      len - 12 < maxlen ∧ (len - 12) % 512 ≠ 0 ∧
        received len maxlen = len - 12 + min (maxlen - (len - 12)) (min 12 (512 - (len - 12) % 512)) := by
  dsimp only [received]
  split
  · next full => exact .inl ⟨full, rfl⟩
  · next room =>
      split
      · next whole => exact .inr (.inl ⟨by omega, whole, rfl⟩)
      · next part => exact .inr (.inr ⟨by omega, part, rfl⟩)

variable {pad : Byte} {len maxlen : Nat}

theorem took_none (n : Nat) (f : Fifo) : Took n n [] f f where
  le := Nat.le_refl n
  bytes := rfl
  pos := by rw [Nat.sub_self, Nat.add_zero]
  requests := ⟨[], by simp⟩
  behind := by simp
  data := by
    intro _ i from_start before
    omega

theorem Took.block {n n' blklen : Nat} {stores : List Store} {f f' : Fifo} (some_bytes : 0 < blklen)
    (small : blklen ≤ 512)
    (took : Took (n + blklen) n' stores (f.cardCMD53Read pad (some n) blklen).2 f') :
    Took n n' ((f.cardCMD53Read pad (some n) blklen).1.2 ++ stores) f f' := by
  have count : byteCount blklen = blklen := byteCount_eq some_bytes small
  have words : wordCount blklen = (blklen + 3) / 4 := wordCount_eq (by omega)
  have le := took.le
  refine ⟨by omega, took.bytes, ?_, ?_, ?_, ?_⟩
  · rw [took.pos]
    simp only [cardCMD53Read, count]
    omega
  · obtain ⟨sizes, requests, sum, bound⟩ := took.requests
    refine ⟨blklen :: sizes, ?_, ?_, ?_⟩
    · rw [requests]
      simp [cardCMD53Read]
    · rw [List.sum_cons, sum]
      omega
    · intro size member
      rcases List.mem_cons.mp member with rfl | later
      · exact ⟨some_bytes, small⟩
      · exact bound size later
  · intro s member
    rcases List.mem_append.mp member with now | later
    · simp only [cardCMD53Read, List.mem_singleton] at now
      rw [now]
    · have := took.behind s later
      omega
  · intro data i from_start before
    rw [fill, List.foldl_append, ← fill, ← fill]
    by_cases now : i < n + blklen
    · rw [fill_before stores _ fun s member => Nat.lt_of_lt_of_le now (took.behind s member)]
      have inside : i - n < blklen := by omega
      have stored : i - n < (List.range (4 * wordCount blklen)).length := by
        rw [List.length_range, words]
        omega
      simp only [cardCMD53Read, fill, List.foldl_cons, List.foldl_nil]
      rw [Message.poke_eq, Memory.write_inside _ from_start (by simpa using stored)]
      simp [count, inside]
    · rw [took.data _ i (by omega) before]
      simp only [cardCMD53Read, count]
      congr 1
      omega

theorem readLoop_took (fuel n : Nat) (f : Fifo) :
    let r := readLoop pad len maxlen fuel n f
    Took n r.1.1 r.1.2 f r.2 := by
  induction fuel generalizing n f with
  | zero => exact took_none n f
  | succ fuel ih =>
      dsimp only [readLoop]
      split
      · next going =>
          have some_bytes : 0 < min (min (maxlen - n) (len - n)) ioctlMaxBlklen := by
            unfold ioctlMaxBlklen
            omega
          exact Took.block some_bytes (Nat.min_le_right _ _) (ih _ _)
      · exact took_none n f

theorem readLoop_ended {n : Nat} (ended : ¬ (n < len - 12 ∧ n < maxlen)) (fuel : Nat) (f : Fifo) :
    readLoop pad len maxlen fuel n f = ((n, []), f) := by
  cases fuel with
  | zero => rfl
  | succ fuel => rw [readLoop, if_neg ended]

theorem readLoop_count (fuel n : Nat) (f : Fifo) (blocks : n % 512 = 0) (begun : n ≤ len - 12) (room : n ≤ maxlen)
    (enough : len - 12 ≤ n + fuel) : (readLoop pad len maxlen fuel n f).1.1 = received len maxlen := by
  have ends := received_cases len maxlen
  induction fuel generalizing n f with
  | zero =>
      dsimp only [readLoop]
      omega
  | succ fuel ih =>
      dsimp only [readLoop]
      split
      · next going =>
          -- A whole block keeps the count a multiple of 512; any other block is the last one.
          by_cases whole : n + 512 ≤ len - 12 ∧ n + 512 ≤ maxlen
          · have size : min (min (maxlen - n) (len - n)) ioctlMaxBlklen = 512 := by
              unfold ioctlMaxBlklen
              omega
            rw [size]
            exact ih (n + 512) _ (by omega) (by omega) (by omega) (by omega)
          · rw [readLoop_ended (by unfold ioctlMaxBlklen; omega)]
            dsimp only
            unfold ioctlMaxBlklen
            omega
      · dsimp only
        omega

theorem discardLoop_fifo (fuel n : Nat) (f : Fifo) : (discardLoop pad len fuel n f).2 = f := by
  induction fuel generalizing n with
  | zero => rfl
  | succ fuel ih =>
      dsimp only [discardLoop]
      split
      · exact ih _
      · rfl

def header (f : Fifo) : List Byte := f.peek 12

def afterHeader (f : Fifo) : Fifo := { f with pos := f.pos + 12, requests := f.requests ++ [12] }

theorem ioctlGetEvent_eq (f : Fifo) :
    ioctlGetEvent pad maxlen f =
      if accepts f.header then takePayload pad (headerLen f.header) maxlen f.afterHeader
      else ⟨0, [], 0, f.afterHeader⟩ := by
  have read : f.cardCMD53Read pad (some 0) 12 = ((true, [⟨0, 12, f.header⟩]), f.afterHeader) := rfl
  have hp : [Store.mk 0 12 f.header].flatMap Store.bytes = f.header := by simp
  simp only [ioctlGetEvent, read, hp, true_and]

/-- A frame of which the header and its complement agree. -/
def Valid (f : Fifo) : Prop := 12 < headerLen f.header ∧ load16 f.header 0 = ~~~load16 f.header 2

/-- A call takes its frame and no more out of the stream. -/
structure InStep (maxlen : Nat) (f : Fifo) (got : Got) : Prop where
  valid : f.Valid →
    (∃ sizes, got.fifo.requests = f.requests ++ 12 :: sizes ∧ sizes.sum = headerLen f.header - 12) ∧
    (∀ data, ∀ i < min (headerLen f.header - 12) maxlen, fill data got.stores i = f.bytes (f.pos + 12 + i)) ∧
    got.ret = min (headerLen f.header - 12) maxlen ∧
    got.fifo.pos = f.pos + headerLen f.header
  invalid : ¬ f.Valid → got.ret = 0 ∧ got.fifo.requests = f.requests ++ [12]

theorem xor_ones (x : BitVec 16) : x ^^^ 0xffff = ~~~x := BitVec.xor_allOnes

theorem accepts_iff (f : Fifo) : accepts f.header = true ↔ f.Valid ∧ headerLen f.header ≠ 0xffff := by
  have full (same : load16 f.header 0 = ~~~load16 f.header 2) :
      load16 f.header 2 = 0 ↔ headerLen f.header = 0xffff := by
    rw [headerLen, same]
    constructor
    · intro zero
      rw [zero]
      rfl
    · intro ones
      have all : ~~~load16 f.header 2 = BitVec.allOnes 16 := BitVec.eq_of_toNat_eq ones
      rw [← BitVec.not_not (b := load16 f.header 2), all]
      rfl
  simp only [accepts, Bool.and_eq_true, decide_eq_true_eq, bne_iff_ne, beq_iff_eq, xor_ones, Valid]
  constructor
  · intro given
    obtain ⟨⟨long, notlen⟩, same⟩ := given
    exact ⟨⟨long, same⟩, fun ones => notlen ((full same).mpr ones)⟩
  · intro given
    obtain ⟨⟨long, same⟩, short⟩ := given
    exact ⟨⟨long, fun zero => short ((full same).mp zero)⟩, same⟩

theorem takePayload_took (len : Nat) (f : Fifo) :
    let got := takePayload pad len maxlen f
    got.ret = min (len - 12) maxlen ∧ Took 0 (received len maxlen) got.stores f got.fifo := by
  have count := @readLoop_count pad len maxlen (len - 12) 0 f rfl
    (Nat.zero_le _) (Nat.zero_le _) (Nat.le_add_left _ _)
  have took := @readLoop_took pad len maxlen (len - 12) 0 f
  dsimp only at took
  rw [count] at took
  dsimp only [takePayload]
  rw [discardLoop_fifo]
  refine ⟨?_, took⟩
  split
  · omega
  · omega

theorem ioctlGetEvent_requests (f : Fifo) :
    ∃ sizes, (ioctlGetEvent pad maxlen f).fifo.requests = f.requests ++ 12 :: sizes ∧
      ∀ size ∈ sizes, 0 < size ∧ size ≤ 512 := by
  rw [ioctlGetEvent_eq]
  split
  · obtain ⟨sizes, requests, -, bound⟩ :=
      (@takePayload_took pad maxlen (headerLen f.header) f.afterHeader).2.requests
    exact ⟨sizes, by rw [requests, Fifo.afterHeader, List.append_assoc]; rfl, bound⟩
  · exact ⟨[], rfl, by simp⟩

/-- A payload is taken as a whole, and nothing behind it, if the blocks end where it ends. -/
theorem received_eq_iff {len maxlen : Nat} :
    received len maxlen = len - 12 ↔ len - 12 ≤ maxlen ∧ (512 ∣ len - 12 ∨ len - 12 = maxlen) := by
  have ends := received_cases len maxlen
  omega

/-- The headers with which the stream stays in step. -/
def Whole (maxlen : Nat) (f : Fifo) : Prop :=
  headerLen f.header ≠ 0xffff ∧ headerLen f.header - 12 ≤ maxlen ∧
    (512 ∣ headerLen f.header - 12 ∨ headerLen f.header - 12 = maxlen)

theorem ioctlGetEvent_pos (f : Fifo) :
    (ioctlGetEvent pad maxlen f).fifo.pos =
      f.pos + 12 + if accepts f.header then received (headerLen f.header) maxlen else 0 := by
  rw [ioctlGetEvent_eq]
  split
  · rw [(@takePayload_took pad maxlen (headerLen f.header) f.afterHeader).2.pos, Nat.sub_zero]
    rfl
  · rfl

theorem InStep.whole {f : Fifo} (step : InStep maxlen f (ioctlGetEvent pad maxlen f)) (valid : f.Valid) :
    f.Whole maxlen := by
  have pos := (step.valid valid).2.2.2
  have long := valid.1
  rw [ioctlGetEvent_pos] at pos
  -- A refused header takes 12 bytes, so the rest of its frame stays in the stream.
  split at pos
  · next accepted => exact ⟨(f.accepts_iff.mp accepted).2, received_eq_iff.mp (by omega)⟩
  · omega

theorem inStep_of_whole {f : Fifo} (whole : f.Valid → f.Whole maxlen) :
    InStep maxlen f (ioctlGetEvent pad maxlen f) := by
  by_cases valid : f.Valid
  · obtain ⟨short, fits, blocks⟩ := whole valid
    have accepted : accepts f.header = true := f.accepts_iff.mpr ⟨valid, short⟩
    have count : received (headerLen f.header) maxlen = headerLen f.header - 12 :=
      received_eq_iff.mpr ⟨fits, blocks⟩
    have pos := @ioctlGetEvent_pos pad maxlen f
    rw [accepted, if_pos rfl, count] at pos
    rw [ioctlGetEvent_eq, accepted, if_pos rfl] at *
    obtain ⟨ret, took⟩ := @takePayload_took pad maxlen (headerLen f.header) f.afterHeader
    have long := valid.1
    refine ⟨fun _ => ⟨?_, ?_, ret, by omega⟩, fun invalid => absurd valid invalid⟩
    · obtain ⟨sizes, requests, sum, -⟩ := took.requests
      exact ⟨sizes, by rw [requests, Fifo.afterHeader, List.append_assoc]; rfl, by rw [sum, count, Nat.sub_zero]⟩
    · intro data i inside
      rw [took.data data i (Nat.zero_le i) (by rw [count]; omega), Nat.sub_zero]
      rfl
  · have refused : accepts f.header = false :=
      Bool.eq_false_iff.mpr fun accepted => valid (f.accepts_iff.mp accepted).1
    rw [ioctlGetEvent_eq, refused, if_neg Bool.false_ne_true]
    exact ⟨fun good => absurd good valid, fun _ => ⟨rfl, rfl⟩⟩

/-- The stream stays in step exactly when each valid header has a length other than 65535, and its payload
fits into the buffer and fills whole blocks or all of the buffer. -/
theorem in_step_iff (pad : Byte) (maxlen : Nat) (f : Fifo) :
    InStep maxlen f (ioctlGetEvent pad maxlen f) ↔ (f.Valid → f.Whole maxlen) :=
  ⟨InStep.whole, inStep_of_whole⟩

/-- A stream that begins with a header. -/
def ofHeader (len notlen : BitVec 16) : Fifo where
  bytes i := (headerBytes len notlen).getD i 0

/-- A payload of a byte takes the next twelve along with it. -/
theorem out_of_step :
    let f := ofHeader 13 (~~~13)
    let got := ioctlGetEvent 0 2048 f
    got.ret = 1 ∧ got.fifo.requests = [12, 13] ∧ ¬ InStep 2048 f got := by
  intro f got
  have valid : f.Valid := ⟨by decide, by decide⟩
  have requests : got.fifo.requests = [12, 13] := by decide
  refine ⟨by decide, requests, fun step => ?_⟩
  have pos := (step.valid valid).2.2.2
  have moved : got.fifo.pos = 25 := by decide
  have belongs : f.pos + headerLen f.header = 13 := by decide
  omega

/-- The stream goes on with these frames. -/
def Presents (f : Fifo) (frames : List RadioFrame) : Prop :=
  f.peek (frames.flatMap RadioFrame.raw).length = frames.flatMap RadioFrame.raw

def Fits (maxlen : Nat) (frame : RadioFrame) : Prop :=
  0 < frame.data.length ∧ frame.data.length ≠ 65523 ∧ frame.data.length ≤ maxlen ∧
    (512 ∣ frame.data.length ∨ frame.data.length = maxlen)

/-- The lengths that a number of calls return, and the stream behind them. -/
def getEvents (pad : Byte) (maxlen : Nat) : Nat → Fifo → List Nat × Fifo
  | 0, f => ([], f)
  | calls + 1, f =>
      let got := f.ioctlGetEvent pad maxlen
      let (rets, f) := getEvents pad maxlen calls got.fifo
      (got.ret :: rets, f)

theorem peek_add (f : Fifo) (m n : Nat) :
    f.peek (m + n) = f.peek m ++ (List.range n).map fun i => f.bytes (f.pos + m + i) :=
  Memory.window_add f.bytes f.pos m n

theorem Presents.cons {f : Fifo} {frame : RadioFrame} {frames : List RadioFrame}
    (presents : f.Presents (frame :: frames)) :
    f.header = frame.header ∧
      ∀ f' : Fifo, f'.bytes = f.bytes → f'.pos = f.pos + frame.raw.length → f'.Presents frames := by
  unfold Presents at presents
  rw [List.flatMap_cons, List.length_append, peek_add] at presents
  obtain ⟨first, rest⟩ := List.append_inj presents (by simp [peek])
  constructor
  · rw [length_raw, peek_add, RadioFrame.raw] at first
    exact (List.append_inj first (by simp [peek, length_header])).1
  · intro f' bytes pos
    unfold Presents peek
    rw [bytes, pos]
    exact rest

theorem ioctlGetEvent_bytes (f : Fifo) : (ioctlGetEvent pad maxlen f).fifo.bytes = f.bytes := by
  rw [ioctlGetEvent_eq]
  split
  · exact takePayload_took (headerLen f.header) f.afterHeader |>.2.bytes
  · rfl

/-- A stream of frames that all fit is read frame by frame. -/
theorem getEvents_frames (frames : List RadioFrame) (f : Fifo) (presents : f.Presents frames)
    (fits : ∀ frame ∈ frames, Fits maxlen frame) :
    let (rets, f') := getEvents pad maxlen frames.length f
    rets = frames.map (fun frame => frame.data.length) ∧
      f'.pos = f.pos + (frames.flatMap RadioFrame.raw).length := by
  induction frames generalizing f with
  | nil => exact ⟨rfl, rfl⟩
  | cons frame frames ih =>
      obtain ⟨header, behind⟩ := presents.cons
      obtain ⟨some_bytes, short, room, blocks⟩ := fits frame List.mem_cons_self
      have len : load16 f.header 0 = frame.len := by rw [header]; exact load16_len _ _ _
      have notlen : load16 f.header 2 = ~~~frame.len := by rw [header]; exact load16_notlen _ _ _
      have size : headerLen f.header = 12 + frame.data.length := by rw [headerLen, len, toNat_len]
      have valid : f.Valid := ⟨by omega, by rw [len, notlen, BitVec.not_not]⟩
      have step := @inStep_of_whole pad maxlen f fun _ =>
        ⟨by omega, by omega, by rwa [size, Nat.add_sub_cancel_left]⟩
      obtain ⟨-, -, ret, pos⟩ := step.valid valid
      rw [size, ← length_raw] at pos
      obtain ⟨rets, ends⟩ := ih _ (behind _ (ioctlGetEvent_bytes f) pos)
        fun frame later => fits frame (List.mem_cons_of_mem _ later)
      simp only [List.length_cons, getEvents, List.map_cons, List.flatMap_cons, List.length_append]
      refine ⟨?_, ?_⟩
      · rw [rets, ret, size, Nat.add_sub_cancel_left, Nat.min_eq_left room]
      · rw [ends, pos, Nat.add_assoc]

end Fifo

end QNEthernet.Drivers.Cyw43
