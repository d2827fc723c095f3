import QNEthernet.Drivers.Cyw43Buffers
import QNEthernet.Lib.Run

/-! The readers of the chip's frames, `driver::proc_input`, `Event::pollEvents` and the polling loop of
`ioctl_cmd`: which frames reach lwIP and the event handlers, over every interleaving of them. -/

namespace QNEthernet.Drivers.Cyw43

open Lwip

/-- The stream behind a pass of `ioctl_cmd_poll_device` that fetches a response. -/
def Fifo.behindPass (pad : Byte) (f : Fifo) : Fifo :=
  let f' := (f.cardCMD53Read pad (some 0) 4).2
  if f.passes then (f'.cardCMD53Read pad (some 4) ((headerLen f.hdr + 2 ^ 32 - 4) % 2 ^ 32)).2 else f'

structure Radio where
  -- The bytes that have come and were not read yet, each with the number of its frame.
  stream : List (Nat × Byte) := []
  -- All the frames that have come, in order, and what was made of them.
  arrived : List RadioFrame := []
  lwip : List (Nat × List Byte) := []
  handled : List Nat := []

namespace Radio

def tagged (i : Nat) (f : RadioFrame) : List (Nat × Byte) := f.raw.map fun b => (i, b)

def arrive (f : RadioFrame) (s : Radio) : Radio :=
  { s with stream := s.stream ++ tagged s.arrived.length f, arrived := s.arrived ++ [f] }

/-- What the card presents to a reader: the bytes that have come, and zeros behind them. -/
def fifo (s : Radio) : Fifo where
  bytes i := (s.stream.map Prod.snd).getD i 0

/-- The number of the frame that a reader starts in. -/
def first (s : Radio) : List Nat := (s.stream.head?.map Prod.fst).toList

/-- `driver::proc_input`, which gives lwIP a pbuf filled from its buffer. `stack` is what the buffer holds at
first. -/
def procInput (pad : Byte) (linkUp alloc : Bool) (stack : Message) (s : Radio) : Radio :=
  if linkUp then
    let got := s.fifo.procInput pad
    let bf := fill stack got.1.stores
    { s with
      stream := s.stream.drop got.1.fifo.pos
      lwip := match got.2, alloc with
        | some p, true => s.lwip ++ s.first.map fun id => (id, Memory.window bf p.offset p.count)
        | _, _ => s.lwip }
  else s

/-- `Event::pollEvents`, which gives every frame to the handlers. -/
def pollEvents (pad : Byte) (s : Radio) : Radio :=
  let got := s.fifo.ioctlGetEvent pad rxDataLen
  { s with
    stream := s.stream.drop got.fifo.pos
    handled := if 0 < got.ret then s.handled ++ s.first else s.handled }

/-- A pass of `ioctl_cmd_poll_device` that reads a frame. What is not a response is dropped. -/
def ioctlPass (pad : Byte) (s : Radio) : Radio := { s with stream := s.stream.drop (s.fifo.behindPass pad).pos }

inductive Event where
  | arrive (f : RadioFrame)
  | procInput (linkUp alloc : Bool) (stack : Message)
  | pollEvents
  | ioctlPass

def step (pad : Byte) (s : Radio) : Event → Radio
  | .arrive f => s.arrive f
  | .procInput linkUp alloc stack => s.procInput pad linkUp alloc stack
  | .pollEvents => s.pollEvents pad
  | .ioctlPass => s.ioctlPass pad

def Left (s : Radio) (i : Nat) : Prop := ∀ b ∈ s.stream, b.1 ≠ i

instance (s : Radio) (i : Nat) : Decidable (s.Left i) := inferInstanceAs (Decidable (∀ b ∈ s.stream, b.1 ≠ i))

/-- What was made of the frame number `i`. A data frame that has left the stream went to lwIP once with
its Ethernet bytes, an event frame went to the handlers once, and nothing else went anywhere. -/
def Delivered (s : Radio) (i : Nat) (f : RadioFrame) : Prop :=
  (s.lwip.filter fun given => given.1 = i) =
      (if f.chan = chanData ∧ s.Left i then [(i, f.data.drop 10)] else []) ∧
    (f.chan = chanEvt → s.handled.count i = if s.Left i then 1 else 0) ∧
    (f.chan = chanData → i ∉ s.handled)

/-- Every frame is demultiplexed once, by its channel. -/
def Demuxed (s : Radio) : Prop := ∀ i f, s.arrived[i]? = some f → s.Delivered i f

def next (s : Radio) : Option RadioFrame := s.stream.head?.bind fun b => s.arrived[b.1]?

/-- `ioctl_get_event` takes its blocks up to the end of the frame, or nothing is behind the frame. -/
def Ends (s : Radio) (maxlen : Nat) (f : RadioFrame) : Prop :=
  f.data.length ≤ maxlen ∧ (512 ∣ f.data.length ∨ f.data.length = maxlen ∨ s.stream.length = f.raw.length)

instance (s : Radio) (maxlen : Nat) (f : RadioFrame) : Decidable (s.Ends maxlen f) :=
  inferInstanceAs (Decidable (_ ∧ _))

/-- Data frames are not read at all, event frames by `pollEvents` only, control frames are not given to lwIP,
and a frame is read to its end. -/
def Sorted (s : Radio) : Event → Prop
  | .arrive _ => True
  | .procInput linkUp alloc _ =>
      linkUp = true → ∀ f ∈ s.next, f.chan ≠ chanData ∧ f.chan ≠ chanEvt ∧ s.Ends maxFrameLen f ∧
        (alloc = true → f.data = [])
  | .pollEvents =>
      ∀ f ∈ s.next, f.chan ≠ chanData ∧ s.Ends rxDataLen f ∧ (f.chan = chanEvt → f.data ≠ [])
  | .ioctlPass => ∀ f ∈ s.next, f.chan ≠ chanData ∧ f.chan ≠ chanEvt ∧ f.raw.length ≤ 516

def numbered : Nat → List RadioFrame → List (Nat × Byte)
  | _, [] => []
  | i, f :: fs => tagged i f ++ numbered (i + 1) fs

theorem numbered_append (i : Nat) (fs : List RadioFrame) (f : RadioFrame) :
    numbered i (fs ++ [f]) = numbered i fs ++ tagged (i + fs.length) f := by
  induction fs generalizing i with
  | nil => simp [numbered]
  | cons g fs ih =>
      rw [List.cons_append, numbered, ih, List.length_cons, Nat.add_right_comm, Nat.add_assoc, numbered,
        List.append_assoc]

theorem mem_numbered {i : Nat} {b : Nat × Byte} {fs : List RadioFrame} (queued : b ∈ numbered i fs) : i ≤ b.1 := by
  induction fs generalizing i with
  | nil => cases queued
  | cons g fs ih =>
      rcases List.mem_append.mp queued with first | later
      · obtain ⟨byte, -, rfl⟩ := List.mem_map.mp first
        exact Nat.le_refl i
      · exact Nat.le_of_succ_le (ih later)

theorem numbered_mem {i j : Nat} {f : RadioFrame} {fs : List RadioFrame} (there : fs[j]? = some f) :
    ∃ b ∈ numbered i fs, b.1 = i + j := by
  induction fs generalizing i j with
  | nil => cases there
  | cons g fs ih =>
      cases j with
      | zero => exact ⟨(i, _), List.mem_append_left _ (List.mem_map_of_mem List.mem_cons_self), rfl⟩
      | succ j =>
          obtain ⟨b, later, number⟩ := ih (i := i + 1) there
          exact ⟨b, List.mem_append_right _ later, by omega⟩

/-- The frames before number `k` have been read whole; nothing was given to lwIP, and the handlers have
had each of their event frames once. -/
structure Kept (s : Radio) (k : Nat) : Prop where
  inside : k ≤ s.arrived.length
  stream : s.stream = numbered k (s.arrived.drop k)
  lwip : s.lwip = []
  handled : ∀ i ∈ s.handled, i < k
  unread : ∀ i < k, ∀ f, s.arrived[i]? = some f → f.chan ≠ chanData
  events : ∀ i < k, ∀ f, s.arrived[i]? = some f → f.chan = chanEvt → s.handled.count i = 1

variable {s : Radio} {k : Nat}

theorem Kept.left (kept : s.Kept k) {i : Nat} {f : RadioFrame} (there : s.arrived[i]? = some f) :
    s.Left i ↔ i < k := by
  rw [Left, kept.stream]
  constructor
  · intro gone
    by_contra later
    have found : (s.arrived.drop k)[i - k]? = some f := by
      rw [List.getElem?_drop, Nat.add_sub_cancel' (Nat.le_of_not_lt later)]
      exact there
    obtain ⟨b, queued, number⟩ := numbered_mem (i := k) found
    exact gone b queued (by omega)
  · intro before b queued number
    have later := mem_numbered queued
    omega

theorem Kept.demuxed (kept : s.Kept k) : s.Demuxed := by
  intro i f there
  have left := kept.left there
  refine ⟨?_, ?_, ?_⟩
  · rw [kept.lwip, if_neg]
    · rfl
    · intro taken
      exact kept.unread i (left.mp taken.2) f there taken.1
  · intro event
    by_cases before : i < k
    · rw [if_pos (left.mpr before)]
      exact kept.events i before f there event
    · rw [if_neg (fun gone => before (left.mp gone))]
      exact List.count_eq_zero.mpr fun given => before (kept.handled i given)
  · intro data given
    exact kept.unread i (kept.handled i given) f there data

theorem Kept.arrive (kept : s.Kept k) (f : RadioFrame) : (s.arrive f).Kept k := by
  have inside := kept.inside
  have same {i : Nat} (before : i < k) : (s.arrived ++ [f])[i]? = s.arrived[i]? :=
    List.getElem?_append_left (Nat.lt_of_lt_of_le before inside)
  refine ⟨?_, ?_, kept.lwip, kept.handled, ?_, ?_⟩
  · change k ≤ (s.arrived ++ [f]).length
    rw [List.length_append]
    omega
  · change s.stream ++ tagged s.arrived.length f = numbered k ((s.arrived ++ [f]).drop k)
    rw [List.drop_append_of_le_length inside, numbered_append, kept.stream, List.length_drop,
      Nat.add_sub_cancel' inside]
  · intro i before g there
    exact kept.unread i before g ((same before).symm.trans there)
  · intro i before g there
    exact kept.events i before g ((same before).symm.trans there)

theorem Kept.empty (kept : s.Kept k) (none : s.arrived[k]? = none) : s.stream = [] := by
  rw [kept.stream, List.drop_eq_nil_of_le (List.getElem?_eq_none_iff.mp none)]
  rfl

theorem Kept.head (kept : s.Kept k) {f : RadioFrame} (there : s.arrived[k]? = some f) :
    s.stream = tagged k f ++ numbered (k + 1) (s.arrived.drop (k + 1)) ∧ s.next = some f := by
  obtain ⟨inside, found⟩ := List.getElem?_eq_some_iff.mp there
  have stream := kept.stream
  rw [List.drop_eq_getElem_cons inside, found] at stream
  refine ⟨stream, ?_⟩
  rw [next, stream]
  exact there

theorem Kept.take (kept : s.Kept k) {f : RadioFrame} (there : s.arrived[k]? = some f)
    (unread : f.chan ≠ chanData) {handled : List Nat}
    (given : handled = s.handled ++ [k] ∨ handled = s.handled ∧ f.chan ≠ chanEvt) :
    Kept { s with stream := numbered (k + 1) (s.arrived.drop (k + 1)), handled := handled } (k + 1) := by
  obtain ⟨inside, _⟩ := List.getElem?_eq_some_iff.mp there
  have fresh : s.handled.count k = 0 :=
    List.count_eq_zero.mpr fun before => Nat.lt_irrefl k (kept.handled k before)
  refine ⟨inside, rfl, kept.lwip, ?_, ?_, ?_⟩
  · intro i member
    rcases given with rfl | ⟨rfl, _⟩
    · rcases List.mem_append.mp member with before | now
      · exact Nat.lt_succ_of_lt (kept.handled i before)
      · rw [List.mem_singleton.mp now]
        exact Nat.lt_succ_self k
    · exact Nat.lt_succ_of_lt (kept.handled i member)
  · intro i before g found
    rcases Nat.lt_succ_iff_lt_or_eq.mp before with before | rfl
    · exact kept.unread i before g found
    · rw [there] at found
      cases found
      exact unread
  · intro i before g found event
    change handled.count i = 1
    rcases Nat.lt_succ_iff_lt_or_eq.mp before with before | rfl
    · have once := kept.events i before g found event
      rcases given with rfl | ⟨rfl, _⟩
      · rw [List.count_append, once, List.count_singleton]
        simp [Nat.ne_of_gt before]
      · exact once
    · rw [there] at found
      cases found
      rcases given with rfl | ⟨_, other⟩
      · rw [List.count_append, fresh, List.count_singleton_self]
      · exact absurd event other

section Readers

variable (pad : Byte)

theorem fifo_peek {n : Nat} (inside : n ≤ s.stream.length) : s.fifo.peek n = (s.stream.map Prod.snd).take n := by
  apply List.ext_getElem
  · simp [Fifo.peek, inside]
  · intro i small queued
    have there : i < s.stream.length := by
      rw [List.length_take, List.length_map] at queued
      omega
    simp [Fifo.peek, fifo, List.getElem?_eq_getElem there]

theorem fifo_peek_frame {f : RadioFrame} {rest : List (Nat × Byte)} (stream : s.stream = tagged k f ++ rest) {n : Nat}
    (inside : n ≤ f.raw.length) : s.fifo.peek n = f.raw.take n := by
  rw [fifo_peek (by rw [stream, List.length_append, tagged, List.length_map]; omega), stream, tagged, List.map_append,
    List.map_map, Function.comp_def, List.map_id', List.take_append_of_le_length inside]

theorem ioctlGetEvent_empty (empty : s.stream = []) (maxlen : Nat) :
    (s.fifo.ioctlGetEvent pad maxlen).ret = 0 ∧ s.fifo.passes = false := by
  have header : s.fifo.header = List.replicate 12 0 := by
    rw [Fifo.header, Fifo.peek, fifo, empty]
    rfl
  have hdr : s.fifo.hdr = List.replicate 4 0 := by
    rw [Fifo.hdr, Fifo.peek, fifo, empty]
    rfl
  constructor
  · exact (Fifo.ioctlGetEvent_refused s.fifo (by rw [header]; decide)).1
  · rw [Fifo.passes, hdr]
    decide

theorem ioctlGetEvent_frame {f : RadioFrame} {rest : List (Nat × Byte)} (stream : s.stream = tagged k f ++ rest)
    {maxlen : Nat} (ends : s.Ends maxlen f) (bounded : maxlen ≤ maxFrameLen) :
    (s.fifo.ioctlGetEvent pad maxlen).ret = f.data.length ∧
      s.stream.drop (s.fifo.ioctlGetEvent pad maxlen).fifo.pos = rest := by
  obtain ⟨fits, blocks⟩ := ends
  have whole := length_raw f
  have header : s.fifo.header = f.header := by
    rw [Fifo.header, fifo_peek_frame stream (by omega), RadioFrame.raw, List.take_left' (length_header f)]
  have len : load16 f.header 0 = f.len := load16_len f.len _ _
  have notlen : load16 f.header 2 = ~~~f.len := load16_notlen f.len _ _
  have size : Fifo.headerLen s.fifo.header = 12 + f.data.length := by rw [header, Fifo.headerLen, len, toNat_len]
  have accepts : Fifo.accepts s.fifo.header = true ↔ 0 < f.data.length := by
    rw [Fifo.accepts_iff, Fifo.Valid, size, header, len, notlen, BitVec.not_not, eq_self, and_true]
    have limit := maxFrameLen_eq
    omega
  have all : s.stream.length = f.raw.length + rest.length := by rw [stream, List.length_append, tagged, List.length_map]
  have behind : s.stream.drop f.raw.length = rest := by
    rw [stream, List.drop_left' (by rw [tagged, List.length_map])]
  rw [Fifo.ioctlGetEvent_pos, size, show s.fifo.pos = 0 from rfl, Nat.zero_add]
  by_cases some_bytes : 0 < f.data.length
  · rw [Fifo.ioctlGetEvent_eq, if_pos (accepts.mpr some_bytes), if_pos (accepts.mpr some_bytes)]
    have ret := (@Fifo.takePayload_took pad maxlen (Fifo.headerLen s.fifo.header) s.fifo.afterHeader).1
    rw [size, Nat.add_sub_cancel_left, Nat.min_eq_left fits] at ret
    refine ⟨by rw [size]; exact ret, ?_⟩
    have reached := Fifo.received_cases (12 + f.data.length) maxlen
    by_cases alone : s.stream.length = f.raw.length
    · have nothing : rest = [] := List.length_eq_zero_iff.mp (by omega)
      rw [nothing]
      exact List.drop_eq_nil_of_le (by omega)
    · have exact : 12 + Fifo.received (12 + f.data.length) maxlen = f.raw.length := by omega
      rw [exact, behind]
  · have refused := mt accepts.mp some_bytes
    rw [Fifo.ioctlGetEvent_eq, if_neg refused, if_neg refused, Nat.add_zero]
    exact ⟨by dsimp only; omega, by rw [← behind, whole]; congr 1; omega⟩

theorem procInput_dropped (alloc : Bool) (stack : Message)
    (nothing : alloc = true → (s.fifo.ioctlGetEvent pad maxFrameLen).ret = 0) :
    s.procInput pad true alloc stack =
      { s with stream := s.stream.drop (s.fifo.ioctlGetEvent pad maxFrameLen).fifo.pos } := by
  have read : (s.fifo.procInput pad).1 = s.fifo.ioctlGetEvent pad maxFrameLen := rfl
  rw [Radio.procInput, if_pos rfl]
  cases alloc with
  | false =>
      cases filled : (s.fifo.procInput pad).2 with
      | none => simp only [filled, read]
      | some p => simp only [filled, read]
  | true =>
      have unfilled : (s.fifo.procInput pad).2 = none := by
        rw [Fifo.procInput, nothing rfl]
        rfl
      simp only [unfilled, read]

theorem Kept.procInput (kept : s.Kept k) (linkUp alloc : Bool) (stack : Message)
    (sorted : s.Sorted (.procInput linkUp alloc stack)) :
    ∃ k', (s.procInput pad linkUp alloc stack).Kept k' := by
  cases linkUp with
  | false => exact ⟨k, kept⟩
  | true =>
      cases there : s.arrived[k]? with
      | none =>
          have empty := kept.empty there
          rw [procInput_dropped pad alloc stack fun _ => (ioctlGetEvent_empty pad empty maxFrameLen).1, empty,
            List.drop_nil, ← empty]
          exact ⟨k, kept⟩
      | some f =>
          obtain ⟨stream, next⟩ := kept.head there
          obtain ⟨data, event, ends, unsent⟩ := sorted rfl f next
          obtain ⟨ret, rest⟩ := ioctlGetEvent_frame pad stream ends (Nat.le_refl _)
          rw [procInput_dropped pad alloc stack fun given => by rw [ret, unsent given]; rfl, rest]
          exact ⟨k + 1, kept.take there data (.inr ⟨rfl, event⟩)⟩

theorem Kept.pollEvents (kept : s.Kept k) (sorted : s.Sorted .pollEvents) :
    ∃ k', (s.pollEvents pad).Kept k' := by
  rw [Radio.pollEvents]
  cases there : s.arrived[k]? with
  | none =>
      have empty := kept.empty there
      rw [(ioctlGetEvent_empty pad empty rxDataLen).1, if_neg (Nat.lt_irrefl 0), empty, List.drop_nil, ← empty]
      exact ⟨k, kept⟩
  | some f =>
      obtain ⟨stream, next⟩ := kept.head there
      obtain ⟨data, ends, whole⟩ := sorted f next
      obtain ⟨ret, rest⟩ := ioctlGetEvent_frame pad stream ends (by decide)
      have first : s.first = [k] := by rw [Radio.first, stream]; rfl
      rw [first, ret, rest]
      refine ⟨k + 1, kept.take there data ?_⟩
      by_cases some_bytes : 0 < f.data.length
      · exact .inl (if_pos some_bytes)
      · refine .inr ⟨if_neg some_bytes, fun event => ?_⟩
        exact some_bytes (List.length_pos_iff.mpr (whole event))

/-- The polling loop of `ioctl_cmd` takes a frame whole, in two reads, if nine bits hold the size of the second. -/
theorem behindPass_frame {f : RadioFrame} {rest : List (Nat × Byte)} (stream : s.stream = tagged k f ++ rest)
    (small : f.raw.length ≤ 516) : s.stream.drop (s.fifo.behindPass pad).pos = rest := by
  have whole := length_raw f
  have hdr : s.fifo.hdr = headerBytes f.len (~~~f.len) := by
    rw [Fifo.hdr, fifo_peek_frame stream (by omega)]
    rfl
  have len : load16 s.fifo.hdr 0 = f.len := by rw [hdr]; exact halves_append 8 f.len
  have notlen : load16 s.fifo.hdr 2 = ~~~f.len := by rw [hdr]; exact halves_append 8 (~~~f.len)
  have size : Fifo.headerLen s.fifo.hdr = f.raw.length := by rw [Fifo.headerLen, len, toNat_len, whole]
  have some_len : f.len ≠ 0 := by
    intro zero
    have none := toNat_len f
    rw [zero, show (0 : BitVec 16).toNat = 0 from rfl] at none
    omega
  have passes : s.fifo.passes = true := by
    have nonzero : (f.len == 0 && ~~~f.len == 0) = false := by
      rw [beq_false_of_ne some_len, Bool.false_and]
    rw [Fifo.passes, len, notlen, xor_not_len, nonzero]
    rfl
  have second : (f.raw.length + 2 ^ 32 - 4) % 2 ^ 32 = f.raw.length - 4 := by omega
  have taken : (s.fifo.behindPass pad).pos = f.raw.length := by
    rw [Fifo.behindPass, if_pos passes, size, second]
    simp only [Fifo.cardCMD53Read]
    rw [byteCount_eq (by omega) (by omega), byteCount_eq (by omega) (by omega)]
    change 0 + 4 + (f.raw.length - 4) = f.raw.length
    omega
  rw [taken, stream, List.drop_left' (by rw [tagged, List.length_map])]

theorem Kept.ioctlPass (kept : s.Kept k) (sorted : s.Sorted .ioctlPass) :
    ∃ k', (s.ioctlPass pad).Kept k' := by
  rw [Radio.ioctlPass]
  cases there : s.arrived[k]? with
  | none =>
      have empty := kept.empty there
      rw [empty, List.drop_nil, ← empty]
      exact ⟨k, kept⟩
  | some f =>
      obtain ⟨stream, next⟩ := kept.head there
      obtain ⟨data, event, small⟩ := sorted f next
      rw [behindPass_frame pad stream small]
      exact ⟨k + 1, kept.take there data (.inr ⟨rfl, event⟩)⟩

theorem Kept.step (s : Radio) (e : Event) (sorted : s.Sorted e) (kept : ∃ k, s.Kept k) :
    ∃ k, (Radio.step pad s e).Kept k := by
  obtain ⟨k, kept⟩ := kept
  cases e with
  | arrive f => exact ⟨k, kept.arrive f⟩
  | procInput linkUp alloc stack => exact kept.procInput pad linkUp alloc stack sorted
  | pollEvents => exact kept.pollEvents pad sorted
  | ioctlPass => exact kept.ioctlPass pad sorted

theorem kept_start : ({} : Radio).Kept 0 := by
  refine ⟨Nat.le_refl 0, rfl, rfl, ?_, ?_, ?_⟩
  · intro i given
    cases given
  · intro i before
    exact absurd before (Nat.not_lt_zero i)
  · intro i before
    exact absurd before (Nat.not_lt_zero i)

end Readers

/-- However the frames come and the readers take turns, the frames are demultiplexed by their channel as
long as each reader meets none of another's, and takes no part of one. -/
theorem frames_demuxed (pad : Byte) (run : List Event)
    (sorted : Run.Allowed Sorted (step pad) {} run) : (run.foldl (step pad) {}).Demuxed := by
  obtain ⟨k, kept⟩ := Run.allowed_preserves (fun s => ∃ k, s.Kept k) Sorted (step pad) (Kept.step pad)
    run {} sorted ⟨0, kept_start⟩
  exact kept.demuxed

/-- A frame of a pad of 10 bytes and two bytes more. -/
def twoByteFrame (chan : Byte) : RadioFrame :=
  { chan := chan, data := List.replicate 10 0 ++ [7, 8], short := by decide }

instance sortedDecidable (s : Radio) : (e : Event) → Decidable (s.Sorted e)
  | .arrive _ => inferInstanceAs (Decidable True)
  | .procInput linkUp alloc _ =>
      inferInstanceAs (Decidable (linkUp = true → ∀ f ∈ s.next, f.chan ≠ chanData ∧ f.chan ≠ chanEvt ∧
        s.Ends maxFrameLen f ∧ (alloc = true → f.data = [])))
  | .pollEvents =>
      inferInstanceAs (Decidable (∀ f ∈ s.next, f.chan ≠ chanData ∧ s.Ends rxDataLen f ∧
        (f.chan = chanEvt → f.data ≠ [])))
  | .ioctlPass =>
      inferInstanceAs (Decidable (∀ f ∈ s.next, f.chan ≠ chanData ∧ f.chan ≠ chanEvt ∧ f.raw.length ≤ 516))

/-- An event frame that fills a whole block, with a control frame before it and a data frame behind. -/
theorem frames_demuxed_event :
    ([Event.arrive (twoByteFrame chanCtrl),
      .arrive { chan := chanEvt, data := List.replicate 512 5, short := by rw [List.length_replicate]; decide },
      .arrive (twoByteFrame chanData), .ioctlPass, .pollEvents].foldl (step 0) {}).Demuxed :=
  frames_demuxed 0 _ (by decide +kernel)

/-- A control frame of 518 bytes, 6 of which a pass takes; the next four look like a header. -/
def longFrame : RadioFrame where
  chan := chanCtrl
  more := #v[0x04, 0x02, 0xfb, 0xfd, 0, 0]
  data := List.replicate 506 0
  short := by rw [List.length_replicate]; decide

/-- `proc_input` gives lwIP ten bytes more than a data frame has, and gives it event frames; the handlers
get the data frames that `pollEvents` meets. Of two event frames the second loses its header to the first, and
after a control frame beyond 516 bytes an event frame is taken for the end of it. -/
theorem readers_mix_channels :
    ¬([Event.arrive (twoByteFrame chanData), .procInput true true (fun _ => 0)].foldl (step 0) {}).Demuxed ∧
      ¬([Event.arrive (twoByteFrame chanEvt), .procInput true true (fun _ => 0)].foldl (step 0) {}).Demuxed ∧
      ¬([Event.arrive (twoByteFrame chanData), .pollEvents].foldl (step 0) {}).Demuxed ∧
      ¬([Event.arrive (twoByteFrame chanEvt), .arrive (twoByteFrame chanEvt), .pollEvents, .pollEvents].foldl
        (step 0) {}).Demuxed ∧
      ¬([Event.arrive longFrame, .arrive (twoByteFrame chanEvt), .ioctlPass, .ioctlPass, .pollEvents,
        .pollEvents].foldl (step 0) {}).Demuxed := by
  refine ⟨?_, ?_, ?_, ?_, ?_⟩
  · intro demuxed
    exact absurd (demuxed 0 (twoByteFrame chanData) rfl).1 (by decide +kernel)
  · intro demuxed
    exact absurd (demuxed 0 (twoByteFrame chanEvt) rfl).1 (by decide +kernel)
  · intro demuxed
    exact absurd ((demuxed 0 (twoByteFrame chanData) rfl).2.2 rfl) (by decide +kernel)
  · intro demuxed
    exact absurd ((demuxed 1 (twoByteFrame chanEvt) rfl).2.1 rfl) (by decide +kernel)
  · intro demuxed
    exact absurd ((demuxed 1 (twoByteFrame chanEvt) rfl).2.1 rfl) (by decide +kernel)

end Radio
end QNEthernet.Drivers.Cyw43
