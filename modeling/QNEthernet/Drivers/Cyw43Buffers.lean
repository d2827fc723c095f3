import QNEthernet.Drivers.Cyw43Fifo

/-! The buffers that frames of the chip are read into: `eventbuf`, the array of `proc_input`, and
`ioctl_rxmsg`. The lengths come from the chip, and `cardCMD53` stores whole words. -/

namespace QNEthernet.Drivers.Cyw43

open Lwip

def ethPadSize : Nat := 0

/-- `sizeof(IOCTL_CMD_T4)`: the software header, `cmd`, `outlen`, `inlen`, `flags`, `status` and `data`. -/
def sizeofIoctlCmd : Nat := 8 + 4 + 2 + 2 + 4 + 4 + ioctlMaxBlklen

/-- `sizeof(ioctl_rxmsg)`: two halves, and the larger of a command and a glom command. -/
def sizeofIoctlMsg : Nat := 2 + 2 + max sizeofIoctlCmd (8 + sizeofIoctlCmd)

/-- How `proc_input` fills its pbuf: from an offset of `bf`, so many bytes, of as many as the pbuf has. -/
structure PbufFill where
  offset : Nat
  count : Nat
  allocated : Nat
  deriving DecidableEq

namespace Fifo

/-- `driver::proc_input` on a link that is up, and with memory for the pbuf. -/
def procInput (pad : Byte) (f : Fifo) : Got × Option PbufFill :=
  let got := f.ioctlGetEvent pad maxFrameLen
  (got, if got.ret > 0 then
    some ⟨10, (got.ret + ethPadSize + ethPadSize) % 2 ^ 16, (got.ret + ethPadSize) % 2 ^ 16⟩ else none)

def hdr (f : Fifo) : List Byte := f.peek 4

/-- The check of `ioctl_cmd_poll_device`. -/
def passes (f : Fifo) : Bool :=
  !(load16 f.hdr 0 == 0 && load16 f.hdr 2 == 0) && load16 f.hdr 0 ^^^ load16 f.hdr 2 == 0xffff

/-- The pass of `ioctl_cmd_poll_device` that fetches a response: what it stores in `ioctl_rxmsg`. The
size is an unsigned 32-bit parameter. -/
def pollDevice (pad : Byte) (f : Fifo) : List Store :=
  let f' := (f.cardCMD53Read pad (some 0) 4).2
  if f.passes then
    ⟨0, 4, f.hdr⟩ :: (f'.cardCMD53Read pad (some 4) ((headerLen f.hdr + 2 ^ 32 - 4) % 2 ^ 32)).1.2
  else []

end Fifo

def Written (stores : List Store) (i : Nat) : Prop := ∃ s ∈ stores, s.start ≤ i ∧ i < s.start + s.bytes.length

def Received (stores : List Store) (i : Nat) : Prop := ∃ s ∈ stores, s.start ≤ i ∧ i < s.start + s.count

inductive Reader where
  | pollEvents
  | procInput
  | pollDevice

namespace Reader

/-- No buffer is overrun, and nothing is taken for a part of the frame that was not received. -/
def Safe (pad : Byte) (f : Fifo) : Reader → Prop
  | .pollEvents => ∀ i, Written (f.ioctlGetEvent pad rxDataLen).stores i → i < rxDataLen
  | .procInput =>
      (∀ i, Written (f.procInput pad).1.stores i → i < maxFrameLen) ∧
      ∀ fill, (f.procInput pad).2 = some fill →
        (∀ i, fill.offset ≤ i → i < fill.offset + fill.count →
          i < maxFrameLen ∧ Received (f.procInput pad).1.stores i) ∧
        fill.count ≤ fill.allocated
  | .pollDevice =>
      (∀ i, Written (f.pollDevice pad) i → i < sizeofIoctlMsg) ∧ (f.passes = true → 0 ≤ (Fifo.headerLen f.hdr : Int) - 4)

def Fits (f : Fifo) : Reader → Prop
  | .pollEvents => True
  | .procInput => Fifo.accepts f.header = true →
      Fifo.headerLen f.header ≤ 4016 ∧ 1 ≤ (Fifo.headerLen f.header - 12) % 512 ∧
        (Fifo.headerLen f.header - 12) % 512 ≤ 502
  | .pollDevice => f.passes = true → 4 ≤ Fifo.headerLen f.hdr ∧ Fifo.headerLen f.hdr ≤ sizeofIoctlMsg

end Reader

namespace Fifo

variable {pad : Byte} {len maxlen : Nat}

/-- What a loop that has counted from `n` to `n'` has written: whole words. -/
structure Covered (n n' : Nat) (stores : List Store) : Prop where
  written : ∀ i, Written stores i ↔ n ≤ i ∧ i < (n' + 3) / 4 * 4
  received : ∀ i, Received stores i ↔ n ≤ i ∧ i < n'

theorem covered_none {n : Nat} (words : n % 4 = 0) : Covered n n [] where
  written i := by
    simp only [Written, List.not_mem_nil, false_and, exists_false, false_iff]
    omega
  received i := by
    simp only [Received, List.not_mem_nil, false_and, exists_false, false_iff]
    omega

theorem Covered.block {n n' blklen : Nat} {stores : List Store} (words : n % 4 = 0) (some_bytes : 0 < blklen)
    (small : blklen ≤ 512) (le : n + blklen ≤ n')
    (covered : blklen = 512 ∧ Covered (n + blklen) n' stores ∨ n' = n + blklen ∧ stores = []) (f : Fifo) :
    Covered n n' ((f.cardCMD53Read pad (some n) blklen).1.2 ++ stores) := by
  have count : byteCount blklen = blklen := byteCount_eq some_bytes small
  have stored : wordCount blklen = (blklen + 3) / 4 := wordCount_eq (by omega)
  constructor
  · intro i
    simp only [Written, cardCMD53Read, List.cons_append, List.nil_append, List.mem_cons, exists_eq_or_imp,
      List.length_map, List.length_range, stored]
    rcases covered with ⟨full, covered⟩ | ⟨last, none⟩
    · have rest := covered.written i
      rw [Written] at rest
      rw [rest]
      omega
    · simp only [none, List.not_mem_nil, false_and, exists_false, or_false]
      omega
  · intro i
    simp only [Received, cardCMD53Read, List.cons_append, List.nil_append, List.mem_cons, exists_eq_or_imp, count]
    rcases covered with ⟨full, covered⟩ | ⟨last, none⟩
    · have rest := covered.received i
      rw [Received] at rest
      rw [rest]
      omega
    · simp only [none, List.not_mem_nil, false_and, exists_false, or_false]
      omega

theorem readLoop_covered (fuel n : Nat) (f : Fifo) (words : n % 4 = 0) :
    let r := readLoop pad len maxlen fuel n f
    Covered n r.1.1 r.1.2 := by
  induction fuel generalizing n f with
  | zero => exact covered_none words
  | succ fuel ih =>
      dsimp only [readLoop]
      split
      · next going =>
          generalize size : min (min (maxlen - n) (len - n)) ioctlMaxBlklen = blklen
          have bounds : 0 < blklen ∧ blklen ≤ 512 := by
            unfold ioctlMaxBlklen at size
            omega
          refine Covered.block words bounds.1 bounds.2 (readLoop_took fuel (n + blklen) _).le ?_ f
          by_cases full : blklen = 512
          · exact .inl ⟨full, ih _ _ (by omega)⟩
          · -- A shorter block reaches the end of the buffer or of the frame.
            have ended : ¬ (n + blklen < len - 12 ∧ n + blklen < maxlen) := by
              unfold ioctlMaxBlklen at size
              omega
            rw [readLoop_ended ended]
            exact .inr ⟨rfl, rfl⟩
      · exact covered_none words

theorem ioctlGetEvent_accepted (f : Fifo) (accepted : accepts f.header = true) :
    (ioctlGetEvent pad maxlen f).ret = min (headerLen f.header - 12) maxlen ∧
      Covered 0 (received (headerLen f.header) maxlen) (ioctlGetEvent pad maxlen f).stores := by
  rw [ioctlGetEvent_eq, accepted, if_pos rfl]
  have covered := @readLoop_covered pad (headerLen f.header) maxlen (headerLen f.header - 12) 0 f.afterHeader rfl
  dsimp only at covered
  rw [readLoop_count _ 0 f.afterHeader rfl (Nat.zero_le _) (Nat.zero_le _) (Nat.le_add_left _ _)] at covered
  exact ⟨(takePayload_took _ _).1, covered⟩

theorem ioctlGetEvent_refused (f : Fifo) (refused : accepts f.header = false) :
    (ioctlGetEvent pad maxlen f).ret = 0 ∧ (ioctlGetEvent pad maxlen f).stores = [] := by
  rw [ioctlGetEvent_eq, refused, if_neg Bool.false_ne_true]
  exact ⟨rfl, rfl⟩

theorem Covered.within_iff {n capacity : Nat} {stores : List Store} (covered : Covered 0 n stores) :
    (∀ i, Written stores i → i < capacity) ↔ (n + 3) / 4 * 4 ≤ capacity := by
  constructor
  · intro within
    by_contra beyond
    have last := within ((n + 3) / 4 * 4 - 1) ((covered.written _).mpr (by omega))
    omega
  · intro fits i written
    have bounds := (covered.written i).mp written
    omega

theorem Covered.taken_iff {n offset count : Nat} {stores : List Store} (covered : Covered 0 n stores)
    (some_bytes : 0 < count) :
    (∀ i, offset ≤ i → i < offset + count → i < maxlen ∧ Received stores i) ↔
      offset + count ≤ maxlen ∧ offset + count ≤ n := by
  constructor
  · intro taken
    obtain ⟨inside, received⟩ := taken (offset + count - 1) (by omega) (by omega)
    have bounds := (covered.received _).mp received
    omega
  · intro bounds i from_offset before
    exact ⟨by omega, (covered.received i).mpr (by omega)⟩

theorem not_written_nil {i : Nat} : ¬ Written [] i := by
  simp [Written]

theorem pollEvents_safe (f : Fifo) : Reader.Safe pad f .pollEvents := by
  unfold Reader.Safe
  cases accepted : accepts f.header with
  | false =>
      rw [(f.ioctlGetEvent_refused accepted).2]
      exact fun i written => absurd written not_written_nil
  | true =>
      rw [(f.ioctlGetEvent_accepted accepted).2.within_iff]
      have ends := received_cases (headerLen f.header) rxDataLen
      unfold rxDataLen at *
      omega

theorem procInput_safe_iff (f : Fifo) : Reader.Safe pad f .procInput ↔ Reader.Fits f .procInput := by
  unfold Reader.Safe Reader.Fits procInput
  dsimp only
  cases accepted : accepts f.header with
  | false =>
      obtain ⟨ret, stores⟩ := @ioctlGetEvent_refused pad maxFrameLen f accepted
      rw [ret, stores]
      simp [not_written_nil]
  | true =>
      obtain ⟨ret, covered⟩ := @ioctlGetEvent_accepted pad maxFrameLen f accepted
      have long := (f.accepts_iff.mp accepted).1.1
      have count : (min (headerLen f.header - 12) maxFrameLen + ethPadSize + ethPadSize) % 2 ^ 16 =
          min (headerLen f.header - 12) maxFrameLen := by
        have limit := maxFrameLen_eq
        unfold ethPadSize
        omega
      have allocated : (min (headerLen f.header - 12) maxFrameLen + ethPadSize) % 2 ^ 16 =
          min (headerLen f.header - 12) maxFrameLen := by
        have limit := maxFrameLen_eq
        unfold ethPadSize
        omega
      have some_bytes : 0 < min (headerLen f.header - 12) maxFrameLen := by
        have limit := maxFrameLen_eq
        omega
      rw [ret, covered.within_iff, if_pos some_bytes, count, allocated]
      simp only [Option.some.injEq, forall_eq', Nat.le_refl, and_true, covered.taken_iff some_bytes, forall_const]
      have ends := received_cases (headerLen f.header) maxFrameLen
      have limit := maxFrameLen_eq
      omega

theorem pollDevice_written (f : Fifo) (passed : f.passes = true) (long : 4 ≤ headerLen f.hdr) (i : Nat) :
    Written (f.pollDevice pad) i ↔ i < (headerLen f.hdr + 3) / 4 * 4 := by
  have short : headerLen f.hdr < 2 ^ 16 := BitVec.isLt _
  have size : (headerLen f.hdr + 2 ^ 32 - 4) % 2 ^ 32 = headerLen f.hdr - 4 := by omega
  have words : wordCount (headerLen f.hdr - 4) = (headerLen f.hdr - 4 + 3) / 4 := wordCount_eq (by omega)
  have four : f.hdr.length = 4 := by simp [hdr, peek]
  simp only [pollDevice, passed, if_true, size, cardCMD53Read, Written, List.mem_cons, List.not_mem_nil, or_false,
    exists_eq_or_imp, exists_eq_left, four, List.length_map, List.length_range, words]
  omega

theorem pollDevice_safe_iff (f : Fifo) : Reader.Safe pad f .pollDevice ↔ Reader.Fits f .pollDevice := by
  unfold Reader.Safe Reader.Fits
  cases passed : f.passes with
  | false => simp [pollDevice, passed, not_written_nil]
  | true =>
      simp only [forall_const, sizeofIoctlMsg, sizeofIoctlCmd, ioctlMaxBlklen]
      constructor
      · intro safe
        obtain ⟨within, positive⟩ := safe
        have long : 4 ≤ headerLen f.hdr := by omega
        have last := within ((headerLen f.hdr + 3) / 4 * 4 - 1)
          ((f.pollDevice_written passed long _).mpr (by omega))
        omega
      · intro fits
        refine ⟨fun i written => ?_, by omega⟩
        have bound := (f.pollDevice_written passed fits.1 i).mp written
        omega

end Fifo

namespace Reader

/-- The buffers are safe exactly for these lengths. -/
theorem safe_iff (pad : Byte) (f : Fifo) (r : Reader) : r.Safe pad f ↔ r.Fits f := by
  cases r with
  | pollEvents => exact iff_of_true f.pollEvents_safe trivial
  | procInput => exact f.procInput_safe_iff
  | pollDevice => exact f.pollDevice_safe_iff

/-- A frame of 4017 bytes is stored one byte over the end of `bf` at least, one with a payload of 512
bytes is passed on with ten that were not received, and a response of three bytes has no length left. -/
theorem overruns :
    ¬ Reader.procInput.Safe 0 (Fifo.ofHeader 4017 (~~~4017)) ∧
      ¬ Reader.procInput.Safe 0 (Fifo.ofHeader 524 (~~~524)) ∧
      ¬ Reader.pollDevice.Safe 0 (Fifo.ofHeader 3 (~~~3)) ∧
      ¬ Reader.pollDevice.Safe 0 (Fifo.ofHeader 549 (~~~549)) := by
  refine ⟨?_, ?_, ?_, ?_⟩
  · rw [Fifo.procInput_safe_iff]
    exact fun fits => absurd (fits (by decide)).1 (by decide)
  · rw [Fifo.procInput_safe_iff]
    exact fun fits => absurd (fits (by decide)).2.1 (by decide)
  · rw [Fifo.pollDevice_safe_iff]
    exact fun fits => absurd (fits (by decide)).1 (by decide)
  · rw [Fifo.pollDevice_safe_iff]
    exact fun fits => absurd (fits (by decide)).2 (by decide)

end Reader

end QNEthernet.Drivers.Cyw43
