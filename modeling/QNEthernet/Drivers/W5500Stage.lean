import QNEthernet.Lib.Memory
import QNEthernet.Drivers.W5500Send

/-! The transmit buffer of `drivers/driver_w5500.cpp`. A frame is staged in `s_spiBuf`, which every
register access uses as well, and the interrupt may come at any point outside a SPI transaction. -/

namespace QNEthernet.Drivers.W5500

open Lwip

/-- `s_spiBuf`, by offset; `s_frameBuf` begins behind three bytes of it. -/
abbrev SpiBuf := Nat → Byte

namespace SpiBuf

def store (b : SpiBuf) (start : Nat) (bytes : List Byte) : SpiBuf :=
  fun i => if start ≤ i then bytes.getD (i - start) (b i) else b i

def frame (b : SpiBuf) (len : Nat) : List Byte := (List.range len).map fun i => b (3 + i)

/-- `spi.transfer(s_spiBuf, len)`: what the chip sends replaces what it is sent. -/
def transfer (b : SpiBuf) (len : Nat) (miso : Nat → Byte) : SpiBuf :=
  fun i => if i < len then miso i else b i

end SpiBuf

structure Reg where
  addr : UInt16
  block : Byte

def kCommon : Byte := 0
def kSocket : Byte := 1
def kSocketTx : Byte := 2
def kControlRWBit : Byte := (1 : Byte) <<< 2

def kSHAR : Reg := ⟨0x0009, kCommon⟩
def kSnCR : Reg := ⟨0x0001, kSocket⟩
def kSnIR : Reg := ⟨0x0002, kSocket⟩
def kSnTxFSR : Reg := ⟨0x0020, kSocket⟩
def kSnTxRD : Reg := ⟨0x0022, kSocket⟩
def kSnTxWR : Reg := ⟨0x0024, kSocket⟩

def socketcommandsSend : Byte := 0x20
def socketinterruptsSendOk : Byte := (1 : Byte) <<< 4
def socketinterruptsRecv : Byte := (1 : Byte) <<< 2

def high (v : UInt16) : Byte := (v >>> 8).toUInt8
def low (v : UInt16) : Byte := v.toUInt8

/-- `read`, as far as it changes the buffer: the data goes somewhere else. -/
def SpiBuf.read (b : SpiBuf) (reg : Reg) (miso : Nat → Byte) : SpiBuf :=
  (b.store 0 [high reg.addr, low reg.addr, reg.block <<< 3]).transfer 3 miso

/-- `write_frame`: the buffer afterwards, and the bytes that the chip gets. -/
def SpiBuf.writeFrame (b : SpiBuf) (reg : Reg) (len : Nat) (miso : Nat → Byte) : SpiBuf × List Byte :=
  let b := b.store 0 [high reg.addr, low reg.addr, (reg.block <<< 3) ||| kControlRWBit]
  (b.transfer (len + 3) miso, b.frame len)

def SpiBuf.writeReg (b : SpiBuf) (reg : Reg) (v : Byte) (miso : Nat → Byte) : SpiBuf × List Byte :=
  (b.store 3 [v]).writeFrame reg 1 miso

def SpiBuf.writeRegWord (b : SpiBuf) (reg : Reg) (v : UInt16) (miso : Nat → Byte) : SpiBuf × List Byte :=
  (b.store 3 [high v, low v]).writeFrame reg 2 miso

/-- A register of the chip that was sent two bytes. -/
def word (bytes : List Byte) : UInt16 := UInt16.ofNat (readFrameLen bytes)

structure Frame where
  bytes : List Byte
  fits : bytes.length ≤ kMaxFrameLen
  deriving DecidableEq

inductive Job where
  | frame (f : Frame)
  | mac (address : Vector Byte 6)
  deriving DecidableEq

def Job.bytes : Job → List Byte
  | .frame f => f.bytes
  | .mac address => address.toList

/-- Where the driver is. It copies outside of the transaction, byte by byte; `i` are done. -/
inductive StagePc where
  | idle
  | copy (job : Job) (i : Nat)
  | start (job : Job)
  | waitDone (f : Frame)
  | waitSpace (f : Frame)
  | writeFrame (f : Frame)
  | setTxWr (f : Frame) (ptr : UInt16)
  | sendCommand
  | commandWait
  deriving DecidableEq

/-- What the chip was sent, with what the caller gave: a frame and where it went, the write pointer
before and after it, or a hardware address. -/
inductive Record where
  | frame (given written : List Byte) (addr txWr : UInt16)
  | moved (given : List Byte) (before after : UInt16)
  | mac (given written : List Byte)
  deriving DecidableEq

structure Stager where
  interrupts : Bool
  initState : EnetInitStates := .initialized
  rxNotAvail : Bool := true
  sendNotDone : Bool := true
  lastSendTxWr : Option UInt16 := none
  buf : SpiBuf := fun _ => 0
  pc : StagePc := .idle
  -- `Sn_TX_WR` of the chip
  txWr : UInt16 := 0
  records : List Record := []

structure Answer where
  txRd : UInt16 := 0
  txFsr : UInt16 × UInt16 := (0, 0)
  cr : Byte := 0
  miso : Nat → Byte := fun _ => 0

inductive StageCall where
  | output (p : Frame)
  | outputFrame (f : Frame)
  | setMac (address : Vector Byte 6)
  -- Any other function of the driver: it leaves the buffer, the flags and the chip somehow.
  | other (initState : EnetInitStates) (buf : SpiBuf) (txWr : UInt16) (lastSendTxWr : Option UInt16)

inductive StageStep where
  | call (c : StageCall)
  | advance (a : Answer)
  | recvIsr (ir : Byte) (miso miso' : Nat → Byte)

namespace Stager

def inTransaction (s : Stager) : Bool :=
  match s.pc with
  | .idle | .copy _ _ => false
  | _ => true

def output (s : Stager) (p : Frame) : Stager :=
  if s.initState ≠ .initialized then s else { s with pc := .copy (.frame p) 0 }

def outputFrame (s : Stager) (f : Frame) : Stager :=
  if s.initState ≠ .initialized then s else { s with pc := .copy (.frame f) 0 }

def setMac (s : Stager) (address : Vector Byte 6) : Stager :=
  if s.initState = .hardwareInitialized ∨ s.initState = .initialized then
    { s with pc := .copy (.mac address) 0 }
  else s

def call (s : Stager) (c : StageCall) : Stager :=
  if s.pc ≠ .idle then s
  else
    match c with
    | .output p => s.output p
    | .outputFrame f => s.outputFrame f
    | .setMac address => s.setMac address
    | .other initState buf txWr lastSendTxWr =>
        { s with initState := initState, buf := buf, txWr := txWr, lastSendTxWr := lastSendTxWr }

def advance (s : Stager) (a : Answer) : Stager :=
  match s.pc with
  | .idle => s
  | .copy job i =>
      match job.bytes[i]? with
      | some byte => { s with buf := s.buf.store (3 + i) [byte], pc := .copy job (i + 1) }
      | none => { s with pc := .start job }
  | .start (.mac address) =>
      let (buf, written) := s.buf.writeFrame kSHAR 6 a.miso
      { s with buf := buf, records := s.records ++ [.mac address.toList written], pc := .idle }
  | .start (.frame f) => if f.bytes.length = 0 then { s with pc := .idle } else { s with pc := .waitDone f }
  | .waitDone f =>
      if s.interrupts then
        if s.sendNotDone then s else { s with sendNotDone := true, pc := .waitSpace f }
      else
        match s.lastSendTxWr with
        | none => { s with pc := .waitSpace f }
        | some last =>
            let s := { s with buf := s.buf.read kSnTxRD a.miso }
            if a.txRd ≠ last then s else { s with pc := .waitSpace f }
  | .waitSpace f =>
      let s := { s with buf := (s.buf.read kSnTxFSR a.miso).read kSnTxFSR a.miso }
      if a.txFsr.1 ≠ a.txFsr.2 then s
      else if f.bytes.length ≤ a.txFsr.2.toNat then { s with pc := .writeFrame f } else s
  | .writeFrame f =>
      let ptr := s.txWr
      let buf := s.buf.read kSnTxWR a.miso
      let (buf, written) := buf.writeFrame ⟨ptr, kSocketTx⟩ f.bytes.length a.miso
      { s with buf := buf, records := s.records ++ [.frame f.bytes written ptr s.txWr], pc := .setTxWr f ptr }
  | .setTxWr f ptr =>
      let (buf, written) := s.buf.writeRegWord kSnTxWR (ptr + UInt16.ofNat f.bytes.length) a.miso
      { s with
        buf := buf
        txWr := word written
        lastSendTxWr := some (ptr + UInt16.ofNat f.bytes.length)
        records := s.records ++ [.moved f.bytes s.txWr (word written)]
        pc := .sendCommand }
  | .sendCommand => { s with buf := (s.buf.writeReg kSnCR socketcommandsSend a.miso).1, pc := .commandWait }
  | .commandWait =>
      let s := { s with buf := s.buf.read kSnCR a.miso }
      if a.cr ≠ 0 then s else { s with pc := .idle }

/-- The interrupt reads and clears `Sn_IR`, in a transaction of its own. -/
def recvIsr (s : Stager) (ir : Byte) (miso miso' : Nat → Byte) : Stager :=
  if s.interrupts ∧ ¬ s.inTransaction then
    { s with
      buf := ((s.buf.read kSnIR miso).writeReg kSnIR ir miso').1
      rxNotAvail := s.rxNotAvail && ir &&& socketinterruptsRecv == 0
      sendNotDone := s.sendNotDone && ir &&& socketinterruptsSendOk == 0 }
  else s

def step (s : Stager) : StageStep → Stager
  | .call c => s.call c
  | .advance a => s.advance a
  | .recvIsr ir miso miso' => s.recvIsr ir miso miso'

end Stager

namespace SpiBuf

variable (b : SpiBuf) (reg : Reg) (miso : Nat → Byte)

theorem frame_read (len : Nat) : (b.read reg miso).frame len = b.frame len := by
  apply Memory.window_congr
  intro i _
  have behind : ¬ 3 + i < 3 := by omega
  rw [SpiBuf.read, transfer, if_neg behind]
  exact Memory.write_behind b (by simp)

theorem writeFrame_written (len : Nat) : (b.writeFrame reg len miso).2 = b.frame len := by
  apply Memory.window_congr
  intro i _
  exact Memory.write_behind b (by simp)

theorem frame_store_two (x y : Byte) : (b.store 3 [x, y]).frame 2 = [x, y] := rfl

theorem frame_store_next (i : Nat) (byte : Byte) :
    (b.store (3 + i) [byte]).frame (i + 1) = b.frame i ++ [byte] :=
  Memory.window_write_append b 3 i [byte]

end SpiBuf

theorem word_bytes (v : UInt16) : word [high v, low v] = v := by
  apply UInt16.toNat_inj.mp
  have size := v.toNat_lt
  simp [word, readFrameLen, high, low, Nat.shiftRight_eq_div_pow]
  omega

/-- The chip got what the caller gave: the bytes of a frame at the write pointer, which then moves by
their number, or the address. -/
def Record.Right : Record → Prop
  | .frame given written addr txWr => written = given ∧ addr = txWr
  | .moved given before after => after = before + UInt16.ofNat given.length
  | .mac given written => written = given

instance (r : Record) : Decidable r.Right := by
  cases r <;> unfold Record.Right <;> infer_instance

namespace Stager

def staged (s : Stager) : List Byte :=
  match s.pc with
  | .copy job i => job.bytes.take i
  | .start job => job.bytes
  | .waitDone f | .waitSpace f | .writeFrame f => f.bytes
  | _ => []

structure Intact (s : Stager) : Prop where
  staged : s.buf.frame s.staged.length = s.staged
  copied : ∀ job i, s.pc = .copy job i → i ≤ job.bytes.length
  pointer : ∀ f ptr, s.pc = .setTxWr f ptr → ptr = s.txWr
  right : ∀ r ∈ s.records, r.Right

/-- The interrupt does not come between the copy of a first byte and the transaction. -/
def Undisturbed (s : Stager) : StageStep → Prop
  | .recvIsr _ _ _ => s.interrupts = true → ∀ job i, s.pc = .copy job i → i = 0
  | _ => True

variable {s : Stager}

theorem Intact.call (intact : s.Intact) (c : StageCall) : (s.call c).Intact := by
  have idle (t : Stager) (pc : t.pc = .idle) (records : t.records = s.records) : t.Intact :=
    ⟨by simp [Stager.staged, pc, SpiBuf.frame], by simp [pc], by simp [pc], records ▸ intact.right⟩
  have begun (job : Job) : Intact { s with pc := .copy job 0 } :=
    ⟨by simp [Stager.staged, SpiBuf.frame], fun _ _ same => by cases same; exact Nat.zero_le _,
      by simp, intact.right⟩
  unfold Stager.call
  split
  · exact intact
  · next pc =>
      have pc : s.pc = .idle := not_not.mp pc
      cases c with
      | output p =>
          dsimp only [Stager.output]
          split
          · exact intact
          · exact begun _
      | outputFrame f =>
          dsimp only [Stager.outputFrame]
          split
          · exact intact
          · exact begun _
      | setMac address =>
          dsimp only [Stager.setMac]
          split
          · exact begun _
          · exact intact
      | other initState buf txWr lastSendTxWr => exact idle _ pc rfl

theorem Intact.keep (intact : s.Intact) {t : Stager} {f : Frame} (before : s.staged = f.bytes)
    (after : t.staged = f.bytes) (kept : t.buf.frame f.bytes.length = s.buf.frame f.bytes.length)
    (outside : ∀ job i, t.pc ≠ .copy job i) (unset : ∀ f ptr, t.pc ≠ .setTxWr f ptr)
    (records : t.records = s.records) : t.Intact := by
  have staged := intact.staged
  rw [before] at staged
  refine ⟨?_, fun job i pc => absurd pc (outside job i), fun f ptr pc => absurd pc (unset f ptr),
    records ▸ intact.right⟩
  rw [after, kept, staged]

theorem Intact.record (intact : s.Intact) {t : Stager} {r : Record} (right : r.Right)
    (none : t.staged = []) (outside : ∀ job i, t.pc ≠ .copy job i)
    (pointer : ∀ f ptr, t.pc = .setTxWr f ptr → ptr = t.txWr) (records : t.records = s.records ++ [r]) :
    t.Intact := by
  refine ⟨by rw [none]; rfl, fun job i pc => absurd pc (outside job i), pointer, ?_⟩
  rw [records]
  intro r' member
  rcases List.mem_append.mp member with old | new
  · exact intact.right r' old
  · rw [List.mem_singleton.mp new]
    exact right

theorem Intact.copy (intact : s.Intact) {job : Job} {i : Nat} (pc : s.pc = .copy job i) (a : Answer) :
    (s.advance a).Intact := by
  have copied := intact.copied job i pc
  have staged := intact.staged
  simp only [Stager.staged, pc, List.length_take, Nat.min_eq_left copied] at staged
  simp only [advance, pc]
  split
  · next byte next =>
      obtain ⟨inside, value⟩ := List.getElem?_eq_some_iff.mp next
      refine ⟨?_, ?_, by simp, intact.right⟩
      · simp only [Stager.staged, List.length_take, Nat.min_eq_left (Nat.succ_le_of_lt inside)]
        rw [SpiBuf.frame_store_next, staged, List.take_succ_eq_append_getElem inside, value]
      · intro job' i' same
        cases same
        exact inside
  · next done =>
      have all : i = job.bytes.length :=
        Nat.le_antisymm copied (List.getElem?_eq_none_iff.mp done)
      refine ⟨?_, by simp, by simp, intact.right⟩
      simp only [Stager.staged]
      rw [all, List.take_length] at staged
      exact staged

theorem Intact.start (intact : s.Intact) {job : Job} (pc : s.pc = .start job) (a : Answer) :
    (s.advance a).Intact := by
  have staged := intact.staged
  simp only [Stager.staged, pc] at staged
  cases job with
  | frame f =>
      simp only [advance, pc]
      split
      · exact ⟨by simp [Stager.staged, SpiBuf.frame], by simp, by simp, intact.right⟩
      · exact ⟨staged, by simp, by simp, intact.right⟩
  | mac address =>
      have length : (Job.mac address).bytes.length = 6 := Vector.length_toList
      rw [length] at staged
      simp only [advance, pc]
      refine intact.record (r := .mac address.toList _) ?_ rfl (by simp) (by simp) rfl
      exact (SpiBuf.writeFrame_written s.buf kSHAR a.miso 6).trans staged

theorem Intact.waitDone (intact : s.Intact) {f : Frame} (pc : s.pc = .waitDone f) (a : Answer) :
    (s.advance a).Intact := by
  have staged : s.staged = f.bytes := by simp only [Stager.staged, pc]
  simp only [advance, pc]
  split
  · split
    · exact intact
    · exact intact.keep staged rfl rfl (by simp) (by simp) rfl
  · split
    · exact intact.keep staged rfl rfl (by simp) (by simp) rfl
    · have kept := s.buf.frame_read kSnTxRD a.miso f.bytes.length
      split
      · exact intact.keep staged rfl kept (by simp) (by simp) rfl
      · exact intact.keep staged rfl kept (by simp) (by simp) rfl

theorem Intact.waitSpace (intact : s.Intact) {f : Frame} (pc : s.pc = .waitSpace f) (a : Answer) :
    (s.advance a).Intact := by
  have staged : s.staged = f.bytes := by simp only [Stager.staged, pc]
  have kept : ((s.buf.read kSnTxFSR a.miso).read kSnTxFSR a.miso).frame f.bytes.length =
      s.buf.frame f.bytes.length :=
    (SpiBuf.frame_read _ kSnTxFSR a.miso _).trans (s.buf.frame_read kSnTxFSR a.miso _)
  simp only [advance, pc]
  split
  · exact intact.keep staged rfl kept (by simp) (by simp) rfl
  · split
    · exact intact.keep staged rfl kept (by simp) (by simp) rfl
    · exact intact.keep staged rfl kept (by simp) (by simp) rfl

theorem Intact.writeFrame (intact : s.Intact) {f : Frame} (pc : s.pc = .writeFrame f) (a : Answer) :
    (s.advance a).Intact := by
  have staged := intact.staged
  simp only [Stager.staged, pc] at staged
  simp only [advance, pc]
  refine intact.record (r := .frame f.bytes _ s.txWr s.txWr) ⟨?_, rfl⟩ rfl (by simp) ?_ rfl
  · exact (SpiBuf.writeFrame_written _ _ a.miso _).trans
      ((s.buf.frame_read kSnTxWR a.miso _).trans staged)
  · intro f' ptr same
    cases same
    rfl

theorem Intact.setTxWr (intact : s.Intact) {f : Frame} {ptr : UInt16} (pc : s.pc = .setTxWr f ptr)
    (a : Answer) : (s.advance a).Intact := by
  have pointer := intact.pointer f ptr pc
  have sent : word (s.buf.writeRegWord kSnTxWR (ptr + UInt16.ofNat f.bytes.length) a.miso).2 =
      ptr + UInt16.ofNat f.bytes.length := by
    rw [SpiBuf.writeRegWord, SpiBuf.writeFrame_written, SpiBuf.frame_store_two, word_bytes]
  simp only [advance, pc]
  refine intact.record (r := .moved f.bytes s.txWr _) ?_ rfl (by simp) (by simp) rfl
  rw [Record.Right, sent, pointer]

theorem Intact.advance (intact : s.Intact) (a : Answer) : (s.advance a).Intact := by
  cases pc : s.pc with
  | idle =>
      simp only [Stager.advance, pc]
      exact intact
  | copy job i => exact intact.copy pc a
  | start job => exact intact.start pc a
  | waitDone f => exact intact.waitDone pc a
  | waitSpace f => exact intact.waitSpace pc a
  | writeFrame f => exact intact.writeFrame pc a
  | setTxWr f ptr => exact intact.setTxWr pc a
  | sendCommand =>
      simp only [Stager.advance, pc]
      exact ⟨rfl, by simp, by simp, intact.right⟩
  | commandWait =>
      simp only [Stager.advance, pc]
      split
      · exact ⟨rfl, by simp, by simp, intact.right⟩
      · exact ⟨rfl, by simp, by simp, intact.right⟩

theorem Intact.recvIsr (intact : s.Intact) (ir : Byte) (miso miso' : Nat → Byte)
    (calm : s.interrupts = true → ∀ job i, s.pc = .copy job i → i = 0) :
    (s.recvIsr ir miso miso').Intact := by
  unfold Stager.recvIsr
  split
  · next runs =>
      refine ⟨?_, intact.copied, intact.pointer, intact.right⟩
      have none : s.staged = [] := by
        have outside := runs.2
        unfold inTransaction at outside
        unfold Stager.staged
        cases pc : s.pc with
        | copy job i =>
            rw [calm runs.1 job i pc]
            rfl
        | idle => rfl
        | _ => simp [pc] at outside
      change SpiBuf.frame _ s.staged.length = s.staged
      rw [none]
      rfl
  · exact intact

theorem Intact.step (intact : s.Intact) {e : StageStep} (calm : s.Undisturbed e) : (s.step e).Intact := by
  cases e with
  | call c => exact intact.call c
  | advance a => exact intact.advance a
  | recvIsr ir miso miso' => exact intact.recvIsr ir miso miso' calm

/-- In a run in which the interrupt never comes between the copy of a first byte and the transaction,
the chip gets what the callers gave, and no access before the write changes what is staged. -/
theorem staged_is_sent (s : Stager) (idle : s.pc = .idle) (fresh : s.records = []) (run : List StageStep)
    (calm : Run.Allowed Undisturbed step s run) :
    let t := run.foldl step s
    (∀ r ∈ t.records, r.Right) ∧ t.buf.frame t.staged.length = t.staged := by
  have start : s.Intact :=
    ⟨by simp [Stager.staged, idle, SpiBuf.frame], by simp [idle], by simp [idle], by simp [fresh]⟩
  have kept := Run.allowed_preserves Intact Undisturbed step
    (fun _ _ calm intact => intact.step calm) run s calm start
  exact ⟨kept.right, kept.staged⟩

theorem step_interrupts (s : Stager) (e : StageStep) : (s.step e).interrupts = s.interrupts := by
  cases e with
  | call c =>
      unfold step call
      dsimp only
      split
      · rfl
      · cases c <;> simp only [Stager.output, Stager.outputFrame, Stager.setMac] <;> split <;> rfl
  | advance a =>
      unfold step Stager.advance
      dsimp only
      split
      · rfl
      · split <;> rfl
      · rfl
      · split <;> rfl
      · split
        · split <;> rfl
        · split
          · rfl
          · split <;> rfl
      · split
        · rfl
        · split <;> rfl
      · rfl
      · rfl
      · rfl
      · split <;> rfl
  | recvIsr ir miso miso' =>
      unfold step Stager.recvIsr
      dsimp only
      split <;> rfl

/-- Without an interrupt pin every run is calm. -/
theorem undisturbed_without_pin (s : Stager) (run : List StageStep) (pin : s.interrupts = false) :
    Run.Allowed Undisturbed step s run := by
  induction run generalizing s with
  | nil => trivial
  | cons e run ih =>
      refine ⟨?_, ih (s.step e) ?_⟩
      · cases e with
        | recvIsr ir miso miso' => exact fun wired => absurd (pin.symm.trans wired) (by decide)
        | call c => trivial
        | advance a => trivial
      · rw [step_interrupts, pin]

def sends : List StageStep :=
  let again : StageStep := .advance { txFsr := (100, 100) }
  .call (.outputFrame ⟨[1, 2], by decide⟩) :: List.replicate 8 again

/-- An address is set; the interrupt comes before it, or also `late`, once it is staged. -/
def setsMac (late : List StageStep) : List StageStep :=
  [.recvIsr 4 (fun _ => 0) (fun _ => 0), .call (.setMac (Vector.replicate 6 2))] ++
    List.replicate 6 (.advance {}) ++ late ++ List.replicate 2 (.advance {})

theorem staged_is_sent_calm :
    (let t := sends.foldl step { interrupts := false }
    t.records = [.frame [1, 2] [1, 2] 0 0, .moved [1, 2] 0 2] ∧ ∀ r ∈ t.records, r.Right) ∧
    let t := (setsMac []).foldl step { interrupts := true }
    t.records = [.mac [2, 2, 2, 2, 2, 2] [2, 2, 2, 2, 2, 2]] ∧ ∀ r ∈ t.records, r.Right := by
  have frame := staged_is_sent { interrupts := false } rfl rfl sends (undisturbed_without_pin _ sends rfl)
  have mac := staged_is_sent { interrupts := true } rfl rfl (setsMac [])
    ⟨(fun _ job i pc => by cases pc), trivial, trivial, trivial, trivial, trivial, trivial, trivial, trivial,
      trivial, trivial⟩
  exact ⟨⟨by decide, frame.1⟩, by decide, mac.1⟩

/-- The interrupt comes once the address is staged: the chip gets another first byte. -/
theorem staged_is_overwritten :
    let t := (setsMac [.recvIsr 4 (fun _ => 0) (fun _ => 0)]).foldl step { interrupts := true }
    t.records = [.mac [2, 2, 2, 2, 2, 2] [0, 2, 2, 2, 2, 2]] ∧ ¬ ∀ r ∈ t.records, r.Right := by
  decide

end Stager

end QNEthernet.Drivers.W5500
