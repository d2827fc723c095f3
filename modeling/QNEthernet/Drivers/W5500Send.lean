import QNEthernet.Drivers.W5500
import QNEthernet.Lib.Run

/-! The send handshake of `drivers/driver_w5500.cpp`. The chip completes a SEND, and the interrupt may
come, between any two accesses the driver makes. -/

namespace QNEthernet.Drivers.W5500

open Lwip

inductive EnetInitStates where
  | start | noHardware | notInitialized | hardwareInitialized | initialized
  deriving DecidableEq

def kTxBufSize : Nat := kRxBufSize

inductive SendPc where
  | idle
  | waitDone (len : Nat)
  | waitSpace (len : Nat)
  | writeFrame (len : Nat)
  | setTxWr (ptr : UInt16) (len : Nat)
  | sendCommand
  deriving DecidableEq

structure Sender where
  -- Whether `kInterruptPin` is not negative
  interrupts : Bool
  initState : EnetInitStates := .start
  sendNotDone : Bool := false
  lastSendTxWr : Option UInt16 := none
  isrAttached : Bool := false
  pc : SendPc := .idle
  -- The chip: `Sn_TX_RD`, `Sn_TX_WR`, a SEND under way, and `SendOk` in `Sn_IR`
  txRd : UInt16 := 0
  txWr : UInt16 := 0
  sending : Bool := false
  sendOk : Bool := false
  -- Whether a frame was ever written while a SEND was under way
  overwrote : Bool := false
  deriving DecidableEq

namespace Sender

/-- What the hardware turns out to be in `low_level_init`. -/
inductive Found where
  | noHardware | notMacraw | macraw
  deriving DecidableEq

/-- Resets the chip and opens the socket; the pointers get a common value. -/
def lowLevelInit (s : Sender) (found : Found) (pointer : UInt16) : Sender :=
  if s.initState ≠ .start then s
  else
    match found with
    | .noHardware => { s with initState := .noHardware }
    | _ =>
        { s with
          isrAttached := s.interrupts
          txRd := pointer
          txWr := pointer
          sending := false
          sendOk := false
          initState := if found = .macraw then .hardwareInitialized else .notInitialized }

def hasHardware (s : Sender) (found : Found) (pointer : UInt16) : Sender :=
  if s.initState = .start then s.lowLevelInit found pointer else s

def init (s : Sender) (found : Found) (pointer : UInt16) : Sender :=
  if s.initState = .initialized then s
  else
    let s := { s with sendNotDone := true, lastSendTxWr := none }
    let s := s.lowLevelInit found pointer
    if s.initState ≠ .hardwareInitialized then s else { s with initState := .initialized }

def deinit (s : Sender) (pointer : UInt16) : Sender :=
  if s.initState = .start ∨ s.initState = .noHardware then s
  else
    { s with
      isrAttached := false
      txRd := pointer
      txWr := pointer
      sending := false
      sendOk := false
      initState := .start }

def restartSocket (s : Sender) (pointer : UInt16) (macraw : Bool) : Sender :=
  { s with
    txRd := pointer
    txWr := pointer
    sending := false
    initState := if macraw then s.initState else .notInitialized }

/-- `proc_input`, as far as it touches the sending side: bad data restarts the socket. -/
def procInput (s : Sender) (bad : Option (UInt16 × Bool)) : Sender :=
  if s.initState ≠ .initialized then s
  else
    match bad with
    | none => s
    | some (pointer, macraw) => s.restartSocket pointer macraw

def sendFrame (s : Sender) (len : Nat) : Sender := if len = 0 then s else { s with pc := .waitDone len }

/-- `copied` is what `pbuf_copy_partial` returns. -/
def output (s : Sender) (frameSize copied : Nat) : Sender :=
  if s.initState ≠ .initialized then s
  else if copied ≠ frameSize then s
  else s.sendFrame frameSize

def outputFrame (s : Sender) (len : Nat) : Sender :=
  if s.initState ≠ .initialized then s else s.sendFrame len

def txFsr (s : Sender) : Nat := kTxBufSize - (s.txWr - s.txRd).toNat

/-- Whether the loop before a send goes on; `test_and_set` then leaves the flag set. -/
def waits (s : Sender) : Bool :=
  if s.interrupts then s.sendNotDone
  else
    match s.lastSendTxWr with
    | none => false
    | some last => s.txRd != last

def advance (s : Sender) : Sender :=
  match s.pc with
  | .idle => s
  | .waitDone len =>
      if s.waits then s
      else { s with sendNotDone := s.sendNotDone || s.interrupts, pc := .waitSpace len }
  | .waitSpace len => if len ≤ s.txFsr then { s with pc := .writeFrame len } else s
  | .writeFrame len => { s with overwrote := s.overwrote || s.sending, pc := .setTxWr s.txWr len }
  | .setTxWr ptr len =>
      { s with
        txWr := ptr + UInt16.ofNat len
        lastSendTxWr := some (ptr + UInt16.ofNat len)
        pc := .sendCommand }
  | .sendCommand => { s with sending := true, pc := .idle }

def sendDone (s : Sender) : Sender :=
  if s.sending then { s with txRd := s.txWr, sending := false, sendOk := true } else s

def recvIsr (s : Sender) : Sender :=
  if s.isrAttached ∧ s.sendOk then { s with sendOk := false, sendNotDone := false } else s

end Sender

inductive SendCall where
  | hasHardware (found : Sender.Found) (pointer : UInt16)
  | init (found : Sender.Found) (pointer : UInt16)
  | deinit (pointer : UInt16)
  | procInput (bad : Option (UInt16 × Bool))
  | output (frameSize copied : Nat)
  | outputFrame (len : Nat)
  deriving DecidableEq

inductive SendStep where
  | call (c : SendCall)
  | advance
  | sendDone
  | recvIsr
  deriving DecidableEq

namespace Sender

/-- A call enters the driver; there is one thread. -/
def call (s : Sender) (c : SendCall) : Sender :=
  if s.pc ≠ .idle then s
  else
    match c with
    | .hasHardware found pointer => s.hasHardware found pointer
    | .init found pointer => s.init found pointer
    | .deinit pointer => s.deinit pointer
    | .procInput bad => s.procInput bad
    | .output frameSize copied => s.output frameSize copied
    | .outputFrame len => s.outputFrame len

def step (s : Sender) : SendStep → Sender
  | .call c => s.call c
  | .advance => s.advance
  | .sendDone => s.sendDone
  | .recvIsr => s.recvIsr

/-- The length of the frame that a call gives to `send_frame`. -/
def frameLen (s : Sender) : SendCall → Nat
  | .output frameSize copied => if s.initState = .initialized ∧ copied = frameSize then frameSize else 0
  | .outputFrame len => if s.initState = .initialized then len else 0
  | _ => 0

/-- Frames are only sent without the interrupt pin, and only while `Sn_TX_WR` is where the last send
left it. -/
def KeepsPointer (s : Sender) : SendStep → Prop
  | .call c =>
      s.frameLen c ≠ 0 →
        s.interrupts = false ∧ (s.lastSendTxWr = none ∨ s.lastSendTxWr = some s.txWr)
  | _ => True

instance (s : Sender) (e : SendStep) : Decidable (s.KeepsPointer e) := by
  unfold KeepsPointer; split <;> infer_instance

/-- A SEND is under way, or its interrupt has still to be served. -/
def Outstanding (s : Sender) : Prop := s.sending = true ∨ (s.interrupts = true ∧ s.sendOk = true)

instance (s : Sender) : Decidable s.Outstanding := inferInstanceAs (Decidable (_ ∨ _))

/-- The driver's copy of the write pointer tells whether a SEND is under way. -/
def Agrees (s : Sender) : Prop :=
  (s.sending = true ∧ s.lastSendTxWr = some s.txWr ∧ s.txRd ≠ s.txWr) ∨
    (s.sending = false ∧ s.txRd = s.txWr)

def PcInv (s : Sender) : Prop :=
  match s.pc with
  | .idle => s.Agrees
  | .waitDone len =>
      0 < len ∧ s.interrupts = false ∧ (s.lastSendTxWr = none ∨ s.lastSendTxWr = some s.txWr) ∧ s.Agrees
  | .waitSpace len => 0 < len ∧ s.sending = false ∧ s.txRd = s.txWr
  | .writeFrame len => 0 < len ∧ len ≤ kTxBufSize ∧ s.sending = false ∧ s.txRd = s.txWr
  | .setTxWr ptr len =>
      0 < len ∧ len ≤ kTxBufSize ∧ s.sending = false ∧ s.txRd = s.txWr ∧ ptr = s.txWr
  | .sendCommand => s.sending = false ∧ s.lastSendTxWr = some s.txWr ∧ s.txRd ≠ s.txWr

structure Inv (s : Sender) : Prop where
  pc : s.PcInv
  up : s.sending = true ∨ s.pc ≠ .idle → s.initState = .initialized
  clean : s.overwrote = false

variable {s : Sender}

theorem Agrees.sendDone (agrees : s.Agrees) : s.sendDone.Agrees := by
  unfold Sender.sendDone
  split
  · exact .inr ⟨rfl, rfl⟩
  · exact agrees

theorem sendDone_of_not_sending (off : s.sending = false) : s.sendDone = s := by
  simp [Sender.sendDone, off]

theorem sendDone_kept :
    s.sendDone.pc = s.pc ∧ s.sendDone.interrupts = s.interrupts ∧
      s.sendDone.lastSendTxWr = s.lastSendTxWr ∧ s.sendDone.txWr = s.txWr := by
  unfold Sender.sendDone
  split <;> exact ⟨rfl, rfl, rfl, rfl⟩

theorem PcInv.sendDone (inv : s.PcInv) : s.sendDone.PcInv := by
  obtain ⟨pc, interrupts, last, txWr⟩ := sendDone_kept (s := s)
  unfold PcInv at inv ⊢
  rw [pc]
  split at inv
  · exact inv.sendDone
  · rw [interrupts, last, txWr]
    exact ⟨inv.1, inv.2.1, inv.2.2.1, inv.2.2.2.sendDone⟩
  · rwa [sendDone_of_not_sending inv.2.1]
  · rwa [sendDone_of_not_sending inv.2.2.1]
  · rwa [sendDone_of_not_sending inv.2.2.1]
  · rwa [sendDone_of_not_sending inv.1]

theorem Inv.sendDone (inv : Inv s) : Inv s.sendDone := by
  refine ⟨inv.pc.sendDone, ?_, ?_⟩
  · unfold Sender.sendDone
    split
    · rename_i sending
      exact fun _ => inv.up (.inl sending)
    · exact inv.up
  · unfold Sender.sendDone
    split <;> exact inv.clean

theorem Inv.recvIsr (inv : Inv s) : Inv s.recvIsr := by
  unfold Sender.recvIsr
  split
  · exact ⟨inv.pc, inv.up, inv.clean⟩
  · exact inv

theorem add_ofNat_ne (ptr : UInt16) {len : Nat} (some : 0 < len) (fits : len ≤ kTxBufSize) :
    ptr ≠ ptr + UInt16.ofNat len := by
  intro same
  have small : kTxBufSize < 2 ^ 16 := by decide
  have bound := ptr.toNat_lt
  have value := congrArg UInt16.toNat same
  rw [UInt16.toNat_add, UInt16.toNat_ofNat'] at value
  omega

theorem Agrees.done (agrees : s.Agrees) (interrupts : s.interrupts = false) (waited : s.waits = false) :
    s.sending = false ∧ s.txRd = s.txWr := by
  rcases agrees with ⟨sending, last, busy⟩ | done
  · simp [Sender.waits, interrupts, last, busy] at waited
  · exact done

theorem Inv.advance (inv : Inv s) : Inv s.advance := by
  have at_pc := inv.pc
  unfold PcInv at at_pc
  unfold Sender.advance
  split
  · exact inv
  · rename_i len pc
    rw [pc] at at_pc
    obtain ⟨some, interrupts, -, agrees⟩ := at_pc
    split
    · exact inv
    · rename_i waited
      have done := agrees.done interrupts (by simpa using waited)
      exact ⟨⟨some, done⟩, fun _ => inv.up (.inr (by simp [pc])), inv.clean⟩
  · rename_i len pc
    rw [pc] at at_pc
    split
    · rename_i fits
      have bound : len ≤ kTxBufSize := Nat.le_trans fits (Nat.sub_le ..)
      exact ⟨⟨at_pc.1, bound, at_pc.2⟩, fun _ => inv.up (.inr (by simp [pc])), inv.clean⟩
    · exact inv
  · rename_i len pc
    rw [pc] at at_pc
    obtain ⟨some, bound, off, free⟩ := at_pc
    exact ⟨⟨some, bound, off, free, rfl⟩, fun _ => inv.up (.inr (by simp [pc])),
      by simp [inv.clean, off]⟩
  · rename_i ptr len pc
    rw [pc] at at_pc
    obtain ⟨some, bound, off, free, rfl⟩ := at_pc
    refine ⟨⟨off, rfl, ?_⟩, fun _ => inv.up (.inr (by simp [pc])), inv.clean⟩
    show s.txRd ≠ s.txWr + UInt16.ofNat len
    rw [free]
    exact add_ofNat_ne s.txWr some bound
  · rename_i pc
    rw [pc] at at_pc
    exact ⟨.inl ⟨rfl, at_pc.2⟩, fun _ => inv.up (.inr (by simp [pc])), inv.clean⟩

/-- While the driver is down, nothing is under way. -/
theorem Inv.resting (inv : Inv s) (idle : s.pc = .idle) (down : s.initState ≠ .initialized) :
    s.sending = false ∧ s.txRd = s.txWr := by
  have agrees := inv.pc
  rw [PcInv, idle] at agrees
  rcases agrees with ⟨sending, -⟩ | done
  · exact absurd (inv.up (.inl sending)) down
  · exact done

theorem Inv.of_resting (idle : s.pc = .idle) (done : s.sending = false ∧ s.txRd = s.txWr)
    (clean : s.overwrote = false) : Inv s where
  pc := by
    rw [PcInv, idle]
    exact .inr done
  up busy := by
    rcases busy with sending | going
    · simp [done.1] at sending
    · exact absurd idle going
  clean := clean

theorem lowLevelInit_resting (done : s.sending = false ∧ s.txRd = s.txWr) (found : Found)
    (pointer : UInt16) :
    (s.lowLevelInit found pointer).sending = false ∧
      (s.lowLevelInit found pointer).txRd = (s.lowLevelInit found pointer).txWr ∧
      (s.lowLevelInit found pointer).pc = s.pc ∧
      (s.lowLevelInit found pointer).overwrote = s.overwrote := by
  unfold Sender.lowLevelInit
  split
  · exact ⟨done.1, done.2, rfl, rfl⟩
  · split
    · exact ⟨done.1, done.2, rfl, rfl⟩
    · exact ⟨rfl, rfl, rfl, rfl⟩

theorem Inv.lowLevelInit (inv : Inv s) (idle : s.pc = .idle) (down : s.initState ≠ .initialized)
    (found : Found) (pointer : UInt16) : Inv (s.lowLevelInit found pointer) := by
  obtain ⟨off, same, pc, overwrote⟩ := lowLevelInit_resting (inv.resting idle down) found pointer
  exact .of_resting (pc.trans idle) ⟨off, same⟩ (overwrote.trans inv.clean)

theorem Inv.hasHardware (inv : Inv s) (idle : s.pc = .idle) (found : Found) (pointer : UInt16) :
    Inv (s.hasHardware found pointer) := by
  unfold Sender.hasHardware
  split
  · rename_i start
    exact inv.lowLevelInit idle (by simp [start]) found pointer
  · exact inv

theorem Inv.init (inv : Inv s) (idle : s.pc = .idle) (found : Found) (pointer : UInt16) :
    Inv (s.init found pointer) := by
  unfold Sender.init
  split
  · exact inv
  · rename_i down
    obtain ⟨off, same, pc, overwrote⟩ := lowLevelInit_resting
      (s := { s with sendNotDone := true, lastSendTxWr := none }) (inv.resting idle down) found pointer
    dsimp only
    split
    · exact .of_resting (pc.trans idle) ⟨off, same⟩ (overwrote.trans inv.clean)
    · exact .of_resting (pc.trans idle) ⟨off, same⟩ (overwrote.trans inv.clean)

theorem Inv.deinit (inv : Inv s) (idle : s.pc = .idle) (pointer : UInt16) : Inv (s.deinit pointer) := by
  unfold Sender.deinit
  split
  · exact inv
  · exact .of_resting idle ⟨rfl, rfl⟩ inv.clean

theorem Inv.procInput (inv : Inv s) (idle : s.pc = .idle) (bad : Option (UInt16 × Bool)) :
    Inv (s.procInput bad) := by
  unfold Sender.procInput
  split
  · exact inv
  · split
    · exact inv
    · exact .of_resting idle ⟨rfl, rfl⟩ inv.clean

theorem Inv.sendFrame (inv : Inv s) (idle : s.pc = .idle) (up : s.initState = .initialized) {len : Nat}
    (keeps : len ≠ 0 →
      s.interrupts = false ∧ (s.lastSendTxWr = none ∨ s.lastSendTxWr = some s.txWr)) :
    Inv (s.sendFrame len) := by
  have agrees := inv.pc
  rw [PcInv, idle] at agrees
  unfold Sender.sendFrame
  split
  · exact inv
  · rename_i some
    obtain ⟨interrupts, kept⟩ := keeps some
    exact ⟨⟨Nat.pos_of_ne_zero some, interrupts, kept, agrees⟩, fun _ => up, inv.clean⟩

theorem Inv.call (inv : Inv s) (c : SendCall) (keeps : s.KeepsPointer (.call c)) : Inv (s.call c) := by
  unfold Sender.call
  split
  · exact inv
  · rename_i going
    have idle : s.pc = .idle := not_not.mp going
    cases c with
    | hasHardware found pointer => exact inv.hasHardware idle found pointer
    | init found pointer => exact inv.init idle found pointer
    | deinit pointer => exact inv.deinit idle pointer
    | procInput bad => exact inv.procInput idle bad
    | output frameSize copied =>
        dsimp only
        unfold Sender.output
        split
        · exact inv
        · rename_i up
          have up := not_not.mp up
          split
          · exact inv
          · rename_i copied
            have copied := not_not.mp copied
            exact inv.sendFrame idle up (by simpa [KeepsPointer, frameLen, up, copied] using keeps)
    | outputFrame len =>
        dsimp only
        unfold Sender.outputFrame
        split
        · exact inv
        · rename_i up
          have up := not_not.mp up
          exact inv.sendFrame idle up (by simpa [KeepsPointer, frameLen, up] using keeps)

theorem Inv.step (inv : Inv s) (e : SendStep) (keeps : s.KeepsPointer e) : Inv (s.step e) := by
  cases e with
  | call c => exact inv.call c keeps
  | advance => exact inv.advance
  | sendDone => exact inv.sendDone
  | recvIsr => exact inv.recvIsr

theorem Inv.waits (inv : Inv s) {len : Nat} (pc : s.pc = .waitDone len) (waiting : s.waits = true) :
    s.Outstanding := by
  have at_pc := inv.pc
  rw [PcInv, pc] at at_pc
  obtain ⟨-, interrupts, kept, agrees⟩ := at_pc
  rcases agrees with ⟨sending, -⟩ | ⟨-, same⟩
  · exact .inl sending
  · rcases kept with none | last
    · simp [Sender.waits, interrupts, none] at waiting
    · simp [Sender.waits, interrupts, last, same] at waiting

end Sender

theorem send_waits_for_send (interrupts : Bool) (run : List SendStep)
    (keeps : Run.Allowed Sender.KeepsPointer Sender.step { interrupts := interrupts } run) :
    let s := run.foldl Sender.step { interrupts := interrupts }
    (∀ len, s.pc = .waitDone len → s.waits = true → s.Outstanding) ∧ s.overwrote = false := by
  intro s
  have start : Sender.Inv { interrupts := interrupts } := .of_resting rfl ⟨rfl, rfl⟩ rfl
  have inv : Sender.Inv s :=
    Run.allowed_preserves Sender.Inv Sender.KeepsPointer Sender.step
      (fun s e ok inv => inv.step e ok) run _ keeps start
  exact ⟨fun len pc waiting => inv.waits pc waiting, inv.clean⟩

def advances (n : Nat) : List SendStep := List.replicate n .advance

/-- A frame is sent, the next one waits for it. -/
def keptRun : List SendStep :=
  List.flatten [[.call (.init .macraw 0), .call (.output 60 60)], advances 5,
    [.call (.outputFrame 64), .advance]]

theorem send_waits_for_send_keptRun :
    let s := keptRun.foldl Sender.step { interrupts := false }
    s.waits = true ∧ s.Outstanding ∧ s.overwrote = false :=
  have sound := send_waits_for_send false keptRun (by decide +kernel)
  ⟨by decide +kernel, sound.1 64 (by decide +kernel) (by decide +kernel), sound.2⟩

/-- With the interrupt pin, the first frame waits for a SEND that nobody has asked for. -/
def firstFrameRun : List SendStep := [.call (.init .macraw 0), .call (.outputFrame 60), .advance]

/-- A frame is sent, bad data restarts the socket, and the next frame waits for the old pointer. -/
def restartedRun : List SendStep :=
  List.flatten [[.call (.init .macraw 0), .call (.output 60 60)], advances 5,
    [.sendDone, .call (.procInput (some (0, true))), .call (.output 60 60), .advance]]

/-- The loop goes on, and nothing will end it. -/
def Sender.Hangs (s : Sender) (len : Nat) : Prop :=
  s.pc = .waitDone len ∧ s.waits = true ∧ ¬ s.Outstanding

instance (s : Sender) (len : Nat) : Decidable (s.Hangs len) := inferInstanceAs (Decidable (_ ∧ _ ∧ _))

theorem send_waits_for_nothing :
    (firstFrameRun.foldl Sender.step { interrupts := true }).Hangs 60 ∧
      (restartedRun.foldl Sender.step { interrupts := false }).Hangs 60 := by
  decide +kernel

end QNEthernet.Drivers.W5500
