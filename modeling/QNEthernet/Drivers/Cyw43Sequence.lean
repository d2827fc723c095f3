import Mathlib.Data.List.Chain
import Mathlib.Logic.Function.Basic
import QNEthernet.Lib.Run

/-! The sequence numbers of the frames written to the radio function. Control frames are numbered by a
static of `ioctl_cmd`, data frames by a member of the `Event` object that sends them. -/

namespace QNEthernet.Drivers.Cyw43

/-- The header of a frame that is written. -/
structure TxHeader where
  len : BitVec 16
  notlen : BitVec 16
  seq : BitVec 8
  chan : BitVec 8
  hdrlen : BitVec 8
  deriving DecidableEq

inductive Sender where
  | ioctl
  | event (o : Nat)
  deriving DecidableEq

structure Tx where
  txseq : BitVec 8 := 1
  sdTxSeq : Nat → BitVec 8 := fun _ => 0
  -- What has been written so far, and by whom.
  sent : List (Sender × TxHeader) := []

namespace Tx

/-- The frame that `ioctl_cmd` writes; `namelen` counts the final zero byte of a name. -/
def ioctlCmd (s : Tx) (wr : Bool) (namelen dlen : Nat) : Tx :=
  let txdlen := if wr then namelen + dlen else max namelen dlen
  let txlen := BitVec.ofNat 16 (28 + txdlen)
  { s with
    txseq := s.txseq + 1
    sent := s.sent ++ [(.ioctl, { len := txlen, notlen := ~~~txlen, seq := s.txseq, chan := 0, hdrlen := 12 })] }

/-- The frame that `event_net_tx` of the object `o` writes. -/
def eventNetTx (s : Tx) (o len : Nat) : Tx :=
  let txlen := BitVec.ofNat 16 (12 + 2 + 4 + len)
  { s with
    sdTxSeq := Function.update s.sdTxSeq o (s.sdTxSeq o + 1)
    sent := s.sent ++
      [(.event o, { len := txlen, notlen := ~~~txlen, seq := s.sdTxSeq o, chan := 2, hdrlen := 14 })] }

inductive Send where
  | ioctlCmd (wr : Bool) (namelen dlen : Nat)
  | eventNetTx (o len : Nat)

def Send.sender : Send → Sender
  | .ioctlCmd _ _ _ => .ioctl
  | .eventNetTx o _ => .event o

def send (s : Tx) : Send → Tx
  | .ioctlCmd wr namelen dlen => s.ioctlCmd wr namelen dlen
  | .eventNetTx o len => s.eventNetTx o len

def counter (s : Tx) : Sender → BitVec 8
  | .ioctl => s.txseq
  | .event o => s.sdTxSeq o

/-- Every frame carries the number after the one before it. -/
def Consecutive (sent : List (Sender × TxHeader)) : Prop :=
  sent.IsChain fun before after => after.2.seq = before.2.seq + 1

/-- The sender of the last frame sends again, or the counters of the two are equal. -/
def InStep (s : Tx) (e : Send) : Prop :=
  ∀ last ∈ s.sent.getLast?, s.counter e.sender = s.counter last.1

/-- The counter behind the last frame is one ahead of it. -/
def Ahead (s : Tx) : Prop := ∀ last ∈ s.sent.getLast?, s.counter last.1 = last.2.seq + 1

theorem send_eq (s : Tx) (e : Send) : ∃ header : TxHeader, header.seq = s.counter e.sender ∧
    (s.send e).sent = s.sent ++ [(e.sender, header)] ∧
    (s.send e).counter e.sender = s.counter e.sender + 1 := by
  cases e with
  | ioctlCmd wr namelen dlen => exact ⟨_, rfl, rfl, rfl⟩
  | eventNetTx o len => exact ⟨_, rfl, rfl, Function.update_self o _ s.sdTxSeq⟩

theorem send_ahead (s : Tx) (e : Send) : (s.send e).Ahead := by
  obtain ⟨header, number, sent, next⟩ := s.send_eq e
  intro last found
  rw [sent, List.getLast?_concat, Option.mem_some_iff] at found
  subst found
  rw [next, number]

theorem send_consecutive {s : Tx} (ahead : s.Ahead) (e : Send) :
    Consecutive (s.send e).sent ↔ Consecutive s.sent ∧ s.InStep e := by
  obtain ⟨header, number, sent, _⟩ := s.send_eq e
  unfold Consecutive
  rw [sent, List.isChain_append]
  constructor
  · intro ⟨chained, _, joined⟩
    refine ⟨chained, fun last found => ?_⟩
    rw [← number, joined last found _ rfl, ahead last found]
  · intro ⟨chained, inStep⟩
    refine ⟨chained, .singleton _, fun last found frame first => ?_⟩
    cases first
    rw [number, inStep last found, ahead last found]

theorem sends_consecutive (run : List Send) (s : Tx) (ahead : s.Ahead) :
    Consecutive (run.foldl send s).sent ↔ Consecutive s.sent ∧ Run.Allowed InStep send s run := by
  induction run generalizing s with
  | nil => exact ⟨fun chained => ⟨chained, trivial⟩, fun both => both.1⟩
  | cons e run ih =>
      rw [List.foldl_cons, ih _ (s.send_ahead e), send_consecutive ahead, and_assoc]
      rfl

/-- The numbers on the bus are consecutive exactly when every change of the sender finds the counters of
both equal. -/
theorem consecutive_iff (run : List Send) :
    Consecutive (run.foldl send {}).sent ↔ Run.Allowed InStep send {} run := by
  have start : Ahead {} := by
    intro last found
    cases found
  rw [sends_consecutive run {} start]
  exact and_iff_right .nil

/-- After one control frame, numbered 1, the first data frame is numbered 0. -/
theorem first_data_frame_out_of_step :
    ¬ Consecutive ([Send.ioctlCmd true 0 4, .eventNetTx 0 60].foldl send {}).sent := by
  intro chained
  have next := List.isChain_cons_cons.mp chained
  exact absurd next.1 (by decide)

end Tx
end QNEthernet.Drivers.Cyw43
