import QNEthernet.Lib.Memory
import QNEthernet.Lib.Spans
import QNEthernet.Lib.Words

/-! The pool of `entropy/entropy.cpp`, one access to the registers of the generator at a time, so that its blocks
and errors can come at any point of a call. -/

namespace QNEthernet.Entropy.Trng

open Spans

abbrev Byte := UInt8

def kEntropyCount : Nat := 16

def kEntropyCountBytes : Nat := kEntropyCount <<< 2

/-- `reinterpret_cast<uint8_t*>`, on a little-endian machine. -/
def bytesOf (words : Nat → UInt32) : Nat → Byte := fun k =>
  (Words.digits 4 (words (k / 4)).toNat).getD (k % 4) 0

def blockOf (words : Nat → UInt32) : List Byte := Memory.window (bytesOf words) 0 kEntropyCountBytes

/-- The registers: `ENT`, and `ENT_VAL` and `ERR` of `MCTL`. -/
structure Hw where
  ent : Nat → UInt32 := fun _ => 0
  entVal : Bool := false
  err : Bool := false

/-- Reading `ENT[15]` makes the generator begin a new block. -/
def Hw.restart (hw : Hw) : Hw := { hw with entVal := false }

/-- Who calls `restartEntropy` or `fillEntropyBuf`: `rem` is a variable of `trng_data`. -/
inductive Caller where
  | trngData (size rem : Nat)
  | trngAvailable
  | trngInit

inductive Call where
  | trngData (size : Nat)
  | trngAvailable
  | trngInit
  deriving DecidableEq

inductive Pc where
  | idle
  | dataErr (size : Nat)
  | dataClear (size : Nat)
  | loop (size rem : Nat)
  | wait (size rem : Nat)
  | take (size rem : Nat)
  | available
  | availableVal
  | availableSize
  | initProgram
  | initRun
  | restart (caller : Caller)
  | restarted (caller : Caller)
  | fillErr (caller : Caller)
  | fillClear (caller : Caller)
  | fillCopy (caller : Caller) (i : Nat)
  | fillDummy (caller : Caller)
  | ret (n : Nat)

def Call.entry : Call → Pc
  | .trngData size => .dataErr size
  | .trngAvailable => .available
  | .trngInit => .initProgram

structure Machine where
  hw : Hw := {}
  entropy : Nat → UInt32 := fun _ => 0
  entropySizeBytes : Nat := 0
  pc : Pc := .idle

inductive Out where
  | read (block : List Byte)
  | wrote (bytes : List Byte)
  | discarded
  | failed
  | returned (n : Nat)

def Caller.restarted : Caller → Pc
  | .trngData size rem => .loop size rem
  | .trngAvailable | .trngInit => .ret 0

/-- Behind `fillEntropyBuf`, if it returned `true`. -/
def Caller.filled : Caller → Pc
  | .trngData size rem => .take size rem
  | .trngAvailable => .availableSize
  | .trngInit => .ret 0

/-- What is returned if it returned `false`. -/
def Caller.failed : Caller → Nat
  | .trngData size rem => size - rem
  | .trngAvailable | .trngInit => 0

def Machine.tick (m : Machine) : Machine × Option Out :=
  match m.pc with
  | .idle => (m, none)
  | .dataErr size => ({ m with pc := if m.hw.err then .dataClear size else .loop size size }, none)
  | .dataClear size => ({ m with hw.err := false, pc := .restart (.trngData size size) }, none)
  | .loop size rem =>
      if rem = 0 then ({ m with pc := .ret size }, none)
      else if m.entropySizeBytes ≠ 0 then ({ m with pc := .take size rem }, none)
      else ({ m with pc := .wait size rem }, none)
  | .wait size rem =>
      if !m.hw.entVal && !m.hw.err then (m, none) else ({ m with pc := .fillErr (.trngData size rem) }, none)
  | .take size rem =>
      let toCopy := min rem m.entropySizeBytes
      ({ m with entropySizeBytes := m.entropySizeBytes - toCopy, pc := .loop size (rem - toCopy) },
        some (.wrote (Memory.window (bytesOf m.entropy) (kEntropyCountBytes - m.entropySizeBytes) toCopy)))
  | .available => ({ m with pc := if m.entropySizeBytes = 0 then .availableVal else .availableSize }, none)
  | .availableVal => ({ m with pc := if m.hw.entVal then .fillErr .trngAvailable else .ret 0 }, none)
  | .availableSize => ({ m with pc := .ret m.entropySizeBytes }, none)
  -- Pending errors are cleared together with the change of mode.
  | .initProgram => ({ m with hw.err := false, pc := .initRun }, none)
  | .initRun => ({ m with pc := .restart .trngInit }, none)
  | .restart caller => ({ m with hw := m.hw.restart, pc := .restarted caller }, none)
  | .restarted caller => ({ m with entropySizeBytes := 0, pc := caller.restarted }, some .discarded)
  | .fillErr caller =>
      if m.hw.err then ({ m with pc := .fillClear caller }, some .failed) else ({ m with pc := .fillCopy caller 0 }, none)
  | .fillClear caller => ({ m with hw.err := false, pc := .ret caller.failed }, none)
  | .fillCopy caller i =>
      let entropy := Function.update m.entropy i (m.hw.ent i)
      if i + 1 < kEntropyCount then ({ m with entropy := entropy, pc := .fillCopy caller (i + 1) }, none)
      else ({ m with hw := m.hw.restart, entropy := entropy, pc := .fillDummy caller }, none)
  | .fillDummy caller =>
      ({ m with entropySizeBytes := kEntropyCountBytes, pc := caller.filled }, some (.read (blockOf m.entropy)))
  | .ret n => ({ m with pc := .idle }, some (.returned n))

/-- A call: how much had been taken or discarded when it began, what it has written, and whether it saw an error
while it filled the pool. -/
structure Record where
  call : Call
  before : Nat
  span : Span Byte
  error : Bool := false

/-- A call that is over: how much has been taken or discarded, how much is left, and whether the generator raised
its error flag during the call. -/
structure Done extends Record where
  ret : Nat
  next : Nat
  unread : Nat
  raised : Bool

/-- What has happened: the blocks that became valid, those that were read, and the calls. `next` is the position, in
the blocks that were read, behind all that was taken or discarded. -/
structure History where
  generated : List (List Byte) := []
  blocks : List (List Byte) := []
  next : Nat := 0
  done : List Done := []
  current : Option Record := none
  -- Since the current call began.
  raised : Bool := false

namespace History

def stream (h : History) : List Byte := h.blocks.flatten

def unread (h : History) : Nat := h.stream.length - h.next

/-- What the calls have written, from the first on. -/
def spans (h : History) : List (Span Byte) := h.done.map (·.span) ++ (h.current.map (·.span)).toList

def see (h : History) : Out → History
  | .read block => { h with blocks := h.blocks ++ [block] }
  | .wrote bytes =>
      { h with next := h.next + bytes.length, current := h.current.map fun r => { r with span := r.span.extend bytes } }
  -- A call that has not written anything yet goes on behind what is discarded.
  | .discarded =>
      { h with
        next := h.stream.length
        current := h.current.map fun r => if r.span.values = [] then { r with span := ⟨h.stream.length, []⟩ } else r }
  | .failed => { h with current := h.current.map fun r => { r with error := true } }
  | .returned n =>
      { h with
        done := h.done ++ (h.current.map fun r =>
          { r with ret := n, next := h.next, unread := h.unread, raised := h.raised : Done }).toList
        current := none }

end History

structure World where
  m : Machine := {}
  h : History := {}

inductive Event where
  | call (c : Call)
  | tick
  | valid (block : Nat → UInt32)
  | error

namespace World

/-- The generator stops when a block is valid, until it is read. -/
def step (w : World) : Event → World
  | .call c =>
      match w.m.pc with
      | .idle =>
          { m := { w.m with pc := c.entry }
            h := { w.h with
              current := some { call := c, before := w.h.next, span := ⟨w.h.next, []⟩ }
              raised := false } }
      | _ => w
  | .tick => { m := w.m.tick.1, h := w.m.tick.2.elim w.h w.h.see }
  | .valid block =>
      if w.m.hw.entVal then w
      else
        { m := { w.m with hw.ent := block, hw.entVal := true }
          h := { w.h with generated := w.h.generated ++ [blockOf block] } }
  | .error => { m := { w.m with hw.err := true }, h := { w.h with raised := true } }

def run (es : List Event) : World := es.foldl step {}

end World
end QNEthernet.Entropy.Trng
