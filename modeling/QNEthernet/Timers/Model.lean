import QNEthernet.Lib.Run

/-! `timeouts.c`: the list of timeouts with the cyclic timers and the TCP timer on it, and `Ethernet.loop()`, which
has them checked. -/

namespace QNEthernet.Timers

/-- What the code does with times. It has 32-bit words for them; the same code runs over times without bound. -/
class Time (τ : Type) where
  sysNow : Nat → τ
  add : τ → UInt32 → τ
  sub : τ → τ → UInt32
  timeLessThan : τ → τ → Bool

export Time (sysNow timeLessThan)

def lwipMaxTimeout : UInt32 := 0x7fffffff

instance : Time UInt32 where
  sysNow clock := .ofNat clock
  add t msecs := t + msecs
  sub t t' := t - t'
  timeLessThan t compareTo := decide (t - compareTo > lwipMaxTimeout)

instance : Time Nat where
  sysNow clock := clock
  add t msecs := t + msecs.toNat
  sub t t' := .ofNat (t - t')
  timeLessThan t compareTo := decide (t < compareTo)

/-- A handler with its argument: `lwip_cyclic_timer` for an entry of the table, `tcpip_tcp_timer`, or another. -/
inductive Handler where
  | cyclic (i : Nat)
  | tcp
  | other (handler arg : Nat)
  deriving DecidableEq

structure SysTimeo (τ : Type) where
  time : τ
  h : Handler
  deriving DecidableEq

/-- The functions that are under way, each with what it keeps. -/
inductive Activity (τ : Type) where
  -- The loop of `sys_timeouts_init`.
  | init (i : Nat)
  -- `Ethernet.loop()` before and after `sys_check_timeouts`.
  | poll
  | driverPoll
  | check (now : τ)
  -- The handler that the timer calls is running, and then the timer goes on.
  | cyclicTimer (i : Nat)
  | tcpTimer
  deriving DecidableEq

/-- What `sys_check_timeouts` returned, with its `now` and what was on the list then. -/
structure Returned (τ : Type) where
  now : τ
  pending : List (SysTimeo τ)
  ret : UInt32
  deriving DecidableEq

def tcpTmrInterval : UInt32 := 250

/-- The intervals of `lwip_cyclic_timers`: TCP, IP reassembly, ARP, DHCP coarse and fine, ACD, IGMP and DNS. -/
def lwipCyclicTimers : List UInt32 := [tcpTmrInterval, 1000, 1000, 60000, 500, 100, 100, 1000]

def intervalMs (i : Nat) : UInt32 := lwipCyclicTimers.getD i 0

def mempNumSysTimeout : Nat := 8 + 8

def kPollInterval : UInt32 := 125

def sysTimeoutsSleeptimeInfinite : UInt32 := 0xffffffff

/-- `tcpPcbs` says whether there are active or time-wait blocks. A failed assertion ends the program. -/
structure State (τ : Type) where
  clock : Nat
  nextTimeout : List (SysTimeo τ) := []
  currentTimeoutDueTime : τ
  tcpipTcpTimerActive : Bool := false
  tcpPcbs : Bool := false
  lastPollTime : τ
  activities : List (Activity τ) := [.init 1]
  aborted : Bool := false
  -- What has happened so far; a call with the clock at it.
  scheduled : List (SysTimeo τ) := []
  cancelled : List (SysTimeo τ) := []
  called : List (SysTimeo τ × Nat) := []
  returned : List (Returned τ) := []
  deriving DecidableEq

namespace State

variable {τ : Type} [Time τ]

/-- Entries of the same time stay in the order they came in. -/
def link (timeout : SysTimeo τ) : List (SysTimeo τ) → List (SysTimeo τ)
  | [] => [timeout]
  | t :: next => if timeLessThan timeout.time t.time then timeout :: t :: next else t :: link timeout next

def sysTimeoutAbs (absTime : τ) (h : Handler) (s : State τ) : State τ :=
  if s.nextTimeout.length ≥ mempNumSysTimeout then { s with aborted := true }
  else
    let timeout : SysTimeo τ := ⟨absTime, h⟩
    { s with nextTimeout := link timeout s.nextTimeout, scheduled := timeout :: s.scheduled }

def sysTimeout (msecs : UInt32) (h : Handler) (s : State τ) : State τ :=
  if ¬ msecs ≤ 0xffffffff / 4 then { s with aborted := true }
  else s.sysTimeoutAbs (Time.add (sysNow s.clock) msecs) h

def sysUntimeout (h : Handler) (s : State τ) : State τ :=
  { s with
    nextTimeout := s.nextTimeout.eraseP (·.h = h)
    cancelled := (s.nextTimeout.find? (·.h = h)).toList ++ s.cancelled }

def tcpTimerNeeded (s : State τ) : State τ :=
  if !s.tcpipTcpTimerActive ∧ s.tcpPcbs then
    { s with tcpipTcpTimerActive := true }.sysTimeout tcpTmrInterval .tcp
  else s

/-- The blocks' lists grow; the bound and listening ones need no timer. -/
def tcpReg (active : Bool) (s : State τ) : State τ :=
  { s with tcpPcbs := s.tcpPcbs || active }.tcpTimerNeeded

/-- `Ethernet.loop()` past its input. -/
def loop (s : State τ) : State τ :=
  if Time.sub (sysNow s.clock) s.lastPollTime ≥ kPollInterval then
    { s with activities := .poll :: s.activities }
  else s

/-- What a handler goes on with. -/
def running : Handler → List (Activity τ)
  | .cyclic i => [.cyclicTimer i]
  | .tcp => [.tcpTimer]
  | .other _ _ => []

/-- `sys_check_timeouts` returns; `rest` is what called it. -/
def endCheck (now : τ) (ret : UInt32) (rest : List (Activity τ)) (s : State τ) : State τ :=
  { s with activities := rest, returned := ⟨now, s.nextTimeout, ret⟩ :: s.returned }

/-- A turn of the loop of `sys_check_timeouts`. -/
def checkTimeouts (now : τ) (rest : List (Activity τ)) (s : State τ) : State τ :=
  match s.nextTimeout with
  | [] => s.endCheck now sysTimeoutsSleeptimeInfinite rest
  | tmptimeout :: next =>
      if timeLessThan now tmptimeout.time then
        let ret := Time.sub tmptimeout.time now
        if ¬ ret ≤ lwipMaxTimeout then { s with aborted := true } else s.endCheck now ret rest
      else
        { s with
          nextTimeout := next
          currentTimeoutDueTime := tmptimeout.time
          activities := running tmptimeout.h ++ s.activities
          called := (tmptimeout, s.clock) :: s.called }

/-- `lwip_cyclic_timer` after its handler. -/
def cyclicTimer (i : Nat) (s : State τ) : State τ :=
  let now := sysNow s.clock
  let nextTimeoutTime := Time.add s.currentTimeoutDueTime (intervalMs i)
  if timeLessThan nextTimeoutTime now then s.sysTimeoutAbs (Time.add now (intervalMs i)) (.cyclic i)
  else s.sysTimeoutAbs nextTimeoutTime (.cyclic i)

/-- `tcpip_tcp_timer` after `tcp_tmr`. -/
def tcpTimer (s : State τ) : State τ :=
  if s.tcpPcbs then s.sysTimeout tcpTmrInterval .tcp else { s with tcpipTcpTimerActive := false }

def turn (s : State τ) : State τ :=
  match s.activities with
  | [] => s
  | .init i :: rest =>
      if i < lwipCyclicTimers.length then
        { s with activities := .init (i + 1) :: rest }.sysTimeout (intervalMs i) (.cyclic i)
      else { s with activities := rest }
  | .poll :: rest => { s with activities := .check (sysNow s.clock) :: .driverPoll :: rest }
  | .check now :: rest => s.checkTimeouts now rest
  | .driverPoll :: rest => { s with activities := rest, lastPollTime := sysNow s.clock }
  | .cyclicTimer i :: rest => { s with activities := rest }.cyclicTimer i
  | .tcpTimer :: rest => { s with activities := rest }.tcpTimer

end State

/-- The clock goes on, or something is called: by the program, by a handler that is running, or by `tcp_tmr`. -/
inductive Op where
  | pass (ms : Nat)
  | timeout (msecs : UInt32) (handler arg : Nat)
  | untimeout (handler arg : Nat)
  | tcpReg (active : Bool)
  | tcpRmv (left : Bool)
  | loop
  | turn
  deriving DecidableEq

def State.op {τ : Type} [Time τ] (s : State τ) : Op → State τ
  | .pass ms => { s with clock := s.clock + ms }
  | .timeout msecs handler arg => s.sysTimeout msecs (.other handler arg)
  | .untimeout handler arg => s.sysUntimeout (.other handler arg)
  | .tcpReg active => s.tcpReg active
  | .tcpRmv left => { s with tcpPcbs := s.tcpPcbs && left }
  | .loop => s.loop
  | .turn => s.turn

def State.step {τ : Type} [Time τ] (s : State τ) (o : Op) : State τ := if s.aborted then s else s.op o

/-- `lwip_init` is about to set up the timers. -/
def State.boot {τ : Type} [Time τ] (clock : Nat) : State τ where
  clock
  currentTimeoutDueTime := sysNow 0
  lastPollTime := sysNow 0

end QNEthernet.Timers
