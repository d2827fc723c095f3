import QNEthernet.Lib.Run

/-! `QNDNSClient.cpp`: lookups with a callback, and the blocking form that waits for its own callback.
Any number of lookups are under way at a time, at any of their steps. -/

namespace QNEthernet.Dns

abbrev IpAddress := UInt32

/-- `sys_now()` at the true time `now`. -/
def sysNow (now : Nat) : BitVec 32 := BitVec.ofNat 32 now

/-- Where a call is. -/
inductive Phase where
  -- in `dns_gethostbyname`
  | asking
  -- the blocking form, before it takes the time
  | answered
  | waiting (t : BitVec 32)
  | returned (result : Bool)
  deriving DecidableEq

def Phase.isReturned : Phase → Bool
  | .returned _ => true
  | _ => false

/-- What `dns_gethostbyname` returns. -/
inductive Answer where
  | ok (addr : IpAddress)
  | inProgress
  | error
  deriving DecidableEq

/-- A call of `getHostByName`, its `Request` and the variables its callback refers to. -/
structure Lookup where
  blocking : Bool
  phase : Phase
  -- `new Request` was made, with these values
  request : Bool
  startTime : BitVec 32
  timeout : BitVec 32
  deleted : Nat := 0
  -- lwIP has queued the lookup, and has not called `dnsFoundFunc` yet
  queued : Bool := false
  pending : Bool := false
  found : Bool := false
  lookupDone : Bool := false
  ip : IpAddress
  -- what the callback was called with so far, and whether it was too late for the variables
  ran : List (Option IpAddress) := []
  late : Bool := false
  deriving DecidableEq

namespace Lookup

/-- The callback. That of the blocking form sets the variables of its caller. -/
def callback (foundIP : Option IpAddress) (l : Lookup) : Lookup :=
  if l.blocking then
    { l with
      found := l.found || foundIP.isSome
      ip := foundIP.getD l.ip
      lookupDone := true
      ran := l.ran ++ [foundIP]
      late := l.late || l.phase.isReturned }
  else { l with ran := l.ran ++ [foundIP] }

def delete (l : Lookup) : Lookup := { l with deleted := l.deleted + 1 }

def dnsFoundFunc (now : Nat) (ipaddr : Option IpAddress) (l : Lookup) : Lookup :=
  (if sysNow now - l.startTime < l.timeout then l.callback ipaddr else l).delete

/-- The form with a callback returns; the blocking form goes on if it was successful. -/
def leave (result : Bool) (l : Lookup) : Lookup :=
  { l with phase := if l.blocking ∧ result then .answered else .returned result }

/-- `getHostByName` with a callback, after `dns_gethostbyname`. -/
def answer (a : Answer) (l : Lookup) : Lookup :=
  match a with
  | .ok addr => (l.delete.callback (some addr)).leave true
  | .inProgress => l.leave true
  | .error => l.delete.leave false

/-- A turn of the loop that waits. -/
def turn (now : Nat) (l : Lookup) : Lookup :=
  match l.phase with
  | .waiting t =>
      if l.lookupDone then { l with phase := .returned l.found }
      else if l.timeout ≤ sysNow now - t then { l with phase := .returned l.found }
      else l
  | _ => l

end Lookup

structure World where
  now : Nat
  lookups : List Lookup := []
  deriving DecidableEq

inductive Event where
  | tick (ms : Nat)
  -- a call of either form; the blocking form has a callback
  | getHostByName (blocking callback : Bool) (hostname : Option String) (timeout : BitVec 32)
      (ip : IpAddress)
  -- lwIP queues the lookup, or calls the found function, in `dns_gethostbyname` or later
  | queue (i : Nat)
  | found (i : Nat) (ipaddr : Option IpAddress)
  | answer (i : Nat) (a : Answer)
  -- the blocking form takes the time, and goes through its loop
  | take (i : Nat)
  | turn (i : Nat)
  deriving DecidableEq

namespace World

def getHostByName (blocking callback : Bool) (hostname : Option String) (timeout : BitVec 32)
    (ip : IpAddress) (w : World) : Lookup :=
  let l : Lookup :=
    { blocking := blocking, phase := .asking, request := true, startTime := sysNow w.now,
      timeout := timeout, ip := ip }
  if (!blocking && !callback) || hostname.isNone then
    { l with phase := .returned false, request := false }
  else l

/-- Changes lookup `i`, if it is in the phase that the step belongs to. -/
def change (i : Nat) (f : Lookup → Lookup) (w : World) : World := { w with lookups := w.lookups.modify i f }

def step (w : World) : Event → World
  | .tick ms => { w with now := w.now + ms }
  | .getHostByName blocking callback hostname timeout ip =>
      { w with lookups := w.lookups ++ [w.getHostByName blocking callback hostname timeout ip] }
  | .queue i => w.change i fun l => { l with queued := true, pending := true }
  | .found i ipaddr => w.change i fun l => { l.dnsFoundFunc w.now ipaddr with pending := false }
  | .answer i a => w.change i fun l => if l.phase = .asking then l.answer a else l
  | .take i =>
      w.change i fun l => if l.phase = .answered then { l with phase := .waiting (sysNow w.now) } else l
  | .turn i => w.change i fun l => l.turn w.now

/-- What is assumed of lwIP. It queues a lookup at most once, in `dns_gethostbyname`, which then returns
`ERR_INPROGRESS`; and it calls the found function once for each of these lookups and for no other. -/
def Lwip (w : World) : Event → Prop
  | .queue i => ∀ l ∈ w.lookups[i]?, l.phase = .asking ∧ l.queued = false
  | .found i _ => ∀ l ∈ w.lookups[i]?, l.pending = true
  | .answer i a => ∀ l ∈ w.lookups[i]?, l.phase = .asking → (a = .inProgress ↔ l.queued = true)
  | _ => True

instance (w : World) : (e : Event) → Decidable (w.Lwip e)
  | .queue i =>
      inferInstanceAs (Decidable (∀ l ∈ w.lookups[i]?, l.phase = .asking ∧ l.queued = false))
  | .found i _ => inferInstanceAs (Decidable (∀ l ∈ w.lookups[i]?, l.pending = true))
  | .answer i a =>
      inferInstanceAs (Decidable (∀ l ∈ w.lookups[i]?, l.phase = .asking →
        (a = .inProgress ↔ l.queued = true)))
  | .tick _ => inferInstanceAs (Decidable True)
  | .getHostByName _ _ _ _ _ => inferInstanceAs (Decidable True)
  | .take _ => inferInstanceAs (Decidable True)
  | .turn _ => inferInstanceAs (Decidable True)

def start (now : Nat) : World := { now := now }

def exec (now : Nat) (run : List Event) : World := run.foldl step (start now)

end World
end QNEthernet.Dns
