import QNEthernet.Lib.Run
import QNEthernet.Lwip.Pbuf

/-! `event.cpp`, `join.cpp` and the polling half of `driver_CYW4343W.cpp`: the event handler chain, the
link word, and the state machine that joins a network. -/

namespace QNEthernet.Drivers.Cyw43

open Lwip

def sdpcmChanEvt : BitVec 32 := 1
def wlcEDisassocInd : BitVec 32 := 12
def wlcELink : BitVec 32 := 16
def wlcEPskSup : BitVec 32 := 46

def linkUpOk : BitVec 16 := 1
def linkAuthOk : BitVec 16 := 2
def linkOk : BitVec 16 := linkUpOk + linkAuthOk
def linkFail : BitVec 16 := 4

def joinIdle : BitVec 32 := 0
def joinJoining : BitVec 32 := 1
def joinOk : BitVec 32 := 2
def joinFail : BitVec 32 := 3

def joinTryUsec : BitVec 32 := 10000000
def joinRetryUsec : BitVec 32 := 10000000
def eventPollUsec : BitVec 32 := 100000

/-- `EVENT_INFO`, without the pointer to the data. -/
structure EventInfo where
  chan : BitVec 32 := 0
  eventType : BitVec 32 := 0
  status : BitVec 32 := 0
  reason : BitVec 32 := 0
  flags : BitVec 16 := 0
  link : BitVec 16 := 0
  join : BitVec 32 := 0
  dlen : Nat := 0
  serverPort : BitVec 16 := 0
  sock : Int := 0
  deriving DecidableEq

/-- `Join::join_event_handler`. Nothing sets `news` for a frame of another channel: `stack` is what the
variable then holds. -/
def joinEventHandler (stack : BitVec 16) (eip : EventInfo) : Int × EventInfo :=
  if eip.chan = sdpcmChanEvt then
    if eip.eventType = wlcELink ∧ eip.status = 0 then
      (1, { eip with
        link := if eip.flags &&& 1 ≠ 0 then eip.link ||| linkUpOk else eip.link &&& ~~~linkUpOk })
    else if eip.eventType = wlcEPskSup then
      (1, { eip with
        link := if eip.status = 6 then eip.link ||| linkAuthOk else eip.link &&& ~~~linkAuthOk })
    else if eip.eventType = wlcEDisassocInd then (1, { eip with link := linkFail })
    else (0, eip)
  else (0, { eip with link := stack })

/-- A handler of other code looks at the event and answers. -/
inductive Handler where
  | join
  | other (answer : EventInfo → Int)

def Handler.run (stack : BitVec 16) (eip : EventInfo) : Handler → Int × EventInfo
  | .join => joinEventHandler stack eip
  | .other answer => (answer eip, eip)

/-- `event_ports` and `event_handlers`, as far as they are filled. -/
abbrev Chain := List (BitVec 16 × Handler)

/-- `Event::event_handle`: what the handlers that ran returned, in their order. -/
def eventHandle (stack : Nat → BitVec 16) : Chain → EventInfo → List Int × EventInfo
  | [], eip => ([], eip)
  | (port, handler) :: rest, eip =>
      let (ret, eip) := handler.run (stack 0) { eip with serverPort := port }
      if ret ≠ 0 then ([ret], eip)
      else
        let (rets, eip) := eventHandle (fun i => stack (i + 1)) rest eip
        (ret :: rets, eip)

def swap16 (x : BitVec 16) : BitVec 16 := (x &&& 0xff) <<< 8 ||| (x &&& 0xff00) >>> 8

def swap32 (x : BitVec 32) : BitVec 32 :=
  (x &&& 0xff) <<< 24 ||| (x &&& 0xff00) <<< 8 ||| (x &&& 0xff0000) >>> 8 |||
    (x &&& 0xff000000) >>> 24

def load16 (buf : List Byte) (i : Nat) : BitVec 16 :=
  (buf.getD (i + 1) 0).toBitVec ++ (buf.getD i 0).toBitVec

def load32 (buf : List Byte) (i : Nat) : BitVec 32 := load16 buf (i + 2) ++ load16 buf i

/-- What `ioctl_get_event` left behind: the length it returned, the channel of the header, and
`eventbuf`, which may end in older bytes. -/
structure Polled where
  n : Nat
  chan : Byte
  eventbuf : List Byte
  stack : Nat → BitVec 16 := fun _ => 0

/-- The fields of `EVENT_INFO` that are read from the frame: `ETH_EVENT_FRAME` has 10 bytes of padding,
two headers of 14 and 10 bytes and the message. -/
def Polled.info (p : Polled) (eip : EventInfo) : EventInfo :=
  { eip with
    chan := p.chan.toBitVec.zeroExtend 32
    flags := swap16 (load16 p.eventbuf 36)
    eventType := swap32 (load32 p.eventbuf 38)
    status := swap32 (load32 p.eventbuf 42)
    reason := swap32 (load32 p.eventbuf 46)
    dlen := p.n
    sock := -1 }

def pollEvents (chain : Chain) (got : Option Polled) (eip : EventInfo) : List Int × EventInfo :=
  match got with
  | some p => if 0 < p.n then eventHandle p.stack chain (p.info eip) else ([], eip)
  | none => ([], eip)

def linkCheck (eip : EventInfo) : Int :=
  if eip.link &&& linkOk = linkOk then 1 else if eip.link = linkFail then -1 else 0

def joinCheck (eip : EventInfo) : Int :=
  if eip.join &&& joinOk = joinOk then 2 else if eip.join = joinFail then -1 else 0

/-- `driver::get_mac`: whether it gives an address. -/
def getMac (eip : EventInfo) : Bool := joinCheck eip == 2

/-- `W4343WCard::ustimeout` at the time `now`: its answer and the new `*tickp`. -/
def ustimeout (tick now usec : BitVec 32) : Bool × BitVec 32 :=
  if usec = 0 ∨ usec ≤ now - tick then (true, now) else (false, tick)

structure Station where
  eip : EventInfo := {}
  joinTicks : BitVec 32 := 0
  pollTicks : BitVec 32 := 0
  -- The link state of the netif.
  linkUp : Bool := false
  -- The frames that `join_event_handler` has seen since the link word was reset.
  heard : List EventInfo := []

namespace Station

/-- Did `join_event_handler` get this frame? -/
def joinRan (chain : Chain) (returned : List Int) : Bool :=
  (chain.take returned.length).any fun entry => match entry.2 with | .join => true | .other _ => false

def pollEvents (chain : Chain) (got : Option Polled) (s : Station) : Station :=
  let (returned, eip) := Cyw43.pollEvents chain got s.eip
  match got with
  | some p =>
      { s with
        eip := eip
        heard := if joinRan chain returned then s.heard ++ [p.info s.eip] else s.heard }
  | none => { s with eip := eip }

/-- Does a poll at `now` give up on the network? A failed link is not timed. -/
def givesUp (s : Station) (now : BitVec 32) : Bool :=
  linkCheck s.eip < 0 || (ustimeout s.joinTicks now joinTryUsec).1

/-- `Join::join_state_poll`. `now` and `later` are what `micros` returns in it. -/
def joinStatePoll (now later : BitVec 32) (s : Station) : Station :=
  if s.eip.join = joinIdle then
    { s with
      eip := { s.eip with link := 0, join := joinJoining }
      joinTicks := (ustimeout s.joinTicks now 0).2
      heard := [] }
  else if s.eip.join = joinJoining then
    if linkCheck s.eip > 0 then { s with eip := { s.eip with join := joinOk } }
    else if s.givesUp now then
      { s with
        eip := { s.eip with join := joinFail }
        joinTicks := (ustimeout s.joinTicks later 0).2 }
    else s
  else if s.eip.join = joinOk then
    let s := { s with joinTicks := (ustimeout s.joinTicks now 0).2 }
    if linkCheck s.eip < 1 then { s with eip := { s.eip with join := joinFail } } else s
  else
    let (expired, ticks) := ustimeout s.joinTicks now joinRetryUsec
    if expired then { s with joinTicks := ticks, eip := { s.eip with join := joinIdle } }
    else { s with joinTicks := ticks }

/-- One `driver::poll`: what `micros` returns to it, and what its `pollEvents` gets. -/
structure Poll where
  start : BitVec 32
  got : Option Polled := none
  now : BitVec 32
  later : BitVec 32
  done : BitVec 32

def due (s : Station) (p : Poll) : Bool := (ustimeout s.pollTicks p.start eventPollUsec).1

def poll (chain : Chain) (p : Poll) (s : Station) : Station :=
  let s :=
    if s.due p then
      { (s.pollEvents chain p.got).joinStatePoll p.now p.later with
        pollTicks := (ustimeout s.pollTicks p.done 0).2 }
    else s
  let linkState := joinCheck s.eip != 0
  if s.linkUp ≠ linkState then { s with linkUp := linkState } else s

inductive Call where
  | pollEvents (got : Option Polled)
  | joinStatePoll (now later : BitVec 32)
  | poll (p : Poll)

def step (chain : Chain) (s : Station) : Call → Station
  | .pollEvents got => s.pollEvents chain got
  | .joinStatePoll now later => s.joinStatePoll now later
  | .poll p => s.poll chain p

end Station
end QNEthernet.Drivers.Cyw43
