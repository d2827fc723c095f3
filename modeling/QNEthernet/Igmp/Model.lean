import QNEthernet.EthernetClass.Model

/-! The multicast groups of the interface, as `igmp.c` has them. -/

namespace QNEthernet.Igmp

open EthernetClass (IpAddress)

def allsystems : IpAddress := 0x010000e0

def isMulticast (addr : IpAddress) : Bool := addr &&& 0x000000f0 = 0x000000e0

def igmpJoinDelayingMemberTmr : Nat := 5

def igmpV1DelayingMemberTmr : Nat := 10

def mempNumIgmpGroup : Nat := 9

inductive GroupState where
  | nonMember
  | delayingMember
  | idleMember
  deriving DecidableEq

/-- `igmp_group`, whose counter of uses has 8 bits. The timer counts down while it is not zero. -/
structure Group where
  groupAddress : IpAddress
  lastReporterFlag : Bool := false
  groupState : GroupState := .nonMember
  timer : Nat := 0
  use : UInt8 := 0
  deriving DecidableEq

/-- What `igmp_send` has sent. -/
inductive Message where
  | membReport (group : IpAddress)
  | leaveGroup (group : IpAddress)
  deriving DecidableEq

/-- The list of groups, with the calls of `igmp_mac_filter` and the messages so far, the latest first. -/
structure Netif where
  groups : List Group := []
  macFilter : List (IpAddress × Bool) := []
  sent : List Message := []
  aborted : Bool := false
  deriving DecidableEq

inductive Err where
  | ok
  | mem
  | val
  deriving DecidableEq

/-- What is in a message, past its length and its checksum. -/
inductive MsgType where
  | membQuery
  | v2MembReport
  | other
  deriving DecidableEq

namespace Group

def addUse (group : Group) : Group := { group with use := group.use + 1 }

def dropUse (group : Group) : Group := { group with use := group.use - 1 }

def igmpStartTimer (maxTime rand : Nat) (group : Group) : Group :=
  let timer := if maxTime > 2 then rand % maxTime else 1
  { group with timer := if timer = 0 then 1 else timer }

def igmpDelayingMember (maxresp rand : Nat) (group : Group) : Group :=
  if group.groupState = .idleMember ∨
      group.groupState = .delayingMember ∧ (group.timer = 0 ∨ maxresp < group.timer) then
    { group.igmpStartTimer maxresp rand with groupState := .delayingMember }
  else group

/-- What happens to the group in `igmp_input` when another host has reported it. -/
def reported (group : Group) : Group :=
  if group.groupState = .delayingMember then
    { group with timer := 0, groupState := .idleMember, lastReporterFlag := false }
  else group

/-- `memory` says whether there is a packet buffer to send the report in. -/
def igmpTimeout (memory : Bool) (group : Group) : Group × List Message :=
  if group.groupState = .delayingMember ∧ group.groupAddress ≠ allsystems then
    if memory then
      ({ group with groupState := .idleMember, lastReporterFlag := true }, [.membReport group.groupAddress])
    else ({ group with groupState := .idleMember }, [])
  else (group, [])

/-- What `igmp_tmr` does to a group. -/
def tmr (memory : Bool) (group : Group) : Group × List Message :=
  if group.timer > 0 then
    let group := { group with timer := group.timer - 1 }
    if group.timer = 0 then group.igmpTimeout memory else (group, [])
  else (group, [])

end Group

/-- The first group of the address is changed. -/
def update (addr : IpAddress) (f : Group → Group) : List Group → List Group
  | [] => []
  | group :: next => if group.groupAddress = addr then f group :: next else group :: update addr f next

namespace Netif

def igmpLookforGroup (addr : IpAddress) (n : Netif) : Option Group := n.groups.find? (·.groupAddress = addr)

/-- A new group goes after the first one, which has to be that of all systems. -/
def igmpLookupGroup (addr : IpAddress) (n : Netif) : Option Group × Netif :=
  match n.igmpLookforGroup addr with
  | some group => (some group, n)
  | none =>
      if n.groups.length ≥ mempNumIgmpGroup then (none, n)
      else
        let group : Group := { groupAddress := addr }
        match n.groups with
        | [] => (some group, { n with groups := [group], aborted := n.aborted || addr != allsystems })
        | first :: next =>
            (some group, { n with groups := first :: group :: next, aborted := n.aborted || addr == allsystems })

def igmpMacFilter (addr : IpAddress) (action : Bool) (n : Netif) : Netif :=
  { n with macFilter := (addr, action) :: n.macFilter }

/-- The first group stays. -/
def igmpRemoveGroup (addr : IpAddress) (n : Netif) : Netif :=
  match n.groups with
  | [] => n
  | first :: next => { n with groups := first :: next.eraseP (·.groupAddress = addr) }

def igmpStart (n : Netif) : Err × Netif :=
  match n.igmpLookupGroup allsystems with
  | (none, n) => (.mem, n)
  | (some _, n) =>
      let member (group : Group) : Group := { group with groupState := .idleMember }.addUse
      (.ok, { n with groups := update allsystems member n.groups }.igmpMacFilter allsystems true)

def igmpStop (n : Netif) : Netif :=
  n.groups.foldl (fun n group => n.igmpMacFilter group.groupAddress false) { n with groups := [] }

def delayAll (maxresp : Nat) (rand : IpAddress → Nat) (n : Netif) : Netif :=
  match n.groups with
  | [] => n
  | first :: next =>
      { n with groups := first :: next.map fun group => group.igmpDelayingMember maxresp (rand group.groupAddress) }

def igmpReportGroups (rand : IpAddress → Nat) (n : Netif) : Netif := n.delayAll igmpJoinDelayingMemberTmr rand

/-- A message to `dest`; a query is general or about `groupAddress`. -/
def igmpInput (dest : IpAddress) (msgtype : MsgType) (maxresp : UInt8) (groupAddress : IpAddress)
    (rand : IpAddress → Nat) (n : Netif) : Netif :=
  match n.igmpLookforGroup dest with
  | none => n
  | some _ =>
      match msgtype with
      | .membQuery =>
          if dest = allsystems ∧ groupAddress = 0 then
            n.delayAll (if maxresp = 0 then igmpV1DelayingMemberTmr else maxresp.toNat) rand
          else if groupAddress ≠ 0 then
            let group := if dest = allsystems then groupAddress else dest
            { n with groups := update group (·.igmpDelayingMember maxresp.toNat (rand group)) n.groups }
          else n
      | .v2MembReport => { n with groups := update dest Group.reported n.groups }
      | .other => n

/-- `igmp_send` of a report. -/
def sendReport (addr : IpAddress) (memory : Bool) (n : Netif) : Netif :=
  if memory then
    { n with
      groups := update addr (fun group => { group with lastReporterFlag := true }) n.groups
      sent := .membReport addr :: n.sent }
  else n

def igmpJoingroupNetif (addr : IpAddress) (memory : Bool) (rand : Nat) (n : Netif) : Err × Netif :=
  if !isMulticast addr ∨ addr = allsystems then (.val, n)
  else
    match n.igmpLookupGroup addr with
    | (none, n) => (.mem, n)
    | (some group, n) =>
        if group.groupState ≠ .nonMember then
          (.ok, { n with groups := update addr Group.addUse n.groups })
        else
          let n := if group.use = 0 then n.igmpMacFilter addr true else n
          let n := n.sendReport addr memory
          let member (group : Group) : Group :=
            { group.igmpStartTimer igmpJoinDelayingMemberTmr rand with groupState := .delayingMember }
          (.ok, { n with groups := update addr (fun group => (member group).addUse) n.groups })

def igmpLeavegroupNetif (addr : IpAddress) (memory : Bool) (n : Netif) : Err × Netif :=
  if !isMulticast addr ∨ addr = allsystems then (.val, n)
  else
    match n.igmpLookforGroup addr with
    | none => (.val, n)
    | some group =>
        if group.use ≤ 1 then
          let n := n.igmpRemoveGroup addr
          let n := if group.lastReporterFlag ∧ memory then { n with sent := .leaveGroup addr :: n.sent } else n
          (.ok, n.igmpMacFilter addr false)
        else (.ok, { n with groups := update addr Group.dropUse n.groups })

def igmpTmr (memory : IpAddress → Bool) (n : Netif) : Netif :=
  { n with
    groups := n.groups.map fun group => (group.tmr (memory group.groupAddress)).1
    sent := (n.groups.flatMap fun group => (group.tmr (memory group.groupAddress)).2).reverse ++ n.sent }

end Netif

/-- `netif_add` and `netif_remove` start and stop, the interface reports when it comes up, a message comes in, the
program joins and leaves, and the timer goes. -/
inductive Op where
  | start
  | stop
  | reportGroups (rand : IpAddress → Nat)
  | input (dest : IpAddress) (msgtype : MsgType) (maxresp : UInt8) (groupAddress : IpAddress) (rand : IpAddress → Nat)
  | join (addr : IpAddress) (memory : Bool) (rand : Nat)
  | leave (addr : IpAddress) (memory : Bool)
  | tmr (memory : IpAddress → Bool)

/-- What is answered, and the state that is left. -/
def Netif.call (n : Netif) : Op → Err × Netif
  | .start => n.igmpStart
  | .stop => (.ok, n.igmpStop)
  | .reportGroups rand => (.ok, n.igmpReportGroups rand)
  | .input dest msgtype maxresp groupAddress rand => (.ok, n.igmpInput dest msgtype maxresp groupAddress rand)
  | .join addr memory rand => n.igmpJoingroupNetif addr memory rand
  | .leave addr memory => n.igmpLeavegroupNetif addr memory
  | .tmr memory => (.ok, n.igmpTmr memory)

def Netif.step (n : Netif) (o : Op) : Netif := if n.aborted then n else (n.call o).2

end QNEthernet.Igmp
