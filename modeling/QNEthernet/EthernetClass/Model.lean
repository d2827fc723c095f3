import QNEthernet.Lib.Run

/-! `QNEthernet.cpp` and the interface part of `lwip_driver.cpp`: starting and stopping the interface,
its MAC address, and the DHCP client. DNS settings, the host name and the callbacks are left out. -/

namespace QNEthernet.EthernetClass

abbrev Mac := Vector UInt8 6

/-- An address as `IPAddress` keeps it, the first octet in the lowest bits. -/
abbrev IpAddress := UInt32

def inaddrNone : IpAddress := 0
def classC : IpAddress := 0x00ffffff

/-- The address in the same `/24` that ends in 1. -/
def firstHost (ip : IpAddress) : IpAddress := (ip &&& classC) ||| 0x01000000

/-- What the lwIP client does: nothing, look for an address, or keep one. -/
inductive DhcpState where
  | off | searching | supplied
  deriving DecidableEq, Repr

/-- `struct netif`, as far as it is used here. -/
structure Netif where
  hwaddr : Mac := Vector.replicate 6 0
  ipAddr : IpAddress := 0
  netmask : IpAddress := 0
  gw : IpAddress := 0
  dhcp : DhcpState := .off
  deriving DecidableEq

/-- The driver's chip. `settable` says whether `set_mac` changes the address. -/
structure Board where
  systemMac : Mac
  settable : Bool := true

/-- The fields of `EthernetClass`, the static variables of `lwip_driver.cpp`, and the address that the
driver's chip uses. `netif` says whether `netif_` is set. -/
structure State where
  mac : Option Mac := none
  netif : Bool := false
  dhcpEnabled : Bool := true
  dhcpDesired : Bool := false
  dhcpActive : Bool := false
  sMac : Mac := Vector.replicate 6 0
  sNetif : Netif := {}
  isNetifAdded : Bool := false
  isFirstInit : Bool := true
  driverMac : Mac := Vector.replicate 6 0
  deriving DecidableEq

/-- What the fallible steps of a call answer, in the order they are taken. -/
structure Outcomes where
  hasHardware : Bool := true
  driverInit : Bool := true
  setMac : Bool := true
  getMac : Bool := true
  getMacAgain : Bool := true
  dhcpStart : Bool := true
  deriving DecidableEq

namespace State

section Lwip

def netifSetAddr (s : State) (ip mask gateway : IpAddress) : State :=
  { s with sNetif := { s.sNetif with ipAddr := ip, netmask := mask, gw := gateway } }

def dhcpStart (o : Outcomes) (s : State) : Bool × State :=
  (o.dhcpStart,
    { s with sNetif := { s.sNetif with dhcp := if o.dhcpStart then .searching else .off } })

def dhcpReleaseAndStop (s : State) : State :=
  let stopped := { s with sNetif := { s.sNetif with dhcp := .off } }
  if s.sNetif.dhcp = .supplied then stopped.netifSetAddr 0 0 0 else stopped

end Lwip

section Driver

/-- Removing the interface leaves its fields as they are. -/
def removeNetif (s : State) : State := { s with isNetifAdded := false }

/-- `netif_add` clears the addresses, and `init_netif` sets the MAC address and a new DHCP client. It
does not fail: the interface and its init function are there. -/
def addNetif (s : State) : State :=
  { s with sNetif := { hwaddr := s.sMac }, isNetifAdded := true }

def setMac (b : Board) (mac : Mac) (s : State) : State :=
  { s with driverMac := if b.settable then mac else s.driverMac }

/-- Removes the interface when the address has changed. -/
def prepare (mac : Mac) (s : State) : State :=
  if s.isFirstInit then { s with isFirstInit := false }
  else if s.sMac ≠ mac then s.removeNetif else s

/-- Adds the interface, or just sets its address. -/
def attach (s : State) : State :=
  if !s.isNetifAdded then s.addNetif else { s with sNetif := { s.sNetif with hwaddr := s.sMac } }

def init (b : Board) (mac : Mac) (o : Outcomes) (s : State) : Bool × State :=
  if !o.driverInit then (false, s)
  else
    let s := s.prepare mac
    if !o.setMac then (false, s)
    else
      let s := s.setMac b mac
      if !o.getMac then (false, s)
      else (true, { s with sMac := s.driverMac }.attach)

def deinit (s : State) : State := { s with sMac := Vector.replicate 6 0 }.removeNetif

end Driver

/-- `macAddress()` first ensures that there is a value. -/
def macAddress (b : Board) (s : State) : Mac := s.mac.getD b.systemMac

def ensureMac (b : Board) (s : State) : State := { s with mac := some (s.macAddress b) }

def start (b : Board) (o : Outcomes) (s : State) : Bool × State :=
  if !o.hasHardware then (false, s)
  else
    let s := { s with netif := true }.ensureMac b
    match s.init b (s.macAddress b) o with
    | (false, s) => (false, { s with netif := false })
    | (true, s) =>
        if !o.getMacAgain then (false, { s.deinit with netif := false })
        else (true, { s with mac := some s.driverMac })

def maybeStartDhcp (o : Outcomes) (s : State) : Bool × State :=
  let isDhcp := s.sNetif.ipAddr = 0
  if isDhcp ∧ s.dhcpEnabled ∧ !s.dhcpActive then
    let (ok, s) := s.dhcpStart o
    (ok, { s with dhcpActive := ok, dhcpDesired := true })
  else if ¬ isDhcp then (true, { s with dhcpActive := false, dhcpDesired := false })
  else (true, s)

/-- Stops a running client, as the calls do that do not need one. -/
def stopDhcp (s : State) : State :=
  if s.dhcpActive then { s.dhcpReleaseAndStop with dhcpActive := false } else s

/-- `begin(ip, mask, gateway)`, with or without a DNS server. -/
def begin (b : Board) (ip mask gateway : IpAddress) (o : Outcomes) (s : State) : Bool × State :=
  let s := if s.netif ∧ ip ≠ 0 then s.stopDhcp else s
  match s.start b o with
  | (false, s) => (false, s)
  | (true, s) => (s.netifSetAddr ip mask gateway).maybeStartDhcp o

/-- The MAC address that an argument stands for. -/
def resolve (b : Board) (mac : Option Mac) : Mac := mac.getD b.systemMac

/-- `begin(mac, ip, dns, gateway, subnet)`: sets the MAC address, and restores it if it has to. -/
def beginMac (b : Board) (mac : Option Mac) (ip gateway subnet : IpAddress) (o : Outcomes) (s : State) :
    Bool × State :=
  let m2 := s.macAddress b
  match { s with mac := some (resolve b mac) }.begin b ip subnet gateway o with
  | (false, s) => (false, { s with mac := some m2 })
  | (true, s) => (true, s)

def setMacAddress (b : Board) (mac : Option Mac) (o : Outcomes) (s : State) : State :=
  -- Without an argument, an unset address is filled in and equal
  let s := if mac.isNone then s.ensureMac b else s
  if s.mac = some (resolve b mac) then s
  else
    let s := { s with mac := some (resolve b mac) }
    if !s.netif then s
    else
      match s.stopDhcp.start b o with
      | (false, s) => s
      | (true, s) => (s.maybeStartDhcp o).2

def setDhcpEnabled (flag : Bool) (o : Outcomes) (s : State) : Bool × State :=
  let s := { s with dhcpEnabled := flag }
  if !s.netif then (true, s)
  else if flag then
    if s.dhcpDesired ∧ !s.dhcpActive then
      let (ok, s) := s.dhcpStart o
      (ok, { s with dhcpActive := ok })
    else (true, s)
  else (true, s.stopDhcp)

def endEthernet (s : State) : State :=
  if !s.netif then s
  else
    let s := if s.dhcpActive then s.stopDhcp else s.netifSetAddr 0 0 0
    { { s with dhcpDesired := false }.deinit with netif := false }

end State

inductive DhcpEvent where
  | supply (ip mask gateway : IpAddress)
  | lose
  deriving DecidableEq

def State.dhcp (s : State) : DhcpEvent → State
  | .supply ip mask gateway =>
      if s.isNetifAdded ∧ s.sNetif.dhcp ≠ .off ∧ ip ≠ 0 then
        let s := s.netifSetAddr ip mask gateway
        { s with sNetif := { s.sNetif with dhcp := .supplied } }
      else s
  | .lose =>
      if s.isNetifAdded ∧ s.sNetif.dhcp = .supplied then
        let s := s.netifSetAddr 0 0 0
        { s with sNetif := { s.sNetif with dhcp := .searching } }
      else s

/-- The public calls, and the steps of the DHCP client between them. -/
inductive Op where
  | begin
  | beginIp (ip mask gateway : IpAddress)
  | beginMacTimeout (mac : Option Mac) (waited : List DhcpEvent)
  | beginMacIp (mac : Option Mac) (ip : IpAddress)
  | beginMacGateway (mac : Option Mac) (ip gateway : IpAddress)
  | beginMacSubnet (mac : Option Mac) (ip gateway subnet : IpAddress)
  | setMacAddress (mac : Option Mac)
  | setDhcpEnabled (flag : Bool)
  | endEthernet
  | dhcp (event : DhcpEvent)
  deriving DecidableEq

structure Call where
  op : Op
  outcomes : Outcomes := {}

namespace Op

/-- The address that a `begin` call sets, and the MAC address it is given. -/
def begins (b : Board) (s : State) : Op → Option (IpAddress × Mac)
  | .begin => some (inaddrNone, s.macAddress b)
  | .beginIp ip _ _ => some (ip, s.macAddress b)
  | .beginMacTimeout mac _ => some (inaddrNone, State.resolve b mac)
  | .beginMacIp mac ip => some (ip, State.resolve b mac)
  | .beginMacGateway mac ip _ => some (ip, State.resolve b mac)
  | .beginMacSubnet mac ip _ _ => some (ip, State.resolve b mac)
  | _ => none

end Op

namespace State

/-- `begin(mac, timeout)`: waits for an address. -/
def beginMacTimeout (b : Board) (mac : Option Mac) (waited : List DhcpEvent) (o : Outcomes) (s : State) :
    Bool × State :=
  match s.beginMac b mac inaddrNone inaddrNone inaddrNone o with
  | (false, s) => (false, s)
  | (true, s) =>
      let s := waited.foldl dhcp s
      (s.sNetif.ipAddr ≠ 0, s)

/-- What a call answers, and the state it leaves. -/
def call (b : Board) (s : State) (c : Call) : Bool × State :=
  match c.op with
  | .begin => s.begin b inaddrNone inaddrNone inaddrNone c.outcomes
  | .beginIp ip mask gateway => s.begin b ip mask gateway c.outcomes
  | .beginMacTimeout mac waited => s.beginMacTimeout b mac waited c.outcomes
  | .beginMacIp mac ip => s.beginMac b mac ip (firstHost ip) classC c.outcomes
  | .beginMacGateway mac ip gateway => s.beginMac b mac ip gateway classC c.outcomes
  | .beginMacSubnet mac ip gateway subnet => s.beginMac b mac ip gateway subnet c.outcomes
  | .setMacAddress mac => (true, s.setMacAddress b mac c.outcomes)
  | .setDhcpEnabled flag => s.setDhcpEnabled flag c.outcomes
  | .endEthernet => (true, s.endEthernet)
  | .dhcp event => (true, s.dhcp event)

def step (b : Board) (s : State) (c : Call) : State := (s.call b c).2

/-- Nothing was called yet; the chip has some MAC address. -/
def boot (driverMac : Mac) : State := { driverMac := driverMac }

def exec (b : Board) (driverMac : Mac) (calls : List Call) : State :=
  calls.foldl (step b) (boot driverMac)

end State
end QNEthernet.EthernetClass
