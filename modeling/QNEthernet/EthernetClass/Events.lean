import QNEthernet.EthernetClass.Model

/-! The interface flags and the events of `netif.c`, and what `EthernetClass` passes on to its listeners. -/

namespace QNEthernet.EthernetClass

/-- `netif_nsc_reason_t` with the arguments of the events that have any. -/
structure Reason where
  netifAdded : Bool := false
  netifRemoved : Bool := false
  linkChanged : Option Bool := none
  statusChanged : Option Bool := none
  addressChanged : Bool := false
  netmaskChanged : Bool := false
  gatewayChanged : Bool := false
  settingsChanged : Bool := false
  addrValid : Bool := false
  deriving DecidableEq

namespace Reason

def ipv4Changed (r : Reason) : Bool := r.settingsChanged || r.addressChanged || r.netmaskChanged || r.gatewayChanged

end Reason

/-- A call of a listener. -/
inductive Heard where
  | linkState (flag : Bool)
  | addressChanged
  | interfaceStatus (flag : Bool)
  deriving DecidableEq

/-- What `netifEventFunc` goes on to call, in its order. -/
def Reason.listeners (r : Reason) : List Heard :=
  (r.linkChanged.map Heard.linkState).toList ++ (if r.ipv4Changed then [.addressChanged] else []) ++
    (r.statusChanged.map Heard.interfaceStatus).toList

/-- An event of the interface that `EthernetClass` has, and how the interface was at it. -/
structure Told where
  reason : Reason
  up : Bool
  linkUp : Bool
  ipAddr : IpAddress
  netmask : IpAddress
  gw : IpAddress
  deriving DecidableEq

/-- The state with the flags of the interface, and all events so far, the latest first. `extCallback` says whether
`netifEventFunc` is registered. -/
structure Listened where
  s : State
  up : Bool := false
  linkUp : Bool := false
  extCallback : Bool := false
  told : List Told := []
  deriving DecidableEq

namespace Listened

section Lwip

/-- Events of another interface than `netif_` are ignored, also when it is not set. -/
def netifEventFunc (reason : Reason) (w : Listened) : Listened :=
  if !w.s.netif then w
  else
    { w with told := ⟨reason, w.up, w.linkUp, w.s.sNetif.ipAddr, w.s.sNetif.netmask, w.s.sNetif.gw⟩ :: w.told }

def netifInvokeExtCallback (reason : Reason) (w : Listened) : Listened :=
  if w.extCallback then w.netifEventFunc reason else w

/-- An address that is there is told again even if nothing has changed. -/
def netifSetAddr (ip mask gateway : IpAddress) (w : Listened) : Listened :=
  let addressChanged := ip != w.s.sNetif.ipAddr
  let netmaskChanged := mask != w.s.sNetif.netmask
  let gatewayChanged := gateway != w.s.sNetif.gw
  let settingsChanged := addressChanged || netmaskChanged || gatewayChanged
  let addrValid := ip != 0
  let w := { w with s := w.s.netifSetAddr ip mask gateway }
  if settingsChanged || addrValid then
    w.netifInvokeExtCallback { addressChanged, netmaskChanged, gatewayChanged, settingsChanged, addrValid }
  else w

def netifSetIpaddr (ip : IpAddress) (w : Listened) : Listened :=
  let changed := ip != w.s.sNetif.ipAddr
  let w := { w with s := { w.s with sNetif := { w.s.sNetif with ipAddr := ip } } }
  if changed then w.netifInvokeExtCallback { addressChanged := true } else w

def netifSetNetmask (mask : IpAddress) (w : Listened) : Listened :=
  let changed := mask != w.s.sNetif.netmask
  let w := { w with s := { w.s with sNetif := { w.s.sNetif with netmask := mask } } }
  if changed then w.netifInvokeExtCallback { netmaskChanged := true } else w

def netifSetGw (gateway : IpAddress) (w : Listened) : Listened :=
  let changed := gateway != w.s.sNetif.gw
  let w := { w with s := { w.s with sNetif := { w.s.sNetif with gw := gateway } } }
  if changed then w.netifInvokeExtCallback { gatewayChanged := true } else w

def netifSetUp (w : Listened) : Listened :=
  if !w.up then { w with up := true }.netifInvokeExtCallback { statusChanged := some true } else w

/-- The flag is cleared only after the event. -/
def netifSetDown (w : Listened) : Listened :=
  if w.up then { w.netifInvokeExtCallback { statusChanged := some false } with up := false } else w

def netifSetLinkUp (w : Listened) : Listened :=
  if !w.linkUp then { w with linkUp := true }.netifInvokeExtCallback { linkChanged := some true } else w

def netifSetLinkDown (w : Listened) : Listened :=
  if w.linkUp then { w with linkUp := false }.netifInvokeExtCallback { linkChanged := some false } else w

def netifSetLink (flag : Bool) (w : Listened) : Listened := if flag then w.netifSetLinkUp else w.netifSetLinkDown

def netifAdd (w : Listened) : Listened :=
  { w with s := w.s.addNetif, up := false, linkUp := false }.netifInvokeExtCallback { netifAdded := true }

def netifRemove (w : Listened) : Listened := (w.netifInvokeExtCallback { netifRemoved := true }).netifSetDown

def dhcpStart (o : Outcomes) (w : Listened) : Bool × Listened := ((w.s.dhcpStart o).1, { w with s := (w.s.dhcpStart o).2 })

def dhcpReleaseAndStop (w : Listened) : Listened :=
  let stopped := { w with s := { w.s with sNetif := { w.s.sNetif with dhcp := .off } } }
  if w.s.sNetif.dhcp = .supplied then stopped.netifSetAddr 0 0 0 else stopped

end Lwip

section Driver

def removeNetif (w : Listened) : Listened :=
  if w.s.isNetifAdded then
    let w := w.netifRemove
    { w with s := w.s.removeNetif, extCallback := false }
  else w

def prepare (mac : Mac) (w : Listened) : Listened :=
  if w.s.isFirstInit then { w with s := { w.s with isFirstInit := false } }
  else if w.s.sMac ≠ mac then w.removeNetif else w

def attach (w : Listened) : Listened :=
  if !w.s.isNetifAdded then { w with extCallback := true }.netifAdd else { w with s := w.s.attach }

def init (b : Board) (mac : Mac) (o : Outcomes) (w : Listened) : Bool × Listened :=
  if !o.driverInit then (false, w)
  else
    let w := w.prepare mac
    if !o.setMac then (false, w)
    else
      let w := { w with s := w.s.setMac b mac }
      if !o.getMac then (false, w)
      else (true, { w with s := { w.s with sMac := w.s.driverMac } }.attach)

def deinit (w : Listened) : Listened := { w with s := { w.s with sMac := Vector.replicate 6 0 } }.removeNetif

end Driver

def setNetif (flag : Bool) (w : Listened) : Listened := { w with s := { w.s with netif := flag } }

def start (b : Board) (o : Outcomes) (w : Listened) : Bool × Listened :=
  if !o.hasHardware then (false, w)
  else
    let w := if w.s.netif then w.netifSetLinkDown.netifSetDown else w
    let w := { w with s := { w.s with netif := true }.ensureMac b }
    match w.init b (w.s.macAddress b) o with
    | (false, w) => (false, w.setNetif false)
    | (true, w) =>
        if !o.getMacAgain then (false, w.deinit.setNetif false)
        else (true, { w with s := { w.s with mac := some w.s.driverMac } }.netifSetUp)

def maybeStartDhcp (o : Outcomes) (w : Listened) : Bool × Listened :=
  ((w.s.maybeStartDhcp o).1, { w with s := (w.s.maybeStartDhcp o).2 })

def stopDhcp (w : Listened) : Listened :=
  if w.s.dhcpActive then
    let w := w.dhcpReleaseAndStop
    { w with s := { w.s with dhcpActive := false } }
  else w

/-- `begin(ip, mask, gateway)`, with or without a DNS server. -/
def begin (b : Board) (ip mask gateway : IpAddress) (o : Outcomes) (w : Listened) : Bool × Listened :=
  let w := if w.s.netif ∧ ip ≠ 0 then w.stopDhcp else w
  match w.start b o with
  | (false, w) => (false, w)
  | (true, w) => (w.netifSetAddr ip mask gateway).maybeStartDhcp o

def beginMac (b : Board) (mac : Option Mac) (ip gateway subnet : IpAddress) (o : Outcomes) (w : Listened) :
    Bool × Listened :=
  let m2 := w.s.macAddress b
  match { w with s := { w.s with mac := some (State.resolve b mac) } }.begin b ip subnet gateway o with
  | (false, w) => (false, { w with s := { w.s with mac := some m2 } })
  | (true, w) => (true, w)

def setMacAddress (b : Board) (mac : Option Mac) (o : Outcomes) (w : Listened) : Listened :=
  let w := if mac.isNone then { w with s := w.s.ensureMac b } else w
  if w.s.mac = some (State.resolve b mac) then w
  else
    let w := { w with s := { w.s with mac := some (State.resolve b mac) } }
    if !w.s.netif then w
    else
      match w.stopDhcp.start b o with
      | (false, w) => w
      | (true, w) => (w.maybeStartDhcp o).2

def setDhcpEnabled (flag : Bool) (o : Outcomes) (w : Listened) : Bool × Listened :=
  let w := { w with s := { w.s with dhcpEnabled := flag } }
  if !w.s.netif then (true, w)
  else if flag then
    if w.s.dhcpDesired ∧ !w.s.dhcpActive then
      let (ok, w) := w.dhcpStart o
      (ok, { w with s := { w.s with dhcpActive := ok } })
    else (true, w)
  else (true, w.stopDhcp)

def endEthernet (w : Listened) : Listened :=
  if !w.s.netif then w
  else
    let w := if w.s.dhcpActive then w.stopDhcp else w.netifSetAddr 0 0 0
    let w := { w with s := { w.s with dhcpDesired := false } }
    w.netifSetLinkDown.netifSetDown.deinit.setNetif false

def dhcp (w : Listened) : DhcpEvent → Listened
  | .supply ip mask gateway =>
      if w.s.isNetifAdded ∧ w.s.sNetif.dhcp ≠ .off ∧ ip ≠ 0 then
        let w := w.netifSetAddr ip mask gateway
        { w with s := { w.s with sNetif := { w.s.sNetif with dhcp := .supplied } } }
      else w
  | .lose =>
      if w.s.isNetifAdded ∧ w.s.sNetif.dhcp = .supplied then
        let w := w.netifSetAddr 0 0 0
        { w with s := { w.s with sNetif := { w.s.sNetif with dhcp := .searching } } }
      else w

/-- `begin(mac, timeout)`: waits for an address. -/
def beginMacTimeout (b : Board) (mac : Option Mac) (waited : List DhcpEvent) (o : Outcomes) (w : Listened) :
    Bool × Listened :=
  match w.beginMac b mac inaddrNone inaddrNone inaddrNone o with
  | (false, w) => (false, w)
  | (true, w) =>
      let w := waited.foldl dhcp w
      (w.s.sNetif.ipAddr ≠ 0, w)

/-- What a call answers, and the state it leaves. -/
def call (b : Board) (w : Listened) (c : Call) : Bool × Listened :=
  match c.op with
  | .begin => w.begin b inaddrNone inaddrNone inaddrNone c.outcomes
  | .beginIp ip mask gateway => w.begin b ip mask gateway c.outcomes
  | .beginMacTimeout mac waited => w.beginMacTimeout b mac waited c.outcomes
  | .beginMacIp mac ip => w.beginMac b mac ip (firstHost ip) classC c.outcomes
  | .beginMacGateway mac ip gateway => w.beginMac b mac ip gateway classC c.outcomes
  | .beginMacSubnet mac ip gateway subnet => w.beginMac b mac ip gateway subnet c.outcomes
  | .setMacAddress mac => (true, w.setMacAddress b mac c.outcomes)
  | .setDhcpEnabled flag => w.setDhcpEnabled flag c.outcomes
  | .endEthernet => (true, w.endEthernet)
  | .dhcp event => (true, w.dhcp event)

/-! ## What the program sees -/

def linkState (w : Listened) : Bool := w.s.netif && w.linkUp

def interfaceStatus (w : Listened) : Bool := w.s.netif && w.up

/-- Every call of a listener so far, the latest first. -/
def heard (w : Listened) : List Heard := w.told.flatMap fun t => t.reason.listeners.reverse

end Listened

/-- The calls of `Call`, the other calls that set an address or the link, and what the driver finds out about the link. -/
inductive Happening where
  | call (c : Call)
  | setLocalIp (ip : IpAddress)
  | setSubnetMask (mask : IpAddress)
  | setGatewayIp (gateway : IpAddress)
  | setLinkState (flag : Bool)
  | driverPoll (link : Bool)

namespace Listened

def step (b : Board) (w : Listened) : Happening → Listened
  | .call c => (w.call b c).2
  | .setLocalIp ip => if !w.s.netif then w else w.netifSetIpaddr ip
  | .setSubnetMask mask => if !w.s.netif then w else w.netifSetNetmask mask
  | .setGatewayIp gateway => if !w.s.netif then w else w.netifSetGw gateway
  | .setLinkState flag => if !w.s.netif then w else w.netifSetLink flag
  | .driverPoll link => w.netifSetLink link

def boot (driverMac : Mac) : Listened := { s := State.boot driverMac }

end Listened
end QNEthernet.EthernetClass
