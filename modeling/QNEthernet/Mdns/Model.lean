import QNEthernet.Lib.Slots
import QNEthernet.EthernetClass.Model

/-! `QNMDNS.cpp` and the service table of lwIP's responder, which hangs on the interface. TXT records,
announcements and `errno` are left out. -/

namespace QNEthernet.Mdns

open EthernetClass (Board Mac)

/-- The bytes of a C string before its final zero. -/
abbrev CString := List UInt8

def mdnsMaxServices : Nat := 3
def mdnsLabelMaxlen : Nat := 63

inductive MdnsSdProto where
  | udp | tcp
  deriving DecidableEq, Repr

def tolower (c : UInt8) : UInt8 := if 65 ≤ c ∧ c ≤ 90 then c + 32 else c

/-- `toProto`: "_tcp" in any case, and UDP for all else. -/
def toProto : Option CString → MdnsSdProto
  | some [c0, c1, c2, c3] =>
      if c0 = 95 ∧ tolower c1 = 116 ∧ tolower c2 = 99 ∧ tolower c3 = 112 then .tcp else .udp
  | _ => .udp

/-- `struct mdns_service`, without the TXT function. -/
structure MdnsService where
  name : CString
  service : CString
  proto : MdnsSdProto
  port : UInt16
  deriving DecidableEq

/-- `snprintf` into an array of `MDNS_LABEL_MAXLEN + 1` bytes. -/
def label (s : CString) : CString := s.take mdnsLabelMaxlen

/-- `MDNSClass::Service`. Its names are arrays that end with a zero. -/
structure Service where
  valid : Bool := false
  name : CString := []
  type : CString := []
  proto : MdnsSdProto := .udp
  port : UInt16 := 0
  name_fits : name.length ≤ mdnsLabelMaxlen := by decide
  type_fits : type.length ≤ mdnsLabelMaxlen := by decide

namespace Service

def set (name type : CString) (proto : MdnsSdProto) (port : UInt16) : Service where
  valid := true
  name := label name
  type := label type
  proto := proto
  port := port
  name_fits := List.length_take_le _ _
  type_fits := List.length_take_le _ _

def reset : Service := {}

/-- `strncmp` over the whole array. -/
def sameLabel (s s' : CString) : Bool := s.take (mdnsLabelMaxlen + 1) = s'.take (mdnsLabelMaxlen + 1)

def equals (s : Service) (name type : CString) (proto : MdnsSdProto) (port : UInt16) : Bool :=
  s.valid && sameLabel s.name name && sameLabel s.type type && decide (s.proto = proto) &&
    decide (s.port = port)

def registered (s : Service) : Option MdnsService :=
  if s.valid then some { name := s.name, service := s.type, proto := s.proto, port := s.port } else none

end Service

/-- Which of the fallible steps inside lwIP succeed. -/
structure Outcomes where
  alloc : Bool := true
  joingroup : Bool := true

/-- `host` is the responder's data of the interface, with its services, and `netifAdded` says whether
`netif_` is set. -/
structure World where
  eth : EthernetClass.State
  host : Option (Slots.Table mdnsMaxServices MdnsService) := none
  initialized : Bool := false
  netifAdded : Bool := false
  hostname : CString := []
  slots : Fin mdnsMaxServices → Service := fun _ => {}

namespace World

/-- What lwIP's responder has in the slots of the interface. -/
def services (w : World) : Slots.Table mdnsMaxServices MdnsService := w.host.getD Slots.empty

section Lwip

def respAddNetif (o : Outcomes) (hostname : CString) (w : World) : Bool × World :=
  if mdnsLabelMaxlen < hostname.length then (false, w)
  else if !o.alloc then (false, w)
  -- the data is freed again
  else if !o.joingroup then (false, { w with host := none })
  else (true, { w with host := some Slots.empty })

def respRemoveNetif (w : World) : World := { w with host := none }

def respRenameNetif (hostname : CString) (w : World) : Bool :=
  decide (hostname.length ≤ mdnsLabelMaxlen) && w.host.isSome

/-- `mdns_resp_add_service`: the slot, or none for an error. -/
def respAddService (o : Outcomes) (x : MdnsService) (w : World) : Option Nat × World :=
  match w.host with
  | none => (none, w)
  | some services =>
      if mdnsLabelMaxlen < x.name.length ∨ mdnsLabelMaxlen < x.service.length then (none, w)
      else
        match Slots.firstFree services with
        | none => (none, w)
        | some slot =>
            if !o.alloc then (none, w)
            else
              let srv := { x with name := label x.name, service := label x.service }
              (some slot.val, { w with host := some (Function.update services slot (some srv)) })

def respDelService (slot : Nat) (w : World) : Bool × World :=
  match w.host with
  | none => (false, w)
  | some services =>
      if inside : slot < mdnsMaxServices then
        if (services ⟨slot, inside⟩).isSome then
          (true, { w with host := some (Function.update services ⟨slot, inside⟩ none) })
        else (false, w)
      else (false, w)

end Lwip

def begin (o : Outcomes) (hostname : Option CString) (w : World) : Bool × World :=
  -- `netif_default` is set while the interface is added
  if !w.eth.isNetifAdded then (false, w)
  else
    let w := { w with initialized := true }
    match hostname with
    | none => (false, w)
    | some hostname =>
        if w.netifAdded then
          if w.hostname = hostname then (true, w)
          else if !w.respRenameNetif hostname then (false, w)
          else (true, { w with hostname := label hostname })
        else
          match w.respAddNetif o hostname with
          | (false, w) => (false, w)
          | (true, w) => (true, { w with netifAdded := true, hostname := label hostname })

/-- `end`, which leaves the slots as they are. -/
def endMdns (w : World) : World :=
  if w.netifAdded then { w.respRemoveNetif with netifAdded := false, hostname := [] } else w

def addService (o : Outcomes) (name type protocol : Option CString) (port : UInt16) (w : World) :
    Bool × World :=
  if !w.netifAdded then (false, w)
  else
    match name, type with
    | some name, some type =>
        let proto := toProto protocol
        match w.respAddService o { name := name, service := type, proto := proto, port := port } with
        | (none, w) => (false, w)
        | (some slot, w) =>
            if inside : slot < mdnsMaxServices then
              (true, { w with
                slots := Function.update w.slots ⟨slot, inside⟩ (Service.set name type proto port) })
            else (false, (w.respDelService slot).2)
    | _, _ => (false, w)

def findService (name type : CString) (protocol : Option CString) (port : UInt16) (w : World) :
    Option (Fin mdnsMaxServices) :=
  Fin.find? fun i => (w.slots i).equals name type (toProto protocol) port

def removeService (name type protocol : Option CString) (port : UInt16) (w : World) : Bool × World :=
  if !w.netifAdded then (false, w)
  else
    match name, type with
    | some name, some type =>
        match w.findService name type protocol port with
        | none => (false, w)
        | some slot => { w with slots := Function.update w.slots slot .reset }.respDelService slot.val
    | _, _ => (false, w)

/-- The MAC address with which a call of `EthernetClass` runs `start()`, if it does. -/
def startMac (b : Board) (s : EthernetClass.State) : EthernetClass.Op → Option Mac
  | .setMacAddress mac =>
      let s := if mac.isNone then s.ensureMac b else s
      if s.mac = some (EthernetClass.State.resolve b mac) then none
      else if !s.netif then none
      else some (EthernetClass.State.resolve b mac)
  | op => (op.begins b s).map Prod.snd

/-- The call gets as far as `netif_add`, which clears the client data of the interface. -/
def addsNetif (b : Board) (s : EthernetClass.State) (c : EthernetClass.Call) : Bool :=
  match startMac b s c.op with
  | none => false
  | some mac =>
      c.outcomes.hasHardware && c.outcomes.driverInit && c.outcomes.setMac && c.outcomes.getMac &&
        !(s.prepare mac).isNetifAdded

/-- A call of `EthernetClass`. Its `end` ends mDNS first, if the interface is there. -/
def ethernet (b : Board) (c : EthernetClass.Call) (w : World) : World :=
  let w := if c.op = .endEthernet ∧ w.eth.netif then w.endMdns else w
  { w with eth := w.eth.step b c, host := if addsNetif b w.eth c then none else w.host }

inductive Call where
  | begin (o : Outcomes) (hostname : Option CString)
  | endMdns
  | addService (o : Outcomes) (name type protocol : Option CString) (port : UInt16)
  -- with the host name as the name of the service
  | addServiceHere (o : Outcomes) (type protocol : Option CString) (port : UInt16)
  | removeService (name type protocol : Option CString) (port : UInt16)
  | removeServiceHere (type protocol : Option CString) (port : UInt16)
  | ethernet (c : EthernetClass.Call)

def step (b : Board) (w : World) : Call → World
  | .begin o hostname => (w.begin o hostname).2
  | .endMdns => w.endMdns
  | .addService o name type protocol port => (w.addService o name type protocol port).2
  | .addServiceHere o type protocol port => (w.addService o (some w.hostname) type protocol port).2
  | .removeService name type protocol port => (w.removeService name type protocol port).2
  | .removeServiceHere type protocol port => (w.removeService (some w.hostname) type protocol port).2
  | .ethernet c => w.ethernet b c

def boot (driverMac : Mac) : World := { eth := .boot driverMac }

def exec (b : Board) (driverMac : Mac) (run : List Call) : World := run.foldl (step b) (boot driverMac)

end World
end QNEthernet.Mdns
