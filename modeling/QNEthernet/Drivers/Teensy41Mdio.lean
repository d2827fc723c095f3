import QNEthernet.Drivers.Teensy41
import QNEthernet.Lib.Run

/-! The link check of the Teensy 4.1 driver, over a model of the MDIO interface. A transaction may
complete between any two register accesses the driver makes; writing `MMFR` supersedes it. -/

namespace QNEthernet.Drivers.Teensy41

inductive PhyReg where
  | bmcr | bmsr | physts | ledcr | rcsr
  deriving DecidableEq

def kLedcrValue : BitVec 16 := (1 <<< 9) ||| (1 <<< 7)
def kRcsrValue : BitVec 16 := (1 <<< 7) ||| (1 <<< 0)
def kBmsrLinkStatus : BitVec 16 := 1 <<< 2
def kPhystsSpeedStatus : BitVec 16 := 1 <<< 1
def kPhystsDuplexStatus : BitVec 16 := 1 <<< 2
def kPhystsMdiMdixMode : BitVec 16 := 1 <<< 14
def kBmcrSpeedSelection : BitVec 16 := 1 <<< 13
def kBmcrAutoNegEnable : BitVec 16 := 1 <<< 12
def kBmcrRestartAutoNeg : BitVec 16 := 1 <<< 9
def kBmcrDuplexMode : BitVec 16 := 1 <<< 8

structure LinkInfo where
  speed : Int := 100
  fullNotHalfDuplex : Bool := true
  isCrossover : Bool := false
  deriving DecidableEq

structure LinkSettings where
  speed : Int := 100
  fullNotHalfDuplex : Bool := true
  autoNegotiation : Bool := true
  deriving DecidableEq

inductive Transaction where
  | read (reg : PhyReg)
  | write (reg : PhyReg) (data : BitVec 16)
  deriving DecidableEq

/-- The uses of the interface, each with what is to be read or written. -/
inductive MdioSite where
  | checkBmsr
  | checkPhysts
  | setLinkRead (ls : LinkSettings)
  | setLinkWrite (data : BitVec 16)
  | restartRead
  | restartWrite (data : BitVec 16)
  | resetLedcr
  | resetRcsr
  deriving DecidableEq

inductive MdioPoint where
  | clear | start | test | fetch
  | ack (data : BitVec 16)
  deriving DecidableEq

inductive MdioPc where
  | idle
  | inCall (site : MdioSite) (point : MdioPoint)
  deriving DecidableEq

/-- The data of `MMFR`, and the register it was read from. -/
structure MmfrData where
  value : BitVec 16 := 0
  source : Option PhyReg := none
  deriving DecidableEq

/-- A value that the driver took, and the register it had asked for. -/
structure Fetched where
  asked : PhyReg
  source : Option PhyReg
  deriving DecidableEq

structure Mdio where
  initState : InitStates
  checkLinkStatusState : Nat := 0
  -- The static variables of `check_link_status`
  bmsr : BitVec 16 := 0
  physts : BitVec 16 := 0
  isLinkUp : Bool := false
  linkInfo : LinkInfo := {}
  manualLinkState : Bool := false
  netifIsLinkUp : Bool := false
  -- What `set_link` last returned
  setLinkResult : Option Bool := none
  pc : MdioPc := .idle
  -- The hardware: `EIR::MII`, and the transaction under way
  mii : Bool := false
  outstanding : Option Transaction := none
  mmfr : MmfrData := {}
  -- What has happened so far
  fetched : List Fetched := []
  deriving DecidableEq

namespace MdioSite

def transaction : MdioSite → Transaction
  | .checkBmsr => .read .bmsr
  | .checkPhysts => .read .physts
  | .setLinkRead _ => .read .bmcr
  | .setLinkWrite data => .write .bmcr data
  | .restartRead => .read .bmcr
  | .restartWrite data => .write .bmcr data
  | .resetLedcr => .write .ledcr kLedcrValue
  | .resetRcsr => .write .rcsr kRcsrValue

/-- `mdio_read` and `mdio_write` loop until the transaction is complete. -/
def blocking : MdioSite → Bool
  | .checkBmsr => false
  | .checkPhysts => false
  | _ => true

end MdioSite

namespace Mdio

def goto (s : Mdio) (site : MdioSite) (point : MdioPoint) : Mdio := { s with pc := .inCall site point }

/-- The end of `check_link_status`. -/
def updateLink (s : Mdio) : Mdio :=
  if s.netifIsLinkUp ≠ s.isLinkUp then
    if s.isLinkUp then
      { s with
        linkInfo :=
          { speed := if bits s.physts kPhystsSpeedStatus then 10 else 100
            fullNotHalfDuplex := bits s.physts kPhystsDuplexStatus
            isCrossover := bits s.physts kPhystsMdiMdixMode }
        netifIsLinkUp := true }
    else if !s.manualLinkState then { s with netifIsLinkUp := false }
    else s
  else s

/-- `check_link_status` returns, and its caller stores the state. -/
def checked (s : Mdio) (state : Nat) : Mdio := { s with checkLinkStatusState := state, pc := .idle }

/-- The value `set_link` wants in `BMCR`. -/
def newBmcr (r : BitVec 16) (ls : LinkSettings) : BitVec 16 :=
  (r &&& ~~~(kBmcrSpeedSelection ||| kBmcrAutoNegEnable ||| kBmcrDuplexMode)) |||
    (if ls.speed = 100 then kBmcrSpeedSelection else 0) |||
    (if ls.fullNotHalfDuplex then kBmcrDuplexMode else 0) |||
    (if ls.autoNegotiation then kBmcrAutoNegEnable else 0)

/-- What follows a completed transaction. -/
def resume (s : Mdio) (site : MdioSite) (data : BitVec 16) : Mdio :=
  match site with
  | .checkBmsr =>
      let s := { s with bmsr := data, isLinkUp := bits data kBmsrLinkStatus }
      if s.isLinkUp then s.goto .checkPhysts .clear else s.updateLink.checked 0
  | .checkPhysts => ({ s with physts := data }).updateLink.checked 0
  | .setLinkRead ls =>
      if newBmcr data ls ≠ data then s.goto (.setLinkWrite (newBmcr data ls)) .clear
      else { s with setLinkResult := some true, pc := .idle }
  | .setLinkWrite _ => { s with setLinkResult := some true, pc := .idle }
  | .restartRead => s.goto (.restartWrite (data ||| kBmcrRestartAutoNeg)) .clear
  | .restartWrite _ => { s with pc := .idle }
  | .resetLedcr => s.goto .resetRcsr .clear
  | .resetRcsr => { s with pc := .idle }

/-- A non-blocking read that has to be continued. -/
def suspend (s : Mdio) : MdioSite → Mdio
  | .checkBmsr => s.checked 1
  | .checkPhysts => s.checked 2
  | _ => s

def clearMii (s : Mdio) : Mdio := { s with mii := false }

def startTransaction (s : Mdio) (t : Transaction) : Mdio :=
  { s with
    outstanding := some t
    mmfr :=
      match t with
      | .read _ => {}
      | .write _ data => { value := data } }

def recordFetch (s : Mdio) (reg : PhyReg) : Mdio :=
  { s with fetched := s.fetched ++ [⟨reg, s.mmfr.source⟩] }

def advance (s : Mdio) : Mdio :=
  match s.pc with
  | .idle => s
  | .inCall site .clear => s.clearMii.goto site .start
  | .inCall site .start => (s.startTransaction site.transaction).goto site .test
  | .inCall site .test =>
      if s.mii then
        match site.transaction with
        | .read _ => s.goto site .fetch
        | .write _ _ => s.goto site (.ack 0)
      else if site.blocking then s
      else s.suspend site
  | .inCall site .fetch =>
      match site.transaction with
      | .read reg => (s.recordFetch reg).goto site (.ack s.mmfr.value)
      | .write _ _ => s
  | .inCall site (.ack data) => s.clearMii.resume site data

/-- The transaction completes; a read register has any value. -/
def complete (s : Mdio) (value : BitVec 16) : Mdio :=
  match s.outstanding with
  | none => s
  | some (.read reg) => { s with outstanding := none, mii := true, mmfr := ⟨value, some reg⟩ }
  | some (.write _ _) => { s with outstanding := none, mii := true }

end Mdio

inductive MdioCall where
  | poll
  | procInput
  | setLink (ls : LinkSettings)
  | restartAutoNegotiation
  | resetPhy
  | notifyManualLinkState (flag : Bool)
  deriving DecidableEq

namespace Mdio

def checkLinkStatus (s : Mdio) : Mdio :=
  if s.initState ≠ .initialized then s.checked 0
  else
    match s.checkLinkStatusState with
    | 0 => s.goto .checkBmsr .clear
    | 1 => s.goto .checkBmsr .test
    | 2 => s.goto .checkPhysts .test
    | _ => s.updateLink.checked 0

/-- `set_link` and `reset_phy` look at `s_initState` first. -/
def phyUp (s : Mdio) : Bool := s.initState = .phyInitialized || s.initState = .initialized

/-- A call enters the driver; there is one thread. -/
def call (s : Mdio) (c : MdioCall) : Mdio :=
  match s.pc with
  | .inCall _ _ => s
  | .idle =>
      match c with
      | .poll => s.checkLinkStatus
      | .procInput => if s.checkLinkStatusState ≠ 0 then s.checkLinkStatus else s
      | .setLink ls =>
          if !s.phyUp then { s with setLinkResult := some false }
          else if ls.speed ≠ 10 ∧ ls.speed ≠ 100 then { s with setLinkResult := some false }
          else s.goto (.setLinkRead ls) .clear
      | .restartAutoNegotiation => s.goto .restartRead .clear
      | .resetPhy => if !s.phyUp then s else s.goto .resetLedcr .clear
      | .notifyManualLinkState flag => { s with manualLinkState := flag }

end Mdio

inductive MdioStep where
  | call (c : MdioCall)
  | advance
  | complete (value : BitVec 16)
  deriving DecidableEq

def Mdio.step (s : Mdio) : MdioStep → Mdio
  | .call c => s.call c
  | .advance => s.advance
  | .complete value => s.complete value

end QNEthernet.Drivers.Teensy41
