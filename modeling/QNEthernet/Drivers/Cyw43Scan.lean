import QNEthernet.Drivers.Cyw43Join
import QNEthernet.Lib.Rows
import QNEthernet.Lib.Words

/-! `scan.cpp`: the events of a scan, the elements in which a network says how it is secured, and the table
of results. `SHOW_HIDDEN` is `false`. -/

namespace QNEthernet.Drivers.Cyw43.Scan

open Lwip

def wlcEEscanResult : BitVec 32 := 69
def maxScanEntries : Nat := 60
def maclen : Nat := 6

def secOpen : BitVec 32 := 0
def secWep : BitVec 32 := 1 <<< 0
def secWpa : BitVec 32 := 1 <<< 1
def secWpa2 : BitVec 32 := 1 <<< 2
def secWpa3 : BitVec 32 := 1 <<< 3

def dot11CapPrivacy : BitVec 16 := 0x0010
def dot11IeIdRsn : Byte := 48
def dot11IeIdVendorSpecific : Byte := 221

def saeSuite : List Byte := [0x00, 0x0F, 0xAC, 0x08]

def wpaOuiType1 : List Byte := [0x00, 0x50, 0xF2, 0x01]

/-- `"[HIDDEN]\0"`, as far as `strcpy` copies it. -/
def hiddenName : List Byte := [0x5B, 0x48, 0x49, 0x44, 0x44, 0x45, 0x4E, 0x5D, 0x00]

/-- The memory from `info` of an `ESCAN_RESULT` on. -/
abbrev Info := Nat → Byte

namespace Info

def field (info : Info) (offset bytes : Nat) : Nat := Words.number (Memory.window info offset bytes)

def length (info : Info) : Nat := info.field 4 4
def bssid (info : Info) : List Byte := Memory.window info 8 maclen
def capability (info : Info) : BitVec 16 := .ofNat 16 (info.field 16 2)
def ssidLen (info : Info) : Byte := info 18
def rssi (info : Info) : List Byte := Memory.window info 78 2
def chanspec (info : Info) : BitVec 16 := .ofNat 16 (info.field 72 2)
def ieOffset (info : Info) : Nat := info.field 116 2
def ieLength (info : Info) : Nat := info.field 120 4

def ssid : Nat := 19

def ieStart (info : Info) : Nat → Byte := fun i => info (info.ieOffset + i)

/-- A network without a name gets one. -/
def hide (info : Info) : Info :=
  if info.ssidLen = 0 ∨ info ssid = 0 then Memory.write info ssid hiddenName else info

theorem window_hide (info : Info) {offset len : Nat}
    (apart : offset + len ≤ ssid ∨ ssid + hiddenName.length ≤ offset) :
    Memory.window info.hide offset len = Memory.window info offset len := by
  rw [hide]
  split
  · rcases apart with before | behind
    · exact Memory.window_write_before info before
    · exact Memory.window_write_behind info behind
  · rfl

/-- The check of `scan_event_handler`: an unsigned sum of 32 bits. -/
def fits (info : Info) : Bool := !((info.ieOffset + info.ieLength) % 2 ^ 32 > info.length)

end Info

structure Parse where
  parsed : Nat := 0
  hasRsn : Bool := false
  hasWpa : Bool := false
  securityMask : BitVec 32 := secOpen

def elementEnd (ie : Nat → Byte) (parsed : Nat) : Nat := (parsed + 2 + (ie ((parsed + 1) % 2 ^ 32)).toNat) % 2 ^ 32

/-- The offsets of the four bytes that a `memcmp` looks at. -/
def four (start : Nat) : List Nat := [start, start + 1, start + 2, start + 3]

/-- What a turn does with the data of an element: the offsets that it looks at, and the variables. -/
def lookAt (ie : Nat → Byte) (s : Parse) : List Nat × Parse :=
  let ieElementLen := (ie ((s.parsed + 1) % 2 ^ 32)).toNat
  let ieData := (s.parsed + 2) % 2 ^ 32
  if ie s.parsed = dot11IeIdRsn then
    let s := { s with hasRsn := true }
    if 18 ≤ ieElementLen then
      ((List.range (ieElementLen - 4)).flatMap fun i => four (ieData + i),
        { s with
          securityMask := (List.range (ieElementLen - 4)).foldl (fun mask i =>
            if Memory.window ie (ieData + i) 4 = saeSuite then mask ||| secWpa3 else mask) s.securityMask })
    else ([], s)
  else if ie s.parsed = dot11IeIdVendorSpecific then
    if 4 ≤ ieElementLen then
      (four ieData, if Memory.window ie ieData 4 = wpaOuiType1 then { s with hasWpa := true } else s)
    else ([], s)
  else ([], s)

/-- A turn of the loop: the offsets that it reads, and the variables for the next one unless it breaks. -/
def turn (ie : Nat → Byte) (ieLen : Nat) (s : Parse) : List Nat × Option Parse :=
  let header := [s.parsed, (s.parsed + 1) % 2 ^ 32]
  if elementEnd ie s.parsed > ieLen then (header, none)
  else
    let (data, s') := lookAt ie s
    (header ++ data, some { s' with parsed := elementEnd ie s.parsed })

/-- `while(parsed < ie_len)`: what it ends with, and all that it reads. -/
def parseLoop (ie : Nat → Byte) (ieLen : Nat) : (fuel : Nat) → Parse → Option (Parse × List Nat)
  | 0, _ => none
  | fuel + 1, s =>
      if s.parsed < ieLen then
        match turn ie ieLen s with
        | (reads, none) => some (s, reads)
        | (reads, some s') => (parseLoop ie ieLen fuel s').map fun r => (r.1, reads ++ r.2)
      else some (s, [])

/-- The rules of 802.11 over what the loop has found. -/
def Parse.evaluate (s : Parse) (capability : BitVec 16) : BitVec 32 :=
  if capability &&& dot11CapPrivacy ≠ 0 then
    let mask := if !s.hasRsn && !s.hasWpa then s.securityMask ||| secWep else s.securityMask
    let mask := if s.hasWpa then mask ||| secWpa else mask
    if s.hasRsn && mask &&& secWpa3 = 0 then mask ||| secWpa2 else mask
  else s.securityMask

/-- What `parseScanResult` returns; the frame is hidden first. -/
def securityMask (fuel : Nat) (info : Info) : Option (BitVec 32) :=
  (parseLoop info.hide.ieStart info.hide.ieLength fuel {}).map fun r => r.1.evaluate info.hide.capability

/-- The `switch`, which has no default: `"OPEN"`, `"WEP"`, `"WPA"`, `"WPA2"` and twice `"AUTO"`. -/
def securityTypeString (mask : BitVec 32) : Option (List Byte) :=
  if mask = secOpen then some [0x4F, 0x50, 0x45, 0x4E]
  else if mask = secWep then some [0x57, 0x45, 0x50]
  else if mask = secWpa then some [0x57, 0x50, 0x41]
  else if mask = secWpa2 then some [0x57, 0x50, 0x41, 0x32]
  else if mask = secWpa + secWpa2 then some [0x41, 0x55, 0x54, 0x4F]
  else if mask = secWpa3 then some [0x41, 0x55, 0x54, 0x4F]
  else none

def cString (m : Nat → Byte) : (fuel start : Nat) → Option (List Byte)
  | 0, _ => none
  | fuel + 1, start => if m start = 0 then some [] else (cString m fuel (start + 1)).map (m start :: ·)

/-- `sizeof(simple_scan_result_t)`: `ssid`, `bssid`, `signal_strength`, `security`, `channel`,
`security_mask` and a byte of padding. -/
def sizeofResult : Nat := 32 + maclen + 2 + 15 + 1 + 1 + 1

def storeEntry (results : Nat → Byte) (entry : Nat) (info : Info) (ssid securityType : List Byte)
    (mask : BitVec 32) : Nat → Byte :=
  let at_ := sizeofResult * entry
  let results := Memory.write results (at_ + 32) info.bssid
  let results := Memory.write results at_ (ssid ++ [0])
  let results := Memory.write results (at_ + 38) info.rssi
  let results := Memory.write results (at_ + 40) (securityType ++ [0])
  let results := Memory.write results (at_ + 55) [.ofBitVec ((info.chanspec &&& 0xff).setWidth 8)]
  Memory.write results (at_ + 56) [.ofBitVec (mask.setWidth 8)]

/-- `Scan::parseScanResult`. There is no result where the loop does not end, where no string was assigned
and where the name has no NUL. -/
def parseScanResult (fuel : Nat) (results : Nat → Byte) (scanCount : Nat) (info : Info) : Option (Nat → Byte) :=
  (securityMask fuel info).bind fun mask =>
    (securityTypeString mask).bind fun securityType =>
      (cString info.hide fuel Info.ssid).map fun ssid =>
        storeEntry results scanCount info.hide ssid securityType mask

structure Station where
  scanCount : Nat := 0
  results : Nat → Byte := fun _ => 0
  filtered : Nat → Byte := fun _ => 0

/-- What a call returns, and the entries of the two tables that it uses. -/
structure Used where
  ret : Int
  results : List Nat := []
  filtered : List Nat := []

/-- `eip->data`: `eventh.status` and `info` of the `ESCAN_RESULT`. -/
structure Frame where
  status : Nat
  info : Info

def scanEventHandler (fuel : Nat) (s : Station) (eip : EventInfo) (frame : Frame) : Option (Used × Station) :=
  if eip.chan = sdpcmChanEvt ∧ eip.eventType = wlcEEscanResult then
    if frame.status = 0 then some (⟨-1, [], []⟩, s)
    else if frame.info.ssidLen = 0 then some (⟨1, [], []⟩, s)
    else if frame.info.fits then
      let scanCount := (s.scanCount + 1) % 2 ^ 8
      (parseScanResult fuel s.results scanCount frame.info).map fun results =>
        (⟨1, [scanCount], []⟩, { s with scanCount := scanCount, results := results })
    else some (⟨-1, [], []⟩, s)
  else some (⟨0, [], []⟩, s)

/-- `Scan::scan_start`, whose IOCTLs decide what it returns. -/
def scanStart (s : Station) : Station := { s with scanCount := 0 }

def memcmp : List Byte → List Byte → Int
  | a :: as, b :: bs => if a = b then memcmp as bs else a.toNat - b.toNat
  | _, _ => 0

def bssidOf (entry : List Byte) : List Byte := (entry.drop 32).take maclen

def compareBSSID (a b : List Byte) : Int := memcmp (bssidOf a) (bssidOf b)

/-- `qsort` with `compareBSSID`: the same entries, and they are in order if they are entries of the table. -/
structure Qsort where
  sort : List (List Byte) → List (List Byte)
  perm : ∀ entries, (sort entries).Perm entries
  sorted : ∀ entries, (∀ e ∈ entries, e.length = sizeofResult) →
    (sort entries).Pairwise fun a b => compareBSSID a b ≤ 0

/-- The loop of `removeDuplicates` from `i` on, in so many turns. -/
def removeLoop (results : Nat → Byte) : (turns i index : Nat) → (Nat → Byte) → Nat × (Nat → Byte) × List Nat × List Nat
  | 0, _, index, filtered => (index, filtered, [], [])
  | turns + 1, i, index, filtered =>
      if bssidOf (Rows.row results sizeofResult i) = bssidOf (Rows.row results sizeofResult (i + 1)) then
        let (ret, filtered, used, usedFiltered) := removeLoop results turns (i + 1) index filtered
        (ret, filtered, i :: (i + 1) :: used, usedFiltered)
      else
        let filtered := Rows.put filtered sizeofResult index [Rows.row results sizeofResult i]
        let (ret, filtered, used, usedFiltered) := removeLoop results turns (i + 1) ((index + 1) % 2 ^ 8) filtered
        (ret, filtered, i :: (i + 1) :: used, index :: usedFiltered)

def removeDuplicates (q : Qsort) (s : Station) : Used × Station :=
  if s.scanCount < 2 then (⟨0, [], []⟩, s)
  else
    let results := Rows.put s.results sizeofResult 1 (q.sort (Rows.rows s.results sizeofResult 1 s.scanCount))
    let (ret, filtered, used, usedFiltered) := removeLoop results s.scanCount 1 0 s.filtered
    (⟨ret, (List.range s.scanCount).map (1 + ·) ++ used, usedFiltered⟩,
      { s with results := results, filtered := filtered })

def getScanCount (q : Qsort) (s : Station) : Used × Station :=
  let (used, s) := removeDuplicates q s
  ({ used with ret := used.ret % 2 ^ 8 }, s)

end QNEthernet.Drivers.Cyw43.Scan
