import QNEthernet.Drivers.Cyw43Transmit

/-! The credentials of a network as `join_start` and `join_restart` put them together: the one fills in two
structures, the other stores words and strings in an array of 100 bytes. -/

namespace QNEthernet.Drivers.Cyw43

open Lwip

structure CString where
  chars : List Byte
  noNul : 0 ∉ chars

def CString.strlen (s : CString) : Nat := s.chars.length

/-- The bytes of a halfword and of a word, in the order of the memory. -/
def le16 (x : BitVec 16) : List Byte := [.ofBitVec (x.setWidth 8), .ofBitVec ((x >>> 8).setWidth 8)]

def le32 (x : BitVec 32) : List Byte := le16 (x.setWidth 16) ++ le16 ((x >>> 16).setWidth 16)

/-- A variable of a function: its bytes, which nothing initialises, and what is stored to it. -/
structure Local where
  bytes : Message
  puts : List Put := []

namespace Local

def store (l : Local) (start : Nat) (bytes : List Byte) : Local :=
  { bytes := l.bytes.poke start bytes, puts := l.puts ++ [⟨start, bytes⟩] }

/-- `strcpy`, which copies the NUL as well. -/
def strcpy (l : Local) (start : Nat) (s : CString) : Local := l.store start (s.chars ++ [0])

def read (l : Local) (len : Nat) : List Byte := RawFrame.bytesAt l.bytes len

end Local

inductive Wlc where
  | up | down | setInfra | setAuth | setSsid | setGmode | setWsec | setBand | setWpaAuth | setWsecPmk
  deriving DecidableEq

inductive Request where
  | wrInt32 (cmd : Wlc) (val : Int)
  | wrData (cmd : Wlc) (data : List Byte)
  | setUint32 (name : String) (val : Nat)
  | setIntx2 (name : String) (val val2 : Int)
  | setData (name : String) (data : List Byte)

/-- `ret && call > 0 && …`: the calls are made up to the first that fails. `answer` has what the IOCTLs
return, in the order in which they are issued. -/
def chain (answer : Nat → Int) : Bool → List Request → List Request → Bool × List Request
  | false, _, issued => (false, issued)
  | true, [], issued => (true, issued)
  | true, r :: rest, issued => chain answer (answer issued.length > 0) rest (issued ++ [r])

/-- `Event::ioctl_enable_evts`: the mask that it sets. -/
def eventMask (evts : List Nat) : List Byte :=
  evts.foldl (fun mask num =>
    if num / 8 < mask.length then mask.set (num / 8) (mask.getD (num / 8) 0 ||| 1 <<< UInt8.ofNat (num &&& 7))
    else mask) (List.replicate (208 / 8) 0)

def joinEvts : List Nat := [0, 16, 3, 6, 12, 46]

def countryStruct : List Byte := [0x55, 0x53, 0, 0, 0xFF, 0xFF, 0xFF, 0xFF, 0x55, 0x53, 0, 0]

def yourSsid : List Byte := [0x79, 0x6F, 0x75, 0x72, 0x53, 0x53, 0x49, 0x44]

def yourPwd : List Byte := [0x79, 0x6F, 0x75, 0x72, 0x50, 0x57, 0x44]

def sizeofWlcSsid : Nat := 4 + 32

def sizeofWsecPmk : Nat := 2 + 2 + 64

def wsecPassphrase : BitVec 16 := 1 <<< 0

/-- `wlc_ssid_t ssid`, as `join_start` fills it in. -/
def wlcSsid (stack : Message) (ssID : CString) : Local :=
  let ssid : Local := { bytes := stack }
  let ssid := ssid.store 0 (le32 (BitVec.ofNat 32 ssID.strlen))
  ssid.strcpy 4 ssID

/-- `wsec_pmk_t wsec_pmk`, as `join_start` fills it in. -/
def wsecPmk (stack : Message) (passphrase : CString) : Local :=
  let pmk : Local := { bytes := stack }
  let pmk := pmk.store 0 (le16 (BitVec.ofNat 16 passphrase.strlen))
  let pmk := pmk.store 2 (le16 wsecPassphrase)
  pmk.strcpy 4 passphrase

structure Restart where
  ret : Bool
  issued : List Request
  data : Local

def joinRestart (stack : Message) (answer : Nat → Int) (issued : List Request) (ssid passwd : CString)
    (security : Int) : Restart :=
  let data : Local := { bytes := stack }
  let issued := issued ++ [.wrData .up []]
  let (ret, issued) := chain answer true
    [.wrInt32 .setGmode 0x01, .wrInt32 .setBand 0x00, .setUint32 "pm2_sleep_ret" 0xc8, .setUint32 "bcn_li_bcn" 0x01,
      .setUint32 "bcn_li_dtim" 0x01, .setUint32 "assoc_listen" 0x0a] issued
  let (ret, issued) := chain answer ret [.wrInt32 .setInfra 1, .wrInt32 .setAuth 0] issued
  let (ret, issued, data) :=
    if security ≠ 0 then
      let (ret, issued) := chain answer ret
        [.wrInt32 .setWsec (if security = 2 then 6 else 2), .setData "bsscfg:sup_wpa" [0, 0, 0, 0, 1, 0, 0, 0],
          .setData "bsscfg:sup_wpa2_eapver" [0, 0, 0, 0, 0xFF, 0xFF, 0xFF, 0xFF],
          .setData "bsscfg:sup_wpa_tmo" [0, 0, 0, 0, 0xC4, 0x09, 0, 0]] issued
      let n := passwd.strlen
      let data := data.store 0 (le32 (BitVec.ofNat 32 (n + 0x10000)))
      let data := data.strcpy 4 passwd
      let (ret, issued) := chain answer ret
        [.wrData .setWsecPmk (data.read (n + 4)), .wrInt32 .setInfra 0x01, .wrInt32 .setAuth 0x00,
          .wrInt32 .setWpaAuth (if security = 2 then 0x80 else 4)] issued
      (ret, issued, data)
    else
      let (ret, issued) := chain answer ret [.wrInt32 .setWsec 0, .wrInt32 .setWpaAuth 0] issued
      (ret, issued, data)
  let n := ssid.strlen
  let data := data.store 0 (le32 (BitVec.ofNat 32 n))
  let data := data.strcpy 4 ssid
  let (ret, issued) := chain answer ret [.wrData .setSsid (data.read (n + 4))] issued
  { ret := ret, issued := issued, data := data }

/-- What a join meets: the stack, the answers of the chip, and the state of the station. -/
structure Setup where
  ssidStack : Message
  pmkStack : Message
  dataStack : Message
  answer : Nat → Int
  station : Station
  now : BitVec 32

/-- A stack of zeros, and a chip that answers every IOCTL. -/
def Setup.zeroed : Setup := ⟨fun _ => 0, fun _ => 0, fun _ => 0, fun _ => 1, {}, 0⟩

/-- The calls of `Join::join_state_poll`, behind earlier ones. -/
def joinStatePollCalls (e : Setup) (issued : List Request) (ssid passwd : CString) (security : Int) : List Request :=
  let s := e.station
  if s.eip.join = joinIdle then (joinRestart e.dataStack e.answer issued ssid passwd security).issued
  else if s.eip.join = joinJoining then
    if linkCheck s.eip > 0 then issued
    else if s.givesUp e.now then issued ++ [.wrData .down []]
    else issued
  else if s.eip.join = joinOk then
    if linkCheck s.eip < 1 then issued ++ [.wrData .down []] else issued
  else issued

/-- `checked` has the calls that stand in a `CHECK`. Its body is commented out, so that they are put
together but not made: `issued` has those that are. -/
structure Start where
  ret : Bool
  issued : List Request
  checked : List Request := []
  ssid : Local
  wsecPmk : Local

/-- The calls in a `CHECK` before `ioctl_enable_evts(join_evts)`. -/
def checkedSecurity (pmk : Local) (security : Int) : List Request :=
  [.setUint32 "ampdu_ba_wsize" 8, .wrInt32 .setInfra 1, .wrInt32 .setAuth 0] ++
    if security ≠ 0 then
      [.wrInt32 .setWsec (if security = 2 then 6 else 2), .setIntx2 "bsscfg:sup_wpa" 0 1,
        .setIntx2 "bsscfg:sup_wpa2_eapver" 0 (-1), .setIntx2 "bsscfg:sup_wpa_tmo" 0 2500,
        .wrData .setWsecPmk (pmk.read sizeofWsecPmk), .wrInt32 .setWpaAuth (if security = 2 then 0x80 else 4)]
    else [.wrInt32 .setWsec 0, .wrInt32 .setWpaAuth 0]

def joinStart (e : Setup) (ssID passphrase : CString) (security : Int) : Start :=
  let issued : List Request := [.wrData .down []]
  if ssID.chars = yourSsid then
    { ret := false, issued := issued, ssid := { bytes := e.ssidStack }, wsecPmk := { bytes := e.pmkStack } }
  else if passphrase.chars = yourPwd then
    { ret := false, issued := issued, ssid := { bytes := e.ssidStack }, wsecPmk := { bytes := e.pmkStack } }
  else
    let ssid := wlcSsid e.ssidStack ssID
    let pmk := wsecPmk e.pmkStack passphrase
    let up := e.answer issued.length
    let issued := issued ++ [.wrInt32 .up 0]
    if up = 0 then { ret := false, issued := issued, ssid := ssid, wsecPmk := pmk }
    else
      -- A country that is not set is only reported.
      let issued := issued ++ [.setData "country" countryStruct]
      let none := e.answer issued.length
      let issued := issued ++ [.setData "event_msgs" (eventMask [])]
      if none ≠ 1 then { ret := false, issued := issued, ssid := ssid, wsecPmk := pmk }
      else
        let checked := checkedSecurity pmk security
        let joins := e.answer issued.length
        let issued := issued ++ [.setData "event_msgs" (eventMask joinEvts)]
        if ¬ joins > 0 then { ret := false, issued := issued, checked := checked, ssid := ssid, wsecPmk := pmk }
        else
          { ret := true
            issued := joinStatePollCalls e issued ssID passphrase security
            checked := checked ++ [.wrData .setSsid (ssid.read sizeofWlcSsid)]
            ssid := ssid
            wsecPmk := pmk }

/-- What a request tells the chip about the network. -/
inductive Setting where
  | ssid (len : Nat) (bytes : List Byte)
  | pmk (len : Nat) (flags : BitVec 16) (bytes : List Byte)
  | wsec (val : Int)
  | wpaAuth (val : Int)

def Request.setting : Request → Option Setting
  | .wrData .setSsid data =>
      let len := (load32 data 0).toNat
      some (.ssid len ((data.drop 4).take len))
  | .wrData .setWsecPmk data =>
      let len := (load16 data 0).toNat
      some (.pmk len (load16 data 2) ((data.drop 4).take len))
  | .wrInt32 .setWsec val => some (.wsec val)
  | .wrInt32 .setWpaAuth val => some (.wpaAuth val)
  | _ => none

def settings (requests : List Request) : List Setting := requests.filterMap Request.setting

structure Credentials where
  ssid : CString
  ssid_pos : 1 ≤ ssid.strlen
  ssid_short : ssid.strlen ≤ 32
  passphrase : CString
  passphrase_long : 8 ≤ passphrase.strlen
  passphrase_short : passphrase.strlen ≤ 64
  security : Int

namespace Credentials

/-- What the chip has to be told, in this order. -/
def settings (c : Credentials) : List Setting :=
  (if c.security ≠ 0 then
    [.wsec (if c.security = 2 then 6 else 2), .pmk c.passphrase.strlen wsecPassphrase c.passphrase.chars,
      .wpaAuth (if c.security = 2 then 0x80 else 4)]
  else [.wsec 0, .wpaAuth 0]) ++ [.ssid c.ssid.strlen c.ssid.chars]

/-- `join_start` puts the credentials together, as far as it gets, and stays in its structures. What it
sends of them, it sends by way of `join_state_poll`. -/
structure Starts (c : Credentials) (r : Start) : Prop where
  checked : Cyw43.settings r.checked <+: c.settings
  complete : r.ret = true → Cyw43.settings r.checked = c.settings
  issued : Cyw43.settings r.issued <+: c.settings
  ssid : ∀ i, Put.At r.ssid.puts i → i < sizeofWlcSsid
  key : ∀ i, Put.At r.wsecPmk.puts i → i < sizeofWsecPmk

/-- The same for `join_restart` and its array. -/
structure Restarts (c : Credentials) (r : Restart) : Prop where
  issued : Cyw43.settings r.issued <+: c.settings
  complete : r.ret = true → Cyw43.settings r.issued = c.settings
  data : ∀ i, Put.At r.data.puts i → i < 100

/-- Both pass on the same credentials, whatever the chip answers. -/
def Agree (c : Credentials) : Prop :=
  (∀ e, c.Starts (joinStart e c.ssid c.passphrase c.security)) ∧
    ∀ stack answer, c.Restarts (joinRestart stack answer [] c.ssid c.passphrase c.security)

/-- The SSID is one that `join_start` refuses, or there is room for the NULs. -/
def Fits (c : Credentials) : Prop :=
  c.ssid.chars = yourSsid ∨ c.ssid.strlen ≤ 31 ∧ c.passphrase.strlen ≤ 63

end Credentials

namespace Local

variable (l : Local)

theorem read_eq (len : Nat) : l.read len = Memory.window l.bytes 0 len := (Memory.window_zero l.bytes len).symm

theorem read_add (m n : Nat) : l.read m <+: l.read (m + n) := by
  rw [read_eq, read_eq]
  exact Memory.window_prefix l.bytes 0 m n

theorem read_store (start : Nat) (bytes : List Byte) :
    (l.store start bytes).read (start + bytes.length) = l.read start ++ bytes := by
  have stored := Memory.window_write_append l.bytes 0 start bytes
  rw [Nat.zero_add] at stored
  rw [read_eq, read_eq]
  exact stored

theorem read_strcpy (s : CString) {len : Nat} (enough : s.strlen ≤ len) :
    l.read 4 ++ s.chars <+: (l.strcpy 4 s).read (len + 4) := by
  have copied := l.read_store 4 (s.chars ++ [0])
  rw [List.length_append, List.length_singleton, ← List.append_assoc] at copied
  have whole : l.read 4 ++ s.chars <+: (l.strcpy 4 s).read (4 + (s.chars.length + 1) + len) := by
    calc l.read 4 ++ s.chars <+: l.read 4 ++ s.chars ++ [0] := List.prefix_append _ _
      _ = (l.strcpy 4 s).read (4 + (s.chars.length + 1)) := copied.symm
      _ <+: _ := read_add _ _ _
  have part : (l.strcpy 4 s).read (len + 4) <+: (l.strcpy 4 s).read (len + 4 + (s.chars.length + 1)) := read_add _ _ _
  rw [show len + 4 + (s.chars.length + 1) = 4 + (s.chars.length + 1) + len by omega] at part
  refine List.prefix_of_prefix_length_le whole part ?_
  unfold CString.strlen at enough
  simp only [read, RawFrame.Enet.length_bytesAt, List.length_append]
  omega

end Local

section Decode

theorem load32_le32 (x : BitVec 32) (rest : List Byte) : load32 (le32 x ++ rest) 0 = x := by
  have low : load16 (le32 x ++ rest) 0 = x.setWidth 16 := halves_append 8 (x.setWidth 16)
  have high : load16 (le32 x ++ rest) 2 = (x >>> 16).setWidth 16 := halves_append 8 ((x >>> 16).setWidth 16)
  rw [load32, low, Nat.zero_add, high]
  exact halves_append 16 x

theorem le32_flagged {n : Nat} (short : n < 2 ^ 16) :
    le32 (BitVec.ofNat 32 (n + 0x10000)) = le16 (BitVec.ofNat 16 n) ++ le16 wsecPassphrase := by
  have low : (BitVec.ofNat 32 (n + 0x10000)).setWidth 16 = BitVec.ofNat 16 n := by
    apply BitVec.eq_of_toNat_eq
    simp only [BitVec.toNat_setWidth, BitVec.toNat_ofNat]
    omega
  have high : (BitVec.ofNat 32 (n + 0x10000) >>> 16).setWidth 16 = wsecPassphrase := by
    apply BitVec.eq_of_toNat_eq
    have flag : wsecPassphrase.toNat = 1 := by decide
    rw [BitVec.toNat_setWidth, BitVec.toNat_ushiftRight, BitVec.toNat_ofNat, Nat.shiftRight_eq_div_pow, flag]
    omega
  rw [le32, low, high]

variable (s : CString) {data : List Byte}

theorem setting_setSsid (short : s.strlen ≤ 32) (starts : le32 (BitVec.ofNat 32 s.strlen) ++ s.chars <+: data) :
    (Request.wrData .setSsid data).setting = some (.ssid s.strlen s.chars) := by
  obtain ⟨rest, rfl⟩ := starts
  have len : (BitVec.ofNat 32 s.strlen).toNat = s.strlen := by
    rw [BitVec.toNat_ofNat, Nat.mod_eq_of_lt (by omega)]
  have bytes : ((le32 (BitVec.ofNat 32 s.strlen) ++ s.chars ++ rest).drop 4).take s.strlen = s.chars := by
    rw [List.append_assoc]
    exact List.take_left
  rw [Request.setting, List.append_assoc, load32_le32, len, ← List.append_assoc, bytes]

theorem setting_setWsecPmk (short : s.strlen ≤ 64)
    (starts : le16 (BitVec.ofNat 16 s.strlen) ++ le16 wsecPassphrase ++ s.chars <+: data) :
    (Request.wrData .setWsecPmk data).setting = some (.pmk s.strlen wsecPassphrase s.chars) := by
  obtain ⟨rest, rfl⟩ := starts
  generalize size : BitVec.ofNat 16 s.strlen = len
  have value : len.toNat = s.strlen := by
    rw [← size, BitVec.toNat_ofNat, Nat.mod_eq_of_lt (by omega)]
  have length : load16 (le16 len ++ le16 wsecPassphrase ++ s.chars ++ rest) 0 = len :=
    load16_len len wsecPassphrase (s.chars ++ rest)
  have flags : load16 (le16 len ++ le16 wsecPassphrase ++ s.chars ++ rest) 2 = wsecPassphrase :=
    load16_notlen len wsecPassphrase (s.chars ++ rest)
  have bytes : ((le16 len ++ le16 wsecPassphrase ++ s.chars ++ rest).drop 4).take s.strlen = s.chars := by
    rw [List.append_assoc]
    exact List.take_left
  rw [Request.setting, length, flags, value, bytes]

end Decode

section Built

variable (l : Local) (s : CString) {len : Nat}

theorem setting_ssid (short : s.strlen ≤ 32) (enough : s.strlen ≤ len) :
    (Request.wrData .setSsid
      (((l.store 0 (le32 (BitVec.ofNat 32 s.strlen))).strcpy 4 s).read (len + 4))).setting =
        some (.ssid s.strlen s.chars) := by
  have word : (l.store 0 (le32 (BitVec.ofNat 32 s.strlen))).read 4 = le32 (BitVec.ofNat 32 s.strlen) :=
    l.read_store 0 (le32 (BitVec.ofNat 32 s.strlen))
  have starts := (l.store 0 (le32 (BitVec.ofNat 32 s.strlen))).read_strcpy s enough
  rw [word] at starts
  exact setting_setSsid s short starts

theorem setting_pmk_halves (short : s.strlen ≤ 64) (enough : s.strlen ≤ len) :
    (Request.wrData .setWsecPmk
      ((((l.store 0 (le16 (BitVec.ofNat 16 s.strlen))).store 2 (le16 wsecPassphrase)).strcpy 4 s).read
        (len + 4))).setting = some (.pmk s.strlen wsecPassphrase s.chars) := by
  generalize size : le16 (BitVec.ofNat 16 s.strlen) = half
  have two : half.length = 2 := by rw [← size]; rfl
  have first : (l.store 0 half).read 2 = half := by
    have stored := l.read_store 0 half
    rwa [two] at stored
  have both : ((l.store 0 half).store 2 (le16 wsecPassphrase)).read 4 = half ++ le16 wsecPassphrase := by
    have stored := (l.store 0 half).read_store 2 (le16 wsecPassphrase)
    rwa [first] at stored
  have starts := ((l.store 0 half).store 2 (le16 wsecPassphrase)).read_strcpy s enough
  rw [both] at starts
  refine setting_setWsecPmk s short ?_
  rwa [size]

theorem setting_pmk_word (short : s.strlen ≤ 64) (enough : s.strlen ≤ len) :
    (Request.wrData .setWsecPmk
      (((l.store 0 (le32 (BitVec.ofNat 32 (s.strlen + 0x10000)))).strcpy 4 s).read (len + 4))).setting =
        some (.pmk s.strlen wsecPassphrase s.chars) := by
  have word := l.read_store 0 (le32 (BitVec.ofNat 32 (s.strlen + 0x10000)))
  have starts := (l.store 0 (le32 (BitVec.ofNat 32 (s.strlen + 0x10000)))).read_strcpy s enough
  rw [show (l.store 0 (le32 (BitVec.ofNat 32 (s.strlen + 0x10000)))).read 4 = _ from word,
    le32_flagged (by omega)] at starts
  refine setting_setWsecPmk s short ?_
  rwa [le32_flagged (by omega)]

end Built

/-- The calls of a chain are the first of its requests, and all of them if none fails. -/
structure Made (issued all : List Request) (r : Bool × List Request) : Prop where
  calls : ∃ made, r.2 = issued ++ made ∧ made <+: all
  complete : r.1 = true → r.2 = issued ++ all

namespace Made

variable {answer : Nat → Int} {issued all : List Request} {r : Bool × List Request}

theorem start (issued : List Request) : Made issued [] (true, issued) where
  calls := ⟨[], (List.append_nil issued).symm, List.prefix_refl []⟩
  complete _ := (List.append_nil issued).symm

theorem failed (made : Made issued all r) (more : List Request) : Made issued (all ++ more) (false, r.2) where
  calls := by
    obtain ⟨some_calls, eq, le⟩ := made.calls
    exact ⟨some_calls, eq, le.trans (List.prefix_append _ _)⟩
  complete done := absurd done Bool.false_ne_true

theorem chain (made : Made issued all r) (more : List Request) :
    Made issued (all ++ more) (chain answer r.1 more r.2) := by
  induction more generalizing all r with
  | nil =>
      rw [List.append_nil]
      obtain ⟨ret, calls⟩ := r
      cases ret <;> exact made
  | cons request more ih =>
      obtain ⟨ret, calls⟩ := r
      cases ret with
      | false => exact made.failed (request :: more)
      | true =>
          have whole : calls = issued ++ all := made.complete rfl
          have next : Made issued (all ++ [request]) (decide (answer calls.length > 0), calls ++ [request]) :=
            ⟨⟨all ++ [request], by rw [whole, List.append_assoc], List.prefix_refl _⟩,
              fun _ => by rw [whole, List.append_assoc]⟩
          have rest := ih next
          rwa [List.append_assoc] at rest

end Made

theorem settings_append (first second : List Request) : settings (first ++ second) = settings first ++ settings second :=
  List.filterMap_append

theorem Made.settings_prefix {issued all : List Request} {r : Bool × List Request} (made : Made issued all r)
    (before : settings issued = []) : settings r.2 <+: settings all ∧ (r.1 = true → settings r.2 = settings all) := by
  constructor
  · obtain ⟨calls, eq, le⟩ := made.calls
    rw [eq, settings_append, before, List.nil_append]
    exact le.filterMap _
  · intro done
    rw [made.complete done, settings_append, before, List.nil_append]

theorem store_at (l : Local) (start : Nat) (bytes : List Byte) (i : Nat) :
    Put.At (l.store start bytes).puts i ↔ Put.At l.puts i ∨ start ≤ i ∧ i < start + bytes.length := by
  simp only [Put.At, Local.store, List.mem_append, List.mem_singleton]
  constructor
  · rintro ⟨p, member | rfl, inside⟩
    · exact .inl ⟨p, member, inside⟩
    · exact .inr inside
  · rintro (⟨p, member, inside⟩ | inside)
    · exact ⟨p, .inl member, inside⟩
    · exact ⟨_, .inr rfl, inside⟩

theorem strcpy_at (l : Local) (start : Nat) (s : CString) (i : Nat) :
    Put.At (l.strcpy start s).puts i ↔ Put.At l.puts i ∨ start ≤ i ∧ i < start + (s.strlen + 1) := by
  rw [Local.strcpy, store_at, List.length_append, List.length_singleton, CString.strlen]

theorem fresh_at (stack : Message) (i : Nat) : ¬ Put.At ({ bytes := stack } : Local).puts i := Put.not_at_nil i

theorem wlcSsid_at (stack : Message) (s : CString) (i : Nat) :
    Put.At (wlcSsid stack s).puts i ↔ i < 4 + (s.strlen + 1) := by
  have word : (le32 (BitVec.ofNat 32 s.strlen)).length = 4 := rfl
  rw [wlcSsid, strcpy_at, store_at, word, or_iff_right (fresh_at stack i)]
  omega

theorem wsecPmk_at (stack : Message) (s : CString) (i : Nat) :
    Put.At (wsecPmk stack s).puts i ↔ i < 4 + (s.strlen + 1) := by
  have half (x : BitVec 16) : (le16 x).length = 2 := rfl
  rw [wsecPmk, strcpy_at, store_at, store_at, half, half, or_iff_right (fresh_at stack i)]
  omega

namespace Credentials

variable (c : Credentials) (stack : Message) (answer : Nat → Int) (issued : List Request)

theorem joinRestart_calls :
    ∃ all, Cyw43.settings all = c.settings ∧
      Made (issued ++ [.wrData .up []]) all ((joinRestart stack answer issued c.ssid c.passphrase c.security).ret,
        (joinRestart stack answer issued c.ssid c.passphrase c.security).issued) := by
  have made := Made.start (issued ++ [.wrData .up []])
  have pmk (l : Local) := setting_pmk_word l c.passphrase c.passphrase_short (Nat.le_refl _)
  have ssid (l : Local) := setting_ssid l c.ssid c.ssid_short (Nat.le_refl _)
  unfold joinRestart
  by_cases secured : c.security ≠ 0
  · simp only [if_pos secured]
    refine ⟨_, ?_, ((((made.chain _).chain _).chain _).chain _).chain _⟩
    simp only [Cyw43.settings, List.nil_append, List.cons_append, List.filterMap_cons, pmk, ssid]
    simp only [Credentials.settings, if_pos secured]
    rfl
  · simp only [if_neg secured]
    refine ⟨_, ?_, (((made.chain _).chain _).chain _).chain _⟩
    simp only [Cyw43.settings, List.nil_append, List.cons_append, List.filterMap_cons, ssid]
    simp only [Credentials.settings, if_neg secured]
    rfl

theorem joinRestart_data :
    (joinRestart stack answer issued c.ssid c.passphrase c.security).data =
      ((if c.security ≠ 0 then
          (Local.store { bytes := stack } 0 (le32 (BitVec.ofNat 32 (c.passphrase.strlen + 0x10000)))).strcpy 4 c.passphrase
        else { bytes := stack }).store 0 (le32 (BitVec.ofNat 32 c.ssid.strlen))).strcpy 4 c.ssid := by
  unfold joinRestart
  split
  · rfl
  · rfl

theorem restarts : c.Restarts (joinRestart stack answer [] c.ssid c.passphrase c.security) := by
  obtain ⟨all, passed, made⟩ := c.joinRestart_calls stack answer []
  obtain ⟨le, whole⟩ := made.settings_prefix rfl
  rw [passed] at le whole
  refine ⟨le, whole, fun i written => ?_⟩
  have name := c.ssid_short
  have key := c.passphrase_short
  have word (x : BitVec 32) : (le32 x).length = 4 := rfl
  rw [joinRestart_data, strcpy_at, store_at, word] at written
  split at written
  · rw [strcpy_at, store_at, word, or_iff_right (fresh_at stack i)] at written
    omega
  · rw [or_iff_right (fresh_at stack i)] at written
    omega

theorem checked_settings (pmkStack ssidStack : Message) :
    Cyw43.settings (checkedSecurity (wsecPmk pmkStack c.passphrase) c.security ++
      [.wrData .setSsid ((wlcSsid ssidStack c.ssid).read sizeofWlcSsid)]) = c.settings := by
  have pmk : (Request.wrData .setWsecPmk ((wsecPmk pmkStack c.passphrase).read sizeofWsecPmk)).setting = _ :=
    setting_pmk_halves { bytes := pmkStack } c.passphrase c.passphrase_short c.passphrase_short
  have ssid : (Request.wrData .setSsid ((wlcSsid ssidStack c.ssid).read sizeofWlcSsid)).setting = _ :=
    setting_ssid { bytes := ssidStack } c.ssid c.ssid_short c.ssid_short
  rw [Credentials.settings, checkedSecurity]
  split
  · simp only [Cyw43.settings, List.cons_append, List.nil_append, List.filterMap_cons, pmk, ssid]
    rfl
  · simp only [Cyw43.settings, List.cons_append, List.nil_append, List.filterMap_cons, ssid]
    rfl

theorem joinStatePollCalls_settings (e : Setup) (before : Cyw43.settings issued = []) :
    Cyw43.settings (joinStatePollCalls e issued c.ssid c.passphrase c.security) <+: c.settings := by
  have quiet : Cyw43.settings issued <+: c.settings := by
    rw [before]
    exact List.nil_prefix
  have stopped : Cyw43.settings (issued ++ [.wrData .down []]) <+: c.settings := by
    rw [settings_append, before]
    exact List.nil_prefix
  unfold joinStatePollCalls
  dsimp only
  split
  · obtain ⟨all, passed, made⟩ := c.joinRestart_calls e.dataStack e.answer issued
    have started : Cyw43.settings (issued ++ [.wrData .up []]) = [] := by
      rw [settings_append, before]
      rfl
    have le := (made.settings_prefix started).1
    rwa [passed] at le
  · split
    · split
      · exact quiet
      · split
        · exact stopped
        · exact quiet
    · split
      · split
        · exact stopped
        · exact quiet
      · exact quiet

theorem starts_early {ssid pmk : Local} (before : Cyw43.settings issued = [])
    (name : ∀ i, Put.At ssid.puts i → i < sizeofWlcSsid) (key : ∀ i, Put.At pmk.puts i → i < sizeofWsecPmk) :
    c.Starts { ret := false, issued := issued, ssid := ssid, wsecPmk := pmk } where
  checked := List.nil_prefix
  complete done := absurd done Bool.false_ne_true
  issued := by
    rw [before]
    exact List.nil_prefix
  ssid := name
  key := key

theorem starts (fits : c.Fits) (e : Setup) : c.Starts (joinStart e c.ssid c.passphrase c.security) := by
  have refused := c.starts_early [.wrData .down []] rfl
    (fun i written => absurd written (fresh_at e.ssidStack i)) (fun i written => absurd written (fresh_at e.pmkStack i))
  unfold joinStart
  dsimp only
  split
  · exact refused
  · next named =>
      obtain ⟨name_fits, key_fits⟩ := fits.resolve_left named
      have name (i : Nat) (written : Put.At (wlcSsid e.ssidStack c.ssid).puts i) : i < sizeofWlcSsid := by
        rw [wlcSsid_at] at written
        unfold sizeofWlcSsid
        omega
      have key (i : Nat) (written : Put.At (wsecPmk e.pmkStack c.passphrase).puts i) : i < sizeofWsecPmk := by
        rw [wsecPmk_at] at written
        unfold sizeofWsecPmk
        omega
      have whole := c.checked_settings e.pmkStack e.ssidStack
      split
      · exact refused
      · split
        · exact c.starts_early _ rfl name key
        · split
          · exact c.starts_early _ rfl name key
          · split
            · refine ⟨?_, fun done => absurd done Bool.false_ne_true, List.nil_prefix, name, key⟩
              rw [← whole, settings_append]
              exact List.prefix_append _ _
            · refine ⟨?_, fun _ => whole, c.joinStatePollCalls_settings _ e rfl, name, key⟩
              rw [whole]

theorem joinStart_locals (e : Setup) (named : c.ssid.chars ≠ yourSsid) :
    (joinStart e c.ssid c.passphrase c.security).ssid = wlcSsid e.ssidStack c.ssid ∧
      (joinStart e c.ssid c.passphrase c.security).wsecPmk = wsecPmk e.pmkStack c.passphrase := by
  have keyed : c.passphrase.chars ≠ yourPwd := by
    intro default
    have long := c.passphrase_long
    rw [CString.strlen, default] at long
    exact absurd long (by decide)
  unfold joinStart
  dsimp only
  rw [if_neg named, if_neg keyed]
  split
  · exact ⟨rfl, rfl⟩
  · split
    · exact ⟨rfl, rfl⟩
    · split
      · exact ⟨rfl, rfl⟩
      · exact ⟨rfl, rfl⟩

/-- The first join and a retry pass on the same credentials exactly if the structures of `join_start` have
room for the NULs. -/
theorem agree_iff_fits : c.Agree ↔ c.Fits := by
  constructor
  · intro agree
    by_cases default : c.ssid.chars = yourSsid
    · exact .inl default
    · obtain ⟨ssid, pmk⟩ := c.joinStart_locals .zeroed default
      have starts := agree.1 .zeroed
      have name := starts.ssid (4 + c.ssid.strlen) (by rw [ssid, wlcSsid_at]; omega)
      have key := starts.key (4 + c.passphrase.strlen) (by rw [pmk, wsecPmk_at]; omega)
      unfold sizeofWlcSsid at name
      unfold sizeofWsecPmk at key
      exact .inr (by omega)
  · intro fits
    exact ⟨c.starts fits, c.restarts⟩

/-- An SSID of 32 letters and a passphrase of eight. -/
def longName : Credentials where
  ssid := ⟨List.replicate 32 0x61, by decide⟩
  ssid_pos := by decide
  ssid_short := by decide
  passphrase := ⟨List.replicate 8 0x61, by decide⟩
  passphrase_long := by decide
  passphrase_short := by decide
  security := 2

/-- The NUL of an SSID of 32 bytes is stored behind `SSID`. -/
theorem nul_behind_ssid :
    ¬ longName.Agree ∧ ∀ e, Put.At (joinStart e longName.ssid longName.passphrase longName.security).ssid.puts 36 := by
  have named : longName.ssid.chars ≠ yourSsid := by decide
  have stored (e : Setup) : Put.At (joinStart e longName.ssid longName.passphrase longName.security).ssid.puts 36 := by
    rw [(longName.joinStart_locals e named).1, wlcSsid_at]
    decide
  refine ⟨fun agree => ?_, stored⟩
  exact absurd ((agree.1 .zeroed).ssid 36 (stored .zeroed)) (by decide)

end Credentials

end QNEthernet.Drivers.Cyw43
