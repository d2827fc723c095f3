import QNEthernet.Drivers.Cyw43Buffers
import QNEthernet.RawFrame.Output

/-! What the WiFi driver writes to the radio function: the frames of `event_net_tx`, which are built in a
`TX_MSG`, and the requests of `ioctl_cmd`, which are built in `ioctl_txmsg`. -/

namespace QNEthernet.Drivers.Cyw43

open Lwip

def mtu : Nat := 4018
def txDataLen : Nat := 2048

/-- `SDPCM_HDR`, two bytes of padding, and `BDC_HDR_T4`; the data follows. -/
def txDataOffset : Nat := 12 + 2 + 4

def sizeofTxMsg : Nat := txDataOffset + txDataLen

/-- Bytes that are stored from an offset of a message on. -/
structure Put where
  start : Nat
  bytes : List Byte
  deriving DecidableEq

def Put.At (puts : List Put) (i : Nat) : Prop := ∃ p ∈ puts, p.start ≤ i ∧ i < p.start + p.bytes.length

/-- `while (txlen & 3) dp[txlen++] = 0`, for so many turns at most. -/
def padWord : Nat → Nat → List Put × Nat
  | 0, txlen => ([], txlen)
  | turns + 1, txlen =>
      if txlen &&& 3 ≠ 0 then
        let (puts, padded) := padWord turns (txlen + 1)
        (⟨txlen, [0]⟩ :: puts, padded)
      else ([], txlen)

/-- A frame as `event_net_tx` passes it on: what it stores in `tx_msg`, how much of its source it reads,
the length that it writes to the header, and the size of the transfer. -/
structure NetTx where
  puts : List Put
  read : Nat
  len : BitVec 16
  size : Nat

def eventNetTx (seq : Byte) (data : Nat → Byte) (len : Nat) : NetTx :=
  let txlen := txDataOffset + len
  let sdpcmLen := BitVec.ofNat 16 txlen
  let (padding, padded) := padWord 3 txlen
  { puts := [⟨0, headerBytes sdpcmLen (~~~sdpcmLen)⟩, ⟨4, [seq]⟩, ⟨txDataOffset, RawFrame.bytesAt data len⟩] ++ padding
    read := len
    len := sdpcmLen
    size := padded }

def output (seq : Byte) (p : Pbuf) : NetTx :=
  eventNetTx seq (fun i => p.bytes.getD i 0) (p.totLen + ethPadSize)

def outputFrame (seq : Byte) (frame : Nat → Byte) (len : Nat) : Option NetTx :=
  if len > 65535 - ethPadSize then none else some (eventNetTx seq frame (len + ethPadSize))

/-- The frames that `enet::output_frame` passes on to this driver. -/
def admits (frame : Nat → Byte) (len : Nat) : Bool :=
  14 ≤ len && len ≤ 65535 - ethPadSize &&
    if RawFrame.isVlan frame then 18 ≤ len && len ≤ maxFrameLen else len ≤ maxFrameLen - 4

/-- An IOCTL: the name of a variable, whether it is written, and how much data the caller has. -/
structure Ioctl where
  name : Option String
  wr : Bool
  dlen : Nat

namespace Ioctl

def namelen (c : Ioctl) : Nat :=
  match c.name with
  | none => 0
  | some name => name.length + 1

def txdlen (c : Ioctl) : Nat := if c.wr then c.namelen + c.dlen else max c.namelen c.dlen

def hdrlen : Nat := 4 + 8 + 4 + 2 + 2 + 4 + 4

/-- Where `ioctl_cmd` copies the name and the data to. -/
def puts (c : Ioctl) (name data : Nat → Byte) : List Put :=
  (if 0 < c.namelen then [⟨hdrlen, RawFrame.bytesAt name c.namelen⟩] else []) ++
    if c.wr then [⟨hdrlen + c.namelen, RawFrame.bytesAt data c.dlen⟩] else []

end Ioctl

inductive IntVar where
  | pm2SleepRet | bcnLiBcn | bcnLiDtim | assocListen | busTxglom | apsta | mpc

def IntVar.name : IntVar → String
  | .pm2SleepRet => "pm2_sleep_ret"
  | .bcnLiBcn => "bcn_li_bcn"
  | .bcnLiDtim => "bcn_li_dtim"
  | .assocListen => "assoc_listen"
  | .busTxglom => "bus:txglom"
  | .apsta => "apsta"
  | .mpc => "mpc"

/-- The IOCTLs of the program. The macro `CHECK` is empty, so what `join_start` puts into it is not one. -/
inductive IoctlSite where
  | wrInt32
  | setUint32 (var : IntVar)
  | down
  | up
  | country
  | eventMsgs
  | escan
  | clmload (datalen : Nat)
  | supWpa
  | supWpa2Eapver
  | supWpaTmo
  | wsecPmk (passphrase : List Byte) (short : passphrase.length ≤ 64)
  | ssid (name : List Byte) (short : name.length ≤ 32)
  | curEtheraddr
  | ver
  | clmver

namespace IoctlSite

def maxChunkLen : Nat := 400

def call : IoctlSite → Ioctl
  | .wrInt32 => ⟨none, true, 4⟩
  | .setUint32 var => ⟨some var.name, true, 4⟩
  | .down => ⟨none, true, 0⟩
  | .up => ⟨none, true, 0⟩
  -- `wl_country_t`
  | .country => ⟨some "country", true, 4 + 4 + 4⟩
  | .eventMsgs => ⟨some "event_msgs", true, 208 / 8⟩
  -- `SCAN_PARAMS`
  | .escan => ⟨some "escan", true, 4 + 2 + 2 + 4 + 32 + 6 + 1 + 1 + 4 * 4 + 2 + 2 + 14 * 2 + 32⟩
  -- `brcmf_dload_data_le` and a chunk, of which it holds the first byte
  | .clmload datalen =>
      ⟨some "clmload", true, (2 + 2 + 4 + 4 + 1) + (if datalen > maxChunkLen then maxChunkLen else datalen) - 1⟩
  | .supWpa => ⟨some "bsscfg:sup_wpa", true, 8⟩
  | .supWpa2Eapver => ⟨some "bsscfg:sup_wpa2_eapver", true, 8⟩
  | .supWpaTmo => ⟨some "bsscfg:sup_wpa_tmo", true, 8⟩
  | .wsecPmk passphrase _ => ⟨none, true, passphrase.length + 4⟩
  | .ssid name _ => ⟨none, true, name.length + 4⟩
  | .curEtheraddr => ⟨some "cur_etheraddr", false, 6⟩
  | .ver => ⟨some "ver", false, 256⟩
  | .clmver => ⟨some "clmver", false, 256⟩

end IoctlSite

section Puts

theorem Put.at_cons (p : Put) (puts : List Put) (i : Nat) :
    Put.At (p :: puts) i ↔ p.start ≤ i ∧ i < p.start + p.bytes.length ∨ Put.At puts i := by
  simp only [Put.At, List.mem_cons, exists_eq_or_imp]

theorem Put.not_at_nil (i : Nat) : ¬ Put.At [] i := by
  simp [Put.At]

theorem padWord_eq (turns txlen : Nat) (enough : (txlen + 3) / 4 * 4 ≤ txlen + turns) :
    (padWord turns txlen).2 = (txlen + 3) / 4 * 4 ∧
      ∀ i, Put.At (padWord turns txlen).1 i ↔ txlen ≤ i ∧ i < (txlen + 3) / 4 * 4 := by
  induction turns generalizing txlen with
  | zero =>
      have whole : (txlen + 3) / 4 * 4 = txlen := by omega
      refine ⟨whole.symm, fun i => ?_⟩
      rw [whole]
      exact iff_of_false (Put.not_at_nil i) (by omega)
  | succ turns ih =>
      have low : txlen &&& 3 = txlen % 4 := Nat.and_two_pow_sub_one_eq_mod txlen 2
      dsimp only [padWord]
      rw [low]
      split
      · next odd =>
          have same : (txlen + 1 + 3) / 4 * 4 = (txlen + 3) / 4 * 4 := by omega
          obtain ⟨size, padding⟩ := ih (txlen + 1) (by omega)
          refine ⟨by rw [size, same], fun i => ?_⟩
          rw [Put.at_cons, padding i, same, List.length_singleton]
          dsimp only
          omega
      · next whole =>
          have same : (txlen + 3) / 4 * 4 = txlen := by omega
          refine ⟨same.symm, fun i => ?_⟩
          rw [same]
          exact iff_of_false (Put.not_at_nil i) (by omega)

variable (seq : Byte) (data : Nat → Byte) (len : Nat)

theorem eventNetTx_size : (eventNetTx seq data len).size = (txDataOffset + len + 3) / 4 * 4 :=
  (padWord_eq 3 (txDataOffset + len) (by omega)).1

theorem eventNetTx_within_iff :
    (∀ i, Put.At (eventNetTx seq data len).puts i → i < sizeofTxMsg) ↔ len ≤ 2046 := by
  have header (i : Nat) : Put.At (eventNetTx seq data len).puts i ↔
      i < 5 ∨ txDataOffset ≤ i ∧ i < (txDataOffset + len + 3) / 4 * 4 := by
    have padding := (padWord_eq 3 (txDataOffset + len) (by omega)).2 i
    simp only [eventNetTx, List.cons_append, List.nil_append, Put.at_cons, headerBytes, RawFrame.Enet.length_bytesAt,
      List.length_cons, List.length_nil]
    rw [padding]
    unfold txDataOffset
    omega
  simp only [header, sizeofTxMsg, txDataLen, txDataOffset]
  constructor
  · intro within
    by_contra beyond
    have last := within ((12 + 2 + 4 + len + 3) / 4 * 4 - 1) (by omega)
    omega
  · intro short i written
    omega

end Puts

/-- Something that the program hands to the chip. -/
inductive TxRequest where
  | output (p : Pbuf) (legal : p.totLen ≤ mtu + 14)
  | outputFrame (frame : Nat → Byte) (len : Nat) (admitted : admits frame len = true)
  | ioctl (site : IoctlSite)

namespace TxRequest

/-- A frame of so many bytes is built inside of `tx_msg` and from its own bytes, and its header has its
length. -/
structure Built (tx : NetTx) (length : Nat) : Prop where
  within : ∀ i, Put.At tx.puts i → i < sizeofTxMsg
  read : tx.read ≤ length
  len : tx.len.toNat = txDataOffset + length

def Safe (seq : Byte) : TxRequest → Prop
  | .output p _ => Built (Cyw43.output seq p) p.totLen
  | .outputFrame frame len _ => ∃ tx, Cyw43.outputFrame seq frame len = some tx ∧ Built tx len
  | .ioctl site => site.call.namelen + site.call.dlen ≤ ioctlMaxBlklen ∧
      ∀ name data i, Put.At (site.call.puts name data) i → Ioctl.hdrlen ≤ i ∧ i < Ioctl.hdrlen + ioctlMaxBlklen

def Fits : TxRequest → Prop
  | .output p _ => p.totLen ≤ 2046
  | .outputFrame _ len _ => len ≤ 2046
  | .ioctl _ => True

end TxRequest

theorem eventNetTx_built_iff (seq : Byte) (data : Nat → Byte) {len : Nat} (short : len < 65000) :
    TxRequest.Built (eventNetTx seq data len) len ↔ len ≤ 2046 := by
  constructor
  · intro built
    exact (eventNetTx_within_iff seq data len).mp built.within
  · intro fits
    refine ⟨(eventNetTx_within_iff seq data len).mpr fits, Nat.le_refl len, ?_⟩
    simp only [eventNetTx, BitVec.toNat_ofNat, txDataOffset]
    omega

theorem IoctlSite.fits (site : IoctlSite) : site.call.namelen + site.call.dlen ≤ ioctlMaxBlklen := by
  cases site with
  | clmload datalen =>
      have name : "clmload".length = 7 := by decide
      have chunk : (if datalen > maxChunkLen then maxChunkLen else datalen) ≤ 400 := by
        unfold maxChunkLen
        split
        · omega
        · omega
      simp only [IoctlSite.call, Ioctl.namelen, name, ioctlMaxBlklen]
      omega
  | wsecPmk passphrase short =>
      simp only [IoctlSite.call, Ioctl.namelen, ioctlMaxBlklen]
      omega
  | ssid name short =>
      simp only [IoctlSite.call, Ioctl.namelen, ioctlMaxBlklen]
      omega
  | setUint32 var => cases var <;> decide
  | _ => decide

theorem Ioctl.puts_within (c : Ioctl) (fits : c.namelen + c.dlen ≤ ioctlMaxBlklen) (name data : Nat → Byte) (i : Nat)
    (written : Put.At (c.puts name data) i) : Ioctl.hdrlen ≤ i ∧ i < Ioctl.hdrlen + ioctlMaxBlklen := by
  obtain ⟨p, member, from_start, before⟩ := written
  rcases List.mem_append.mp member with first | second
  · split at first
    · cases List.mem_singleton.mp first
      rw [RawFrame.Enet.length_bytesAt] at before
      exact ⟨from_start, by dsimp only at before; omega⟩
    · cases first
  · split at second
    · cases List.mem_singleton.mp second
      rw [RawFrame.Enet.length_bytesAt] at before
      dsimp only at from_start before
      omega
    · cases second

/-- What goes to the chip is built inside of its buffer, unless a frame is longer than 2046 bytes. -/
theorem TxRequest.safe_iff_fits (seq : Byte) (r : TxRequest) : r.Safe seq ↔ r.Fits := by
  cases r with
  | output p legal =>
      have short : p.totLen < 65000 := by
        unfold mtu at legal
        omega
      exact eventNetTx_built_iff seq _ short
  | outputFrame frame len admitted =>
      have short : len ≤ 4018 := by
        have limit := maxFrameLen_eq
        unfold admits at admitted
        have range := (Bool.and_eq_true _ _ ▸ admitted).2
        split at range
        · have bound := of_decide_eq_true (Bool.and_eq_true _ _ ▸ range).2
          omega
        · have bound := of_decide_eq_true range
          omega
      have built := eventNetTx_built_iff seq frame (show len < 65000 by omega)
      simp only [TxRequest.Safe, TxRequest.Fits, Cyw43.outputFrame, if_neg (show ¬ len > 65535 - ethPadSize by
        unfold ethPadSize; omega), Option.some.injEq, exists_eq_left']
      exact built
  | ioctl site =>
      exact iff_of_true ⟨site.fits, site.call.puts_within site.fits⟩ trivial

theorem zeros_short (n : Nat) (short : n < 2 ^ 16) : ([List.replicate n 0] : List (List Byte)).flatten.length < 2 ^ 16 := by
  simpa using short

def zeros (n : Nat) (short : n < 2 ^ 16) : Pbuf := ⟨[List.replicate n 0], zeros_short n short⟩

theorem zeros_totLen (n : Nat) (short : n < 2 ^ 16) : (zeros n short).totLen = n := by
  simp [zeros, Pbuf.totLen, Pbuf.bytes]

/-- The padding of a frame of 2047 bytes goes over the end of `tx_msg`. -/
theorem TxRequest.overrun :
    ∃ legal, ¬ (TxRequest.output (zeros 2047 (by decide)) legal).Safe 0 ∧
      Put.At (Cyw43.output 0 (zeros 2047 (by decide))).puts sizeofTxMsg := by
  generalize long : zeros 2047 (by decide) = p
  have length : p.totLen = 2047 := by rw [← long, zeros_totLen]
  have size : p.totLen + ethPadSize = 2047 := by rw [length, ethPadSize]
  refine ⟨by rw [length]; decide, fun safe => ?_, ?_⟩
  · have fits : p.totLen ≤ 2046 := (eventNetTx_built_iff 0 _ (by omega)).mp safe
    omega
  · obtain ⟨put, member, inside⟩ :=
      ((padWord_eq 3 (txDataOffset + 2047) (by decide)).2 sizeofTxMsg).mpr (by decide)
    rw [Cyw43.output, size]
    exact ⟨put, List.mem_append_right _ member, inside⟩

end QNEthernet.Drivers.Cyw43
