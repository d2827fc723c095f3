import QNEthernet.Drivers.Port
import QNEthernet.Drivers.Cyw43Join
import QNEthernet.Drivers.Cyw43Ioctl

/-! The frames that the chip queues. -/

namespace QNEthernet.Drivers.Cyw43

open Lwip

def ioctlMaxBlklen : Nat := 512
def maxFrameLen : Nat := Port.cyw4343w.maxFrameLen
def rxDataLen : Nat := 2048

def chanCtrl : Byte := 0
def chanEvt : Byte := 1
def chanData : Byte := 2

theorem maxFrameLen_eq : maxFrameLen = 4018 := rfl

/-- A frame in the chip: the software header of 8 bytes, and what follows it. -/
structure RadioFrame where
  seq : Byte := 0
  chan : Byte
  more : Vector Byte 6 := .replicate 6 0
  data : List Byte
  short : 12 + data.length < 2 ^ 16
  deriving DecidableEq

def RadioFrame.len (f : RadioFrame) : BitVec 16 := BitVec.ofNat 16 (12 + f.data.length)

def RadioFrame.header (f : RadioFrame) : List Byte :=
  headerBytes f.len (~~~f.len) ++ f.seq :: f.chan :: f.more.toList

def RadioFrame.raw (f : RadioFrame) : List Byte := f.header ++ f.data

section Header

theorem halves_append (w : Nat) (x : BitVec (w + w)) : (x >>> w).setWidth w ++ x.setWidth w = x := by
  apply BitVec.eq_of_getLsbD_eq
  intro i inside
  simp only [BitVec.getLsbD_append, BitVec.getLsbD_setWidth, BitVec.getLsbD_ushiftRight]
  split
  · next low => rw [decide_eq_true low, Bool.true_and]
  · next high =>
      rw [decide_eq_true (show i - w < w by omega), Bool.true_and]
      congr 1
      omega

variable (len notlen : BitVec 16) (rest : List Byte)

theorem load16_len : load16 (headerBytes len notlen ++ rest) 0 = len := halves_append 8 len

theorem load16_notlen : load16 (headerBytes len notlen ++ rest) 2 = notlen := halves_append 8 notlen

variable (f : RadioFrame)

theorem toNat_len : f.len.toNat = 12 + f.data.length := by
  have short := f.short
  rw [RadioFrame.len, BitVec.toNat_ofNat]
  omega

theorem length_header : f.header.length = 12 := by
  simp [RadioFrame.header, headerBytes]

theorem length_raw : f.raw.length = 12 + f.data.length := by
  rw [RadioFrame.raw, List.length_append, length_header]

theorem xor_not_len : f.len ^^^ ~~~f.len = 0xffff := by
  rw [← BitVec.not_xor_right, BitVec.xor_self]
  rfl

theorem len_eq_xor : f.len = ~~~f.len ^^^ 0xffff := by
  rw [show (0xffff : BitVec 16) = BitVec.allOnes 16 from rfl, BitVec.xor_allOnes, BitVec.not_not]

end Header

end QNEthernet.Drivers.Cyw43
