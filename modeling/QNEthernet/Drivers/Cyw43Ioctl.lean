import Mathlib.Tactic
import QNEthernet.Lwip.Pbuf

/-! `ioctl_cmd` and `ioctl_cmd_poll_device`: a request is numbered and written, and the frames that the
chip then delivers are looked through for its response. -/

namespace QNEthernet.Drivers.Cyw43

open Lwip

def ioctlPollMsec : Int := 2

/-- One pass of the polling loop. Either the interrupt status shows nothing, or a header of two halves
is read, and then the rest of the frame; `ok` is what that read returns. -/
inductive Pass where
  | quiet
  | response (len notlen : BitVec 16) (ok : Bool) (bytes : List Byte)
  deriving DecidableEq

/-- `ioctl_rxmsg`, by offset. What is written behind its end is not kept apart. -/
abbrev Message := Nat → Byte

def Message.poke (rsp : Message) (start : Nat) (bytes : List Byte) : Message :=
  fun i => if start ≤ i then bytes.getD (i - start) (rsp i) else rsp i

/-- The header is followed by 8 bytes of `sw_header`, the second of which is the channel, and by `cmd`,
`outlen` and `inlen`. -/
def Message.flags (rsp : Message) : BitVec 32 :=
  (rsp 23).toBitVec ++ (rsp 22).toBitVec ++ (rsp 21).toBitVec ++ (rsp 20).toBitVec

def Message.data (rsp : Message) (dlen : Nat) : List Byte := (List.range dlen).map fun i => rsp (28 + i)

def headerBytes (len notlen : BitVec 16) : List Byte :=
  [.ofBitVec (len.setWidth 8), .ofBitVec ((len >>> 8).setWidth 8),
    .ofBitVec (notlen.setWidth 8), .ofBitVec ((notlen >>> 8).setWidth 8)]

/-- The message once the header and the rest of a frame have been read into it. -/
def Message.read (rsp : Message) (len notlen : BitVec 16) (bytes : List Byte) : Message :=
  (rsp.poke 0 (headerBytes len notlen)).poke 4 bytes

/-- What a call returns, the caller's buffer, and how many passes were made. -/
structure IoctlResult where
  ret : Nat
  data : List Byte
  passes : Nat
  deriving DecidableEq

/-- The loop of `ioctl_cmd_poll_device`; the list has a pass for each turn that the time allows. -/
def pollDevice (reqid : BitVec 16) (wr : Bool) : List Pass → Message → List Byte → IoctlResult
  | [], _, data => { ret := 0, data := data, passes := 0 }
  | .quiet :: rest, rsp, data =>
      let r := pollDevice reqid wr rest rsp data
      { r with passes := r.passes + 1 }
  | .response len notlen ok bytes :: rest, rsp, data =>
      -- no packets
      if len = 0 ∧ notlen = 0 then { ret := 1, data := data, passes := 1 }
      -- header mismatch
      else if len ^^^ notlen ≠ 0xffff then { ret := 0, data := data, passes := 1 }
      else
        let rsp := rsp.read len notlen bytes
        let ret := if rsp.flags >>> 16 ≠ reqid.setWidth 32 then 0 else ok.toNat
        if ret ≠ 0 ∧ rsp.flags &&& 1 ≠ 0 then { ret := 0, data := data, passes := 1 }
        else
          let data := if ret ≠ 0 ∧ ¬ wr ∧ data ≠ [] then rsp.data data.length else data
          if ret ≠ 0 then { ret := ret, data := data, passes := 1 }
          else
            let r := pollDevice reqid wr rest rsp data
            { r with passes := r.passes + 1 }

/-- The passes that a wait of so many milliseconds allows. -/
def turns (waitMsec : Int) : Nat := (waitMsec / ioctlPollMsec + 1).toNat

/-- `ioctl_cmd` after `reqid` requests, on a buffer of `data.length` bytes. -/
def ioctlCmd (reqid : BitVec 16) (wr : Bool) (waitMsec : Int) (chip : Nat → Pass) (data : List Byte) :
    IoctlResult :=
  pollDevice (reqid + 1) wr ((List.range (turns waitMsec)).map chip) (fun _ => 0) data

/-- A frame by itself: its channel, the number of the request that it answers, and its error flag. -/
def frameChan (bytes : List Byte) : Option Byte := bytes[1]?

/-- The data of a frame, if it has as much as the caller wants. -/
def Pass.data (dlen : Nat) : Pass → List Byte
  | .quiet => []
  | .response _ _ _ bytes => (bytes.drop 24).take dlen

/-- The call is not ended by an empty header, and a frame that is taken for the response is a control
frame that holds its own id and, for a read, all the data. -/
def Answered (reqid : BitVec 16) (wr : Bool) (dlen : Nat) : List Pass → Message → Prop
  | [], _ => True
  | .quiet :: rest, rsp => Answered reqid wr dlen rest rsp
  | .response len notlen ok bytes :: rest, rsp =>
      if len = 0 ∧ notlen = 0 then False
      else if len ^^^ notlen ≠ 0xffff then True
      else if ok ∧ (rsp.read len notlen bytes).flags >>> 16 = reqid.setWidth 32 then
        (rsp.read len notlen bytes).flags &&& 1 = 0 →
          20 ≤ bytes.length ∧ frameChan bytes = some 0 ∧ (wr = false → dlen ≤ bytes.length - 24)
      else Answered reqid wr dlen rest (rsp.read len notlen bytes)

section Frame

variable (rsp : Message) (len notlen : BitVec 16) (bytes : List Byte)

end Frame

variable {reqid : BitVec 16} {wr : Bool}

section Taken

variable {len notlen : BitVec 16} {ok : Bool} {bytes data : List Byte} {rsp : Message}

end Taken

end QNEthernet.Drivers.Cyw43
