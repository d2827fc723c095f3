import Mathlib.Tactic
import QNEthernet.Lwip.Pbuf

/-! What the parts of `drivers/driver_teensy41.cpp` share: sizes, states and buffer descriptors. -/

namespace QNEthernet.Drivers.Teensy41

open Lwip

def ethPadSize : Nat := 2
def kBufSize : Nat := ((ethPadSize + 6 + 6 + 2 + 2 + 2 + 1500 + 4) + 63) / 64 * 64

theorem one_le_kBufSize : 1 ≤ kBufSize := by decide

inductive InitStates where
  | start | noHardware | hasHardware | phyInitialized | initialized
  deriving DecidableEq

/-- The fields in use, and the bytes of the buffer; `control` is `status` on the receive side. -/
structure BufferDescriptor where
  length : Nat
  control : BitVec 16
  buffer : List Byte

def kWrap : BitVec 16 := 0x2000

def bits (field mask : BitVec 16) : Bool := field &&& mask != 0

theorem bits_twoPow (field : BitVec 16) (k : Nat) : bits field (BitVec.twoPow 16 k) = field.getLsbD k := by
  rw [bits, BitVec.and_twoPow, Bool.eq_iff_iff, bne_iff_ne]
  split
  · rename_i set
    have inside : k < 16 := BitVec.lt_of_getLsbD set
    simp only [set, iff_true]
    intro zero
    have bit := congrArg (BitVec.getLsbD · k) zero
    simp [inside] at bit
  · simp_all

theorem wrap_eq (control : BitVec 16) : bits control kWrap = control.getLsbD 13 :=
  bits_twoPow control 13

def nextBD (bd : BufferDescriptor) (pBD : Nat) : Nat := if bits bd.control kWrap then 0 else pBD + 1

/-- The ring of `n` descriptors has its wrap bit on the last one alone. -/
def Wraps (n : Nat) (ring : Nat → BufferDescriptor) : Prop :=
  ∀ i < n, bits (ring i).control kWrap = true ↔ i + 1 = n

theorem Wraps.nextBD {n : Nat} {ring : Nat → BufferDescriptor} (wraps : Wraps n ring) {i : Nat}
    (bound : i < n) : Teensy41.nextBD (ring i) i = if i + 1 = n then 0 else i + 1 := by
  have wrap := wraps i bound
  unfold Teensy41.nextBD
  by_cases last : i + 1 = n
  · rw [if_pos (wrap.mpr last), if_pos last]
  · rw [if_neg (by simpa [last] using wrap), if_neg last]

theorem Wraps.update {n : Nat} {ring : Nat → BufferDescriptor} (wraps : Wraps n ring) (i : Nat)
    {bd : BufferDescriptor} (same : bits bd.control kWrap = bits (ring i).control kWrap) :
    Wraps n (Function.update ring i bd) := by
  intro j bound
  by_cases here : j = i
  · subst here
    rw [Function.update_self, same]
    exact wraps j bound
  · rw [Function.update_of_ne here]
    exact wraps j bound

/-- Every descriptor has its own buffer of `kBufSize` bytes. -/
def Sized (ring : Nat → BufferDescriptor) : Prop := ∀ i, (ring i).buffer.length = kBufSize

theorem Sized.update {ring : Nat → BufferDescriptor} (sized : Sized ring) (i : Nat)
    {bd : BufferDescriptor} (same : bd.buffer.length = kBufSize) : Sized (Function.update ring i bd) := by
  intro j
  by_cases here : j = i
  · rw [here, Function.update_self, same]
  · rw [Function.update_of_ne here, sized j]

end QNEthernet.Drivers.Teensy41
