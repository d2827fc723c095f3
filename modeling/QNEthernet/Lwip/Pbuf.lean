import QNEthernet.Lib.Ring
import QNEthernet.Lib.Memory

/-! The parts of lwIP's data model that both transports share: error codes and packet buffers. -/

namespace QNEthernet.Lwip

abbrev Byte := UInt8

inductive Err where
  | ok | mem | buf | timeout | rte | inprogress | val | wouldblock | use | already
  | isconn | conn | netif | abrt | rst | clsd | arg
  deriving DecidableEq, Repr

/-- A pbuf chain: the payloads of its links. `tot_len` is a 16-bit field. -/
structure Pbuf where
  links : List (List Byte)
  short : links.flatten.length < 2 ^ 16
  deriving DecidableEq

namespace Pbuf

def bytes (p : Pbuf) : List Byte := p.links.flatten

def totLen (p : Pbuf) : Nat := p.bytes.length

theorem threeBytes_short : ([[1, 2, 3]] : List (List Byte)).flatten.length < 2 ^ 16 := by decide

end Pbuf

/-- The copy loop `v.insert(v.cend(), &data[0], &data[pNext->len])` over a chain. -/
def insertLinks (v : List Byte) : List (List Byte) → List Byte
  | [] => v
  | link :: links => insertLinks (v ++ link) links

@[simp] theorem insertLinks_eq (v : List Byte) (links : List (List Byte)) :
    insertLinks v links = v ++ links.flatten := by
  induction links generalizing v with
  | nil => simp [insertLinks]
  | cons link links ih => simp [insertLinks, ih]

/-- `pbuf_take`, over the bytes of a chain. -/
def pbufTake (p : List Byte) (dataptr : Option (Nat → Byte)) (len : Nat) : Err × List Byte :=
  match dataptr with
  | none => (.arg, p)
  | some data => if p.length < len then (.mem, p) else (.ok, Memory.window data 0 len ++ p.drop len)

/-- `pbuf_take_at` over the bytes of a chain. `pbuf_skip` finds no link for an offset at the end. -/
def pbufTakeAt (p : List Byte) (data : List Byte) (offset : Nat) : Err × List Byte :=
  if offset < p.length ∧ offset + data.length ≤ p.length then (.ok, Ring.overwrite p offset data)
  else (.mem, p)

end QNEthernet.Lwip
