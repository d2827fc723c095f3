import QNEthernet.Udp.Model

/-! What the receive side of an `EthernetUDP` is for: a bounded queue of datagrams, the packet made
current last and the bytes of it that are unread. -/

namespace QNEthernet.Udp

open Internal Lwip

def Packet.ofDatagram (q : UdpPcb) (d : Datagram) : Packet where
  diffServ := q.tos
  ttl := q.ttl
  data := d.p.bytes
  addr := d.addr
  port := d.port
  destAddr := d.dest
  receivedTimestamp := d.now

/-- Why a packet left the queue: `parsePacket` took it, or it was the oldest when another arrived at
a full queue, or it was among the oldest that did not fit a smaller capacity. -/
inductive Fate where
  | returned | overwritten | cut
  deriving DecidableEq

/-- What a run asks of the receive side of one object. `noPcb` is a `parsePacket` without a block,
and `restart` a `begin` that resets the counters. -/
inductive Action where
  | arrive (q : UdpPcb) (d : Datagram)
  | resize (capacity : Nat)
  | restart
  | parse
  | noPcb
  | available
  | peek
  | readOne
  | read (len : Nat)

namespace Action

def arrival : Action → Option Packet
  | .arrive q d => some (.ofDatagram q d)
  | _ => none

def parses : Action → Bool
  | .parse => true
  | _ => false

end Action

/-- What a call returns, and the bytes that `read(buf, n)` copies. -/
inductive Answer where
  | parsed (ret : Int)
  | available (ret : Int)
  | peeked (ret : Int)
  | readOne (ret : Int)
  | read (bytes : List Byte)
  deriving DecidableEq

def Answer.bytes : Answer → List Byte
  | .readOne (.ofNat b) => [b.toUInt8]
  | .read bytes => bytes
  | _ => []

structure Mailbox where
  queue : Fifo Packet
  packet : Packet := {}
  unread : List Byte := []
  gone : List (Fate × Packet) := []

def headOr : List Byte → Int
  | [] => -1
  | b :: _ => b.toNat

namespace Mailbox

def init (capacity : Nat) : Mailbox where
  queue := { capacity := max capacity 1, items := [], positive := Fifo.clamp_pos capacity, bounded := Fifo.nil_le_clamp capacity }

def serve (m : Mailbox) : Action → Mailbox
  | .arrive q d =>
      { m with
        queue := m.queue.push (.ofDatagram q d)
        gone := m.gone ++ (Fifo.displaced m.queue.capacity 1 m.queue.items).map (.overwritten, ·) }
  | .resize capacity =>
      { m with
        queue := m.queue.resize capacity
        gone := m.gone ++ (Fifo.displaced (max capacity 1) 0 m.queue.items).map (.cut, ·) }
  | .parse =>
      match m.queue.pop with
      | none => { m with unread := [] }
      | some (oldest, rest) =>
          { queue := rest, packet := oldest, unread := oldest.data, gone := m.gone ++ [(.returned, oldest)] }
  | .readOne => { m with unread := m.unread.drop 1 }
  | .read len => { m with unread := m.unread.drop len }
  | .restart | .noPcb | .available | .peek => m

def answer (m : Mailbox) : Action → List Answer
  | .arrive _ _ | .resize _ | .restart => []
  | .parse =>
      match m.queue.items with
      | [] => [.parsed (-1)]
      | oldest :: _ => [.parsed oldest.data.length]
  | .noPcb => [.parsed (-1)]
  | .available => [.available m.unread.length]
  | .peek => [.peeked (headOr m.unread)]
  | .readOne => [.readOne (headOr m.unread)]
  | .read len => [.read (m.unread.take len)]

def makes (m : Mailbox) : Action → List Packet
  | .parse => m.queue.items.take 1
  | _ => []

def run (m : Mailbox) (actions : List Action) : Mailbox := actions.foldl serve m

def answers (m : Mailbox) (actions : List Action) : List Answer := Run.outputs serve answer m actions

def current (m : Mailbox) (actions : List Action) : List Packet := Run.outputs serve makes m actions

end Mailbox

/-- The packets returned to the program, in order. -/
def returned (gone : List (Fate × Packet)) : List Packet :=
  gone.filterMap fun entry => if entry.1 = .returned then some entry.2 else none

@[simp] theorem returned_append (gone more : List (Fate × Packet)) :
    returned (gone ++ more) = returned gone ++ returned more := List.filterMap_append

@[simp] theorem returned_map_overwritten (packets : List Packet) :
    returned (packets.map (.overwritten, ·)) = [] := by
  simp [returned]

@[simp] theorem returned_map_cut (packets : List Packet) :
    returned (packets.map (.cut, ·)) = [] := by
  simp [returned]

theorem returned_sublist (gone : List (Fate × Packet)) :
    (returned gone).Sublist (gone.map Prod.snd) := by
  induction gone with
  | nil => exact List.Sublist.slnil
  | cons entry gone ih =>
      by_cases taken : entry.1 = .returned
      · simpa [returned, taken] using ih.cons_cons entry.2
      · simpa [returned, taken] using ih.cons entry.2

@[simp] theorem map_snd_map_mk (fate : Fate) (packets : List Packet) :
    (packets.map (fate, ·)).map Prod.snd = packets := by
  simp [Function.comp_def]

theorem headOr_bytes (unread : List Byte) :
    (Answer.readOne (headOr unread)).bytes ++ unread.drop 1 = unread := by
  cases unread with
  | nil => rfl
  | cons b rest => simp [headOr, Answer.bytes]

namespace Mailbox

theorem pop_some {q rest : Fifo Packet} {oldest : Packet} (popped : q.pop = some (oldest, rest)) :
    q.items = oldest :: rest.items := by
  unfold Fifo.pop at popped
  split at popped
  next => cases popped
  next x items found =>
    cases popped
    exact found

theorem pop_none {q : Fifo Packet} (popped : q.pop = none) : q.items = [] := by
  unfold Fifo.pop at popped
  split at popped
  next found => exact found
  next => cases popped

theorem pop_empty {q : Fifo Packet} (empty : q.items = []) : q.pop = none := by
  unfold Fifo.pop
  split
  next => rfl
  next x items found =>
    rw [empty] at found
    cases found

theorem serve_arrivals (m : Mailbox) (action : Action) :
    (m.serve action).gone.map Prod.snd ++ (m.serve action).queue.items =
      m.gone.map Prod.snd ++ m.queue.items ++ action.arrival.toList := by
  cases action with
  | arrive q d =>
      simp only [serve, Action.arrival, Option.toList_some, Fifo.push, List.map_append, map_snd_map_mk]
      rw [List.append_assoc, ← List.append_assoc (Fifo.displaced _ _ _),
        Fifo.displaced_append_kept, List.append_assoc]
  | resize capacity =>
      simp only [serve, Action.arrival, Option.toList_none, List.append_nil, Fifo.resize,
        List.map_append, map_snd_map_mk]
      rw [List.append_assoc, Fifo.displaced_append_kept]
  | parse =>
      simp only [serve, Action.arrival, Option.toList_none, List.append_nil]
      split
      next => rfl
      next oldest rest popped => simp [pop_some popped]
  | restart | noPcb | available | peek | readOne | read =>
      simp [serve, Action.arrival]

theorem serve_returned (m : Mailbox) (action : Action) :
    returned (m.serve action).gone = returned m.gone ++ m.makes action := by
  cases action with
  | parse =>
      simp only [serve, makes]
      split
      next popped => simp [pop_none popped]
      next oldest rest popped => simp [pop_some popped, returned]
  | arrive | resize | restart | noPcb | available | peek | readOne | read =>
      simp [serve, makes]

/-- Between two looks at the queue, reads take the unread bytes from the front. -/
theorem serve_unread (m : Mailbox) (action : Action) (same : action.parses = false) :
    m.unread = (m.answer action).flatMap Answer.bytes ++ (m.serve action).unread := by
  cases action with
  | parse => cases same
  | readOne =>
      rw [answer, List.flatMap_singleton]
      exact (headOr_bytes m.unread).symm
  | read len =>
      rw [answer, List.flatMap_singleton]
      exact (List.take_append_drop len m.unread).symm
  | arrive | resize | restart | noPcb | available | peek =>
      simp [answer, serve, Answer.bytes]

theorem run_arrivals (m : Mailbox) (actions : List Action) :
    (m.run actions).gone.map Prod.snd ++ (m.run actions).queue.items =
      m.gone.map Prod.snd ++ m.queue.items ++ actions.filterMap Action.arrival := by
  induction actions generalizing m with
  | nil => simp [run]
  | cons action actions ih =>
      have rest := ih (m.serve action)
      rw [serve_arrivals] at rest
      rw [run, List.foldl_cons]
      refine rest.trans ?_
      cases found : action.arrival <;> simp [found]

theorem run_returned (m : Mailbox) (actions : List Action) :
    returned (m.run actions).gone = returned m.gone ++ m.current actions := by
  induction actions generalizing m with
  | nil => simp [run, current, Run.outputs]
  | cons action actions ih =>
      have rest := ih (m.serve action)
      rw [serve_returned, List.append_assoc] at rest
      exact rest

/-- The reads of a run that makes no other packet current return the unread bytes from the first on. -/
theorem run_unread (m : Mailbox) (actions : List Action) (same : ∀ action ∈ actions, action.parses = false) :
    m.unread = (m.answers actions).flatMap Answer.bytes ++ (m.run actions).unread := by
  induction actions generalizing m with
  | nil => rfl
  | cons action actions ih =>
      have rest := ih (m.serve action) fun action' member => same action' (List.mem_cons_of_mem action member)
      have split : m.answers (action :: actions) = m.answer action ++ (m.serve action).answers actions := rfl
      rw [serve_unread m action (same action List.mem_cons_self), rest, split, List.flatMap_append,
        List.append_assoc]
      rfl

end Mailbox
end QNEthernet.Udp
