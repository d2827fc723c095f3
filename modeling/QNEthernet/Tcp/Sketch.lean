import QNEthernet.Tcp.ClientCalls
import QNEthernet.Tcp.Holding

/-! The calls of `EthernetServer`, and every call of a sketch, taken apart into moves. -/

namespace QNEthernet.Tcp

open Lwip World

namespace EthernetServer

variable {r : Rules} {w s : World}

theorem endListening_stays (good : Good r.safe r.clean w) (i : Nat)
    (moves : Moves r w s) : Stays r w (endListening i s) := by
  unfold endListening
  split
  · apply (ConnectionManager.stopListening_stays good _ moves).bind
    exact fun _ s' kept => Stays.done () (kept.step (.server i _))
  · exact Stays.done () moves

theorem startListening_stays (i : Nat) (port : UInt16) (reuse : Bool) (attempt : Attempt)
    (moves : Moves r w s) :
    Stays r w (startListening i port reuse attempt s) := by
  unfold startListening
  apply (ConnectionManager.listen_stays port attempt moves).bind
  intro p s' kept
  cases p with
  | none => exact Stays.done false kept
  | some value =>
      dsimp only
      split
      · exact Stays.done true (kept.step (.server i _))
      · exact Stays.done false kept

theorem beginListening_stays (good : Good r.safe r.clean w) (i : Nat)
    (port : UInt16) (reuse : Bool) (attempt : Attempt) (moves : Moves r w s) :
    Stays r w (beginListening i port reuse attempt s) := by
  unfold beginListening
  split
  · split
    · exact Stays.done true moves
    · apply (endListening_stays good i moves).bind
      exact fun _ s' kept => startListening_stays i port reuse attempt kept
  · exact startListening_stays i port reuse attempt moves

theorem accept_stays (good : Good r.safe r.clean w) (given : r.accepts) (i c : Nat)
    (owning : Owning r w c) (moves : Moves r w s) :
    Stays r w (accept i c s) := by
  unfold accept
  split
  · have looked := findUnacknowledged_moves (s.server i).listeningPort moves
    dsimp only
    apply Stays.loop looked
    intro s' later
    split
    · exact Stays.done none ((looked.trans later).step (.client c {} (by simp)))
    next h found =>
      have present := findUnacknowledged_present found
      have passed := (findUnacknowledged_moves (s.server i).listeningPort (Moves.refl s)).trans later
      have born : h < s'.nextHolder :=
        ((moves.good good).born present).trans_le (passed.later (moves.good good)).nextHolder
      have returned := (looked.trans later).step (.accept h (s.server i).listeningPort given)
      apply Stays.done
      apply returned.step
      apply Move.client
      intro h' known
      cases known
      exact .inr ⟨born, owning.found s h moves present⟩
  · exact Stays.done none (moves.step (.client c {} (by simp)))

theorem available_stays (good : Good r.safe r.clean w) (i c : Nat) (owning : Owning r w c)
    (moves : Moves r w s) :
    Stays r w (available i c s) := by
  unfold available
  split
  · have looked := findAvailable_moves (s.server i).listeningPort moves
    dsimp only
    apply Stays.loop looked
    intro s' later
    apply Stays.done
    apply (looked.trans later).step
    apply Move.client
    intro h found
    have present := findAvailable_present found
    have passed := (findAvailable_moves (s.server i).listeningPort (Moves.refl s)).trans later
    have born : h < s'.nextHolder :=
      ((moves.good good).born present).trans_le (passed.later (moves.good good)).nextHolder
    exact .inr ⟨born, owning.found s h moves present⟩
  · exact Stays.done none (moves.step (.client c {} (by simp)))

theorem write_stays (i size : Nat) (moves : Moves r w s) :
    Stays r w (write i size s) := by
  unfold write
  split
  · exact Stays.done size moves
  · apply (ConnectionManager.useConnections_stays _ moves).bind
    exact fun _ _ kept => Stays.loop kept fun _ later => kept.trans later

theorem availableForWrite_stays (i : Nat) (moves : Moves r w s) :
    Stays r w (availableForWrite i s) := by
  unfold availableForWrite
  split
  · exact Stays.done () moves
  · exact ConnectionManager.useConnections_stays _ moves

theorem flush_stays (i : Nat) (moves : Moves r w s) :
    Stays r w (flush i s) := by
  unfold flush
  split
  · exact Stays.done () moves
  · apply (ConnectionManager.useConnections_stays _ moves).bind
    exact fun _ _ kept => Stays.loop kept fun _ later => kept.trans later

end EthernetServer

variable {r : Rules} {w w' : World}

/-- The calls that take a part of the rules. -/
def Op.accepts : Op → Bool
  | .accept _ _ => true
  | _ => false

def Op.halfCloses : Op → Bool
  | .closeOutput _ _ => true
  | _ => false

structure Ready (r : Rules) (w : World) : Prop where
  good : Good r.safe r.clean w
  held : Held w
  begun : EthernetClient.Begun r w
  owning : ∀ c, Owning r w c

theorem Op.call_stays (ready : Ready r w) (op : Op) (accepts : op.accepts → r.accepts)
    (halfCloses : op.halfCloses → r.halfCloses) : Stays r w (op.call w) := by
  have start : Moves r w w := Moves.refl w
  rcases ready with ⟨good, born, begun, owning⟩
  have held (c : Nat) : ∀ h, (w.client c).conn = some h → r.owns c h := (owning c).held c
  cases op with
  | loop => exact Stays.loop start fun _ later => later
  | connect c ipaddr attempt wait clock =>
      exact (EthernetClient.connect_stays good good begun c (owning c).found ipaddr attempt wait clock start).forget
  | connecting c => exact (EthernetClient.connecting_stays c start).forget
  | connected c => exact (EthernetClient.connected_stays c start).forget
  | operatorBool c => exact (EthernetClient.operatorBool_stays c start).forget
  | close c => exact (EthernetClient.close_stays good begun c false [] start).forget
  | stop c clock => exact (EthernetClient.stop_stays good begun c clock start).forget
  | closeOutput c finOk => exact EthernetClient.closeOutput_stays (halfCloses rfl) c finOk start
  | abort c => exact EthernetClient.abort_stays c start
  | localPort c => exact (EthernetClient.localPort_stays c start).forget
  | useState c => exact EthernetClient.useState_stays c start
  | write c size sndBufSize sndBufSize' err =>
      exact (EthernetClient.write_stays c size sndBufSize sndBufSize' err start).forget
  | availableForWrite c sndBufSize =>
      exact (EthernetClient.availableForWrite_stays c sndBufSize start).forget
  | flush c => exact EthernetClient.flush_stays c start
  | available c => exact (EthernetClient.available_stays c (held c) start).forget
  | read c => exact (EthernetClient.read_stays c (held c) start).forget
  | readBuf c buf size => exact (EthernetClient.readBuf_stays c buf size (held c) start).forget
  | peek c => exact (EthernetClient.peek_stays c (held c) start).forget
  | setConnectionTimeout c timeout enabled =>
      exact Stays.done () (start.step (.client c _ fun _ => .inl))
  | copy c c' => exact Stays.done () (start.step (.client c' _ fun h own =>
        .inr ⟨born c h own, (owning c').held c h own⟩))
  | move c c' =>
      exact Stays.done ()
        ((EthernetClient.dropConn_moves c start).step (.client c' _ fun h own =>
        .inr ⟨born c h own, (owning c').held c h own⟩))
  | beginListening s port reuse attempt =>
      exact (EthernetServer.beginListening_stays good s port reuse attempt start).forget
  | endListening s => exact EthernetServer.endListening_stays good s start
  | accept s c => exact (EthernetServer.accept_stays good (accepts rfl) s c (owning c) start).forget
  | serverAvailable s c => exact (EthernetServer.available_stays good s c (owning c) start).forget
  | serverWrite s size => exact (EthernetServer.write_stays s size start).forget
  | serverAvailableForWrite s => exact EthernetServer.availableForWrite_stays s start
  | serverFlush s => exact EthernetServer.flush_stays s start
  | moveServer s s' => exact Stays.done () (start.step (.server s' _))
  | abortAll => exact ConnectionManager.abortAll_stays start

theorem loop_moves (events : List LwipEvent) (quiet : Run.Allowed (Quiet r.safe r.clean) lwip w events) :
    Moves r w (w.loop events) := by
  apply Run.allowed_preserves (fun w' => Moves r w w') _ _ _ events w quiet (Moves.refl w)
  exact fun w' event calm moves => moves.step (.event event calm)

theorem answer_answered (request : Request) (turn : Turn) (w : World)
    (permitted : Permitted r.safe r.clean request turn w) :
    Answered r request w (w.answer request turn).1 (w.answer request turn).2 := by
  cases request with
  | loop => exact ⟨loop_moves turn.events permitted, (loop_aside w _).client⟩
  | alloc => exact ⟨loop_moves _ permitted, (loop_aside w _).client⟩
  | close p => exact ⟨rfl, ⟨turn.finOk, rfl⟩, permitted⟩
  | abort p => exact ⟨rfl, permitted⟩

def Step.Permitted (safe clean : Prop) (w : World) (s : Step) : Prop :=
  (s.op.call w).Meets answer (Tcp.Permitted safe clean) s.turns

theorem step_moves (ready : Ready r w) (s : Step) (accepts : s.op.accepts → r.accepts)
    (halfCloses : s.op.halfCloses → r.halfCloses) (permitted : s.Permitted r.safe r.clean w) :
    Moves r w (w.step s) :=
  (s.op.call_stays ready accepts halfCloses).run
    (fun request turn w' permitted _ => answer_answered request turn w' permitted) s.turns permitted

theorem Owning.of_all (all : ∀ c h, r.owns c h) (c : Nat) : Owning r w c :=
  ⟨fun _ h _ _ => all c h, fun _ h _ => all c h⟩

theorem start_good (mtu : Nat) {safe clean : Prop} : Good safe clean ({ mtu } : World) where
  pools := by constructor <;> simp [List.nodup_range]
  linked := by constructor <;> simp
  alive := by simp
  unmisused := fun _ => rfl

end QNEthernet.Tcp
