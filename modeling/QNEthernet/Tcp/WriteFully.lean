import QNEthernet.Tcp.Accept
import QNEthernet.Util.PrintUtils

/-! `EthernetClient::write` with its data, and `writeFully`. -/

namespace QNEthernet.Tcp

open Lwip World Partial Util

/-- A call of `altcp_write`, for a connection and a block. It takes all the bytes or, after an error, none. -/
structure AltcpWrite where
  holder : Nat
  pcb : Nat
  bytes : List Byte
  err : Err
  deriving DecidableEq

def AltcpWrite.accepted (call : AltcpWrite) : List Byte := if call.err = .ok then call.bytes else []

/-- What lwIP answers a write: the room before and after a flush, and the error. -/
structure SendRoom where
  sndBufSize : UInt16 := 0
  sndBufSize' : UInt16 := 0
  err : Err := .ok
  deriving Inhabited

structure Written where
  size : Nat := 0
  call : Option AltcpWrite := none
  deriving DecidableEq

namespace EthernetClient

/-- `altcp_write` and its error. -/
def altcpWrite (h p : Nat) (buf : List Byte) (actualSize : Nat) (err : Err) : Written :=
  if actualSize > 0 then
    { size := if err ≠ .ok then 0 else actualSize
      call := some { holder := h, pcb := p, bytes := buf.take actualSize, err := err } }
  else { size := actualSize }

/-- Once the room is known. -/
def pass (h p : Nat) (buf : List Byte) (sndBufSize : UInt16) (err : Err) (w : World) : TcpCall Written :=
  -- Adjust the size to be the proper type
  let actualSize := min buf.length sndBufSize.toNat % 2 ^ 16
  Ethernet.loop (w.touch p) (.done (altcpWrite h p buf actualSize err))

def writeBytes (c : Nat) (buf : List Byte) (room : SendRoom) (w : World) : TcpCall Written :=
  (operatorBool c w).bind fun ok w =>
    match openState c ok w with
    | none => .done {} w
    | some (h, state) =>
        if buf.length = 0 then Ethernet.loop w (.done {})
        else if room.sndBufSize.toNat = 0 then
          Ethernet.loop (w.touch state.pcb) fun w =>
            match (w.holder h).state with
            | none => .done {} w
            | some state => pass h state.pcb buf room.sndBufSize' room.err w
        else pass h state.pcb buf room.sndBufSize room.err w

variable {w s : World} {c : Nat}

theorem altcpWrite_size (h p : Nat) (buf : List Byte) (actualSize : Nat) (err : Err) :
    (altcpWrite h p buf actualSize err).size = if err = .ok then actualSize else 0 := by
  by_cases fine : err = .ok
  · by_cases some : actualSize > 0 <;> simp [altcpWrite, fine, some]
  · by_cases some : actualSize > 0
    · simp [altcpWrite, fine, some]
    · simp [altcpWrite, fine, Nat.eq_zero_of_not_pos some]

theorem altcpWrite_accepted (h p : Nat) (buf : List Byte) (actualSize : Nat) (err : Err) :
    (altcpWrite h p buf actualSize err).call.toList.flatMap AltcpWrite.accepted =
      buf.take (altcpWrite h p buf actualSize err).size := by
  by_cases some : actualSize > 0
  · by_cases fine : err = .ok <;> simp [altcpWrite, AltcpWrite.accepted, fine, some]
  · simp [altcpWrite, Nat.eq_zero_of_not_pos some]

theorem altcpWrite_call {h p : Nat} {buf : List Byte} {actualSize : Nat} {err : Err} {call : AltcpWrite}
    (made : call ∈ (altcpWrite h p buf actualSize err).call) : call.holder = h ∧ call.pcb = p := by
  unfold altcpWrite at made
  split at made
  · cases made
    exact ⟨rfl, rfl⟩
  · cases made

theorem pass_size (h p : Nat) (buf : List Byte) (sndBufSize : UInt16) (err : Err) (w : World) :
    ((pass h p buf sndBufSize err w).bind fun written w => .done written.size w) =
      Ethernet.loop (w.touch p) (.done (if err = .ok then min buf.length sndBufSize.toNat else 0)) := by
  have short : min buf.length sndBufSize.toNat % 2 ^ 16 = min buf.length sndBufSize.toNat :=
    Nat.mod_eq_of_lt ((Nat.min_le_right _ _).trans_lt sndBufSize.toNat_lt)
  simp only [pass, short, Ethernet.loop, Call.bind, altcpWrite_size]

theorem writeBytes_size (c : Nat) (buf : List Byte) (room : SendRoom) (w : World) :
    ((writeBytes c buf room w).bind fun written w => .done written.size w) =
      write c buf.length room.sndBufSize.toNat room.sndBufSize'.toNat room.err w := by
  rw [writeBytes, write, Call.bind_assoc]
  congr 1
  funext ok w₁
  cases openState c ok w₁ with
  | none => rfl
  | some found =>
      obtain ⟨h, state⟩ := found
      dsimp only
      by_cases empty : buf.length = 0
      · rw [if_pos empty, if_pos empty]
        rfl
      · rw [if_neg empty, if_neg empty]
        by_cases full : room.sndBufSize.toNat = 0
        · rw [if_pos full, if_pos full]
          simp only [Ethernet.loop, Call.bind]
          congr 1
          funext _ w₂
          cases (w₂.holder h).state with
          | none => rfl
          | some state' => exact pass_size h state'.pcb buf _ _ w₂
        · rw [if_neg full, if_neg full]
          exact pass_size h state.pcb buf _ _ w₁

/-- The client keeps the connection it has, or drops it. -/
def Holds (c : Nat) (w s : World) : Prop := ∀ h, (s.client c).conn = some h → (w.client c).conn = some h

theorem Holds.refl (c : Nat) (w : World) : Holds c w w := fun _ => id

theorem Holds.of_client {s' : World} (holds : Holds c w s) (same : s'.client = s.client) : Holds c w s' := by
  intro h conn
  rw [same] at conn
  exact holds h conn

theorem Holds.dropConn (w s : World) : Holds c w (s.dropConn c) := by
  intro h conn
  simp [World.dropConn, setClient] at conn

theorem watchPendingConnect_holds (h : Nat) (holds : Holds c w s) :
    Ends (watchPendingConnect c h s) fun _ s' => Holds c w s' := by
  unfold watchPendingConnect
  split
  · exact Holds.dropConn w s
  · have pending : Holds c w (s.setClient c { s.client c with pendingConnect := !(s.holder h).connected }) := by
      intro h' conn
      exact holds h' (by simpa [setClient] using conn)
    exact ⟨trivial, fun _ _ answered => pending.of_client answered.2⟩

theorem operatorBool_holds (holds : Holds c w s) : Ends (operatorBool c s) fun _ s' => Holds c w s' := by
  unfold operatorBool
  split
  · exact holds
  · next h _ =>
      split
      · exact Call.Keeps.bind (watchPendingConnect_holds h holds) fun _ _ kept => kept
      · split
        · show Holds c w (if _ then s.dropConn c else s)
          split
          · exact Holds.dropConn w s
          · exact holds
        · exact ⟨trivial, fun _ _ answered => holds.of_client answered.2⟩

theorem operatorBool_ends (moves : Moves .between w s) (holds : Holds c w s) :
    Ends (operatorBool c s) fun _ s' => Moves .between w s' ∧ Holds c w s' :=
  (operatorBool_stays c moves).anywhere.and (operatorBool_holds holds)

theorem openState_conn {ok : Bool} {h : Nat} {state : ConnectionState}
    (found : openState c ok s = some (h, state)) : (s.client c).conn = some h := by
  unfold openState at found
  split at found
  · rcases Option.bind_eq_some_iff.mp found with ⟨h', conn, mapped⟩
    rcases Option.map_eq_some_iff.mp mapped with ⟨state', -, same⟩
    cases same
    exact conn
  · cases found

/-- The call went to the connection that the client had in `w`, and to the block this has at some time. -/
def ForClient (c : Nat) (w : World) (call : AltcpWrite) : Prop :=
  (w.client c).conn = some call.holder ∧
    ∃ s state, Moves .between w s ∧ (s.holder call.holder).state = some state ∧ state.pcb = call.pcb

/-- What a write of some bytes has come to. -/
structure Wrote (c : Nat) (w : World) (buf : List Byte) (written : Written) (s : World) : Prop where
  moves : Moves .between w s
  holds : Holds c w s
  atMost : written.size ≤ buf.length
  accepted : written.call.toList.flatMap AltcpWrite.accepted = buf.take written.size
  call : ∀ call ∈ written.call, ForClient c w call

theorem Wrote.nothing {buf : List Byte} (moves : Moves .between w s) (holds : Holds c w s) : Wrote c w buf {} s where
  moves := moves
  holds := holds
  atMost := Nat.zero_le _
  accepted := rfl
  call := fun _ none => by cases none

theorem pass_wrote {h : Nat} {state : ConnectionState} (moves : Moves .between w s) (holds : Holds c w s)
    (conn : (w.client c).conn = some h) (there : (s.holder h).state = some state) (buf : List Byte)
    (sndBufSize : UInt16) (err : Err) : Ends (pass h state.pcb buf sndBufSize err s) (Wrote c w buf) := by
  have used : Moves .between w (s.touch state.pcb) := moves.step (.use state.pcb fun _ => .inl ⟨h, state, there, rfl⟩)
  refine ⟨trivial, fun _ s' answered => ?_⟩
  constructor
  · exact used.trans answered.1
  · exact holds.of_client answered.2
  · rw [altcpWrite_size]
    split
    · exact (Nat.mod_le _ _).trans (Nat.min_le_left _ _)
    · exact Nat.zero_le _
  · exact altcpWrite_accepted _ _ _ _ _
  · intro call made
    obtain ⟨holder, pcb⟩ := altcpWrite_call made
    exact ⟨by rw [holder, conn], s, state, moves, by rw [holder, there], pcb.symm⟩

theorem writeBytes_wrote (moves : Moves .between w s) (holds : Holds c w s) (buf : List Byte) (room : SendRoom) :
    Ends (writeBytes c buf room s) (Wrote c w buf) := by
  refine Call.Keeps.bind (operatorBool_ends moves holds) fun ok s₁ kept => ?_
  obtain ⟨moves₁, holds₁⟩ := kept
  split
  · exact Wrote.nothing moves₁ holds₁
  · next h state found =>
      have there := openState_some found
      have conn := holds₁ h (openState_conn found)
      split
      · exact ⟨trivial, fun _ s₂ answered => Wrote.nothing (moves₁.trans answered.1) (holds₁.of_client answered.2)⟩
      · split
        · refine ⟨trivial, fun _ s₂ answered => ?_⟩
          have used := moves₁.step (.use state.pcb fun _ => .inl ⟨h, state, there, rfl⟩)
          have moves₂ := used.trans answered.1
          have holds₂ := holds₁.of_client answered.2
          -- NOTE: loop() requires a re-check of the state
          beta_reduce
          split
          · exact Wrote.nothing moves₂ holds₂
          · next state' there' => exact pass_wrote moves₂ holds₂ conn there' buf _ _
        · exact pass_wrote moves₁ holds₁ conn there buf _ _

/-- A client at work: what lwIP still does and answers, and the calls of `altcp_write` so far. -/
structure Session where
  w : World
  turns : List Turn := []
  rooms : List SendRoom := []
  calls : List AltcpWrite := []

/-- The client as a `Print`. -/
def print (c : Nat) : Print Session where
  write buf s :=
    let call := writeBytes c buf s.rooms.headI s.w
    let (written, w) := call.run answer s.turns
    (written.size,
      { w := w, turns := call.rest answer s.turns, rooms := s.rooms.tail, calls := s.calls ++ written.call.toList })
  atMost buf s :=
    ((writeBytes_wrote (Moves.refl s.w) (Holds.refl c s.w) buf s.rooms.headI).run s.turns).atMost

def gone (c : Nat) (s : Session) : Bool × Session :=
  let call := operatorBool c s.w
  let (ok, w) := call.run answer s.turns
  (!ok, { s with w := w, turns := call.rest answer s.turns })

def writeFully (c turns : Nat) (buf : Nat → Byte) (size : Nat) (s : Session) : Option (Nat × Outside Session) :=
  Util.writeFully (print c) turns buf size (some (gone c)) { s := s }

/-- Everything that was accepted so far went to `altcp_write`, for the connection of the start. -/
structure Forwards (c : Nat) (w : World) (o : Outside Session) : Prop where
  moves : Moves .between w o.s.w
  holds : Holds c w o.s.w
  accepted : o.s.calls.flatMap AltcpWrite.accepted = taken o.attempts
  calls : ∀ call ∈ o.s.calls, ForClient c w call

theorem Forwards.write {o : Outside Session} (forwards : Forwards c w o) (buf : List Byte) :
    Forwards c w (o.write (print c) buf).2 := by
  have wrote := (writeBytes_wrote forwards.moves forwards.holds buf o.s.rooms.headI).run o.s.turns
  constructor
  · exact wrote.moves
  · exact wrote.holds
  · rw [Outside.write_attempts, taken_append, ← forwards.accepted]
    show (o.s.calls ++ _).flatMap AltcpWrite.accepted = _ ++ (buf.take _ ++ [])
    rw [List.flatMap_append, wrote.accepted, List.append_nil]
    rfl
  · intro call made
    rcases List.mem_append.mp made with before | now
    · exact forwards.calls call before
    · exact wrote.call call (Option.mem_toList.mp now)

theorem Forwards.ask {o : Outside Session} (forwards : Forwards c w o) : Forwards c w (o.ask (gone c)).2 := by
  have kept := (operatorBool_ends forwards.moves forwards.holds).run o.s.turns
  constructor
  · exact kept.1
  · exact kept.2
  · rw [Outside.ask_attempts (Prod.mk.eta (p := o.ask (gone c))).symm, taken_append, ← forwards.accepted]
    exact (List.append_nil _).symm
  · exact forwards.calls

theorem ForClient.block {call : AltcpWrite} (made : ForClient c w call) (ordered : Ordered w) :
    ∃ state, (w.holder call.holder).state = some state ∧ state.pcb = call.pcb := by
  obtain ⟨conn, s, state, moves, there, block⟩ := made
  obtain ⟨state', there', same⟩ :=
    (moves.later ordered.good).state call.holder (ordered.held c call.holder conn) state there
  exact ⟨state', there', same.trans block⟩

end EthernetClient

/-- What `writeFully` and `writeMagic` say they have written is what they wrote, whatever they write to. -/
theorem writes_exact :
    (∀ (σ : Type) (p : Print σ) (turns : Nat) (buf : Nat → Byte) (size : Nat) (breakf : Option (σ → Bool × σ))
      (s : σ) (r : Nat) (o : Outside σ), Util.writeFully p turns buf size breakf { s := s } = some (r, o) →
        Went (Memory.window buf 0 size) r o.attempts) ∧
    (∀ (σ : Type) (p : Print σ) (turns : Nat) (mac : Nat → Byte) (breakf : Option (σ → Bool × σ)) (s : σ)
      (r : Nat) (o : Outside σ), writeMagic p turns mac breakf { s := s } = some (r, o) →
        Went (magic (Memory.window mac 0 6)) r o.attempts ∧ (r = 102 ↔ .asked true ∉ o.attempts)) ∧
    ∀ (c turns : Nat) (buf : Nat → Byte) (size : Nat) (w : World) (loops : List Turn) (rooms : List SendRoom)
      (r : Nat) (o : Outside EthernetClient.Session),
      EthernetClient.writeFully c turns buf size { w := w, turns := loops, rooms := rooms } = some (r, o) →
        r ≤ size ∧ o.s.calls.flatMap AltcpWrite.accepted = Memory.window buf 0 r ∧
          ∀ call ∈ o.s.calls, (w.client c).conn = some call.holder ∧
            (Ordered w → ∃ state, (w.holder call.holder).state = some state ∧ state.pcb = call.pcb) := by
  refine ⟨?_, ?_, ?_⟩
  · intro σ p turns buf size breakf s r o ran
    obtain ⟨attempts, since, went⟩ := writeFully_carries ran
    rwa [since]
  · intro σ p turns mac breakf s r o ran
    obtain ⟨attempts, since, went⟩ := writeMagic_carries ran
    rw [since]
    refine ⟨went, ?_⟩
    have whole := went.whole
    rwa [length_magic (Memory.length_window mac 0 ethHwaddrLen)] at whole
  · intro c turns buf size w loops rooms r o ran
    obtain ⟨attempts, since, went⟩ := writeFully_carries ran
    have start : EthernetClient.Forwards c w { s := { w := w, turns := loops, rooms := rooms } } :=
      ⟨Moves.refl w, EthernetClient.Holds.refl c w, rfl, fun _ none => by cases none⟩
    have forwards : EthernetClient.Forwards c w o := by
      apply writeFully_keeps (fun bytes _ kept => kept.write bytes) _ start ran
      intro f same o kept
      cases same
      exact kept.ask
    have atMost := went.atMost
    rw [Memory.length_window] at atMost
    refine ⟨atMost, ?_, fun call made => ?_⟩
    · rw [forwards.accepted, since]
      calc taken attempts = (Memory.window buf 0 size).take r := went.taken
        _ = Memory.window buf 0 r := by rw [Memory.take_window, Nat.min_eq_left atMost]
    · exact ⟨(forwards.calls call made).1, (forwards.calls call made).block⟩

def pairs : Print Unit where
  write bytes s := (min 2 bytes.length, s)
  atMost bytes _ := Nat.min_le_right 2 bytes.length

def connectedWorld : World where
  mtu := 1500
  place := fun _ => 7
  pool := [0]
  free := (List.range 7).reverse
  nextPcb := 1
  holder := fun _ => { connected := true, state := some { pcb := 0, capacity := tcpWnd 1500 } }
  nextHolder := 1
  client := fun _ => { conn := some 0 }

def oneFailure : List SendRoom := [{ sndBufSize := 2 }, { sndBufSize := 1, err := .mem }, { sndBufSize := 4 }]

theorem writes_exact_pairs :
    (∃ o, Util.writeFully pairs 4 UInt8.ofNat 5 none { s := () } = some (5, o) ∧
      Went (Memory.window UInt8.ofNat 0 5) 5 o.attempts) ∧
    (∃ o, writeMagic pairs 4 UInt8.ofNat (some fun s => (false, s)) { s := () } = some (102, o) ∧
      Went (magic (Memory.window UInt8.ofNat 0 6)) 102 o.attempts) ∧
    ∃ o, EthernetClient.writeFully 0 4 UInt8.ofNat 5
        { w := connectedWorld, turns := [], rooms := oneFailure } = some (5, o) ∧
      o.s.calls.flatMap AltcpWrite.accepted = [0, 1, 2, 3, 4] := by
  refine ⟨⟨_, rfl, writes_exact.1 Unit pairs 4 UInt8.ofNat 5 none () 5 _ rfl⟩, ⟨_, rfl, ?_⟩, ⟨_, rfl, ?_⟩⟩
  · exact (writes_exact.2.1 Unit pairs 4 UInt8.ofNat (some fun s => (false, s)) () 102 _ rfl).1
  · exact (writes_exact.2.2 0 4 UInt8.ofNat 5 connectedWorld [] oneFailure 5 _ rfl).2.1

end QNEthernet.Tcp
