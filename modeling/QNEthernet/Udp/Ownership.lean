import QNEthernet.Udp.Owned

/-! Control block ownership along runs that construct, use and destroy objects. -/

namespace QNEthernet.Udp

open Internal Lwip

def OwnedAt (o : ObjId) (w : World) : Prop := Owned w ∧ o ∈ w.live

namespace World

theorem leaveMulticast_ownedAt (w : World) (o : ObjId) (owned : OwnedAt o w) :
    OwnedAt o (w.leaveMulticast o) := by
  unfold leaveMulticast
  dsimp only
  split
  · have left : Owned { w with groups := w.groups.erase (w.obj o).multicastIP } :=
      owned.1.of_same rfl rfl rfl rfl rfl rfl
    exact ⟨left.setObj o owned.2 _ rfl rfl (owned.1.queueWf o owned.2), owned.2⟩
  · exact owned

theorem leaveMulticast_pcb (w : World) (o : ObjId) :
    ((w.leaveMulticast o).obj o).pcb = (w.obj o).pcb := by
  unfold leaveMulticast
  dsimp only
  split
  · rw [setObj_obj_self]
  · rfl

theorem stop_live (w : World) (o : ObjId) : (w.stop o).live = w.live := by
  unfold stop leaveMulticast
  split
  · rfl
  · dsimp only
    split <;> rfl

theorem stop_pcb (w : World) (o : ObjId) : ((w.stop o).obj o).pcb = none := by
  unfold stop
  split
  next none => exact none
  next => rw [setObj_obj_self]

theorem stop_owned (w : World) (o : ObjId) (owned : OwnedAt o w) : Owned (w.stop o) := by
  unfold stop
  split
  · exact owned.1
  next p held =>
    have left := leaveMulticast_ownedAt w o owned
    have pcb := leaveMulticast_pcb w o
    exact left.1.release o left.2 p (pcb.trans held) _ rfl rfl (left.1.queueWf o left.2)

theorem setObj_ownedAt {w : World} {o : ObjId} (owned : OwnedAt o w) (u : EthernetUDP)
    (pcb : u.pcb = (w.obj o).pcb) (listening : u.listening = (w.obj o).listening)
    (wf : u.inBuf.WF) : OwnedAt o (w.setObj o u) :=
  ⟨owned.1.setObj o owned.2 u pcb listening wf, owned.2⟩

theorem emit_ownedAt {w : World} {o : ObjId} (owned : OwnedAt o w) (o' : ObjId) (event : Event) :
    OwnedAt o (w.emit o' event) := ⟨owned.1.emit o' event, owned.2⟩

theorem recvFunc_live (w : World) (o : ObjId) (pcb : Option PcbId) (d : Option Datagram) :
    (w.recvFunc o pcb d).live = w.live := by
  match pcb, d with
  | none, _ => rfl
  | some _, none => exact stop_live w o
  | some _, some _ => rfl

theorem recvFunc_owned (w : World) (o : ObjId) (owned : OwnedAt o w) (pcb : Option PcbId)
    (d : Option Datagram) : Owned (w.recvFunc o pcb d) := by
  match pcb, d with
  | none, _ => exact owned.1
  | some _, none => exact stop_owned w o owned
  | some p, some d =>
      have stored := CircularBuffer.put_store_wf (w.obj o).inBuf (owned.1.queueWf o owned.2)
      unfold recvFunc
      dsimp only
      by_cases full : (w.obj o).inBuf.full = true
      · simp only [full, if_true]
        apply Owned.emit
        exact owned.1.setObj o owned.2 _ rfl rfl (stored _)
      · simp only [full, Bool.false_eq_true, if_false]
        apply Owned.emit
        exact owned.1.setObj o owned.2 _ rfl rfl (stored _)

theorem recvArg_live {w : World} (owned : Owned w) {p : PcbId} {o : ObjId}
    (registered : (w.pcbs p).bind (·.recvArg) = some o) : o ∈ w.live := by
  obtain ⟨q, found, arg⟩ := Option.bind_eq_some_iff.mp registered
  obtain ⟨o', live, -, arg'⟩ := owned.owner p q found
  rw [arg] at arg'
  by_cases listening : (w.obj o').listening = true
  · rw [if_pos listening] at arg'
    exact Option.some.inj arg' ▸ live
  · rw [if_neg listening] at arg'
    cases arg'

theorem deliver_ownedAt (o : ObjId) (w : World) (arrival : PcbId × Option Datagram)
    (owned : OwnedAt o w) : OwnedAt o (w.deliver arrival) := by
  unfold deliver
  split
  · exact owned
  next o' registered =>
    have live := recvArg_live owned.1 registered
    exact ⟨recvFunc_owned w o' ⟨owned.1, live⟩ _ _, (recvFunc_live w o' _ _).symm ▸ owned.2⟩

theorem loop_ownedAt (w : World) (o : ObjId) (arrivals : List (PcbId × Option Datagram))
    (owned : OwnedAt o w) : OwnedAt o (w.loop arrivals) :=
  Run.foldl_preserves (OwnedAt o) _ (deliver_ownedAt o) arrivals w owned

theorem stop_ownedAt (w : World) (o : ObjId) (owned : OwnedAt o w) : OwnedAt o (w.stop o) :=
  ⟨stop_owned w o owned, (stop_live w o).symm ▸ owned.2⟩

theorem tryCreatePCB_ownedAt (w : World) (o : ObjId) (env : Env) (owned : OwnedAt o w) :
    OwnedAt o (w.tryCreatePCB o env).2 := by
  unfold tryCreatePCB
  split
  · exact owned
  next none =>
    split
    · exact ⟨owned.1.acquire o owned.2 none, owned.2⟩
    · exact loop_ownedAt w o env.loop owned

theorem tryCreatePCB_pcb {w w' : World} {o : ObjId} {env : Env}
    (created : w.tryCreatePCB o env = (true, w')) : (w'.obj o).pcb ≠ none := by
  unfold tryCreatePCB at created
  split at created
  next p held =>
    cases created
    rw [held]
    exact Option.some_ne_none p
  next =>
    split at created
    · cases created
      rw [udpNew, setObj_obj_self]
      exact Option.some_ne_none _
    · cases created

theorem udpBind_ownedAt (w : World) (o : ObjId) (p : PcbId) (reuse : Bool) (port : UInt16) (env : Env)
    (owned : OwnedAt o w) (held : (w.obj o).pcb = some p) :
    OwnedAt o (w.udpBind p reuse port env).2 ∧ ((w.udpBind p reuse port env).2.obj o).pcb = some p := by
  obtain ⟨q, found⟩ := Option.isSome_iff_exists.mp (owned.1.allocated o owned.2 p held)
  have opted : OwnedAt o (w.setPcb p (some { q with reuseAddr := q.reuseAddr || reuse })) :=
    ⟨owned.1.setPcb o owned.2 p held q _ found rfl, owned.2⟩
  have now : (w.setPcb p (some { q with reuseAddr := q.reuseAddr || reuse })).pcbs p =
      some { q with reuseAddr := q.reuseAddr || reuse } := Function.update_self ..
  unfold udpBind
  simp only [found]
  split
  · rw [now]
    exact ⟨⟨opted.1.setPcb o opted.2 p held _ _ now rfl, opted.2⟩, held⟩
  · exact ⟨opted, held⟩

theorem beginNew_ownedAt (w : World) (o : ObjId) (port : UInt16) (reuse : Bool) (env : Env)
    (owned : OwnedAt o w) : OwnedAt o (w.beginNew o port reuse env).2 := by
  have kept := tryCreatePCB_ownedAt w o env owned
  obtain ⟨w₁, created, failed | ⟨p, _, held, w₂, bound, failed | ⟨w₃, listening, started⟩⟩⟩ :=
    beginNew_cases w o env port reuse
  · rw [failed, created]
    exact kept
  · rw [← created] at kept
    have bound_kept := udpBind_ownedAt w₁ o p reuse port env kept held
    rw [← bound] at bound_kept
    rw [failed]
    exact stop_ownedAt w₂ o bound_kept.1
  · rw [← created] at kept
    have bound_kept := udpBind_ownedAt w₁ o p reuse port env kept held
    rw [← bound] at bound_kept
    obtain ⟨owned₂, held₂⟩ := bound_kept
    have listens : OwnedAt o w₃ := by
      rw [listening]
      refine ⟨owned₂.1.listen o owned₂.2 p held₂ reuse, ?_⟩
      unfold udpRecv
      split <;> exact owned₂.2
    rw [started]
    apply emit_ownedAt
    exact setObj_ownedAt listens _ rfl rfl (listens.1.queueWf o listens.2)

theorem begin_ownedAt (w : World) (o : ObjId) (port : UInt16) (reuse : Bool) (env : Env)
    (owned : OwnedAt o w) : OwnedAt o (w.begin o port reuse env).2 := by
  rcases begin_cases w o env port reuse with ⟨_, _, same⟩ | ⟨_, again⟩ | ⟨_, new⟩
  · rw [same]
    exact owned
  · rw [again]
    exact beginNew_ownedAt (w.stop o) o port reuse env (stop_ownedAt w o owned)
  · rw [new]
    exact beginNew_ownedAt w o port reuse env owned

theorem beginMulticast_ownedAt (w : World) (o : ObjId) (ip : IpAddr) (port : UInt16) (reuse : Bool)
    (env : Env) (owned : OwnedAt o w) : OwnedAt o (w.beginMulticast o ip port reuse env).2 := by
  have kept := begin_ownedAt w o port reuse env owned
  obtain ⟨w₁, begun, same | stopped | ⟨_, _, joins⟩⟩ := beginMulticast_cases w o env ip port reuse
  · rw [same, begun]
    exact kept
  · rw [stopped]
    rw [← begun] at kept
    exact stop_ownedAt w₁ o kept
  · rw [joins]
    rw [← begun] at kept
    have joined : OwnedAt o { w₁ with groups := ip :: w₁.groups } :=
      ⟨kept.1.of_same rfl rfl rfl rfl rfl rfl, kept.2⟩
    exact setObj_ownedAt joined _ rfl rfl (kept.1.queueWf o kept.2)

theorem setOutgoing_ownedAt (w : World) (o : ObjId) (change : UdpPcb → UdpPcb) (env : Env)
    (kept : ∀ q, (change q).recvArg = q.recvArg) (owned : OwnedAt o w) :
    OwnedAt o (w.setOutgoing o change env).2 := by
  have created_kept := tryCreatePCB_ownedAt w o env owned
  obtain ⟨w₁, created, same | ⟨p, held, changed⟩⟩ := setOutgoing_cases w o env change
  · rw [same, created]
    exact created_kept
  · rw [← created] at created_kept
    obtain ⟨q, present⟩ :=
      Option.isSome_iff_exists.mp (created_kept.1.allocated o created_kept.2 p held)
    rw [changed, present]
    exact ⟨created_kept.1.setPcb o created_kept.2 p held q _ present (kept q), created_kept.2⟩

theorem parsePacket_ownedAt (w : World) (o : ObjId) (arrivals : List (PcbId × Option Datagram))
    (owned : OwnedAt o w) : OwnedAt o (w.parsePacket o arrivals).2 := by
  unfold parsePacket
  split
  · exact emit_ownedAt owned o _
  · have looped := loop_ownedAt w o arrivals owned
    have wf := looped.1.queueWf o looped.2
    dsimp only
    split
    · apply emit_ownedAt
      exact setObj_ownedAt looped _ rfl rfl wf
    · apply emit_ownedAt
      exact setObj_ownedAt looped _ rfl rfl (CircularBuffer.get_wf Packet.movedFrom _ wf)

theorem read_ownedAt (w : World) (o : ObjId) (owned : OwnedAt o w) : OwnedAt o (w.read o).2 := by
  unfold read
  dsimp only
  split
  · apply emit_ownedAt
    exact setObj_ownedAt owned _ rfl rfl (owned.1.queueWf o owned.2)
  · exact emit_ownedAt owned o _

theorem readBuf_ownedAt (w : World) (o : ObjId) (len : Nat) (owned : OwnedAt o w) :
    OwnedAt o (w.readBuf o len).2 := by
  unfold readBuf
  dsimp only
  split
  · exact emit_ownedAt owned o _
  · apply emit_ownedAt
    exact setObj_ownedAt owned _ rfl rfl (owned.1.queueWf o owned.2)

theorem beginPacket_ownedAt (w : World) (o : ObjId) (addr : IpAddr) (port : UInt16) (env : Env)
    (owned : OwnedAt o w) : OwnedAt o (w.beginPacket o addr port env).2 := by
  have kept := tryCreatePCB_ownedAt w o env owned
  obtain ⟨w₁, created, same | ⟨packet, begun⟩⟩ := beginPacket_cases w o env addr port
  · rw [same, created]
    exact kept
  · rw [begun]
    rw [← created] at kept
    exact setObj_ownedAt kept _ rfl rfl (kept.1.queueWf o kept.2)

theorem write_ownedAt (w : World) (o : ObjId) (buffer : List Byte) (owned : OwnedAt o w) :
    OwnedAt o (w.write o buffer).2 := by
  unfold write
  dsimp only
  split
  · exact owned
  · exact setObj_ownedAt owned _ rfl rfl (owned.1.queueWf o owned.2)

theorem dropOutPacket_ownedAt (w : World) (o : ObjId) (owned : OwnedAt o w) :
    OwnedAt o (w.dropOutPacket o) :=
  setObj_ownedAt owned _ rfl rfl (owned.1.queueWf o owned.2)

theorem endPacket_ownedAt (w : World) (o : ObjId) (env : Env) (owned : OwnedAt o w)
    (held : (w.obj o).outPacket.hasValue = true → env.pbufAlloc = true → (w.obj o).pcb ≠ none) :
    OwnedAt o (w.endPacket o env).2 := by
  unfold endPacket
  dsimp only
  split
  · exact owned
  next pending =>
    split
    · exact loop_ownedAt _ o env.loop (dropOutPacket_ownedAt w o owned)
    next allocated =>
      have pcb := held (by simpa using pending) (by simpa using allocated)
      exact dropOutPacket_ownedAt _ o ⟨owned.1.sendto o owned.2 pcb, owned.2⟩

theorem send_ownedAt (w : World) (o : ObjId) (len : Nat) (env : Env) (owned : OwnedAt o w) :
    OwnedAt o (w.send o len env).2 := by
  have kept := tryCreatePCB_ownedAt w o env owned
  rcases send_cases w o env len with same | ⟨w₁, created, failed | looped | ⟨made, sent⟩⟩
  · rw [same]
    exact owned
  · rw [failed, created]
    exact kept
  · rw [looped]
    rw [← created] at kept
    exact loop_ownedAt w₁ o env.loop kept
  · have pcb : (w₁.obj o).pcb ≠ none := tryCreatePCB_pcb (Prod.ext made created.symm)
    rw [sent]
    rw [← created] at kept
    exact ⟨kept.1.sendto o kept.2 pcb, kept.2⟩

/-- A packet is only ended while its object holds a block. -/
def endsBound (w : World) (o : ObjId) : Call → Prop
  | .endPacket env =>
      (w.obj o).outPacket.hasValue = true → env.pbufAlloc = true → (w.obj o).pcb ≠ none
  | _ => True

theorem call_ownedAt (w : World) (o : ObjId) (c : Call) (ends : endsBound w o c)
    (owned : OwnedAt o w) : OwnedAt o (w.call o c) := by
  have wf := owned.1.queueWf o owned.2
  cases c with
  | loop arrivals => exact loop_ownedAt w o arrivals owned
  | setReceiveQueueCapacity capacity =>
      apply emit_ownedAt
      exact setObj_ownedAt owned _ rfl rfl (CircularBuffer.setCapacity_wf _ wf capacity)
  | begin port reuse env => exact begin_ownedAt w o port reuse env owned
  | beginMulticast ip port reuse env => exact beginMulticast_ownedAt w o ip port reuse env owned
  | stop => exact stop_ownedAt w o owned
  | setOutgoingDiffServ ds env => exact setOutgoing_ownedAt w o _ env (fun _ => rfl) owned
  | setOutgoingTTL ttl env => exact setOutgoing_ownedAt w o _ env (fun _ => rfl) owned
  | parsePacket arrivals => exact parsePacket_ownedAt w o arrivals owned
  | available | peek => exact emit_ownedAt owned o _
  | read => exact read_ownedAt w o owned
  | readBuf len => exact readBuf_ownedAt w o len owned
  | beginPacket addr port env => exact beginPacket_ownedAt w o addr port env owned
  | write buffer => exact write_ownedAt w o buffer owned
  | endPacket env => exact endPacket_ownedAt w o env owned ends
  | send len env => exact send_ownedAt w o len env owned

theorem destroy_owned (w : World) (o : ObjId) (owned : OwnedAt o w) : Owned (w.destroy o) :=
  (stop_owned w o owned).erase o (stop_pcb w o)

/-- No object is moved, and no packet is ended on an object without a block. -/
def unmoved (w : World) : Op → Prop
  | .moveConstruct _ _ | .moveAssign _ _ => False
  | .call o c => endsBound w o c
  | _ => True

theorem step_owned (w : World) (op : Op) (allowed : unmoved w op) (owned : Owned w) :
    Owned (w.step op) := by
  cases op with
  | call o c =>
      by_cases live : o ∈ w.live
      · rw [step, if_pos live]
        exact (call_ownedAt w o c allowed ⟨owned, live⟩).1
      · rw [step, if_neg live]
        exact owned
  | construct o capacity =>
      by_cases live : o ∈ w.live
      · rw [step, if_pos live]
        exact owned
      · rw [step, if_neg live]
        exact owned.construct o live capacity
  | destroy o =>
      by_cases live : o ∈ w.live
      · rw [step, if_pos live]
        exact destroy_owned w o ⟨owned, live⟩
      · rw [step, if_neg live]
        exact owned
  | moveConstruct | moveAssign => exact allowed.elim

theorem empty_owned : Owned {} := by
  refine ⟨⟨?_, ?_, ?_, ?_⟩, List.nodup_nil, fun _ _ => rfl, List.nodup_nil, ?_, ?_, ?_⟩ <;> simp

/-- In every run without moves that ends packets only on objects with a block, blocks and objects
own each other one to one, no block is released twice, and nothing is sent without one. -/
theorem pcb_ownership (ops : List Op) (allowed : Run.Allowed unmoved step {} ops) :
    Ownership (ops.foldl step {}) :=
  (Run.allowed_preserves Owned unmoved step step_owned ops {} allowed empty_owned).ownership

/-- Two objects, one of them sending before it listens and destroyed in the end. -/
def unmovedRun : List Op :=
  [.construct 0 1, .construct 1 0, .call 0 (.beginPacket 9 53 {}), .call 0 (.endPacket {}),
    .call 0 (.begin 7 false {}), .call 1 (.beginMulticast 224 7 true {}), .destroy 0]

theorem pcb_ownership_unmovedRun : Ownership (unmovedRun.foldl step {}) := by
  refine pcb_ownership unmovedRun ⟨trivial, trivial, trivial, ?_, trivial, trivial, trivial, trivial⟩
  intro _ _ none
  revert none
  decide

/-- Moving a listening object leaves both objects with its block, registered for the source only,
and the source's queue without room; a packet ended after `stop` is sent through no block. -/
theorem pcb_ownership_moved :
    (let w := [Op.construct 0 1, .call 0 (.begin 7 false {}), .moveConstruct 1 0].foldl step {}
    (w.live = [1, 0] ∧ (w.obj 0).pcb = some 0 ∧ (w.obj 1).pcb = some 0 ∧ (w.obj 1).listening = true ∧
      (w.pcbs 0).map (·.recvArg) = some (some 0) ∧ (w.obj 0).inBuf.capacity = 0) ∧ ¬ Ownership w) ∧
    ¬ Ownership ([.construct 0 1, .call 0 (.beginPacket 9 53 {}), .call 0 .stop,
      .call 0 (.endPacket {})].foldl step {}) := by
  refine ⟨⟨by decide, ?_⟩, ?_⟩
  · intro ownership
    obtain ⟨o, -, only⟩ := ownership.held 0 (by decide)
    have source := only 0 (by decide)
    have target := only 1 (by decide)
    exact absurd (source.trans target.symm) (by decide)
  · intro ownership
    have sent := ownership.sent (none, false) (by decide)
    cases sent

end World
end QNEthernet.Udp
