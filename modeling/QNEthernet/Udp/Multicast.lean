import QNEthernet.Udp.Queue

/-! The multicast groups of one `EthernetUDP`: what it has joined and not left. -/

namespace QNEthernet.Udp

open Internal Lwip

/-- The group that the object remembers. -/
def EthernetUDP.joinedGroups (u : EthernetUDP) : List IpAddr :=
  if u.listeningMulticast then [u.multicastIP] else []

namespace World

/-- Only object `o` is bound, and its groups are those it remembers. -/
structure Joined (o : ObjId) (w : World) : Prop where
  groups : w.groups = (w.obj o).joinedGroups
  bound : (w.obj o).listeningMulticast = true → (w.obj o).pcb ≠ none ∧ (w.obj o).listening = true
  others : ∀ o', o' ≠ o → (w.obj o').pcb = none

/-- A second group is not joined beside the first: `begin()` returns early when the port and the reuse
option are those in use. -/
def JoinsAlone (o : ObjId) (w : World) : Call → Prop
  | .beginMulticast _ localPort reuse env =>
      (w.obj o).listeningMulticast → (w.obj o).listening → w.alreadyListening o localPort reuse →
        ¬ env.joined
  | _ => True

instance (o : ObjId) (w : World) (c : Call) : Decidable (w.JoinsAlone o c) := by
  unfold JoinsAlone
  split <;> infer_instance

variable {w w' : World} {o : ObjId}

theorem Joined.of_same (joined : Joined o w) (groups : w'.groups = w.groups)
    (obj : w'.obj = w.obj) : Joined o w' := by
  refine ⟨?_, ?_, ?_⟩
  · rw [groups, obj]
    exact joined.groups
  · rw [obj]
    exact joined.bound
  · rw [obj]
    exact joined.others

theorem Joined.setObj (joined : Joined o w) (o' : ObjId) (u : EthernetUDP)
    (multicast : u.listeningMulticast = (w.obj o').listeningMulticast)
    (ip : u.multicastIP = (w.obj o').multicastIP) (pcb : u.pcb = (w.obj o').pcb)
    (listening : (w.obj o').listening = true → u.listening = true) : Joined o (w.setObj o' u) := by
  by_cases same : o' = o
  · subst same
    refine ⟨?_, ?_, ?_⟩
    · simpa [World.setObj, EthernetUDP.joinedGroups, multicast, ip] using joined.groups
    · intro on
      rw [setObj_obj_self] at on ⊢
      rw [multicast] at on
      exact ⟨by rw [pcb]; exact (joined.bound on).1, listening (joined.bound on).2⟩
    · intro o'' other
      simpa [World.setObj, Function.update_of_ne other] using joined.others o'' other
  · have different : o ≠ o' := fun equal => same equal.symm
    refine ⟨?_, ?_, ?_⟩
    · simpa [World.setObj, Function.update_of_ne different] using joined.groups
    · simpa [World.setObj, Function.update_of_ne different] using joined.bound
    · intro o'' other
      by_cases here : o'' = o'
      · subst here
        simpa [World.setObj, pcb] using joined.others o'' other
      · simpa [World.setObj, Function.update_of_ne here] using joined.others o'' other

theorem Joined.emit (joined : Joined o w) (o' : ObjId) (event : Event) : Joined o (w.emit o' event) :=
  joined.of_same rfl rfl

theorem Joined.leaveMulticast (joined : Joined o w) :
    (w.leaveMulticast o).groups = [] ∧ ((w.leaveMulticast o).obj o).listeningMulticast = false ∧
      ∀ o', o' ≠ o → (w.leaveMulticast o).obj o' = w.obj o' := by
  have groups := joined.groups
  unfold World.leaveMulticast
  cases multicast : (w.obj o).listeningMulticast with
  | false => simpa [EthernetUDP.joinedGroups, multicast] using groups
  | true =>
      rw [EthernetUDP.joinedGroups, multicast, if_pos rfl] at groups
      simp only [multicast, if_true]
      refine ⟨by simp [World.setObj, groups], by simp [World.setObj], ?_⟩
      intro o' other
      simp [World.setObj, Function.update_of_ne other]

theorem Joined.stopped (joined : Joined o w) :
    Joined o (w.stop o) ∧ (w.stop o).groups = [] := by
  cases bound : (w.obj o).pcb with
  | none =>
      have idle : w.stop o = w := by simp [World.stop, bound]
      have quiet : (w.obj o).listeningMulticast = false := by
        by_contra multicast
        exact (joined.bound (by simpa using multicast)).1 bound
      rw [idle]
      refine ⟨joined, ?_⟩
      rw [joined.groups, EthernetUDP.joinedGroups, quiet]
      rfl
  | some p =>
      rcases joined.leaveMulticast with ⟨groups, quiet, same⟩
      have left : (w.stop o).groups = [] := by
        simpa [World.stop, bound, World.setObj, udpRemove, setPcb] using groups
      have silent : ((w.stop o).obj o).listeningMulticast = false := by
        simpa [World.stop, bound, World.setObj, udpRemove, setPcb] using quiet
      refine ⟨⟨?_, ?_, ?_⟩, left⟩
      · rw [left, EthernetUDP.joinedGroups, silent]
        rfl
      · simp [silent]
      · intro o' other
        have kept := joined.others o' other
        rw [← same o' other] at kept
        simpa [World.stop, bound, World.setObj, udpRemove, setPcb, Function.update_of_ne other] using kept

theorem Joined.stop (joined : Joined o w) (o' : ObjId) : Joined o (w.stop o') := by
  by_cases same : o' = o
  · rw [same]
    exact joined.stopped.1
  · have idle : w.stop o' = w := by simp [World.stop, joined.others o' same]
    rw [idle]
    exact joined

theorem Joined.recvFunc (joined : Joined o w) (o' : ObjId) (pcb : Option PcbId) (d : Option Datagram) :
    Joined o (w.recvFunc o' pcb d) := by
  unfold World.recvFunc
  split
  · exact joined
  · exact joined.stop o'
  · apply Joined.emit
    split <;> exact joined.setObj o' _ rfl rfl rfl id

theorem Joined.loop (joined : Joined o w) (arrivals : List (PcbId × Option Datagram)) :
    Joined o (w.loop arrivals) := by
  apply Run.foldl_preserves (Joined o) deliver _ arrivals w joined
  intro w' arrival kept
  unfold deliver
  split
  · exact kept
  · exact kept.recvFunc _ _ _

theorem Joined.tryCreatePCB (joined : Joined o w) (env : Env) : Joined o (w.tryCreatePCB o env).2 := by
  unfold World.tryCreatePCB
  split
  · exact joined
  · split
    · refine ⟨?_, ?_, ?_⟩
      · simpa [udpNew, World.setObj, setPcb, EthernetUDP.joinedGroups] using joined.groups
      · intro on
        simp only [udpNew, World.setObj, setPcb, Function.update_self] at on ⊢
        exact ⟨by simp, (joined.bound on).2⟩
      · intro o' other
        simpa [udpNew, World.setObj, setPcb, Function.update_of_ne other] using joined.others o' other
    · exact joined.loop env.loop

theorem Joined.udpBind (joined : Joined o w) (p : PcbId) (reuse : Bool) (localPort : UInt16) (env : Env) :
    Joined o (w.udpBind p reuse localPort env).2 := by
  unfold World.udpBind
  dsimp only
  split
  · split
    · split <;> exact joined.of_same rfl rfl
    · split <;> exact joined.of_same rfl rfl
  · split <;> exact joined.of_same rfl rfl

theorem Joined.udpRecv (joined : Joined o w) (p : PcbId) : Joined o (w.udpRecv p o) := by
  unfold World.udpRecv
  split
  · exact joined.of_same rfl rfl
  · exact joined

theorem Joined.beginNew (joined : Joined o w) (localPort : UInt16) (reuse : Bool) (env : Env) :
    Joined o (w.beginNew o localPort reuse env).2 := by
  have kept := joined.tryCreatePCB env
  obtain ⟨w₁, created, failed | ⟨p, _, _, w₂, bound, failed | ⟨w₃, listening, started⟩⟩⟩ :=
    beginNew_cases w o env localPort reuse
  · rw [failed, created]
    exact kept
  · rw [← created] at kept
    rw [failed, bound]
    exact (kept.udpBind p reuse localPort env).stop o
  · rw [← created] at kept
    have bound_kept := kept.udpBind p reuse localPort env
    rw [← bound] at bound_kept
    have listens : Joined o w₃ := by
      rw [listening]
      exact (bound_kept.setObj o { w₂.obj o with listening := true, listenReuse := reuse } rfl rfl rfl
        fun _ => rfl).udpRecv p
    rw [started]
    apply Joined.emit
    exact listens.setObj o _ rfl rfl rfl id

theorem beginNew_multicast {localPort : UInt16} {reuse : Bool} {env : Env}
    (success : w.beginNew o localPort reuse env = (true, w')) :
    (w'.obj o).listeningMulticast = (w.obj o).listeningMulticast ∧ (w'.obj o).pcb ≠ none ∧
      (w'.obj o).listening = true := by
  have created (w₁ : World) (ok : w.tryCreatePCB o env = (true, w₁)) :
      (w₁.obj o).listeningMulticast = (w.obj o).listeningMulticast := by
    unfold World.tryCreatePCB at ok
    split at ok
    · cases ok
      rfl
    · split at ok
      · cases ok
        simp [udpNew, World.setObj, setPcb]
      · cases ok
  have bind (w₁ : World) (p : PcbId) : (w₁.udpBind p reuse localPort env).2.obj = w₁.obj := by
    unfold World.udpBind
    dsimp only
    split
    · split
      · split <;> rfl
      · split <;> rfl
    · split <;> rfl
  have recv (w₁ : World) (p : PcbId) : (w₁.udpRecv p o).obj = w₁.obj := by
    unfold World.udpRecv
    split <;> rfl
  unfold World.beginNew at success
  split at success
  · cases success
  next w₁ result =>
    split at success
    · cases success
    next p held =>
      split at success
      next w₂ outcome =>
        cases success
        have same : w₂.obj = w₁.obj := by
          rw [← bind w₁ p, outcome]
        simp [World.emit, World.setObj, recv, same, created w₁ result, held]
      · cases success

theorem Joined.begin (joined : Joined o w) (localPort : UInt16) (reuse : Bool) (env : Env) :
    Joined o (w.begin o localPort reuse env).2 := by
  rcases begin_cases w o env localPort reuse with ⟨_, _, same⟩ | ⟨_, again⟩ | ⟨_, new⟩
  · rw [same]
    exact joined
  · rw [again]
    exact joined.stopped.1.beginNew localPort reuse env
  · rw [new]
    exact joined.beginNew localPort reuse env

theorem begin_listening {localPort : UInt16} {reuse : Bool} {env : Env}
    (success : w.begin o localPort reuse env = (true, w')) :
    (w'.obj o).pcb ≠ none ∧ (w'.obj o).listening = true := by
  rcases begin_cases w o env localPort reuse with ⟨listening, already, same⟩ | ⟨_, again⟩ | ⟨_, new⟩
  · cases same.symm.trans success
    refine ⟨?_, listening⟩
    intro unbound
    simp [alreadyListening, unbound] at already
  · exact (beginNew_multicast (again.symm.trans success)).2
  · exact (beginNew_multicast (new.symm.trans success)).2

theorem Joined.begin_groups (joined : Joined o w) {localPort : UInt16} {reuse : Bool} {env : Env}
    (early : (w.obj o).listeningMulticast = true → (w.obj o).listening = true →
      w.alreadyListening o localPort reuse = false)
    (success : w.begin o localPort reuse env = (true, w')) :
    (w'.obj o).listeningMulticast = false := by
  rcases begin_cases w o env localPort reuse with ⟨listening, already, same⟩ | ⟨_, again⟩ | ⟨silent, new⟩
  · cases same.symm.trans success
    by_contra multicast
    exact absurd already (by simp [early (by simpa using multicast) listening])
  · rw [(beginNew_multicast (again.symm.trans success)).1]
    have stopped := joined.stopped
    by_contra multicast
    have groups := stopped.1.groups
    rw [stopped.2, EthernetUDP.joinedGroups, if_pos (by simpa using multicast)] at groups
    cases groups
  · rw [(beginNew_multicast (new.symm.trans success)).1]
    by_contra multicast
    have listening := (joined.bound (by simpa using multicast)).2
    rw [silent] at listening
    cases listening

theorem Joined.beginMulticast (joined : Joined o w) (ip : IpAddr) (localPort : UInt16) (reuse : Bool)
    (env : Env) (alone : w.JoinsAlone o (.beginMulticast ip localPort reuse env)) :
    Joined o (w.beginMulticast o ip localPort reuse env).2 := by
  have kept := joined.begin localPort reuse env
  obtain ⟨w', begun, same | stopped | ⟨success, joins, both⟩⟩ :=
    beginMulticast_cases w o env ip localPort reuse
  · rw [same, begun]
    exact kept
  · rw [stopped, begun]
    exact kept.stop o
  · rw [← begun] at kept
    have result : w.begin o localPort reuse env = (true, w') := Prod.ext success begun.symm
    have quiet : (w'.obj o).listeningMulticast = false := by
      apply joined.begin_groups _ result
      intro multicast listening
      by_contra already
      exact alone multicast listening (by simpa using already) joins
    have groups := kept.groups
    have none : w'.groups = [] := by simpa [EthernetUDP.joinedGroups, quiet] using groups
    have up := begin_listening result
    rw [both]
    refine ⟨by simp [World.setObj, EthernetUDP.joinedGroups, none], fun _ => ?_, ?_⟩
    · simpa [World.setObj] using up
    · intro o' other
      simpa [World.setObj, Function.update_of_ne other] using kept.others o' other

theorem Joined.setOutgoing (joined : Joined o w) (change : UdpPcb → UdpPcb) (env : Env) :
    Joined o (w.setOutgoing o change env).2 := by
  have kept := joined.tryCreatePCB env
  obtain ⟨w₁, created, same | ⟨p, _, changed⟩⟩ := setOutgoing_cases w o env change
  · rw [same, created]
    exact kept
  · rw [changed, created]
    exact kept.of_same rfl rfl

theorem Joined.parsePacket (joined : Joined o w) (arrivals : List (PcbId × Option Datagram)) :
    Joined o (w.parsePacket o arrivals).2 := by
  unfold World.parsePacket
  split
  · exact joined.emit o _
  · have looped := joined.loop arrivals
    dsimp only
    split
    · apply Joined.emit
      exact looped.setObj o _ rfl rfl rfl id
    · apply Joined.emit
      exact looped.setObj o _ rfl rfl rfl id

theorem Joined.read (joined : Joined o w) : Joined o (w.read o).2 := by
  unfold World.read
  dsimp only
  split
  · apply Joined.emit
    exact joined.setObj o _ rfl rfl rfl id
  · exact joined.emit o _

theorem Joined.readBuf (joined : Joined o w) (len : Nat) : Joined o (w.readBuf o len).2 := by
  unfold World.readBuf
  dsimp only
  split
  · exact joined.emit o _
  · apply Joined.emit
    exact joined.setObj o _ rfl rfl rfl id

theorem Joined.beginPacket (joined : Joined o w) (addr : IpAddr) (port : UInt16) (env : Env) :
    Joined o (w.beginPacket o addr port env).2 := by
  have kept := joined.tryCreatePCB env
  obtain ⟨w₁, created, same | ⟨packet, begun⟩⟩ := beginPacket_cases w o env addr port
  · rw [same, created]
    exact kept
  · rw [begun, created]
    exact kept.setObj o _ rfl rfl rfl id

theorem Joined.write (joined : Joined o w) (buffer : List Byte) : Joined o (w.write o buffer).2 := by
  unfold World.write
  dsimp only
  split
  · exact joined
  · exact joined.setObj o _ rfl rfl rfl id

theorem Joined.dropOutPacket (joined : Joined o w) : Joined o (w.dropOutPacket o) :=
  joined.setObj o _ rfl rfl rfl id

theorem Joined.endPacket (joined : Joined o w) (env : Env) : Joined o (w.endPacket o env).2 := by
  unfold World.endPacket
  dsimp only
  split
  · exact joined
  · split
    · exact joined.dropOutPacket.loop env.loop
    · have sent : Joined o (w.udpSendto (w.obj o).pcb) := joined.of_same rfl rfl
      exact sent.dropOutPacket

theorem Joined.send (joined : Joined o w) (len : Nat) (env : Env) : Joined o (w.send o len env).2 := by
  have kept := joined.tryCreatePCB env
  rcases send_cases w o env len with same | ⟨w₁, created, failed | looped | ⟨_, sent⟩⟩
  · rw [same]
    exact joined
  · rw [failed, created]
    exact kept
  · rw [looped, created]
    exact kept.loop env.loop
  · rw [sent, created]
    exact kept.of_same rfl rfl

theorem call_joined (joined : Joined o w) (c : Call) (alone : w.JoinsAlone o c) :
    Joined o (w.call o c) := by
  cases c with
  | loop arrivals => exact joined.loop arrivals
  | setReceiveQueueCapacity capacity =>
      apply Joined.emit
      exact joined.setObj o _ rfl rfl rfl id
  | begin localPort reuse env => exact joined.begin localPort reuse env
  | beginMulticast ip localPort reuse env => exact joined.beginMulticast ip localPort reuse env alone
  | stop => exact joined.stop o
  | setOutgoingDiffServ ds env => exact joined.setOutgoing _ env
  | setOutgoingTTL ttl env => exact joined.setOutgoing _ env
  | parsePacket arrivals => exact joined.parsePacket arrivals
  | available => exact joined.emit o _
  | read => exact joined.read
  | readBuf len => exact joined.readBuf len
  | peek => exact joined.emit o _
  | beginPacket addr port env => exact joined.beginPacket addr port env
  | write buffer => exact joined.write buffer
  | endPacket env => exact joined.endPacket env
  | send len env => exact joined.send len env

def callsOf (o : ObjId) (w : World) (run : List Call) : World := run.foldl (fun w c => w.call o c) w

theorem multicast_balanced (capacity : ObjId → Nat) (o : ObjId) (run : List Call)
    (alone : Run.Allowed (JoinsAlone o) (fun w c => w.call o c) (boot capacity) run) :
    ((boot capacity).callsOf o run).groups =
        (((boot capacity).callsOf o run).obj o).joinedGroups ∧
      (((boot capacity).callsOf o run).stop o).groups = [] ∧
      (((boot capacity).callsOf o run).destroy o).groups = [] := by
  have joined : Joined o ((boot capacity).callsOf o run) :=
    Run.allowed_preserves (Joined o) (JoinsAlone o) (fun w c => w.call o c)
      (fun w c ok joined => call_joined joined c ok) run _ alone
      ⟨rfl, by simp [boot], fun _ _ => rfl⟩
  exact ⟨joined.groups, joined.stopped.2, joined.stopped.2⟩

/-- Another port, another reuse option and a failing join all leave the group first. -/
def aloneRun : List Call :=
  [.beginMulticast 0xfb0000e0 5353 true {}, .begin 5353 true {},
    .beginMulticast 0xfb0000e0 5353 false {}, .beginMulticast 0xfa0000e0 5353 false { joined := false },
    .beginMulticast 0xfa0000e0 5353 false {}, .beginMulticast 0xfa0000e0 5354 false {}]

theorem multicast_balanced_aloneRun :
    ((boot fun _ => 1).callsOf 0 aloneRun).groups = [0xfa0000e0] ∧
      (((boot fun _ => 1).callsOf 0 aloneRun).stop 0).groups = [] :=
  ⟨(multicast_balanced (fun _ => 1) 0 aloneRun (by decide)).1.trans (by decide),
    (multicast_balanced (fun _ => 1) 0 aloneRun (by decide)).2.1⟩

/-- A second group on the same port, or the same one again: after the stop one is still joined. -/
theorem multicast_unbalanced :
    let w := (boot fun _ => 1).callsOf 0
      [.beginMulticast 0xfb0000e0 5353 true {}, .beginMulticast 0xfa0000e0 5353 true {}]
    let w' := (boot fun _ => 1).callsOf 0
      [.beginMulticast 0xfb0000e0 5353 true {}, .beginMulticast 0xfb0000e0 5353 true {}]
    w.groups ≠ (w.obj 0).joinedGroups ∧ (w.stop 0).groups = [0xfb0000e0] ∧
      w'.groups ≠ (w'.obj 0).joinedGroups ∧ (w'.stop 0).groups = [0xfb0000e0] := by
  decide

end World
end QNEthernet.Udp
