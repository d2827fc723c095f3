import QNEthernet.Udp.Model

/-! What the calls that need a block can do to the world, before and after the block is there. -/

namespace QNEthernet.Udp.World

variable (w : World) (o : ObjId) (env : Env)

theorem beginNew_cases (localPort : UInt16) (reuse : Bool) :
    ∃ created, created = (w.tryCreatePCB o env).2 ∧
      (w.beginNew o localPort reuse env = (false, created) ∨
        ∃ p, (w.tryCreatePCB o env).1 = true ∧ (created.obj o).pcb = some p ∧
          ∃ bound, bound = (created.udpBind p reuse localPort env).2 ∧
            (w.beginNew o localPort reuse env = (false, bound.stop o) ∨
              ∃ listening, listening = (bound.setObj o
                  { bound.obj o with listening := true, listenReuse := reuse }).udpRecv p o ∧
                w.beginNew o localPort reuse env = (true, (listening.setObj o { listening.obj o with
                  droppedReceiveCount := 0, totalReceiveCount := 0 }).emit o
                    (.started (listening.obj o).inBuf.size)))) := by
  refine ⟨_, rfl, ?_⟩
  rw [beginNew]
  split
  next w₁ failed =>
    rw [failed]
    exact .inl rfl
  next w₁ created =>
    rw [created]
    dsimp only
    split
    · exact .inl rfl
    next p held =>
      refine .inr ⟨p, rfl, held, _, rfl, ?_⟩
      split
      next w₂ bound =>
        rw [bound]
        exact .inr ⟨_, rfl, rfl⟩
      next w₂ _ bound =>
        rw [bound]
        exact .inl rfl

theorem begin_cases (localPort : UInt16) (reuse : Bool) :
    (w.obj o).listening = true ∧ w.alreadyListening o localPort reuse = true ∧
        w.begin o localPort reuse env = (true, w) ∨
      (w.obj o).listening = true ∧
        w.begin o localPort reuse env = (w.stop o).beginNew o localPort reuse env ∨
      (w.obj o).listening = false ∧ w.begin o localPort reuse env = w.beginNew o localPort reuse env := by
  rw [World.begin]
  split
  next listening =>
    split
    next already => exact .inl ⟨listening, already, rfl⟩
    next => exact .inr (.inl ⟨listening, rfl⟩)
  next silent => exact .inr (.inr ⟨eq_false_of_ne_true silent, rfl⟩)

theorem beginMulticast_cases (ip : IpAddr) (localPort : UInt16) (reuse : Bool) :
    ∃ begun, begun = (w.begin o localPort reuse env).2 ∧
      ((w.beginMulticast o ip localPort reuse env).2 = begun ∨
        (w.beginMulticast o ip localPort reuse env).2 = begun.stop o ∨
        (w.begin o localPort reuse env).1 = true ∧ env.joined = true ∧
          (w.beginMulticast o ip localPort reuse env).2 = { begun with groups := ip :: begun.groups }.setObj o
            { begun.obj o with listeningMulticast := true, multicastIP := ip }) := by
  refine ⟨_, rfl, ?_⟩
  rw [beginMulticast]
  split
  next w₁ failed =>
    rw [failed]
    exact .inl rfl
  next w₁ begun =>
    rw [begun]
    split
    next joined => exact .inr (.inr ⟨rfl, joined, rfl⟩)
    next => exact .inr (.inl rfl)

theorem setOutgoing_cases (change : UdpPcb → UdpPcb) :
    ∃ created, created = (w.tryCreatePCB o env).2 ∧
      ((w.setOutgoing o change env).2 = created ∨
        ∃ p, (created.obj o).pcb = some p ∧
          (w.setOutgoing o change env).2 = created.setPcb p ((created.pcbs p).map change)) := by
  refine ⟨_, rfl, ?_⟩
  rw [setOutgoing]
  split
  next w₁ failed =>
    rw [failed]
    exact .inl rfl
  next w₁ created =>
    rw [created]
    dsimp only
    split
    · exact .inl rfl
    next p held => exact .inr ⟨p, held, rfl⟩

theorem beginPacket_cases (addr : IpAddr) (port : UInt16) :
    ∃ created, created = (w.tryCreatePCB o env).2 ∧
      ((w.beginPacket o addr port env).2 = created ∨
        ∃ packet, (w.beginPacket o addr port env).2 =
          created.setObj o { created.obj o with outPacket := packet }) := by
  refine ⟨_, rfl, ?_⟩
  rw [beginPacket]
  split
  next w₁ failed =>
    rw [failed]
    exact .inl rfl
  next w₁ created =>
    rw [created]
    exact .inr ⟨_, rfl⟩

theorem send_cases (len : Nat) :
    (w.send o len env).2 = w ∨
      ∃ created, created = (w.tryCreatePCB o env).2 ∧
        ((w.send o len env).2 = created ∨ (w.send o len env).2 = created.loop env.loop ∨
          (w.tryCreatePCB o env).1 = true ∧
            (w.send o len env).2 = created.udpSendto (created.obj o).pcb) := by
  rw [send]
  split
  · exact .inl rfl
  · refine .inr ⟨_, rfl, ?_⟩
    split
    next w₁ failed =>
      rw [failed]
      exact .inl rfl
    next w₁ created =>
      rw [created]
      dsimp only
      split
      · exact .inr (.inl rfl)
      · exact .inr (.inr ⟨rfl, rfl⟩)

end QNEthernet.Udp.World
