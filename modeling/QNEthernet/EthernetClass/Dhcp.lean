import QNEthernet.EthernetClass.Start

/-! The flags of `EthernetClass` agree with the DHCP client, as long as no running client is lost with
the interface it runs on. -/

namespace QNEthernet.EthernetClass

open State

/-- `dhcpActive_` says whether a client runs on the interface. -/
structure Agrees (s : State) : Prop where
  active : s.dhcpActive ↔ s.netif ∧ s.sNetif.dhcp ≠ .off
  enabled : s.dhcpActive → s.dhcpEnabled

/-- A call that starts the interface for DHCP again, with its client running, finds no hardware, or it
goes through with the MAC address in use. -/
def KeepsClient (b : Board) (s : State) (c : Call) : Prop :=
  match c.op.begins b s with
  | some (ip, mac) => ip = 0 → s.dhcpActive → c.outcomes.hasHardware → mac = s.sMac ∧
      c.outcomes.driverInit ∧ c.outcomes.setMac ∧ c.outcomes.getMac ∧ c.outcomes.getMacAgain
  | none => True

instance (b : Board) (s : State) (c : Call) : Decidable (KeepsClient b s c) := by
  unfold KeepsClient
  split <;> infer_instance

/-- What the calls keep. -/
structure Running (s : State) : Prop where
  active : s.dhcpActive = true ↔ s.sNetif.dhcp ≠ .off
  enabled : s.dhcpActive = true → s.dhcpEnabled = true
  netif : s.dhcpActive = true → s.netif = true
  added : s.netif = true → s.isNetifAdded = true

variable {b : Board} {o : Outcomes} {s s' : State}

theorem Running.agrees (running : Running s) : Agrees s where
  active := by
    constructor
    · exact fun active => ⟨running.netif active, running.active.mp active⟩
    · exact fun there => running.active.mpr there.2
  enabled := running.enabled

theorem Running.off (running : Running s) (idle : s.dhcpActive = false) : s.sNetif.dhcp = .off := by
  by_contra on
  exact absurd (running.active.mpr on) (by simp [idle])

theorem Running.of_idle (idle : s.dhcpActive = false) (off : s.sNetif.dhcp = .off)
    (added : s.netif = true → s.isNetifAdded = true) : Running s :=
  ⟨by simp [idle, off], by simp [idle], by simp [idle], added⟩

theorem boot_running (driverMac : Mac) : Running (State.boot driverMac) :=
  Running.of_idle rfl rfl (by simp [State.boot])

theorem dhcpReleaseAndStop_off (s : State) : s.dhcpReleaseAndStop.sNetif.dhcp = .off := by
  unfold dhcpReleaseAndStop
  dsimp only
  split <;> rfl

/-- A client that was known to run is stopped, whether or not it is enabled still. -/
theorem stopDhcp_running (active : s.dhcpActive = true ↔ s.sNetif.dhcp ≠ .off)
    (added : s.netif = true → s.isNetifAdded = true) : Running s.stopDhcp := by
  have frame := stopDhcp_frame s
  refine Running.of_idle frame.idle ?_ (by rw [frame.netif, frame.added]; exact added)
  unfold State.stopDhcp
  cases on : s.dhcpActive with
  | false =>
      by_contra running
      exact absurd (active.mpr running) (by simp [on])
  | true => exact dhcpReleaseAndStop_off s

theorem Running.stopDhcp (running : Running s) : Running s.stopDhcp :=
  stopDhcp_running running.active running.added

theorem Running.start (running : Running s)
    (kept : s.dhcpActive = true → o.hasHardware = true → s.macAddress b = s.sMac ∧
      ∃ s', s.start b o = (true, s')) :
    Running (s.start b o).2 ∧ ((s.start b o).1 = true →
      (s.start b o).2.netif = true ∧ SameClient s (s.start b o).2) := by
  cases hardware : o.hasHardware with
  | false =>
      rw [start_without b o s hardware]
      exact ⟨running, by simp⟩
  | true =>
      rcases start_hardware b o s hardware with ⟨s', result, stopped⟩ | ⟨s', result, started⟩
      · rw [result]
        have idle : s.dhcpActive = false := by
          by_contra active
          rcases kept (by simpa using active) hardware with ⟨-, s'', success⟩
          exact absurd (congrArg Prod.fst (result.symm.trans success)) (by simp)
        have off : s'.sNetif.dhcp = .off := by
          rcases stopped.dhcp with same | off
          · rw [same, running.off idle]
          · exact off
        exact ⟨Running.of_idle (stopped.same.dhcpActive.trans idle) off (by simp [stopped.netif]),
          by simp⟩
      · rw [result]
        refine ⟨?_, fun _ => ⟨started.netif, started.same⟩⟩
        cases active : s.dhcpActive with
        | false =>
            have off : s'.sNetif.dhcp = .off := by
              rcases started.dhcp with same | off
              · rw [same, running.off active]
              · exact off
            exact Running.of_idle (started.same.dhcpActive.trans active) off fun _ => started.added
        | true =>
            have same := started.kept (running.added (running.netif active))
              (kept active hardware).1.symm
            have on := running.active.mp active
            have active' : s'.dhcpActive = true := started.same.dhcpActive.trans active
            exact ⟨by simp [active', same, on], fun _ => started.same.dhcpEnabled.trans
              (running.enabled active), fun _ => started.netif, fun _ => started.added⟩

theorem Running.dhcpStart (running : Running s) (netif : s.netif = true) (enabled : s.dhcpEnabled = true)
    (desired : Bool) :
    Running { (s.dhcpStart o).2 with dhcpActive := (s.dhcpStart o).1, dhcpDesired := desired } where
  active := by cases ok : o.dhcpStart <;> simp [State.dhcpStart, ok]
  enabled := fun _ => enabled
  netif := fun _ => netif
  added := running.added

theorem Running.maybeStartDhcp (running : Running s) (netif : s.netif = true)
    (idle : s.sNetif.ipAddr ≠ 0 → s.dhcpActive = false) :
    Running (s.maybeStartDhcp o).2 ∧ ((s.maybeStartDhcp o).1 = true → s.sNetif.ipAddr = 0 →
      s.dhcpEnabled = true → (s.maybeStartDhcp o).2.dhcpActive = true) := by
  unfold State.maybeStartDhcp
  by_cases unset : s.sNetif.ipAddr = 0
  · by_cases enabled : s.dhcpEnabled = true
    · cases active : s.dhcpActive with
      | true => simpa [unset, enabled, active] using running
      | false =>
          simp only [unset, enabled, Bool.not_false, and_self, if_true]
          exact ⟨running.dhcpStart netif enabled true, fun ok _ _ => ok⟩
    · simpa [unset, enabled] using running
  · have inactive := idle unset
    simp only [unset, false_and, if_false, not_false_eq_true, if_true, false_implies, implies_true,
      and_true]
    exact Running.of_idle rfl (running.off inactive) running.added

theorem Running.begin (running : Running s) (ip mask gateway : IpAddress)
    (kept : ip = 0 → s.dhcpActive = true → o.hasHardware = true → s.macAddress b = s.sMac ∧
      ∃ s', s.start b o = (true, s')) :
    Running (s.begin b ip mask gateway o).2 ∧ ((s.begin b ip mask gateway o).1 = true → ip = 0 →
      s.dhcpEnabled = true → (s.begin b ip mask gateway o).2.dhcpActive = true) := by
  unfold State.begin
  generalize before : (if s.netif = true ∧ ip ≠ 0 then s.stopDhcp else s) = s₁
  have ready : Running s₁ ∧ (ip ≠ 0 → s₁.dhcpActive = false) ∧ (ip = 0 → s₁ = s) := by
    subst before
    split
    next stops => exact ⟨running.stopDhcp, fun _ => (stopDhcp_frame s).idle, fun any => absurd any stops.2⟩
    next goes =>
      refine ⟨running, fun fixed => ?_, fun _ => rfl⟩
      by_contra active
      exact goes ⟨running.netif (by simpa using active), fixed⟩
  rcases ready with ⟨running₁, idle, same⟩
  have started := running₁.start (b := b) (o := o) fun active hardware => by
    by_cases any : ip = 0
    · have equal := same any
      rw [equal] at active ⊢
      exact kept any active hardware
    · exact absurd active (by simp [idle any])
  dsimp only
  split
  next s₂ result =>
    rw [result] at started
    exact ⟨started.1, by simp⟩
  next s₂ result =>
    rw [result] at started
    rcases started with ⟨running₂, success⟩
    rcases success rfl with ⟨netif, client⟩
    have addressed : Running (s₂.netifSetAddr ip mask gateway) :=
      ⟨running₂.active, running₂.enabled, running₂.netif, running₂.added⟩
    rcases addressed.maybeStartDhcp (o := o) netif fun fixed => client.dhcpActive.trans (idle fixed) with
      ⟨running₃, active⟩
    refine ⟨running₃, fun ok any enabled => active ok any ?_⟩
    rw [← same any] at enabled
    exact client.dhcpEnabled.trans enabled

theorem Running.setMac (running : Running s) (mac : Option Mac) : Running { s with mac := mac } :=
  ⟨running.active, running.enabled, running.netif, running.added⟩

theorem Running.beginMac (running : Running s) (mac : Option Mac) (ip gateway subnet : IpAddress)
    (kept : ip = 0 → s.dhcpActive = true → o.hasHardware = true → resolve b mac = s.sMac ∧
      ∃ s', { s with mac := some (resolve b mac) }.start b o = (true, s')) :
    Running (s.beginMac b mac ip gateway subnet o).2 ∧
      ((s.beginMac b mac ip gateway subnet o).1 = true → ip = 0 → s.dhcpEnabled = true →
        (s.beginMac b mac ip gateway subnet o).2.dhcpActive = true) := by
  have begun := (running.setMac (some (resolve b mac))).begin ip subnet gateway kept
  unfold State.beginMac
  dsimp only
  split
  next s' result =>
    rw [result] at begun
    exact ⟨begun.1.setMac _, by simp⟩
  next s' result =>
    rw [result] at begun
    exact begun

theorem Running.dhcp (running : Running s) (event : DhcpEvent) :
    Running (s.dhcp event) ∧ (s.dhcp event).dhcpActive = s.dhcpActive := by
  cases event with
  | supply ip mask gateway =>
      simp only [State.dhcp]
      split
      next there =>
        refine ⟨⟨?_, running.enabled, running.netif, running.added⟩, rfl⟩
        simpa [netifSetAddr] using running.active.mpr there.2.1
      · exact ⟨running, rfl⟩
  | lose =>
      simp only [State.dhcp]
      split
      next there =>
        refine ⟨⟨?_, running.enabled, running.netif, running.added⟩, rfl⟩
        simpa [netifSetAddr] using running.active.mpr (by simp [there.2])
      · exact ⟨running, rfl⟩

theorem Running.waited (running : Running s) (events : List DhcpEvent) :
    Running (events.foldl State.dhcp s) ∧ (events.foldl State.dhcp s).dhcpActive = s.dhcpActive := by
  apply Run.foldl_preserves (fun s' => Running s' ∧ s'.dhcpActive = s.dhcpActive) State.dhcp _ events s
    ⟨running, rfl⟩
  intro s' event kept
  exact ⟨(kept.1.dhcp event).1, (kept.1.dhcp event).2.trans kept.2⟩

theorem Running.setMacAddress (running : Running s) (mac : Option Mac) :
    Running (s.setMacAddress b mac o) := by
  unfold State.setMacAddress
  generalize filled : (if mac.isNone = true then s.ensureMac b else s) = s₁
  have running₁ : Running s₁ := by
    subst filled
    split
    · exact running.setMac _
    · exact running
  dsimp only
  split
  · exact running₁
  · have changed := running₁.setMac (some (resolve b mac))
    split
    · exact changed
    · have stopped := changed.stopDhcp
      have idle := (stopDhcp_frame { s₁ with mac := some (resolve b mac) }).idle
      have started := stopped.start (b := b) (o := o) fun active _ => absurd active (by simp [idle])
      split
      next s₂ result =>
        rw [result] at started
        exact started.1
      next s₂ result =>
        rw [result] at started
        rcases started with ⟨running₂, success⟩
        rcases success rfl with ⟨netif, client⟩
        exact (running₂.maybeStartDhcp netif fun _ => client.dhcpActive.trans idle).1

theorem Running.setDhcpEnabled (running : Running s) (flag : Bool) :
    Running (s.setDhcpEnabled flag o).2 := by
  unfold State.setDhcpEnabled
  dsimp only
  by_cases netif : s.netif = true
  · rw [if_neg (by simp [netif])]
    cases flag with
    | true =>
        have enabled : Running { s with dhcpEnabled := true } :=
          ⟨running.active, fun _ => rfl, running.netif, running.added⟩
        simp only [if_true]
        split
        · exact enabled.dhcpStart netif rfl s.dhcpDesired
        · exact enabled
    | false =>
        have stopped : Running { s with dhcpEnabled := false }.stopDhcp :=
          stopDhcp_running running.active running.added
        exact stopped
  · rw [if_pos (by simp [netif])]
    have idle : s.dhcpActive = false := by
      by_contra active
      exact netif (running.netif (by simpa using active))
    exact Running.of_idle idle (running.off idle) running.added

theorem Running.endEthernet (running : Running s) : Running s.endEthernet := by
  unfold State.endEthernet
  dsimp only
  by_cases netif : s.netif = true
  · rw [if_neg (by simp [netif])]
    cases active : s.dhcpActive with
    | true =>
        have stopped := running.stopDhcp
        have idle := (stopDhcp_frame s).idle
        exact Running.of_idle idle (stopped.off idle) (by simp)
    | false => exact Running.of_idle active (running.off active) (by simp)
  · rw [if_pos (by simp [netif])]
    exact running

/-- Every call keeps the flags in step with the client, and a successful `begin` for DHCP ends with a
running client. -/
theorem call_running (running : Running s) (c : Call) (kept : KeepsClient b s c) :
    Running (s.call b c).2 ∧ ∀ mac, c.op.begins b s = some (0, mac) → s.dhcpEnabled = true →
      (s.call b c).1 = true → (s.call b c).2.dhcpActive = true := by
  rcases c with ⟨op, o⟩
  have succeeds (s' : State) (mac : Mac) (ip : IpAddress)
      (kept : ip = 0 → s.dhcpActive = true → o.hasHardware = true → mac = s.sMac ∧
        o.driverInit = true ∧ o.setMac = true ∧ o.getMac = true ∧ o.getMacAgain = true) :
      ip = 0 → s.dhcpActive = true → o.hasHardware = true → mac = s.sMac ∧
        ∃ s'', s'.start b o = (true, s'') := by
    intro any active hardware
    rcases kept any active hardware with ⟨same, driverInit, setMac, getMac, again⟩
    exact ⟨same, start_succeeds b o s' hardware driverInit setMac getMac again⟩
  have plain (ip mask gateway : IpAddress) (kept : ip = 0 → s.dhcpActive = true →
      o.hasHardware = true → s.macAddress b = s.sMac ∧ o.driverInit = true ∧ o.setMac = true ∧
      o.getMac = true ∧ o.getMacAgain = true) := running.begin ip mask gateway (succeeds s _ ip kept)
  have named (mac : Option Mac) (ip gateway subnet : IpAddress) (kept : ip = 0 → s.dhcpActive = true →
      o.hasHardware = true → resolve b mac = s.sMac ∧ o.driverInit = true ∧ o.setMac = true ∧
      o.getMac = true ∧ o.getMacAgain = true) :=
    running.beginMac mac ip gateway subnet (succeeds { s with mac := some (resolve b mac) } _ ip kept)
  cases op with
  | begin =>
      have begun := plain inaddrNone inaddrNone inaddrNone kept
      exact ⟨begun.1, fun _ _ enabled ok => begun.2 ok rfl enabled⟩
  | beginIp ip mask gateway =>
      have begun := plain ip mask gateway kept
      refine ⟨begun.1, fun _ begins enabled ok => begun.2 ok ?_ enabled⟩
      exact congrArg Prod.fst (Option.some.inj begins)
  | beginMacTimeout mac waited =>
      have begun := named mac inaddrNone inaddrNone inaddrNone kept
      simp only [State.call, State.beginMacTimeout]
      split
      next s' result =>
        rw [result] at begun
        exact ⟨begun.1, by simp⟩
      next s' result =>
        rw [result] at begun
        have later := begun.1.waited waited
        exact ⟨later.1, fun _ _ enabled _ => later.2.trans (begun.2 rfl rfl enabled)⟩
  | beginMacIp mac ip =>
      have begun := named mac ip (firstHost ip) classC kept
      refine ⟨begun.1, fun _ begins enabled ok => begun.2 ok ?_ enabled⟩
      exact congrArg Prod.fst (Option.some.inj begins)
  | beginMacGateway mac ip gateway =>
      have begun := named mac ip gateway classC kept
      refine ⟨begun.1, fun _ begins enabled ok => begun.2 ok ?_ enabled⟩
      exact congrArg Prod.fst (Option.some.inj begins)
  | beginMacSubnet mac ip gateway subnet =>
      have begun := named mac ip gateway subnet kept
      refine ⟨begun.1, fun _ begins enabled ok => begun.2 ok ?_ enabled⟩
      exact congrArg Prod.fst (Option.some.inj begins)
  | setMacAddress mac => exact ⟨running.setMacAddress mac, by simp [Op.begins]⟩
  | setDhcpEnabled flag => exact ⟨running.setDhcpEnabled flag, by simp [Op.begins]⟩
  | endEthernet => exact ⟨running.endEthernet, by simp [Op.begins]⟩
  | dhcp event => exact ⟨(running.dhcp event).1, by simp [Op.begins]⟩

theorem dhcp_agrees (b : Board) (driverMac : Mac) (calls : List Call)
    (kept : Run.Allowed (KeepsClient b) (State.step b) (State.boot driverMac) calls) :
    Agrees (exec b driverMac calls) ∧
      ∀ c mac, KeepsClient b (exec b driverMac calls) c →
        c.op.begins b (exec b driverMac calls) = some (0, mac) →
        (exec b driverMac calls).dhcpEnabled = true → ((exec b driverMac calls).call b c).1 = true →
        ((exec b driverMac calls).call b c).2.netif = true ∧
          ((exec b driverMac calls).call b c).2.sNetif.dhcp ≠ .off := by
  have running : Running (exec b driverMac calls) :=
    Run.allowed_preserves Running (KeepsClient b) (State.step b)
      (fun s c ok running => (call_running running c ok).1) calls _ kept (boot_running driverMac)
  refine ⟨running.agrees, ?_⟩
  intro c mac ok begins enabled success
  have after := call_running running c ok
  have active := after.2 mac begins enabled success
  exact ⟨after.1.netif active, after.1.active.mp active⟩

def systemBoard : Board := { systemMac := #v[4, 233, 229, 1, 2, 3] }

def testMac : Mac := #v[2, 1, 3, 4, 5, 6]

/-- A client is started, gets an address, and goes on through a second `begin`; a static address and
another MAC address end it, and `setDHCPEnabled` does. -/
def keptRun : List Call :=
  [⟨.begin, {}⟩, ⟨.dhcp (.supply 0x0a01a8c0 classC 0x0101a8c0), {}⟩, ⟨.begin, {}⟩,
    ⟨.beginMacIp (some testMac) 0x0a01a8c0, {}⟩, ⟨.setDhcpEnabled false, {}⟩, ⟨.begin, {}⟩]

theorem dhcp_agrees_keptRun : Agrees (exec systemBoard (Vector.replicate 6 0) keptRun) ∧
    (exec systemBoard (Vector.replicate 6 0) keptRun).netif = true :=
  ⟨(dhcp_agrees systemBoard (Vector.replicate 6 0) keptRun (by decide)).1, by decide⟩

/-- With another MAC address, or a driver that fails, the running client is lost and still counts as
active. -/
theorem dhcp_lost :
    (¬ Agrees (exec systemBoard (Vector.replicate 6 0)
        [⟨.beginMacSubnet none 0 0 0, {}⟩, ⟨.beginMacSubnet (some testMac) 0 0 0, {}⟩]) ∧
      ((exec systemBoard (Vector.replicate 6 0) [⟨.beginMacSubnet none 0 0 0, {}⟩]).call systemBoard
        ⟨.beginMacSubnet (some testMac) 0 0 0, {}⟩).1 = true) ∧
    ¬ Agrees (exec systemBoard (Vector.replicate 6 0)
        [⟨.begin, {}⟩, ⟨.begin, { driverInit := false }⟩]) := by
  refine ⟨⟨?_, by decide⟩, ?_⟩
  all_goals
    intro agrees
    exact absurd agrees.active (by decide)

end QNEthernet.EthernetClass
