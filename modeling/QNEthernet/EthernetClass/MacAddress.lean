import QNEthernet.EthernetClass.Dhcp

/-! The four copies of the MAC address: in `EthernetClass`, in `lwip_driver.cpp`, in the interface and
in the driver's chip. -/

namespace QNEthernet.EthernetClass

open State

/-- While the interface is up, all copies are equal. -/
def Consistent (b : Board) (s : State) : Prop :=
  s.netif = true →
    s.macAddress b = s.sMac ∧ s.sNetif.hwaddr = s.sMac ∧ s.driverMac = s.sMac

def Op.named (b : Board) : Op → Option (IpAddress × Mac)
  | .beginMacTimeout mac _ => some (inaddrNone, resolve b mac)
  | .beginMacIp mac ip => some (ip, resolve b mac)
  | .beginMacGateway mac ip _ => some (ip, resolve b mac)
  | .beginMacSubnet mac ip _ _ => some (ip, resolve b mac)
  | _ => none

/-- The call fails after the driver got another address: the driver cannot be read back, or the DHCP
client does not start. -/
def takenBack (b : Board) (s : State) (o : Outcomes) (ip : IpAddress) (mac : Mac) : Bool :=
  mac ≠ s.macAddress b && o.hasHardware && o.driverInit && o.setMac &&
    if o.getMac && o.getMacAgain then ip == 0 && s.dhcpEnabled && !s.dhcpActive && !o.dhcpStart
    else s.macAddress b = s.driverMac

/-- No address is taken back, and none is set on a running interface without the hardware. -/
def KeepsMac (b : Board) (s : State) (c : Call) : Prop :=
  match c.op, c.op.named b with
  | .setMacAddress mac, _ => s.netif → s.mac ≠ some (resolve b mac) → c.outcomes.hasHardware
  | _, some (ip, mac) => takenBack b s c.outcomes ip mac = false
  | _, none => True

instance (b : Board) (s : State) (c : Call) : Decidable (KeepsMac b s c) := by
  unfold KeepsMac
  split <;> infer_instance

/-- Nothing happened to the copies. -/
structure SameMacs (s s' : State) : Prop where
  netif : s'.netif = s.netif
  mac : s'.mac = s.mac
  sMac : s'.sMac = s.sMac
  driverMac : s'.driverMac = s.driverMac
  hwaddr : s'.sNetif.hwaddr = s.sNetif.hwaddr

variable {b : Board} {o : Outcomes} {s s' : State}

theorem SameMacs.address (same : SameMacs s s') : s'.macAddress b = s.macAddress b := by
  rw [macAddress, same.mac, macAddress]

theorem SameMacs.consistent (same : SameMacs s s') (consistent : Consistent b s) : Consistent b s' := by
  intro netif
  rw [same.netif] at netif
  rw [same.address, same.sMac, same.driverMac, same.hwaddr]
  exact consistent netif

theorem stopDhcp_same (s : State) : SameMacs s s.stopDhcp :=
  have frame := stopDhcp_frame s
  ⟨frame.netif, frame.mac, frame.sMac, frame.driverMac, frame.hwaddr⟩

theorem maybeStartDhcp_same (s : State) (o : Outcomes) : SameMacs s (s.maybeStartDhcp o).2 := by
  unfold maybeStartDhcp
  dsimp only
  split
  · exact ⟨rfl, rfl, rfl, rfl, rfl⟩
  · split <;> exact ⟨rfl, rfl, rfl, rfl, rfl⟩

theorem maybeStartDhcp_failed (s : State) (o : Outcomes) (failed : (s.maybeStartDhcp o).1 = false) :
    s.sNetif.ipAddr = 0 ∧ s.dhcpEnabled = true ∧ s.dhcpActive = false ∧ o.dhcpStart = false := by
  unfold maybeStartDhcp dhcpStart at failed
  dsimp only at failed
  split at failed
  next starts => exact ⟨starts.1, starts.2.1, by simpa using starts.2.2, failed⟩
  · split at failed <;> exact absurd failed (by simp)

theorem dhcp_same (s : State) (event : DhcpEvent) : SameMacs s (s.dhcp event) := by
  cases event with
  | supply ip mask gateway =>
      simp only [State.dhcp]
      split <;> exact ⟨rfl, rfl, rfl, rfl, rfl⟩
  | lose =>
      simp only [State.dhcp]
      split <;> exact ⟨rfl, rfl, rfl, rfl, rfl⟩

theorem SameMacs.trans {s'' : State} (first : SameMacs s s') (second : SameMacs s' s'') :
    SameMacs s s'' :=
  ⟨second.netif.trans first.netif, second.mac.trans first.mac, second.sMac.trans first.sMac,
    second.driverMac.trans first.driverMac, second.hwaddr.trans first.hwaddr⟩

theorem waited_same (s : State) (events : List DhcpEvent) : SameMacs s (events.foldl State.dhcp s) := by
  apply Run.foldl_preserves (fun s' => SameMacs s s') State.dhcp _ events s ⟨rfl, rfl, rfl, rfl, rfl⟩
  exact fun s' event same => same.trans (dhcp_same s' event)

theorem State.Started.consistent (started : Started b o s s') : Consistent b s' := by
  intro _
  rw [macAddress, started.mac, started.sMac, started.hwaddr]
  exact ⟨rfl, rfl, rfl⟩

/-- What a `begin` can do to the copies: nothing without the hardware, or it starts the interface, or it
leaves it stopped. -/
theorem begin_macs (b : Board) (ip mask gateway : IpAddress) (o : Outcomes) (s : State) :
    o.hasHardware = false ∧ (s.begin b ip mask gateway o).1 = false ∧
      SameMacs s (s.begin b ip mask gateway o).2 ∨
    (o.hasHardware = true ∧ (s.begin b ip mask gateway o).1 = false ∧
      ∃ s₁, SameMacs s s₁ ∧ Stopped b o s₁ (s.begin b ip mask gateway o).2) ∨
    (∃ s₁ s₂, SameMacs s s₁ ∧ Started b o s₁ s₂ ∧ SameMacs s₂ (s.begin b ip mask gateway o).2 ∧
      ((s.begin b ip mask gateway o).1 = false → ip = 0 ∧ s.dhcpEnabled = true ∧
        s.dhcpActive = false ∧ o.dhcpStart = false)) := by
  unfold State.begin
  generalize before : (if s.netif = true ∧ ip ≠ 0 then s.stopDhcp else s) = s₁
  have same : SameMacs s s₁ ∧ (ip = 0 → s₁ = s) := by
    subst before
    split
    next stops => exact ⟨stopDhcp_same s, fun any => absurd any stops.2⟩
    · exact ⟨⟨rfl, rfl, rfl, rfl, rfl⟩, fun _ => rfl⟩
  dsimp only
  cases hardware : o.hasHardware with
  | false =>
      rw [start_without b o s₁ hardware]
      exact .inl ⟨rfl, rfl, same.1⟩
  | true =>
      right
      rcases start_hardware b o s₁ hardware with ⟨s₂, result, stopped⟩ | ⟨s₂, result, started⟩
      · rw [result]
        exact .inl ⟨rfl, rfl, s₁, same.1, stopped⟩
      · rw [result]
        have addressed : SameMacs s₂ (s₂.netifSetAddr ip mask gateway) := ⟨rfl, rfl, rfl, rfl, rfl⟩
        refine .inr ⟨s₁, s₂, same.1, started, addressed.trans (maybeStartDhcp_same _ o), ?_⟩
        intro failed
        rcases maybeStartDhcp_failed _ o failed with ⟨any, enabled, idle, notStarted⟩
        have any : ip = 0 := any
        have client := started.same
        rw [same.2 any] at client
        exact ⟨any, client.dhcpEnabled.symm.trans enabled, client.dhcpActive.symm.trans idle,
          notStarted⟩

theorem beginMac_eq (b : Board) (mac : Option Mac) (ip gateway subnet : IpAddress) (o : Outcomes)
    (s : State) : s.beginMac b mac ip gateway subnet o =
      (({ s with mac := some (resolve b mac) }.begin b ip subnet gateway o).1,
        if ({ s with mac := some (resolve b mac) }.begin b ip subnet gateway o).1 then
          ({ s with mac := some (resolve b mac) }.begin b ip subnet gateway o).2
        else
          { ({ s with mac := some (resolve b mac) }.begin b ip subnet gateway o).2 with
            mac := some (s.macAddress b) }) := by
  unfold State.beginMac
  dsimp only
  split
  next result => simp [result]
  next result => simp [result]

/-- What a call with a MAC address leaves: the copies are equal while the interface is up, and if it
fails `macAddress()` is what the driver uses, if it was so before. -/
structure Named (b : Board) (s : State) (result : Bool × State) : Prop where
  consistent : Consistent b result.2
  failed : result.1 = false → s.macAddress b = s.driverMac →
    result.2.macAddress b = result.2.driverMac
  up : result.1 = true → result.2.netif = true

theorem beginMac_named (settable : b.settable = true) (mac : Option Mac) (ip gateway subnet : IpAddress)
    (kept : takenBack b s o ip (resolve b mac) = false) (consistent : Consistent b s) :
    Named b s (s.beginMac b mac ip gateway subnet o) := by
  rw [beginMac_eq]
  generalize begun : { s with mac := some (resolve b mac) }.begin b ip subnet gateway o = result
  have cases_ := begin_macs b ip subnet gateway o { s with mac := some (resolve b mac) }
  rw [begun] at cases_
  rcases result with ⟨ok, s'⟩
  rcases cases_ with ⟨hardware, failed, same⟩ | ⟨hardware, failed, s₁, same, stopped⟩ |
    ⟨s₁, s₂, same, started, later, failing⟩
  · -- Nothing was done but setting the address, which is restored
    cases failed
    have restored : SameMacs { s with mac := some (s.macAddress b) }
        { s' with mac := some (s.macAddress b) } :=
      ⟨same.netif, rfl, same.sMac, same.driverMac, same.hwaddr⟩
    refine ⟨restored.consistent consistent, fun _ equal => ?_, by simp⟩
    exact equal.trans same.driverMac.symm
  · cases failed
    have down : s'.netif = false := stopped.netif
    refine ⟨fun netif => absurd netif (by simp [down]), fun _ equal => ?_, by simp⟩
    change s.macAddress b = s'.driverMac
    rcases stopped.driverMac with unchanged | ⟨set, driverInit, setMac, unread⟩
    · rw [unchanged, same.driverMac]
      exact equal
    · have given : s'.driverMac = resolve b mac := by rw [set, same.address]; rfl
      rw [given]
      by_contra other
      have failing : (o.getMac && o.getMacAgain) = false := by
        rcases unread with unread | unread <;> simp [unread]
      have different : resolve b mac ≠ s.macAddress b := fun same => other same.symm
      rw [takenBack, failing] at kept
      simp [hardware, driverInit, setMac, equal] at kept
      exact different (kept.trans equal.symm)
  · have address : s₂.driverMac = resolve b mac := by
      rw [started.driverMac settable, same.address]
      rfl
    have full := later.consistent started.consistent
    cases ok with
    | true => exact ⟨full, by simp, fun _ => later.netif.trans started.netif⟩
    | false =>
        rcases failing rfl with ⟨any, enabled, idle, notStarted⟩
        have unchanged : resolve b mac = s.macAddress b := by
          by_contra different
          rcases started.passed with ⟨getMac, again, hardware, driverInit, setMac⟩
          have enabled : s.dhcpEnabled = true := enabled
          have idle : s.dhcpActive = false := idle
          simp [takenBack, different, hardware, driverInit, setMac, getMac, again, any, enabled, idle,
            notStarted] at kept
        have restored : SameMacs s₂ { s' with mac := some (s.macAddress b) } := by
          refine ⟨later.netif, ?_, later.sMac, later.driverMac, later.hwaddr⟩
          rw [started.mac, address, unchanged]
        refine ⟨restored.consistent started.consistent, fun _ _ => ?_, by simp⟩
        exact unchanged.symm.trans (address.symm.trans later.driverMac.symm)

theorem begin_consistent (ip mask gateway : IpAddress) (consistent : Consistent b s) :
    Consistent b (s.begin b ip mask gateway o).2 := by
  rcases begin_macs b ip mask gateway o s with
    ⟨-, -, same⟩ | ⟨-, -, s₁, same, stopped⟩ | ⟨s₁, s₂, same, started, later, -⟩
  · exact same.consistent consistent
  · exact fun netif => absurd netif (by simp [stopped.netif])
  · exact later.consistent started.consistent

theorem setMacAddress_consistent (mac : Option Mac) (consistent : Consistent b s)
    (hardware : s.netif = true → s.mac ≠ some (resolve b mac) → o.hasHardware = true) :
    Consistent b (s.setMacAddress b mac o) := by
  unfold State.setMacAddress
  generalize filled : (if mac.isNone = true then s.ensureMac b else s) = s₁
  have same : s₁.netif = s.netif ∧ Consistent b s₁ ∧
      (s.mac = some (resolve b mac) → s₁.mac = some (resolve b mac)) := by
    subst filled
    split
    · refine ⟨rfl, consistent, fun equal => ?_⟩
      rw [ensureMac, macAddress, equal]
      rfl
    · exact ⟨rfl, consistent, fun equal => equal⟩
  dsimp only
  split
  · exact same.2.1
  next changed =>
    split
    next down => exact fun netif => absurd netif (by simpa using down)
    next up =>
      have running : s₁.netif = true := by simpa using up
      have there : o.hasHardware = true :=
        hardware (same.1.symm.trans running) fun equal => changed (same.2.2 equal)
      rcases start_hardware b o { s₁ with mac := some (resolve b mac) }.stopDhcp there with
        ⟨s₂, result, stopped⟩ | ⟨s₂, result, started⟩
      · rw [result]
        exact fun netif => absurd netif (by simp [stopped.netif])
      · rw [result]
        exact (maybeStartDhcp_same s₂ o).consistent started.consistent

theorem setDhcpEnabled_same (flag : Bool) : SameMacs s (s.setDhcpEnabled flag o).2 := by
  unfold State.setDhcpEnabled
  dsimp only
  split
  · exact ⟨rfl, rfl, rfl, rfl, rfl⟩
  · split
    · split <;> exact ⟨rfl, rfl, rfl, rfl, rfl⟩
    · have stopped := stopDhcp_same { s with dhcpEnabled := flag }
      exact ⟨stopped.netif, stopped.mac, stopped.sMac, stopped.driverMac, stopped.hwaddr⟩

theorem endEthernet_consistent (consistent : Consistent b s) : Consistent b s.endEthernet := by
  unfold State.endEthernet
  split
  · exact consistent
  · exact fun netif => absurd netif (by simp)

/-- Every call keeps the copies equal, and a failing one with a MAC address leaves `macAddress()` what
the driver uses. -/
theorem call_consistent (settable : b.settable = true) (c : Call) (kept : KeepsMac b s c)
    (consistent : Consistent b s) :
    Consistent b (s.call b c).2 ∧ ((c.op.named b).isSome → (s.call b c).1 = false →
      s.macAddress b = s.driverMac → (s.call b c).2.macAddress b = (s.call b c).2.driverMac) := by
  rcases c with ⟨op, o⟩
  cases op with
  | begin => exact ⟨begin_consistent _ _ _ consistent, by simp [Op.named]⟩
  | beginIp ip mask gateway => exact ⟨begin_consistent _ _ _ consistent, by simp [Op.named]⟩
  | beginMacTimeout mac waited =>
      have begun := beginMac_named settable mac inaddrNone inaddrNone inaddrNone kept consistent
      simp only [State.call, State.beginMacTimeout]
      split
      next s' result =>
        rw [result] at begun
        exact ⟨begun.consistent, fun _ => begun.failed⟩
      next s' result =>
        rw [result] at begun
        have later := waited_same s' waited
        have full := later.consistent begun.consistent
        refine ⟨full, fun _ _ _ => ?_⟩
        rcases full (later.netif.trans (begun.up rfl)) with ⟨address, -, driver⟩
        exact address.trans driver.symm
  | beginMacIp mac ip =>
      have begun := beginMac_named settable mac ip (firstHost ip) classC kept consistent
      exact ⟨begun.consistent, fun _ => begun.failed⟩
  | beginMacGateway mac ip gateway =>
      have begun := beginMac_named settable mac ip gateway classC kept consistent
      exact ⟨begun.consistent, fun _ => begun.failed⟩
  | beginMacSubnet mac ip gateway subnet =>
      have begun := beginMac_named settable mac ip gateway subnet kept consistent
      exact ⟨begun.consistent, fun _ => begun.failed⟩
  | setMacAddress mac => exact ⟨setMacAddress_consistent mac consistent kept, by simp [Op.named]⟩
  | setDhcpEnabled flag =>
      exact ⟨(setDhcpEnabled_same flag).consistent consistent, by simp [Op.named]⟩
  | endEthernet => exact ⟨endEthernet_consistent consistent, by simp [Op.named]⟩
  | dhcp event => exact ⟨(dhcp_same s event).consistent consistent, by simp [Op.named]⟩

theorem mac_consistent (b : Board) (settable : b.settable = true) (driverMac : Mac) (calls : List Call)
    (kept : Run.Allowed (KeepsMac b) (State.step b) (State.boot driverMac) calls) :
    Consistent b (exec b driverMac calls) ∧
      ∀ c, KeepsMac b (exec b driverMac calls) c → (c.op.named b).isSome →
        ((exec b driverMac calls).call b c).1 = false →
        (exec b driverMac calls).macAddress b = (exec b driverMac calls).driverMac →
        ((exec b driverMac calls).call b c).2.macAddress b =
          ((exec b driverMac calls).call b c).2.driverMac := by
  have consistent : Consistent b (exec b driverMac calls) :=
    Run.allowed_preserves (Consistent b) (KeepsMac b) (State.step b)
      (fun s c ok consistent => (call_consistent settable c ok consistent).1) calls _ kept
      (fun netif => absurd netif (by simp [State.boot]))
  exact ⟨consistent, fun c ok => (call_consistent settable c ok consistent).2⟩

/-- The MAC address changes in all ways, once with a client that does not start, once without the
hardware, and once with a driver that cannot be set. -/
def changedRun : List Call :=
  [⟨.begin, {}⟩, ⟨.setMacAddress (some testMac), {}⟩, ⟨.beginMacIp none 0x0a01a8c0, {}⟩,
    ⟨.beginMacIp (some testMac) 0x0a01a8c0, { hasHardware := false }⟩, ⟨.begin, { dhcpStart := false }⟩,
    ⟨.beginMacTimeout (some testMac) [], { setMac := false }⟩]

theorem mac_consistent_changedRun :
    Consistent systemBoard (exec systemBoard (Vector.replicate 6 0) changedRun) :=
  (mac_consistent systemBoard rfl (Vector.replicate 6 0) changedRun (by decide)).1

/-- The DHCP client does not start, and the address that the driver uses is taken back; or it is set
without the hardware. -/
theorem mac_inconsistent :
    (¬ Consistent systemBoard (exec systemBoard (Vector.replicate 6 0)
        [⟨.beginMacTimeout (some testMac) [], { dhcpStart := false }⟩])) ∧
    (¬ Consistent systemBoard (exec systemBoard (Vector.replicate 6 0)
        [⟨.begin, {}⟩, ⟨.setMacAddress (some testMac), { hasHardware := false }⟩])) ∧
    (exec systemBoard (Vector.replicate 6 0) [⟨.begin, {}⟩]).macAddress systemBoard =
      (exec systemBoard (Vector.replicate 6 0) [⟨.begin, {}⟩]).driverMac ∧
    ((exec systemBoard (Vector.replicate 6 0) [⟨.begin, {}⟩]).call systemBoard
      ⟨.beginMacIp (some testMac) 0x0a01a8c0, { getMac := false }⟩).1 = false ∧
    ((exec systemBoard (Vector.replicate 6 0) [⟨.begin, {}⟩]).call systemBoard
      ⟨.beginMacIp (some testMac) 0x0a01a8c0, { getMac := false }⟩).2.macAddress systemBoard ≠
    ((exec systemBoard (Vector.replicate 6 0) [⟨.begin, {}⟩]).call systemBoard
      ⟨.beginMacIp (some testMac) 0x0a01a8c0, { getMac := false }⟩).2.driverMac := by
  refine ⟨?_, ?_, by decide, by decide, by decide⟩
  all_goals
    unfold Consistent
    decide

end QNEthernet.EthernetClass
