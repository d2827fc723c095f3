import QNEthernet.EthernetClass.Model

/-! What `start()` can do to the interface, the DHCP client and the copies of the MAC address. -/

namespace QNEthernet.EthernetClass.State

variable {b : Board} {o : Outcomes} {s s' : State}

/-- The fields of `EthernetClass` that `enet::init` and `start()` do not touch. -/
structure SameClient (s s' : State) : Prop where
  dhcpEnabled : s'.dhcpEnabled = s.dhcpEnabled
  dhcpDesired : s'.dhcpDesired = s.dhcpDesired
  dhcpActive : s'.dhcpActive = s.dhcpActive

/-- `start()` succeeded: the interface is there, and all copies of the MAC address are equal. The
client goes on if the interface was there with this address, and else it is a new one. -/
structure Started (b : Board) (o : Outcomes) (s s' : State) : Prop where
  same : SameClient s s'
  netif : s'.netif = true
  added : s'.isNetifAdded = true
  mac : s'.mac = some s'.driverMac
  sMac : s'.sMac = s'.driverMac
  hwaddr : s'.sNetif.hwaddr = s'.driverMac
  driverMac : b.settable = true → s'.driverMac = s.macAddress b
  kept : s.isNetifAdded = true → s.sMac = s.macAddress b → s'.sNetif.dhcp = s.sNetif.dhcp
  dhcp : s'.sNetif.dhcp = s.sNetif.dhcp ∨ s'.sNetif.dhcp = .off
  passed : o.getMac = true ∧ o.getMacAgain = true ∧ o.hasHardware = true ∧ o.driverInit = true ∧
    o.setMac = true

/-- `start()` failed with the hardware there, before or after the driver was given the address. -/
structure Stopped (b : Board) (o : Outcomes) (s s' : State) : Prop where
  same : SameClient s s'
  netif : s'.netif = false
  mac : s'.mac = some (s.macAddress b)
  dhcp : s'.sNetif.dhcp = s.sNetif.dhcp ∨ s'.sNetif.dhcp = .off
  driverMac : s'.driverMac = s.driverMac ∨ s'.driverMac = s.macAddress b ∧ o.driverInit = true ∧
    o.setMac = true ∧ (o.getMac = false ∨ o.getMacAgain = false)

theorem prepare_eq (mac : Mac) (s : State) :
    s.prepare mac =
      { s with
        isFirstInit := false
        isNetifAdded := s.isNetifAdded && (s.isFirstInit || decide (s.sMac = mac)) } := by
  unfold prepare
  cases first : s.isFirstInit <;> by_cases same : s.sMac = mac <;> simp [removeNetif, same, first]
  all_goals (cases s; simp_all)

theorem attach_eq (s : State) :
    s.attach =
      { s with
        isNetifAdded := true
        sNetif := if s.isNetifAdded then { s.sNetif with hwaddr := s.sMac } else { hwaddr := s.sMac } } := by
  unfold attach addNetif
  cases added : s.isNetifAdded <;> simp

theorem start_hardware (b : Board) (o : Outcomes) (s : State) (hardware : o.hasHardware = true) :
    (∃ s', s.start b o = (false, s') ∧ Stopped b o s s') ∨
      ∃ s', s.start b o = (true, s') ∧ Started b o s s' := by
  have address : ({ s with netif := true }.ensureMac b).macAddress b = s.macAddress b := rfl
  rcases o with ⟨_, driverInit, setMacOk, getMac, again, dhcp⟩
  cases hardware
  cases driverInit with
  | false =>
      exact .inl ⟨_, rfl, ⟨⟨rfl, rfl, rfl⟩, rfl, rfl, .inl rfl, .inl rfl⟩⟩
  | true =>
      cases setMacOk with
      | false =>
          refine .inl ⟨_, rfl, ?_⟩
          rw [prepare_eq]
          exact ⟨⟨rfl, rfl, rfl⟩, rfl, rfl, .inl rfl, .inl rfl⟩
      | true =>
          cases getMac with
          | false =>
              refine .inl ⟨_, rfl, ?_⟩
              rw [prepare_eq]
              refine ⟨⟨rfl, rfl, rfl⟩, rfl, rfl, .inl rfl, ?_⟩
              cases settable : b.settable <;> simp [setMac, settable, ensureMac, macAddress]
          | true =>
              cases again with
              | false =>
                  refine .inl ⟨_, rfl, ?_⟩
                  rw [prepare_eq, attach_eq]
                  refine ⟨⟨rfl, rfl, rfl⟩, rfl, rfl, ?_, ?_⟩
                  · dsimp only [deinit, removeNetif]
                    split
                    · exact .inl rfl
                    · exact .inr rfl
                  · cases settable : b.settable <;>
                      simp [setMac, settable, ensureMac, macAddress, deinit, removeNetif]
              | true =>
                  refine .inr ⟨_, rfl, ?_⟩
                  rw [prepare_eq, attach_eq]
                  refine ⟨⟨rfl, rfl, rfl⟩, rfl, rfl, rfl, rfl, ?_, ?_, ?_, ?_, rfl, rfl, rfl, rfl, rfl⟩
                  · dsimp only
                    split <;> rfl
                  · intro settable
                    simp [setMac, settable, address]
                  · intro there unchanged
                    simp [setMac, there, unchanged, ensureMac, macAddress]
                  · dsimp only
                    split
                    · exact .inl rfl
                    · exact .inr rfl

theorem start_without (b : Board) (o : Outcomes) (s : State) (hardware : o.hasHardware = false) :
    s.start b o = (false, s) := by
  simp [start, hardware]

theorem start_succeeds (b : Board) (o : Outcomes) (s : State) (hardware : o.hasHardware = true)
    (driverInit : o.driverInit = true) (setMac : o.setMac = true) (getMac : o.getMac = true)
    (again : o.getMacAgain = true) : ∃ s', s.start b o = (true, s') := by
  simp [start, init, hardware, driverInit, setMac, getMac, again]

/-- What stopping the client leaves. -/
structure Ended (s s' : State) : Prop where
  idle : s'.dhcpActive = false
  netif : s'.netif = s.netif
  added : s'.isNetifAdded = s.isNetifAdded
  dhcpEnabled : s'.dhcpEnabled = s.dhcpEnabled
  mac : s'.mac = s.mac
  sMac : s'.sMac = s.sMac
  driverMac : s'.driverMac = s.driverMac
  hwaddr : s'.sNetif.hwaddr = s.sNetif.hwaddr

theorem stopDhcp_frame (s : State) : Ended s s.stopDhcp := by
  unfold stopDhcp dhcpReleaseAndStop
  cases active : s.dhcpActive with
  | false => exact ⟨active, rfl, rfl, rfl, rfl, rfl, rfl, rfl⟩
  | true =>
      dsimp only
      by_cases supplied : s.sNetif.dhcp = .supplied
      · rw [if_pos supplied]
        exact ⟨rfl, rfl, rfl, rfl, rfl, rfl, rfl, rfl⟩
      · rw [if_neg supplied]
        exact ⟨rfl, rfl, rfl, rfl, rfl, rfl, rfl, rfl⟩

end QNEthernet.EthernetClass.State
