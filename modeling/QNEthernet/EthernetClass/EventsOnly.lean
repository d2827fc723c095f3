import QNEthernet.EthernetClass.Events

/-! The events change nothing else: a call does to the rest of the state what it does without them. -/

namespace QNEthernet.EthernetClass

namespace Listened

variable {b : Board} {o : Outcomes}

/-! ## The events leave the rest of the state alone -/

@[simp]
theorem netifInvokeExtCallback_s (reason : Reason) (w : Listened) : (w.netifInvokeExtCallback reason).s = w.s := by
  rw [netifInvokeExtCallback, netifEventFunc]
  split
  · split <;> rfl
  · rfl

@[simp]
theorem netifSetAddr_s (ip mask gateway : IpAddress) (w : Listened) :
    (w.netifSetAddr ip mask gateway).s = w.s.netifSetAddr ip mask gateway := by
  rw [netifSetAddr]
  split
  · exact netifInvokeExtCallback_s ..
  · rfl

@[simp]
theorem netifSetUp_s (w : Listened) : w.netifSetUp.s = w.s := by
  rw [netifSetUp]
  split
  · exact netifInvokeExtCallback_s ..
  · rfl

@[simp]
theorem netifSetDown_s (w : Listened) : w.netifSetDown.s = w.s := by
  rw [netifSetDown]
  split
  · exact netifInvokeExtCallback_s ..
  · rfl

@[simp]
theorem netifSetLinkUp_s (w : Listened) : w.netifSetLinkUp.s = w.s := by
  rw [netifSetLinkUp]
  split
  · exact netifInvokeExtCallback_s ..
  · rfl

@[simp]
theorem netifSetLinkDown_s (w : Listened) : w.netifSetLinkDown.s = w.s := by
  rw [netifSetLinkDown]
  split
  · exact netifInvokeExtCallback_s ..
  · rfl

@[simp]
theorem dhcpReleaseAndStop_s (w : Listened) : w.dhcpReleaseAndStop.s = w.s.dhcpReleaseAndStop := by
  rw [dhcpReleaseAndStop, State.dhcpReleaseAndStop]
  split
  · exact netifSetAddr_s ..
  · rfl

@[simp]
theorem removeNetif_s (w : Listened) : w.removeNetif.s = w.s.removeNetif := by
  rw [removeNetif]
  split
  · simp [netifRemove]
  · next absent =>
    rw [State.removeNetif, ← Bool.eq_false_iff.mpr absent]

@[simp]
theorem prepare_s (mac : Mac) (w : Listened) : (w.prepare mac).s = w.s.prepare mac := by
  rw [prepare, State.prepare]
  split
  · rfl
  · split
    · exact removeNetif_s w
    · rfl

@[simp]
theorem attach_s (w : Listened) : w.attach.s = w.s.attach := by
  rw [attach, State.attach]
  split
  · exact netifInvokeExtCallback_s ..
  · rfl

theorem init_s (mac : Mac) (w : Listened) :
    (w.init b mac o).1 = (w.s.init b mac o).1 ∧ (w.init b mac o).2.s = (w.s.init b mac o).2 := by
  rw [init, State.init]
  split
  · exact ⟨rfl, rfl⟩
  · dsimp only
    split
    · exact ⟨rfl, prepare_s mac w⟩
    · split
      · exact ⟨rfl, by rw [prepare_s]⟩
      · exact ⟨rfl, by rw [attach_s, prepare_s]⟩

@[simp]
theorem deinit_s (w : Listened) : w.deinit.s = w.s.deinit := by
  rw [deinit, removeNetif_s]
  rfl

theorem start_s (w : Listened) : (w.start b o).1 = (w.s.start b o).1 ∧ (w.start b o).2.s = (w.s.start b o).2 := by
  rw [start, State.start]
  split
  · exact ⟨rfl, rfl⟩
  · dsimp only
    have down : (if w.s.netif then w.netifSetLinkDown.netifSetDown else w).s = w.s := by
      split <;> simp
    rw [down]
    generalize hw : { (if w.s.netif then w.netifSetLinkDown.netifSetDown else w) with
      s := { w.s with netif := true }.ensureMac b } = w'
    have started : w'.s = { w.s with netif := true }.ensureMac b := by rw [← hw]
    rw [← started]
    obtain ⟨same, left⟩ := init_s (b := b) (o := o) (w'.s.macAddress b) w'
    revert same left
    cases w'.init b (w'.s.macAddress b) o with
    | mk ok w'' =>
      cases w'.s.init b (w'.s.macAddress b) o with
      | mk ok' s' =>
        rintro rfl rfl
        cases ok with
        | false => exact ⟨rfl, rfl⟩
        | true =>
          dsimp only
          split
          · exact ⟨rfl, by simp [setNetif]⟩
          · exact ⟨rfl, by simp⟩

@[simp]
theorem stopDhcp_s (w : Listened) : w.stopDhcp.s = w.s.stopDhcp := by
  rw [stopDhcp, State.stopDhcp]
  split
  · simp
  · rfl

theorem begin_s (ip mask gateway : IpAddress) (w : Listened) :
    (w.begin b ip mask gateway o).1 = (w.s.begin b ip mask gateway o).1 ∧
      (w.begin b ip mask gateway o).2.s = (w.s.begin b ip mask gateway o).2 := by
  rw [begin, State.begin]
  have stopped : (if w.s.netif ∧ ip ≠ 0 then w.stopDhcp else w).s = if w.s.netif ∧ ip ≠ 0 then w.s.stopDhcp else w.s := by
    split
    · exact stopDhcp_s w
    · rfl
  generalize (if w.s.netif ∧ ip ≠ 0 then w.stopDhcp else w) = w' at stopped ⊢
  rw [← stopped]
  obtain ⟨same, left⟩ := start_s (b := b) (o := o) w'
  revert same left
  cases w'.start b o with
  | mk ok w'' =>
    cases w'.s.start b o with
    | mk ok' s' =>
      rintro rfl rfl
      cases ok with
      | false => exact ⟨rfl, rfl⟩
      | true => simp [maybeStartDhcp]

theorem beginMac_s (mac : Option Mac) (ip gateway subnet : IpAddress) (w : Listened) :
    (w.beginMac b mac ip gateway subnet o).1 = (w.s.beginMac b mac ip gateway subnet o).1 ∧
      (w.beginMac b mac ip gateway subnet o).2.s = (w.s.beginMac b mac ip gateway subnet o).2 := by
  rw [beginMac, State.beginMac]
  obtain ⟨same, left⟩ := begin_s (b := b) (o := o) ip subnet gateway
    { w with s := { w.s with mac := some (State.resolve b mac) } }
  revert same left
  cases begin b ip subnet gateway o { w with s := { w.s with mac := some (State.resolve b mac) } } with
  | mk ok w' =>
    cases State.begin b ip subnet gateway o { w.s with mac := some (State.resolve b mac) } with
    | mk ok' s' =>
      rintro rfl rfl
      cases ok with
      | false => exact ⟨rfl, rfl⟩
      | true => exact ⟨rfl, rfl⟩

theorem setMacAddress_s (mac : Option Mac) (w : Listened) : (w.setMacAddress b mac o).s = w.s.setMacAddress b mac o := by
  rw [setMacAddress, State.setMacAddress]
  have filled : (if mac.isNone then { w with s := w.s.ensureMac b } else w).s =
      if mac.isNone then w.s.ensureMac b else w.s := by
    split <;> rfl
  generalize (if mac.isNone then { w with s := w.s.ensureMac b } else w) = w' at filled ⊢
  rw [← filled]
  split
  · rfl
  · dsimp only
    split
    · rfl
    · obtain ⟨same, left⟩ := start_s (b := b) (o := o)
        { w' with s := { w'.s with mac := some (State.resolve b mac) } }.stopDhcp
      rw [stopDhcp_s] at same left
      revert same left
      cases start b o { w' with s := { w'.s with mac := some (State.resolve b mac) } }.stopDhcp with
      | mk ok w'' =>
        cases State.start b o { w'.s with mac := some (State.resolve b mac) }.stopDhcp with
        | mk ok' s' =>
          rintro rfl rfl
          cases ok with
          | false => rfl
          | true => rfl

theorem setDhcpEnabled_s (flag : Bool) (w : Listened) :
    (w.setDhcpEnabled flag o).1 = (w.s.setDhcpEnabled flag o).1 ∧
      (w.setDhcpEnabled flag o).2.s = (w.s.setDhcpEnabled flag o).2 := by
  rw [setDhcpEnabled, State.setDhcpEnabled]
  dsimp only
  split
  · exact ⟨rfl, rfl⟩
  · split
    · split
      · exact ⟨rfl, rfl⟩
      · exact ⟨rfl, rfl⟩
    · exact ⟨rfl, stopDhcp_s _⟩

@[simp]
theorem endEthernet_s (w : Listened) : w.endEthernet.s = w.s.endEthernet := by
  rw [endEthernet, State.endEthernet]
  split
  · rfl
  · split
    · simp [setNetif]
    · simp [setNetif]

@[simp]
theorem dhcp_s (w : Listened) (event : DhcpEvent) : (w.dhcp event).s = w.s.dhcp event := by
  cases event with
  | supply ip mask gateway =>
    rw [dhcp, State.dhcp]
    split
    · simp
    · rfl
  | lose =>
    rw [dhcp, State.dhcp]
    split
    · simp
    · rfl

theorem waited_s (w : Listened) (events : List DhcpEvent) : (events.foldl dhcp w).s = events.foldl State.dhcp w.s := by
  induction events generalizing w with
  | nil => rfl
  | cons event events ih => rw [List.foldl_cons, List.foldl_cons, ih, dhcp_s]

theorem call_s (w : Listened) (c : Call) : (w.call b c).1 = (w.s.call b c).1 ∧ (w.call b c).2.s = (w.s.call b c).2 := by
  rw [call, State.call]
  cases c.op with
  | begin => exact begin_s ..
  | beginIp ip mask gateway => exact begin_s ..
  | beginMacTimeout mac waited =>
    dsimp only [beginMacTimeout, State.beginMacTimeout]
    obtain ⟨same, left⟩ := beginMac_s (b := b) (o := c.outcomes) mac inaddrNone inaddrNone inaddrNone w
    revert same left
    cases w.beginMac b mac inaddrNone inaddrNone inaddrNone c.outcomes with
    | mk ok w' =>
      cases w.s.beginMac b mac inaddrNone inaddrNone inaddrNone c.outcomes with
      | mk ok' s' =>
        rintro rfl rfl
        cases ok with
        | false => exact ⟨rfl, rfl⟩
        | true => simp [waited_s]
  | beginMacIp mac ip => exact beginMac_s ..
  | beginMacGateway mac ip gateway => exact beginMac_s ..
  | beginMacSubnet mac ip gateway subnet => exact beginMac_s ..
  | setMacAddress mac => exact ⟨rfl, setMacAddress_s mac w⟩
  | setDhcpEnabled flag => exact setDhcpEnabled_s flag w
  | endEthernet => exact ⟨rfl, endEthernet_s w⟩
  | dhcp event => exact ⟨rfl, dhcp_s w event⟩

end Listened
end QNEthernet.EthernetClass
