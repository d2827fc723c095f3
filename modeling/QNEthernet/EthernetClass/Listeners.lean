import QNEthernet.EthernetClass.EventsOnly

/-! What the listeners were last told is how things are, and they are told of every change once. -/

namespace QNEthernet.EthernetClass

/-- The latest of these flags is `current`, and each is a change from the one before it, the first from false. -/
def Toggles : Bool → List Bool → Prop
  | current, [] => current = false
  | current, flag :: earlier => flag = current ∧ Toggles (!flag) earlier

namespace Listened

def listening (w : Listened) : Bool := w.extCallback && w.s.netif

/-- The calls of the link listener, the latest first. -/
def linkCalls (w : Listened) : List Bool := w.heard.filterMap fun
  | .linkState flag => some flag
  | _ => none

/-- The calls of the interface status listener, the latest first. -/
def statusCalls (w : Listened) : List Bool := w.heard.filterMap fun
  | .interfaceStatus flag => some flag
  | _ => none

/-- The addresses at the latest event that has to do with them. -/
def toldAddresses (w : Listened) : Option (IpAddress × IpAddress × IpAddress) :=
  (w.told.find? fun t => t.reason.netifAdded || t.reason.ipv4Changed).map fun t => (t.ipAddr, t.netmask, t.gw)

def addresses (w : Listened) : IpAddress × IpAddress × IpAddress := (w.s.sNetif.ipAddr, w.s.sNetif.netmask, w.s.sNetif.gw)

/-- In the link listener the link already is as told. In the status listener the interface always is up, also when it
is told that it goes down. -/
def During (t : Told) : Prop :=
  (∀ flag, t.reason.linkChanged = some flag → t.linkUp = flag) ∧ (t.reason.statusChanged ≠ none → t.up = true)

/-- Every change that reaches `EthernetClass` has been told. -/
structure Ledger (w : Listened) : Prop where
  registered : w.extCallback = w.s.isNetifAdded
  link : Toggles (w.listening && w.linkUp) w.linkCalls
  status : Toggles (w.listening && w.up) w.statusCalls
  during : ∀ t ∈ w.told, During t
  addressed : w.listening → w.toldAddresses = some w.addresses

/-- Between calls, the interface is there exactly when `EthernetClass` has it. -/
structure Settled (w : Listened) : Prop extends Ledger w where
  added : w.s.isNetifAdded = w.s.netif

variable {w : Listened} {b : Board} {o : Outcomes}

/-! ## An event -/

def now (reason : Reason) (w : Listened) : Told :=
  ⟨reason, w.up, w.linkUp, w.s.sNetif.ipAddr, w.s.sNetif.netmask, w.s.sNetif.gw⟩

theorem netifInvokeExtCallback_eq (reason : Reason) (w : Listened) :
    w.netifInvokeExtCallback reason = if w.listening then { w with told := w.now reason :: w.told } else w := by
  rw [netifInvokeExtCallback, netifEventFunc, listening]
  cases w.extCallback with
  | false => rfl
  | true =>
    cases w.s.netif with
    | false => rfl
    | true => rfl

theorem linkCalls_cons {t : Told} {told : List Told} (later : w.told = t :: told) :
    w.linkCalls = t.reason.linkChanged.toList ++ linkCalls { w with told } := by
  rw [linkCalls, heard, later, List.flatMap_cons, List.filterMap_append, Reason.listeners]
  congr 1
  cases t.reason.linkChanged <;> cases t.reason.ipv4Changed <;> cases t.reason.statusChanged <;> rfl

theorem statusCalls_cons {t : Told} {told : List Told} (later : w.told = t :: told) :
    w.statusCalls = t.reason.statusChanged.toList ++ statusCalls { w with told } := by
  rw [statusCalls, heard, later, List.flatMap_cons, List.filterMap_append, Reason.listeners]
  congr 1
  cases t.reason.linkChanged <;> cases t.reason.ipv4Changed <;> cases t.reason.statusChanged <;> rfl

theorem Ledger.tell (registered : w.extCallback = w.s.isNetifAdded)
    (link : Toggles (w.listening && w.linkUp) w.linkCalls) (status : Toggles (w.listening && w.up) w.statusCalls)
    (during : ∀ t ∈ w.told, During t) {reason : Reason} (no_link : reason.linkChanged = none)
    (no_status : reason.statusChanged = none)
    (addressed : w.listening → w.toldAddresses = some w.addresses ∨ reason.netifAdded = true ∨ reason.ipv4Changed = true) :
    Ledger (w.netifInvokeExtCallback reason) := by
  rw [netifInvokeExtCallback_eq]
  split
  · next told =>
    refine ⟨registered, ?_, ?_, ?_, ?_⟩
    · rw [linkCalls_cons rfl, now, no_link]
      exact link
    · rw [statusCalls_cons rfl, now, no_status]
      exact status
    · refine List.forall_mem_cons.mpr ⟨⟨?_, ?_⟩, during⟩
      · simp [now, no_link]
      · simp [now, no_status]
    · intro _
      rw [toldAddresses, List.find?_cons]
      split
      · rfl
      · next neither =>
        have known := addressed told
        simp only [now, Bool.or_eq_false_iff] at neither
        simp only [neither, Bool.false_eq_true, or_false] at known
        exact known
  · next untold =>
    refine ⟨registered, link, status, during, fun told => absurd told untold⟩

theorem Ledger.linkEvent (ledger : Ledger w) {flag : Bool} (change : w.linkUp = !flag) :
    Ledger ({ w with linkUp := flag }.netifInvokeExtCallback { linkChanged := some flag }) := by
  rw [netifInvokeExtCallback_eq]
  have link := ledger.link
  split
  · next told =>
    have heard : w.listening = true := told
    rw [heard, change, Bool.true_and] at link
    refine ⟨ledger.registered, ?_, ?_, ?_, ?_⟩
    · change Toggles (w.listening && flag) _
      rw [linkCalls_cons rfl, heard, Bool.true_and]
      exact ⟨rfl, link⟩
    · rw [statusCalls_cons rfl]
      exact ledger.status
    · refine List.forall_mem_cons.mpr ⟨⟨?_, ?_⟩, ledger.during⟩
      · intro flag' same
        exact Option.some.inj same
      · exact fun some => absurd rfl some
    · exact ledger.addressed
  · next untold =>
    have deaf : w.listening = false := Bool.eq_false_iff.mpr untold
    rw [deaf, Bool.false_and] at link
    refine ⟨ledger.registered, ?_, ledger.status, ledger.during, ledger.addressed⟩
    change Toggles (w.listening && flag) _
    rw [deaf, Bool.false_and]
    exact link

theorem Ledger.netifSetLinkUp (ledger : Ledger w) : Ledger w.netifSetLinkUp := by
  rw [Listened.netifSetLinkUp]
  split
  · next down => exact ledger.linkEvent (by simpa using down)
  · exact ledger

theorem Ledger.netifSetLinkDown (ledger : Ledger w) : Ledger w.netifSetLinkDown := by
  rw [Listened.netifSetLinkDown]
  split
  · next up => exact ledger.linkEvent up
  · exact ledger

theorem Ledger.netifSetLink (ledger : Ledger w) (flag : Bool) : Ledger (w.netifSetLink flag) := by
  cases flag with
  | true => exact ledger.netifSetLinkUp
  | false => exact ledger.netifSetLinkDown

theorem Ledger.statusEvent (ledger : Ledger w) {w' : Listened} {flag : Bool} (same : w' = { w with up := true })
    (change : w.up = !flag) :
    Ledger { w'.netifInvokeExtCallback { statusChanged := some flag } with up := flag } := by
  subst same
  rw [netifInvokeExtCallback_eq]
  have status := ledger.status
  split
  · next told =>
    have heard : w.listening = true := told
    rw [heard, change, Bool.true_and] at status
    refine ⟨ledger.registered, ?_, ?_, ?_, ?_⟩
    · rw [linkCalls_cons rfl]
      exact ledger.link
    · change Toggles (w.listening && flag) _
      rw [statusCalls_cons rfl, heard, Bool.true_and]
      exact ⟨rfl, status⟩
    · refine List.forall_mem_cons.mpr ⟨⟨?_, ?_⟩, ledger.during⟩
      · intro flag' other
        cases other
      · exact fun _ => rfl
    · exact ledger.addressed
  · next untold =>
    have deaf : w.listening = false := Bool.eq_false_iff.mpr untold
    rw [deaf, Bool.false_and] at status
    refine ⟨ledger.registered, ledger.link, ?_, ledger.during, ledger.addressed⟩
    change Toggles (w.listening && flag) _
    rw [deaf, Bool.false_and]
    exact status

theorem netifInvokeExtCallback_up (reason : Reason) (w : Listened) : (w.netifInvokeExtCallback reason).up = w.up := by
  rw [netifInvokeExtCallback_eq]
  split <;> rfl

theorem netifInvokeExtCallback_linkUp (reason : Reason) (w : Listened) :
    (w.netifInvokeExtCallback reason).linkUp = w.linkUp := by
  rw [netifInvokeExtCallback_eq]
  split <;> rfl

theorem Ledger.netifSetUp (ledger : Ledger w) : Ledger w.netifSetUp := by
  rw [Listened.netifSetUp]
  split
  · next down =>
    have change : w.up = !true := by simpa using down
    have told := ledger.statusEvent rfl change
    have still := netifInvokeExtCallback_up { statusChanged := some true } { w with up := true }
    generalize netifInvokeExtCallback { statusChanged := some true } { w with up := true } = w' at told still ⊢
    change w'.up = true at still
    rw [← still] at told
    exact told
  · exact ledger

theorem Ledger.netifSetDown (ledger : Ledger w) : Ledger w.netifSetDown := by
  rw [Listened.netifSetDown]
  split
  · next up => exact ledger.statusEvent (by rw [← up]) up
  · exact ledger

/-! ## The functions of `netif.c` -/

theorem Ledger.congr (ledger : Ledger w) {s : State} (netif : s.netif = w.s.netif)
    (added : s.isNetifAdded = w.s.isNetifAdded)
    (addresses : (s.sNetif.ipAddr, s.sNetif.netmask, s.sNetif.gw) = w.addresses) : Ledger { w with s } := by
  have listening : listening { w with s } = w.listening := congrArg (w.extCallback && ·) netif
  refine ⟨ledger.registered.trans added.symm, ?_, ?_, ledger.during, ?_⟩
  · rw [listening]
    exact ledger.link
  · rw [listening]
    exact ledger.status
  · rw [listening]
    intro told
    exact (ledger.addressed told).trans (congrArg some addresses.symm)

theorem Ledger.addressEvent (ledger : Ledger w) {s : State} {reason : Reason} {tell : Bool}
    (netif : s.netif = w.s.netif) (added : s.isNetifAdded = w.s.isNetifAdded) (no_link : reason.linkChanged = none)
    (no_status : reason.statusChanged = none)
    (changes : (s.sNetif.ipAddr, s.sNetif.netmask, s.sNetif.gw) ≠ w.addresses → tell = true ∧ reason.ipv4Changed = true) :
    Ledger (if tell then netifInvokeExtCallback reason { w with s } else { w with s }) := by
  have listening : listening { w with s } = w.listening := congrArg (w.extCallback && ·) netif
  split
  · next told =>
    refine Ledger.tell (w := { w with s }) (ledger.registered.trans added.symm) ?_ ?_ ledger.during no_link no_status ?_
    · rw [listening]
      exact ledger.link
    · rw [listening]
      exact ledger.status
    · rw [listening]
      intro heard
      by_cases same : (s.sNetif.ipAddr, s.sNetif.netmask, s.sNetif.gw) = w.addresses
      · exact .inl ((ledger.addressed heard).trans (congrArg some same.symm))
      · exact .inr (.inr (changes same).2)
  · next untold =>
    apply ledger.congr netif added
    by_contra different
    exact untold (changes different).1

theorem Ledger.netifSetAddr (ledger : Ledger w) (ip mask gateway : IpAddress) :
    Ledger (w.netifSetAddr ip mask gateway) := by
  rw [Listened.netifSetAddr]
  refine ledger.addressEvent rfl rfl rfl rfl ?_
  intro different
  simp [State.netifSetAddr, addresses, Reason.ipv4Changed] at different ⊢
  grind

theorem Ledger.dhcpReleaseAndStop (ledger : Ledger w) : Ledger w.dhcpReleaseAndStop := by
  rw [Listened.dhcpReleaseAndStop]
  have stopped : Ledger { w with s := { w.s with sNetif := { w.s.sNetif with dhcp := .off } } } :=
    ledger.congr rfl rfl rfl
  dsimp only
  split
  · exact stopped.netifSetAddr 0 0 0
  · exact stopped

theorem Ledger.stopDhcp (ledger : Ledger w) : Ledger w.stopDhcp := by
  rw [Listened.stopDhcp]
  split
  · exact ledger.dhcpReleaseAndStop.congr rfl rfl rfl
  · exact ledger

/-! ## Starting and stopping -/

/-- The flags are off, as far as `EthernetClass` has the interface. -/
def Down (w : Listened) : Prop := w.listening → w.up = false ∧ w.linkUp = false

theorem netifInvokeExtCallback_listening (reason : Reason) (w : Listened) :
    (w.netifInvokeExtCallback reason).listening = w.listening := by
  rw [netifInvokeExtCallback_eq]
  split <;> rfl

theorem netifSetDown_listening (w : Listened) : w.netifSetDown.listening = w.listening := by
  rw [Listened.netifSetDown]
  split
  · exact netifInvokeExtCallback_listening ..
  · rfl

theorem netifSetLinkDown_linkUp (w : Listened) : w.netifSetLinkDown.linkUp = false := by
  rw [Listened.netifSetLinkDown]
  split
  · exact netifInvokeExtCallback_linkUp ..
  · next down => exact Bool.eq_false_iff.mpr down

theorem netifSetDown_up (w : Listened) : w.netifSetDown.up = false := by
  rw [Listened.netifSetDown]
  split
  · rfl
  · next down => exact Bool.eq_false_iff.mpr down

theorem netifSetDown_linkUp (w : Listened) : w.netifSetDown.linkUp = w.linkUp := by
  rw [Listened.netifSetDown]
  split
  · exact netifInvokeExtCallback_linkUp ..
  · rfl

theorem netifSetDown_down (w : Listened) : Down w.netifSetLinkDown.netifSetDown := by
  intro _
  refine ⟨netifSetDown_up _, ?_⟩
  rw [netifSetDown_linkUp, netifSetLinkDown_linkUp]

theorem Ledger.unheard (ledger : Ledger w) (down : Down w) : Toggles false w.linkCalls ∧ Toggles false w.statusCalls := by
  have link := ledger.link
  have status := ledger.status
  cases heard : w.listening with
  | false =>
    rw [heard, Bool.false_and] at link status
    exact ⟨link, status⟩
  | true =>
    obtain ⟨not_up, no_link⟩ := down heard
    rw [no_link, Bool.and_false] at link
    rw [not_up, Bool.and_false] at status
    exact ⟨link, status⟩

/-- Without the interface, `EthernetClass` has heard the last of it. -/
theorem Ledger.of_deaf (unheard : Toggles false w.linkCalls ∧ Toggles false w.statusCalls)
    (during : ∀ t ∈ w.told, During t) (deaf : w.listening = false) (registered : w.extCallback = w.s.isNetifAdded) :
    Ledger w where
  registered := registered
  link := by rw [deaf]; exact unheard.1
  status := by rw [deaf]; exact unheard.2
  during := during
  addressed := by simp [deaf]

theorem Ledger.netifRemove (ledger : Ledger w) : Ledger w.netifRemove := by
  rw [Listened.netifRemove]
  have told : Ledger (w.netifInvokeExtCallback { netifRemoved := true }) :=
    .tell ledger.registered ledger.link ledger.status ledger.during rfl rfl fun heard => .inl (ledger.addressed heard)
  exact told.netifSetDown

theorem netifRemove_down (down : Down w) : Down w.netifRemove := by
  intro heard
  rw [Listened.netifRemove, netifSetDown_listening, netifInvokeExtCallback_listening] at heard
  rw [Listened.netifRemove, netifSetDown_linkUp, netifInvokeExtCallback_linkUp]
  exact ⟨netifSetDown_up _, (down heard).2⟩

theorem Ledger.removeNetif (ledger : Ledger w) (down : Down w) : Ledger w.removeNetif := by
  rw [Listened.removeNetif]
  split
  · have removed := ledger.netifRemove
    exact .of_deaf (removed.unheard (netifRemove_down down)) removed.during rfl rfl
  · exact ledger

theorem removeNetif_listening (ledger : Ledger w) : w.removeNetif.listening = false := by
  rw [Listened.removeNetif]
  split
  · rfl
  · next absent => rw [listening, ledger.registered, Bool.eq_false_iff.mpr absent, Bool.false_and]

theorem removeNetif_down (ledger : Ledger w) : Down w.removeNetif := by
  intro heard
  rw [removeNetif_listening ledger] at heard
  cases heard

theorem Ledger.attach (ledger : Ledger w) (down : Down w) : Ledger w.attach ∧ Down w.attach := by
  rw [Listened.attach]
  split
  · have unheard := ledger.unheard down
    rw [Listened.netifAdd]
    refine ⟨?_, ?_⟩
    · apply Ledger.tell rfl
      · rw [Bool.and_false]
        exact unheard.1
      · rw [Bool.and_false]
        exact unheard.2
      · exact ledger.during
      · rfl
      · rfl
      · exact fun _ => .inr (.inl rfl)
    · intro _
      exact ⟨netifInvokeExtCallback_up .., netifInvokeExtCallback_linkUp ..⟩
  · next added =>
    have kept : w.s.attach = { w.s with sNetif := { w.s.sNetif with hwaddr := w.s.sMac } } := if_neg added
    rw [kept]
    exact ⟨ledger.congr rfl rfl rfl, down⟩

theorem Ledger.prepare (ledger : Ledger w) (down : Down w) (mac : Mac) :
    Ledger (w.prepare mac) ∧ Down (w.prepare mac) := by
  rw [Listened.prepare]
  split
  · exact ⟨ledger.congr rfl rfl rfl, down⟩
  · split
    · exact ⟨ledger.removeNetif down, removeNetif_down ledger⟩
    · exact ⟨ledger, down⟩

theorem prepare_netif (mac : Mac) (s : State) : (s.prepare mac).netif = s.netif := by
  rw [State.prepare]
  split
  · rfl
  · split <;> rfl

theorem attach_added (s : State) : s.attach.isNetifAdded = true ∧ s.attach.netif = s.netif := by
  rw [State.attach]
  split
  · exact ⟨rfl, rfl⟩
  · next added => exact ⟨by simpa using added, rfl⟩

theorem Ledger.giveUp (ledger : Ledger w) (down : Down w) (absent : w.s.isNetifAdded = false) :
    Settled (w.setNetif false) where
  toLedger := .of_deaf (ledger.unheard down) ledger.during (Bool.and_false _) ledger.registered
  added := absent

theorem Ledger.deinit (ledger : Ledger w) (down : Down w) : Settled (w.deinit.setNetif false) := by
  have cleared : Ledger { w with s := { w.s with sMac := Vector.replicate 6 0 } } := ledger.congr rfl rfl rfl
  apply (cleared.removeNetif down).giveUp (removeNetif_down cleared)
  rw [removeNetif_s]
  rfl

theorem Settled.restart (settled : Settled w) :
    Ledger { (if w.s.netif then w.netifSetLinkDown.netifSetDown else w) with
      s := { w.s with netif := true }.ensureMac b } ∧
      Down { (if w.s.netif then w.netifSetLinkDown.netifSetDown else w) with
        s := { w.s with netif := true }.ensureMac b } := by
  split
  · next running =>
    have ledger : Ledger w.netifSetLinkDown.netifSetDown := settled.netifSetLinkDown.netifSetDown
    have same : w.netifSetLinkDown.netifSetDown.s = w.s := by simp
    refine ⟨ledger.congr ?_ ?_ ?_, fun heard => netifSetDown_down w ?_⟩
    · rw [same, running]
      rfl
    · rw [same]
      rfl
    · rw [addresses, same]
      rfl
    · rw [listening] at heard ⊢
      rw [same, running]
      exact heard
  · next off =>
    have without : w.s.netif = false := Bool.eq_false_iff.mpr off
    have deaf : w.listening = false := by rw [listening, without, Bool.and_false]
    have unregistered : w.extCallback = false := by rw [settled.registered, settled.added, without]
    have still_deaf : listening { w with s := { w.s with netif := true }.ensureMac b } = false := by
      rw [listening, unregistered, Bool.false_and]
    have unheard := settled.unheard fun heard => absurd heard (by simp [deaf])
    refine ⟨.of_deaf unheard settled.during still_deaf settled.registered, ?_⟩
    intro heard
    rw [still_deaf] at heard
    cases heard

/-- What cannot fail once the driver has been initialized. -/
def Reliable (o : Outcomes) (w : Listened) : Prop :=
  o.setMac = true ∧ o.getMac = true ∧ (w.s.isNetifAdded = true → o.driverInit = true)

instance (o : Outcomes) (w : Listened) : Decidable (Reliable o w) := inferInstanceAs (Decidable (_ ∧ _ ∧ (_ → _)))

theorem Ledger.init (ledger : Ledger w) (down : Down w) (reliable : Reliable o w) (mac : Mac) :
    Ledger (w.init b mac o).2 ∧ Down (w.init b mac o).2 ∧ (w.init b mac o).2.s.netif = w.s.netif ∧
      (w.init b mac o).2.s.isNetifAdded = (w.init b mac o).1 := by
  obtain ⟨setMac, getMac, driver⟩ := reliable
  rw [Listened.init]
  cases driverInit : o.driverInit with
  | false =>
    have absent : w.s.isNetifAdded = false := by
      by_contra added
      exact absurd (driver (by simpa using added)) (by simp [driverInit])
    exact ⟨ledger, down, rfl, absent⟩
  | true =>
    obtain ⟨prepared, prepared_down⟩ := ledger.prepare down mac
    have same := prepare_s mac w
    rw [setMac, getMac]
    dsimp only [Bool.not_true]
    generalize w.prepare mac = w' at prepared prepared_down same ⊢
    have set : Ledger { w' with s := { w'.s.setMac b mac with sMac := (w'.s.setMac b mac).driverMac } } :=
      prepared.congr rfl rfl rfl
    obtain ⟨attached, attached_down⟩ := set.attach prepared_down
    refine ⟨attached, attached_down, ?_, ?_⟩
    · change (Listened.attach _).s.netif = _
      rw [attach_s, (attach_added _).2]
      exact (congrArg State.netif same).trans (prepare_netif mac w.s)
    · change (Listened.attach _).s.isNetifAdded = true
      rw [attach_s, (attach_added _).1]

theorem Settled.start (settled : Settled w) (reliable : Reliable o w) : Settled (w.start b o).2 := by
  rw [Listened.start]
  split
  · exact settled
  · obtain ⟨ledger, down⟩ := settled.restart (b := b)
    have same : (if w.s.netif then w.netifSetLinkDown.netifSetDown else w).s = w.s := by
      split <;> simp
    dsimp only
    rw [same]
    have reliable' : Reliable o { (if w.s.netif then w.netifSetLinkDown.netifSetDown else w) with
      s := { w.s with netif := true }.ensureMac b } := reliable
    have has : { (if w.s.netif then w.netifSetLinkDown.netifSetDown else w) with
      s := { w.s with netif := true }.ensureMac b }.s.netif = true := rfl
    generalize { (if w.s.netif then w.netifSetLinkDown.netifSetDown else w) with
      s := { w.s with netif := true }.ensureMac b } = w' at ledger down reliable' has ⊢
    generalize (State.ensureMac b { w.s with netif := true }).macAddress b = mac
    obtain ⟨ledger', down', netif, added⟩ := ledger.init (b := b) down reliable' mac
    cases result : w'.init b mac o with
    | mk ok w'' =>
      rw [result] at ledger' down' netif added
      cases ok with
      | false => exact ledger'.giveUp down' added
      | true =>
        dsimp only
        split
        · exact ledger'.deinit down'
        · have known : Ledger { w'' with s := { w''.s with mac := some w''.s.driverMac } } := ledger'.congr rfl rfl rfl
          refine ⟨known.netifSetUp, ?_⟩
          rw [netifSetUp_s]
          exact added.trans (netif.trans has).symm

/-! ## The calls -/

theorem Settled.congr (settled : Settled w) {s : State} (netif : s.netif = w.s.netif)
    (added : s.isNetifAdded = w.s.isNetifAdded)
    (addresses : (s.sNetif.ipAddr, s.sNetif.netmask, s.sNetif.gw) = w.addresses) : Settled { w with s } where
  toLedger := settled.toLedger.congr netif added addresses
  added := added.trans (settled.added.trans netif.symm)

theorem Settled.addressEvent (settled : Settled w) {s : State} {reason : Reason} {tell : Bool}
    (netif : s.netif = w.s.netif) (added : s.isNetifAdded = w.s.isNetifAdded) (no_link : reason.linkChanged = none)
    (no_status : reason.statusChanged = none)
    (changes : (s.sNetif.ipAddr, s.sNetif.netmask, s.sNetif.gw) ≠ w.addresses → tell = true ∧ reason.ipv4Changed = true) :
    Settled (if tell then netifInvokeExtCallback reason { w with s } else { w with s }) where
  toLedger := settled.toLedger.addressEvent netif added no_link no_status changes
  added := by
    split
    · rw [netifInvokeExtCallback_s]
      exact added.trans (settled.added.trans netif.symm)
    · exact added.trans (settled.added.trans netif.symm)

theorem Settled.netifSetIpaddr (settled : Settled w) (ip : IpAddress) : Settled (w.netifSetIpaddr ip) := by
  rw [Listened.netifSetIpaddr]
  refine settled.addressEvent rfl rfl rfl rfl ?_
  simp [addresses, Reason.ipv4Changed]

theorem Settled.netifSetNetmask (settled : Settled w) (mask : IpAddress) : Settled (w.netifSetNetmask mask) := by
  rw [Listened.netifSetNetmask]
  refine settled.addressEvent rfl rfl rfl rfl ?_
  simp [addresses, Reason.ipv4Changed]

theorem Settled.netifSetGw (settled : Settled w) (gateway : IpAddress) : Settled (w.netifSetGw gateway) := by
  rw [Listened.netifSetGw]
  refine settled.addressEvent rfl rfl rfl rfl ?_
  simp [addresses, Reason.ipv4Changed]

theorem dhcpReleaseAndStop_interface (s : State) :
    s.dhcpReleaseAndStop.netif = s.netif ∧ s.dhcpReleaseAndStop.isNetifAdded = s.isNetifAdded := by
  rw [State.dhcpReleaseAndStop]
  split
  · exact ⟨rfl, rfl⟩
  · exact ⟨rfl, rfl⟩

theorem stopDhcp_interface (s : State) : s.stopDhcp.netif = s.netif ∧ s.stopDhcp.isNetifAdded = s.isNetifAdded := by
  rw [State.stopDhcp]
  split
  · exact dhcpReleaseAndStop_interface s
  · exact ⟨rfl, rfl⟩

theorem Settled.stopDhcp (settled : Settled w) : Settled w.stopDhcp where
  toLedger := settled.toLedger.stopDhcp
  added := by
    rw [stopDhcp_s, (stopDhcp_interface w.s).1, (stopDhcp_interface w.s).2]
    exact settled.added

theorem Settled.netifSetAddr (settled : Settled w) (ip mask gateway : IpAddress) :
    Settled (w.netifSetAddr ip mask gateway) where
  toLedger := settled.toLedger.netifSetAddr ip mask gateway
  added := by
    rw [netifSetAddr_s]
    exact settled.added

theorem Settled.maybeStartDhcp (settled : Settled w) : Settled (w.maybeStartDhcp o).2 := by
  rw [Listened.maybeStartDhcp]
  have same : (w.s.maybeStartDhcp o).2.netif = w.s.netif ∧ (w.s.maybeStartDhcp o).2.isNetifAdded = w.s.isNetifAdded ∧
      ((w.s.maybeStartDhcp o).2.sNetif.ipAddr, (w.s.maybeStartDhcp o).2.sNetif.netmask,
        (w.s.maybeStartDhcp o).2.sNetif.gw) = w.addresses := by
    rw [State.maybeStartDhcp]
    dsimp only
    split
    · exact ⟨rfl, rfl, rfl⟩
    · split
      · exact ⟨rfl, rfl, rfl⟩
      · exact ⟨rfl, rfl, rfl⟩
  exact settled.congr same.1 same.2.1 same.2.2

theorem Settled.begin (settled : Settled w) (reliable : Reliable o w) (ip mask gateway : IpAddress) :
    Settled (w.begin b ip mask gateway o).2 := by
  rw [Listened.begin]
  have stopped : Settled (if w.s.netif ∧ ip ≠ 0 then w.stopDhcp else w) ∧
      Reliable o (if w.s.netif ∧ ip ≠ 0 then w.stopDhcp else w) := by
    split
    · refine ⟨settled.stopDhcp, ?_⟩
      rw [Reliable, stopDhcp_s, (stopDhcp_interface w.s).2]
      exact reliable
    · exact ⟨settled, reliable⟩
  generalize (if w.s.netif ∧ ip ≠ 0 then w.stopDhcp else w) = w' at stopped ⊢
  have started := stopped.1.start (b := b) stopped.2
  revert started
  cases w'.start b o with
  | mk ok w'' =>
    intro started
    cases ok with
    | false => exact started
    | true => exact (started.netifSetAddr ip mask gateway).maybeStartDhcp

theorem Settled.beginMac (settled : Settled w) (reliable : Reliable o w) (mac : Option Mac)
    (ip gateway subnet : IpAddress) : Settled (w.beginMac b mac ip gateway subnet o).2 := by
  rw [Listened.beginMac]
  have named : Settled { w with s := { w.s with mac := some (State.resolve b mac) } } := settled.congr rfl rfl rfl
  have begun := named.begin (b := b) (o := o) reliable ip subnet gateway
  revert begun
  cases Listened.begin b ip subnet gateway o { w with s := { w.s with mac := some (State.resolve b mac) } } with
  | mk ok w' =>
    intro begun
    cases ok with
    | false => exact begun.congr rfl rfl rfl
    | true => exact begun

theorem Settled.dhcp (settled : Settled w) (event : DhcpEvent) : Settled (w.dhcp event) := by
  cases event with
  | supply ip mask gateway =>
    rw [Listened.dhcp]
    split
    · exact (settled.netifSetAddr ip mask gateway).congr rfl rfl rfl
    · exact settled
  | lose =>
    rw [Listened.dhcp]
    split
    · exact (settled.netifSetAddr 0 0 0).congr rfl rfl rfl
    · exact settled

theorem Settled.waited (settled : Settled w) (events : List DhcpEvent) : Settled (events.foldl Listened.dhcp w) :=
  Run.foldl_preserves Settled Listened.dhcp (fun _ event known => known.dhcp event) events w settled

theorem Settled.setMacAddress (settled : Settled w) (reliable : Reliable o w) (mac : Option Mac) :
    Settled (w.setMacAddress b mac o) := by
  rw [Listened.setMacAddress]
  have filled : Settled (if mac.isNone then { w with s := w.s.ensureMac b } else w) ∧
      Reliable o (if mac.isNone then { w with s := w.s.ensureMac b } else w) := by
    split
    · exact ⟨settled.congr rfl rfl rfl, reliable⟩
    · exact ⟨settled, reliable⟩
  generalize (if mac.isNone then { w with s := w.s.ensureMac b } else w) = w' at filled ⊢
  split
  · exact filled.1
  · dsimp only
    have named : Settled { w' with s := { w'.s with mac := some (State.resolve b mac) } } := filled.1.congr rfl rfl rfl
    split
    · exact named
    · have started := named.stopDhcp.start (b := b) (o := o) (by
        rw [Reliable, stopDhcp_s, (stopDhcp_interface _).2]
        exact filled.2)
      revert started
      cases Listened.start b o { w' with s := { w'.s with mac := some (State.resolve b mac) } }.stopDhcp with
      | mk ok w'' =>
        intro started
        cases ok with
        | false => exact started
        | true => exact started.maybeStartDhcp

theorem Settled.setDhcpEnabled (settled : Settled w) (flag : Bool) : Settled (w.setDhcpEnabled flag o).2 := by
  rw [Listened.setDhcpEnabled]
  have named : Settled { w with s := { w.s with dhcpEnabled := flag } } := settled.congr rfl rfl rfl
  dsimp only
  split
  · exact named
  · split
    · split
      · exact named.congr rfl rfl rfl
      · exact named
    · exact named.stopDhcp

theorem Settled.endEthernet (settled : Settled w) : Settled w.endEthernet := by
  rw [Listened.endEthernet]
  split
  · exact settled
  · have cleared : Settled (if w.s.dhcpActive then w.stopDhcp else w.netifSetAddr 0 0 0) := by
      split
      · exact settled.stopDhcp
      · exact settled.netifSetAddr 0 0 0
    generalize (if w.s.dhcpActive then w.stopDhcp else w.netifSetAddr 0 0 0) = w' at cleared ⊢
    have undesired : Settled { w' with s := { w'.s with dhcpDesired := false } } := cleared.congr rfl rfl rfl
    exact undesired.toLedger.netifSetLinkDown.netifSetDown.deinit (netifSetDown_down _)

theorem Settled.call (settled : Settled w) (c : Call) (reliable : Reliable c.outcomes w) : Settled (w.call b c).2 := by
  rw [Listened.call]
  cases c.op with
  | begin => exact settled.begin reliable ..
  | beginIp ip mask gateway => exact settled.begin reliable ..
  | beginMacTimeout mac waited =>
    dsimp only [beginMacTimeout]
    have begun := settled.beginMac (b := b) reliable mac inaddrNone inaddrNone inaddrNone
    revert begun
    cases w.beginMac b mac inaddrNone inaddrNone inaddrNone c.outcomes with
    | mk ok w' =>
      intro begun
      cases ok with
      | false => exact begun
      | true => exact begun.waited waited
  | beginMacIp mac ip => exact settled.beginMac reliable ..
  | beginMacGateway mac ip gateway => exact settled.beginMac reliable ..
  | beginMacSubnet mac ip gateway subnet => exact settled.beginMac reliable ..
  | setMacAddress mac => exact settled.setMacAddress reliable mac
  | setDhcpEnabled flag => exact settled.setDhcpEnabled flag
  | endEthernet => exact settled.endEthernet
  | dhcp event => exact settled.dhcp event

/-- The driver is one that does not fail in a call once it has been initialized. -/
def Sane (w : Listened) : Happening → Prop
  | .call c => Reliable c.outcomes w
  | _ => True

instance (w : Listened) : DecidablePred (Sane w) := fun h => by
  cases h <;> (dsimp only [Sane]; infer_instance)

theorem netifSetLink_s (flag : Bool) (w : Listened) : (w.netifSetLink flag).s = w.s := by
  cases flag with
  | true => exact netifSetLinkUp_s w
  | false => exact netifSetLinkDown_s w

theorem Settled.netifSetLink (settled : Settled w) (flag : Bool) : Settled (w.netifSetLink flag) where
  toLedger := settled.toLedger.netifSetLink flag
  added := by
    rw [netifSetLink_s]
    exact settled.added

theorem Settled.step (settled : Settled w) (h : Happening) (sane : Sane w h) : Settled (w.step b h) := by
  cases h with
  | call c => exact settled.call c sane
  | setLocalIp ip =>
    rw [Listened.step]
    split
    · exact settled
    · exact settled.netifSetIpaddr ip
  | setSubnetMask mask =>
    rw [Listened.step]
    split
    · exact settled
    · exact settled.netifSetNetmask mask
  | setGatewayIp gateway =>
    rw [Listened.step]
    split
    · exact settled
    · exact settled.netifSetGw gateway
  | setLinkState flag =>
    rw [Listened.step]
    split
    · exact settled
    · exact settled.netifSetLink flag
  | driverPoll link => exact settled.netifSetLink link

theorem Settled.boot (driverMac : Mac) : Settled (Listened.boot driverMac) where
  registered := rfl
  link := rfl
  status := rfl
  during := by simp [Listened.boot]
  addressed := by simp [Listened.boot, listening]
  added := rfl

theorem Settled.run (driverMac : Mac) (hs : List Happening)
    (sane : Run.Allowed Sane (Listened.step b) (Listened.boot driverMac) hs) :
    Settled (hs.foldl (Listened.step b) (Listened.boot driverMac)) :=
  Run.allowed_preserves Settled Sane (Listened.step b) (fun _ h sane settled => settled.step h sane) hs _ sane
    (Settled.boot driverMac)

theorem Settled.listening_eq (settled : Settled w) : w.listening = w.s.netif := by
  rw [listening, settled.registered, settled.added, Bool.and_self]

/-- The link listener and the interface status listener are told of every change once, and what each was told last is what
`linkState()` and `interfaceStatus()` answer between calls. In the link listener the link is as told; in the other the
interface is up whatever is told. -/
theorem flags_told (b : Board) (driverMac : Mac) (hs : List Happening)
    (sane : Run.Allowed Sane (step b) (boot driverMac) hs) :
    Toggles (hs.foldl (step b) (boot driverMac)).linkState (hs.foldl (step b) (boot driverMac)).linkCalls ∧
      Toggles (hs.foldl (step b) (boot driverMac)).interfaceStatus (hs.foldl (step b) (boot driverMac)).statusCalls ∧
      ∀ t ∈ (hs.foldl (step b) (boot driverMac)).told, During t := by
  have settled := Settled.run driverMac hs sane
  have link := settled.link
  have status := settled.status
  rw [settled.listening_eq] at link status
  exact ⟨link, status, settled.during⟩

/-- The addresses of an interface are what they were at the latest event that told of a change, or of adding the interface. -/
theorem addresses_told (b : Board) (driverMac : Mac) (hs : List Happening)
    (sane : Run.Allowed Sane (step b) (boot driverMac) hs) (has : (hs.foldl (step b) (boot driverMac)).s.netif = true) :
    (hs.foldl (step b) (boot driverMac)).toldAddresses = some (hs.foldl (step b) (boot driverMac)).addresses := by
  have settled := Settled.run driverMac hs sane
  exact settled.addressed (settled.listening_eq.trans has)

/-- The interface comes up, gets an address by DHCP, and then another MAC address. -/
def renamedRun : List Happening :=
  [.call { op := .begin }, .driverPoll true, .call { op := .dhcp (.supply 0x0a01a8c0 0x00ffffff 0x0101a8c0) },
    .call { op := .setMacAddress (some (.replicate 6 2)) }, .driverPoll true]

def someBoard : Board := { systemMac := .replicate 6 4 }

set_option maxRecDepth 4000 in
theorem flags_told_renamedRun :
    Toggles (renamedRun.foldl (step someBoard) (boot (Vector.replicate 6 0))).linkState
        (renamedRun.foldl (step someBoard) (boot (Vector.replicate 6 0))).linkCalls ∧
      Toggles (renamedRun.foldl (step someBoard) (boot (Vector.replicate 6 0))).interfaceStatus
        (renamedRun.foldl (step someBoard) (boot (Vector.replicate 6 0))).statusCalls ∧
      ∀ t ∈ (renamedRun.foldl (step someBoard) (boot (Vector.replicate 6 0))).told, During t :=
  flags_told someBoard (Vector.replicate 6 0) renamedRun (by decide)

set_option maxRecDepth 4000 in
theorem addresses_told_renamedRun :
    (renamedRun.foldl (step someBoard) (boot (Vector.replicate 6 0))).toldAddresses =
      some (renamedRun.foldl (step someBoard) (boot (Vector.replicate 6 0))).addresses :=
  addresses_told someBoard (Vector.replicate 6 0) renamedRun (by decide) (by decide)

end Listened
end QNEthernet.EthernetClass
