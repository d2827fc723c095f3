import QNEthernet.Lib.Run
import QNEthernet.Mdns.Model

/-! How far the slots of `MDNSClass` and the services of lwIP's responder agree, over every run. -/

namespace QNEthernet.Mdns

open EthernetClass (Board Mac)

section Service

theorem sameLabel_iff {s : CString} (fits : s.length ≤ mdnsLabelMaxlen) (s' : CString) :
    Service.sameLabel s s' = true ↔ s = s' := by
  have whole : s.take (mdnsLabelMaxlen + 1) = s := List.take_of_length_le (Nat.le_succ_of_le fits)
  rw [Service.sameLabel, decide_eq_true_iff, whole]
  constructor
  · intro same
    have length := congrArg List.length same
    rw [List.length_take] at length
    rw [same]
    exact List.take_of_length_le (by omega)
  · intro same
    rw [← same, whole]

theorem equals_iff (s : Service) (name type : CString) (proto : MdnsSdProto) (port : UInt16) :
    s.equals name type proto port = true ↔
      s.registered = some { name := name, service := type, proto := proto, port := port } := by
  rw [Service.equals, Service.registered]
  cases s.valid with
  | false => simp
  | true =>
      simp only [Bool.true_and, Bool.and_eq_true, sameLabel_iff s.name_fits, sameLabel_iff s.type_fits,
        decide_eq_true_iff, if_true, Option.some.injEq, MdnsService.mk.injEq, and_assoc]

end Service

namespace World

variable {w w' : World}

/-- What the slots say lwIP has. -/
def table (w : World) : Slots.Table mdnsMaxServices MdnsService := Service.registered ∘ w.slots

/-- A slot is valid if and only if the responder has a service there, which is then the same. -/
def Mirrors (w : World) : Prop := ∀ i, (w.slots i).registered = w.services i

/-- The slots follow the responder, except where it has nothing and has had nothing since it was started;
while mDNS is not started, it has no data. -/
structure Steady (w : World) : Prop where
  idle : w.netifAdded = false → w.host = none
  shadows : ∃ used, Slots.Shadows w.table w.services used

theorem mirrors_iff : w.Mirrors ↔ w.table = w.services := funext_iff.symm

theorem findService_eq (name type : CString) (protocol : Option CString) (port : UInt16) (w : World) :
    w.findService name type protocol port =
      Slots.firstOf { name := name, service := type, proto := toProto protocol, port := port } w.table := by
  rw [findService, Slots.firstOf]
  congr 1
  funext i
  rw [Bool.eq_iff_iff, equals_iff, decide_eq_true_iff]
  rfl

/-- What a call can do to the two tables, apart from clearing one of them. -/
inductive Change (w w' : World) : Prop where
  | kept (table : w'.table = w.table) (services : w'.services = w.services)
  | put (slot : Fin mdnsMaxServices) (x : MdnsService) (free : Slots.firstFree w.services = some slot)
      (table : w'.table = Function.update w.table slot (some x))
      (services : w'.services = Function.update w.services slot (some x))
  | freed (slot : Fin mdnsMaxServices) (table : w'.table = Function.update w.table slot none)
      (services : w'.services = Function.update w.services slot none)
  | dropped (slot : Fin mdnsMaxServices) (gone : w.services slot = none)
      (table : w'.table = Function.update w.table slot none) (services : w'.services = w.services)

theorem Change.shadows (change : Change w w')
    (before : ∃ used, Slots.Shadows w.table w.services used) :
    ∃ used, Slots.Shadows w'.table w'.services used := by
  obtain ⟨used, shadows⟩ := before
  cases change with
  | kept table services =>
      rw [table, services]
      exact ⟨used, shadows⟩
  | put slot x free table services =>
      rw [table, services]
      exact shadows.put free x
  | freed slot table services =>
      rw [table, services]
      exact ⟨used, shadows.free slot⟩
  | dropped slot gone table services =>
      rw [table, services]
      exact ⟨used, shadows.drop gone⟩

theorem Change.mirrors (change : Change w w') (before : w.Mirrors) : w'.Mirrors := by
  rw [mirrors_iff] at before ⊢
  cases change with
  | kept table services => rw [table, services, before]
  | put slot x free table services => rw [table, services, before]
  | freed slot table services => rw [table, services, before]
  | dropped slot gone table services =>
      rw [table, services, before, ← gone, Function.update_eq_self]

section Calls

variable (w)

theorem respAddNetif_cases (o : Outcomes) (hostname : CString) :
    w.respAddNetif o hostname = (false, w) ∨
      w.respAddNetif o hostname = (false, { w with host := none }) ∨
      w.respAddNetif o hostname = (true, { w with host := some Slots.empty }) := by
  rw [respAddNetif]
  split
  · exact .inl rfl
  · cases o.alloc with
    | false => exact .inl rfl
    | true =>
        cases o.joingroup with
        | false => exact .inr (.inl rfl)
        | true => exact .inr (.inr rfl)

theorem respAddService_cases (o : Outcomes) (x : MdnsService) :
    w.respAddService o x = (none, w) ∨
      ∃ services slot, w.host = some services ∧ Slots.firstFree services = some slot ∧
        w.respAddService o x = (some slot.val, { w with
          host := some (Function.update services slot
            (some { x with name := label x.name, service := label x.service })) }) := by
  rw [respAddService]
  cases hosted : w.host with
  | none => exact .inl rfl
  | some services =>
      dsimp only
      split
      · exact .inl rfl
      · cases free : Slots.firstFree services with
        | none => exact .inl rfl
        | some slot =>
            cases o.alloc with
            | false => exact .inl rfl
            | true => exact .inr ⟨services, slot, rfl, free, rfl⟩

theorem respDelService_eq (slot : Fin mdnsMaxServices) :
    w.respDelService slot.val =
      if (w.services slot).isSome then
        (true, { w with host := some (Function.update w.services slot none) })
      else (false, w) := by
  rw [respDelService, services]
  cases w.host with
  | none => rfl
  | some services =>
      dsimp only
      rw [dif_pos slot.isLt]
      rfl

theorem begin_change (steady : w.Steady) (o : Outcomes) (hostname : Option CString) :
    Change w (w.begin o hostname).2 ∧
      ((w.begin o hostname).2.netifAdded = false → (w.begin o hostname).2.host = none) := by
  rw [begin]
  split
  · exact ⟨.kept rfl rfl, steady.idle⟩
  · cases hostname with
    | none => exact ⟨.kept rfl rfl, steady.idle⟩
    | some hostname =>
        dsimp only
        split
        · next added =>
            have started {P : Prop} : w.netifAdded = false → P := by
              intro idle
              rw [show w.netifAdded = true from added] at idle
              cases idle
            split
            · exact ⟨.kept rfl rfl, started⟩
            · split
              · exact ⟨.kept rfl rfl, started⟩
              · exact ⟨.kept rfl rfl, started⟩
        · next stopped =>
            have idle : w.host = none := steady.idle (eq_false_of_ne_true stopped)
            have nothing : w.services = Slots.empty := by
              rw [services, idle]
              rfl
            rcases respAddNetif_cases { w with initialized := true } o hostname with
              failed | failed | added
            · rw [failed]
              exact ⟨.kept rfl rfl, fun _ => idle⟩
            · rw [failed]
              exact ⟨.kept rfl nothing.symm, fun _ => rfl⟩
            · rw [added]
              refine ⟨.kept rfl nothing.symm, fun stopped => ?_⟩
              cases stopped

theorem addService_change (o : Outcomes) (name type protocol : Option CString) (port : UInt16) :
    Change w (w.addService o name type protocol port).2 ∧
      (w.addService o name type protocol port).2.netifAdded = w.netifAdded ∧
      (w.host = none → (w.addService o name type protocol port).2.host = none) := by
  unfold addService
  split
  · exact ⟨.kept rfl rfl, rfl, id⟩
  · cases name with
    | none => exact ⟨.kept rfl rfl, rfl, id⟩
    | some name =>
        cases type with
        | none => exact ⟨.kept rfl rfl, rfl, id⟩
        | some type =>
            dsimp only
            rcases respAddService_cases w o
              { name := name, service := type, proto := toProto protocol, port := port } with
              failed | ⟨services, slot, hosted, free, added⟩
            · rw [failed]
              exact ⟨.kept rfl rfl, rfl, id⟩
            · have held : w.services = services := by
                rw [World.services, hosted]
                rfl
              rw [added]
              dsimp only
              rw [dif_pos slot.isLt]
              refine ⟨.put slot _ (held ▸ free) (Function.comp_update ..) ?_, rfl, ?_⟩
              · rw [held]
                rfl
              · intro none
                rw [none] at hosted
                cases hosted

theorem removeService_cases (name type protocol : Option CString) (port : UInt16) :
    (w.removeService name type protocol port = (false, w) ∧
      (w.netifAdded = false ∨ name = none ∨ type = none ∨ ∃ n t, name = some n ∧ type = some t ∧
        Slots.firstOf { name := n, service := t, proto := toProto protocol, port := port } w.table = none)) ∨
    ∃ n t slot, name = some n ∧ type = some t ∧
      Slots.firstOf { name := n, service := t, proto := toProto protocol, port := port } w.table =
        some slot ∧
      w.removeService name type protocol port =
        { w with slots := Function.update w.slots slot .reset }.respDelService slot.val := by
  unfold removeService
  split
  · next stopped => exact .inl ⟨rfl, .inl (by simpa using stopped)⟩
  · cases name with
    | none => exact .inl ⟨rfl, .inr (.inl rfl)⟩
    | some name =>
        cases type with
        | none => exact .inl ⟨rfl, .inr (.inr (.inl rfl))⟩
        | some type =>
            dsimp only
            rw [findService_eq]
            cases found : Slots.firstOf
                { name := name, service := type, proto := toProto protocol, port := port } w.table with
            | none => exact .inl ⟨rfl, .inr (.inr (.inr ⟨name, type, rfl, rfl, found⟩))⟩
            | some slot => exact .inr ⟨name, type, slot, rfl, rfl, found, rfl⟩

theorem removeService_change (name type protocol : Option CString) (port : UInt16) :
    Change w (w.removeService name type protocol port).2 ∧
      (w.removeService name type protocol port).2.netifAdded = w.netifAdded ∧
      (w.host = none → (w.removeService name type protocol port).2.host = none) := by
  rcases removeService_cases w name type protocol port with
    ⟨failed, _⟩ | ⟨n, t, slot, _, _, _, removed⟩
  · rw [failed]
    exact ⟨.kept rfl rfl, rfl, id⟩
  · have reset : Service.registered ∘ Function.update w.slots slot .reset =
        Function.update w.table slot none := Function.comp_update ..
    rw [removed, respDelService_eq]
    split
    · next there =>
        refine ⟨.freed slot reset rfl, rfl, fun none => ?_⟩
        change (w.services slot).isSome = true at there
        rw [services, none] at there
        cases there
    · next gone =>
        change ¬(w.services slot).isSome = true at gone
        exact ⟨.dropped slot (Option.not_isSome_iff_eq_none.mp gone) reset rfl, rfl, id⟩

end Calls

/-- The call takes lwIP's data from the interface: mDNS is ended, or the interface is added anew. -/
def clears (b : Board) (w : World) : Call → Prop
  | .endMdns => w.netifAdded
  | .ethernet c => c.op = .endEthernet ∧ w.eth.netif ∧ w.netifAdded ∨ addsNetif b w.eth c
  | _ => False

/-- No service is registered when lwIP's data is taken away. -/
def Quiet (b : Board) (w : World) (call : Call) : Prop := w.clears b call → ∀ i, w.services i = none

theorem ethernet_cases (b : Board) (w : World) (c : EthernetClass.Call) :
    (w.ethernet b c).slots = w.slots ∧
      (w.clears b (.ethernet c) ∧ (w.ethernet b c).host = none ∨
        ¬ w.clears b (.ethernet c) ∧ (w.ethernet b c).host = w.host ∧
          (w.ethernet b c).netifAdded = w.netifAdded) := by
  by_cases ends : c.op = .endEthernet ∧ w.eth.netif
  · have none (s : EthernetClass.State) : addsNetif b s c = false := by
      rw [addsNetif, ends.1]
      rfl
    have ended : w.ethernet b c = { w.endMdns with eth := w.endMdns.eth.step b c } := by
      simp only [ethernet]
      rw [if_pos ends, none]
      rfl
    rw [ended, endMdns]
    by_cases added : w.netifAdded = true
    · rw [if_pos added]
      exact ⟨rfl, .inl ⟨.inl ⟨ends.1, ends.2, added⟩, rfl⟩⟩
    · rw [if_neg added]
      refine ⟨rfl, .inr ⟨?_, rfl, rfl⟩⟩
      intro either
      rcases either with ended | adds
      · exact added ended.2.2
      · rw [none] at adds
        cases adds
  · have goes : w.ethernet b c =
        { w with eth := w.eth.step b c, host := if addsNetif b w.eth c then none else w.host } := by
      simp only [ethernet]
      rw [if_neg ends]
    rw [goes]
    refine ⟨rfl, ?_⟩
    by_cases adds : addsNetif b w.eth c = true
    · exact .inl ⟨.inr adds, if_pos adds⟩
    · refine .inr ⟨?_, if_neg adds, rfl⟩
      intro either
      rcases either with ended | added
      · exact ends ⟨ended.1, ended.2.1⟩
      · exact adds added

/-- A call that takes lwIP's data away leaves the slots alone; any other keeps the two tables in step. -/
theorem step_cases (b : Board) (steady : w.Steady) (call : Call) :
    ((w.step b call).netifAdded = false → (w.step b call).host = none) ∧
      (w.clears b call ∧ (w.step b call).table = w.table ∧ (w.step b call).services = Slots.empty ∨
        ¬ w.clears b call ∧ Change w (w.step b call)) := by
  have follows {w' : World} (added : w'.netifAdded = w.netifAdded)
      (host : w.host = none → w'.host = none) : w'.netifAdded = false → w'.host = none := by
    intro stopped
    exact host (steady.idle (added.symm.trans stopped))
  cases call with
  | begin o hostname =>
      obtain ⟨change, idle⟩ := begin_change w steady o hostname
      exact ⟨idle, .inr ⟨id, change⟩⟩
  | endMdns =>
      simp only [step, endMdns, clears]
      by_cases added : w.netifAdded = true
      · rw [if_pos added]
        exact ⟨fun _ => rfl, .inl ⟨added, rfl, rfl⟩⟩
      · rw [if_neg added]
        exact ⟨steady.idle, .inr ⟨added, .kept rfl rfl⟩⟩
  | addService o name type protocol port =>
      obtain ⟨change, added, host⟩ := addService_change w o name type protocol port
      exact ⟨follows added host, .inr ⟨id, change⟩⟩
  | addServiceHere o type protocol port =>
      obtain ⟨change, added, host⟩ := addService_change w o (some w.hostname) type protocol port
      exact ⟨follows added host, .inr ⟨id, change⟩⟩
  | removeService name type protocol port =>
      obtain ⟨change, added, host⟩ := removeService_change w name type protocol port
      exact ⟨follows added host, .inr ⟨id, change⟩⟩
  | removeServiceHere type protocol port =>
      obtain ⟨change, added, host⟩ := removeService_change w (some w.hostname) type protocol port
      exact ⟨follows added host, .inr ⟨id, change⟩⟩
  | ethernet c =>
      obtain ⟨slots, ⟨clears, host⟩ | ⟨keeps, host, added⟩⟩ := ethernet_cases b w c
      · refine ⟨fun _ => host, .inl ⟨clears, congrArg (Service.registered ∘ ·) slots, ?_⟩⟩
        change (w.ethernet b c).services = Slots.empty
        rw [services, host]
        rfl
      · refine ⟨follows added fun none => host.trans none, .inr ⟨keeps, .kept (congrArg (Service.registered ∘ ·) slots) ?_⟩⟩
        exact congrArg (Option.getD · Slots.empty) host

theorem Steady.step (b : Board) (w : World) (call : Call) (steady : w.Steady) :
    (w.step b call).Steady := by
  obtain ⟨idle, ⟨_, table, services⟩ | ⟨_, change⟩⟩ := step_cases b steady call
  · refine ⟨idle, 0, ?_⟩
    rw [services]
    exact .cleared _
  · exact ⟨idle, change.shadows steady.shadows⟩

/-- Tables that are in step stay so exactly if no service is lost in the call. -/
theorem step_mirrors_iff (b : Board) (w : World) (call : Call) (steady : w.Steady) (before : w.Mirrors) :
    (w.step b call).Mirrors ↔ w.Quiet b call := by
  obtain ⟨_, ⟨clears, table, services⟩ | ⟨keeps, change⟩⟩ := step_cases b steady call
  · rw [mirrors_iff] at before ⊢
    rw [table, services, before, funext_iff]
    exact ⟨fun nothing _ => nothing, fun quiet => quiet clears⟩
  · exact ⟨fun _ clears => absurd clears keeps, fun _ => change.mirrors before⟩

/-- What is expected of `removeService`. It succeeds if and only if such a service is registered, and then
one such service is removed and nothing else. -/
def Removes (w : World) (name type protocol : Option CString) (port : UInt16) : Prop :=
  ((w.removeService name type protocol port).1 = true ↔
    ∃ n t i, name = some n ∧ type = some t ∧
      w.services i = some { name := n, service := t, proto := toProto protocol, port := port }) ∧
  ((w.removeService name type protocol port).1 = true →
    ∃ n t i, name = some n ∧ type = some t ∧
      w.services i = some { name := n, service := t, proto := toProto protocol, port := port } ∧
      (w.removeService name type protocol port).2.services = Function.update w.services i none) ∧
  ((w.removeService name type protocol port).1 = false →
    (w.removeService name type protocol port).2.services = w.services)

theorem Steady.removes (steady : w.Steady) (name type protocol : Option CString) (port : UInt16) :
    w.Removes name type protocol port := by
  obtain ⟨used, shadows⟩ := steady.shadows
  rcases removeService_cases w name type protocol port with
    ⟨failed, why⟩ | ⟨n, t, slot, rfl, rfl, found, removed⟩
  · rw [Removes, failed]
    refine ⟨⟨fun done => absurd done Bool.false_ne_true, ?_⟩, fun done => absurd done Bool.false_ne_true, fun _ => rfl⟩
    intro given
    obtain ⟨n, t, i, rfl, rfl, there⟩ := given
    rcases why with stopped | none | none | ⟨n', t', name, type, missing⟩
    · rw [services, steady.idle stopped] at there
      cases there
    · cases none
    · cases none
    · cases name
      cases type
      exact absurd there (shadows.missing missing i)
  · rw [Removes, removed, respDelService_eq]
    have same : World.services { w with slots := Function.update w.slots slot .reset } = w.services := rfl
    rw [same]
    rcases shadows.lookup found with there | ⟨gone, nowhere⟩
    · rw [there]
      exact ⟨⟨fun _ => ⟨n, t, slot, rfl, rfl, there⟩, fun _ => rfl⟩,
        fun _ => ⟨n, t, slot, rfl, rfl, there, rfl⟩, fun failed => absurd failed.symm Bool.false_ne_true⟩
    · rw [gone]
      refine ⟨⟨fun done => absurd done Bool.false_ne_true, ?_⟩, fun done => absurd done Bool.false_ne_true, fun _ => rfl⟩
      intro given
      obtain ⟨n', t', i, name, type, there⟩ := given
      cases name
      cases type
      exact absurd there (nowhere i)

theorem boot_steady (driverMac : Mac) : (boot driverMac).Steady :=
  ⟨fun _ => rfl, 0, .cleared _⟩

/-- The slots mirror the responder in every state of a run exactly if no call of the run takes registered
services away with lwIP's data; and services are removed as they should be after every run. -/
theorem slots_mirror_iff (b : Board) (driverMac : Mac) (run : List Call) :
    ((∀ k, (exec b driverMac (run.take k)).Mirrors) ↔
        Run.Allowed (Quiet b) (step b) (boot driverMac) run) ∧
      ∀ name type protocol port, (exec b driverMac run).Removes name type protocol port := by
  constructor
  · exact Run.always_iff_allowed Steady Mirrors (Quiet b) (step b) (fun w call => Steady.step b w call)
      (step_mirrors_iff b) run (boot driverMac) (boot_steady driverMac) fun _ => rfl
  · have steady : (exec b driverMac run).Steady :=
      Run.foldl_preserves Steady (step b) (Steady.step b) run (boot driverMac) (boot_steady driverMac)
    exact steady.removes

/-- mDNS is started, and a service is registered. -/
def announced : List Call :=
  [.ethernet { op := .begin }, .begin {} (some [104]),
    .addService {} (some [104]) (some [95, 104]) (some [95, 116, 99, 112]) 80]

/-- The slot stays valid when mDNS is ended, and when a new MAC address is set. -/
theorem lost_service_stays :
    let b : Board := { systemMac := Vector.replicate 6 2 }
    ¬(exec b (Vector.replicate 6 2) (announced ++ [.endMdns])).Mirrors ∧
      ¬(exec b (Vector.replicate 6 2) (announced ++
        [.ethernet { op := .setMacAddress (some (Vector.replicate 6 4)) }])).Mirrors := by
  constructor
  · intro mirrors
    exact absurd (mirrors ⟨0, by decide⟩) (by decide)
  · intro mirrors
    exact absurd (mirrors ⟨0, by decide⟩) (by decide)

end World
end QNEthernet.Mdns
