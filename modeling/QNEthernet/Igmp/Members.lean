import QNEthernet.EthernetClass.Listeners
import QNEthernet.Igmp.Model

/-! The list of groups counts how often each has been joined and not left. -/

namespace QNEthernet.Igmp

open EthernetClass (IpAddress Toggles)

/-- What the list is for: how often each group has been joined and not left. There is room for eight. -/
structure Members where
  started : Bool := false
  joined : Multiset IpAddress := 0

def Members.call (m : Members) : Op → Err × Members
  | .start => (.ok, { started := true })
  | .stop => (.ok, { started := false })
  | .join addr _ _ =>
      if !isMulticast addr ∨ addr = allsystems then (.val, m)
      else if addr ∉ m.joined ∧ 8 ≤ m.joined.toFinset.card then (.mem, m)
      else (.ok, { m with joined := addr ::ₘ m.joined })
  | .leave addr _ =>
      if (!isMulticast addr ∨ addr = allsystems) ∨ addr ∉ m.joined then (.val, m)
      else (.ok, { m with joined := m.joined.erase addr })
  | .reportGroups _ | .input .. | .tmr _ => (.ok, m)

/-- What the timers and flags leave alone. -/
def Group.key (group : Group) : IpAddress × UInt8 := (group.groupAddress, group.use)

namespace Netif

def keys (n : Netif) : List (IpAddress × UInt8) := n.groups.map Group.key

/-- The calls of the MAC filter for the address, the latest first. -/
def filterCalls (addr : IpAddress) (n : Netif) : List Bool := (n.macFilter.filter (·.1 = addr)).map Prod.snd

end Netif

/-- The groups after the first against how often each has been joined. -/
structure Counts (next : List (IpAddress × UInt8)) (joined : Multiset IpAddress) : Prop where
  distinct : (next.map Prod.fst).Nodup
  used : ∀ k ∈ next, k.2.toNat = joined.count k.1 ∧ 0 < k.2.toNat
  listed : ∀ addr ∈ joined, addr ∈ next.map Prod.fst
  not_allsystems : allsystems ∉ next.map Prod.fst

structure Represents (n : Netif) (m : Members) : Prop where
  running : n.aborted = false
  stopped : m.started = false → n.keys = [] ∧ m.joined = 0
  started : m.started = true → ∃ use next, n.keys = (allsystems, use) :: next ∧ Counts next m.joined
  member : ∀ group ∈ n.groups, group.groupState ≠ .nonMember
  filtered : ∀ addr, Toggles (decide (addr ∈ n.keys.map Prod.fst)) (n.filterCalls addr)

variable {n n' : Netif} {m : Members} {addr : IpAddress} {next : List (IpAddress × UInt8)} {joined : Multiset IpAddress}

/-! ## Counting -/

theorem Counts.mem_iff (counts : Counts next joined) : addr ∈ next.map Prod.fst ↔ addr ∈ joined := by
  refine ⟨?_, counts.listed addr⟩
  intro there
  obtain ⟨k, member, rfl⟩ := List.mem_map.mp there
  obtain ⟨count, used⟩ := counts.used k member
  exact Multiset.count_pos.mp (count ▸ used)

theorem Counts.length_eq (counts : Counts next joined) : next.length = joined.toFinset.card := by
  have same : (next.map Prod.fst).toFinset = joined.toFinset := by
    ext addr
    rw [List.mem_toFinset, counts.mem_iff, Multiset.mem_toFinset]
  rw [← same, List.toFinset_card_of_nodup counts.distinct, List.length_map]

def recount (addr : IpAddress) (f : UInt8 → UInt8) (next : List (IpAddress × UInt8)) : List (IpAddress × UInt8) :=
  next.map fun k => if k.1 = addr then (k.1, f k.2) else k

theorem recount_fst (addr : IpAddress) (f : UInt8 → UInt8) (next : List (IpAddress × UInt8)) :
    (recount addr f next).map Prod.fst = next.map Prod.fst := by
  rw [recount, List.map_map]
  apply List.map_congr_left
  intro k _
  dsimp only [Function.comp]
  split <;> rfl

theorem recount_cons (addr : IpAddress) (f : UInt8 → UInt8) (k : IpAddress × UInt8) :
    recount addr f (k :: next) = (if k.1 = addr then (k.1, f k.2) else k) :: recount addr f next := rfl

theorem recount_absent (absent : addr ∉ next.map Prod.fst) (f : UInt8 → UInt8) : recount addr f next = next := by
  have same : ∀ k ∈ next, (if k.1 = addr then (k.1, f k.2) else k) = id k := by
    intro k member
    apply if_neg
    rintro rfl
    exact absent (List.mem_map_of_mem member)
  rw [recount, List.map_congr_left same, List.map_id]

theorem Counts.recount (counts : Counts next joined) (addr : IpAddress) {f : UInt8 → UInt8}
    {joined' : Multiset IpAddress} (others : ∀ a, a ≠ addr → joined'.count a = joined.count a)
    (used : ∀ k ∈ next, k.1 = addr → (f k.2).toNat = joined'.count addr ∧ 0 < (f k.2).toNat)
    (there : addr ∈ next.map Prod.fst) : Counts (recount addr f next) joined' where
  distinct := by
    rw [recount_fst]
    exact counts.distinct
  used := by
    intro k' changed
    obtain ⟨k, member, rfl⟩ := List.mem_map.mp changed
    by_cases same : k.1 = addr
    · rw [if_pos same]
      dsimp only
      rw [same]
      exact used k member same
    · rw [if_neg same, others k.1 same]
      exact counts.used k member
  listed := by
    intro a member
    rw [recount_fst]
    by_cases same : a = addr
    · rw [same]
      exact there
    · have some : 0 < joined'.count a := Multiset.count_pos.mpr member
      rw [others a same] at some
      exact counts.listed a (Multiset.count_pos.mp some)
  not_allsystems := by
    rw [recount_fst]
    exact counts.not_allsystems

theorem Counts.add (counts : Counts next joined) (new : addr ∉ joined) (other : addr ≠ allsystems) :
    Counts ((addr, 1) :: next) (addr ::ₘ joined) where
  distinct := by
    rw [List.map_cons]
    exact List.nodup_cons.mpr ⟨mt counts.mem_iff.mp new, counts.distinct⟩
  used := by
    refine List.forall_mem_cons.mpr ⟨?_, ?_⟩
    · rw [Multiset.count_cons_self, Multiset.count_eq_zero.mpr new]
      exact ⟨rfl, Nat.one_pos⟩
    · intro k member
      have different : k.1 ≠ addr := by
        rintro rfl
        exact new (counts.mem_iff.mp (List.mem_map_of_mem member))
      rw [Multiset.count_cons_of_ne different]
      exact counts.used k member
  listed := by
    intro a member
    rw [List.map_cons, List.mem_cons]
    exact (Multiset.mem_cons.mp member).imp id (counts.listed a)
  not_allsystems := by
    rw [List.map_cons, List.mem_cons]
    exact not_or.mpr ⟨other.symm, counts.not_allsystems⟩

theorem eraseP_eq_filter (distinct : (next.map Prod.fst).Nodup) (addr : IpAddress) :
    next.eraseP (·.1 = addr) = next.filter (·.1 ≠ addr) := by
  induction next with
  | nil => rfl
  | cons k next ih =>
    obtain ⟨new, distinct⟩ := List.nodup_cons.mp distinct
    by_cases same : k.1 = addr
    · rw [List.eraseP_cons_of_pos (by simpa using same), List.filter_cons_of_neg (by simpa using same)]
      symm
      apply List.filter_eq_self.mpr
      intro k' member
      simp only [ne_eq, decide_not, Bool.not_eq_true', decide_eq_false_iff_not]
      rintro rfl
      exact new (same ▸ List.mem_map_of_mem member)
    · rw [List.eraseP_cons_of_neg (by simpa using same), List.filter_cons_of_pos (by simpa using same), ih distinct]

theorem Counts.remove (counts : Counts next joined) (last : joined.count addr ≤ 1) :
    Counts (next.eraseP (·.1 = addr)) (joined.erase addr) := by
  rw [eraseP_eq_filter counts.distinct]
  have part : (next.filter (·.1 ≠ addr)).Sublist next := List.filter_sublist
  refine ⟨(part.map Prod.fst).nodup counts.distinct, ?_, ?_, ?_⟩
  · intro k member
    obtain ⟨member, different⟩ := List.mem_filter.mp member
    rw [Multiset.count_erase_of_ne (by simpa using different)]
    exact counts.used k member
  · intro a member
    have different : a ≠ addr := by
      rintro rfl
      have some := Multiset.count_pos.mpr member
      rw [Multiset.count_erase_self] at some
      omega
    obtain ⟨k, listed, rfl⟩ := List.mem_map.mp (counts.listed a (Multiset.mem_of_mem_erase member))
    exact List.mem_map_of_mem (List.mem_filter.mpr ⟨listed, by simpa using different⟩)
  · exact fun there => counts.not_allsystems ((part.map Prod.fst).subset there)

/-! ## The list -/

theorem mem_keys_fst (n : Netif) : addr ∈ n.keys.map Prod.fst ↔ ∃ group ∈ n.groups, group.groupAddress = addr := by
  simp [Netif.keys, Group.key]

theorem update_keys {f : Group → Group} {count : UInt8 → UInt8}
    (counted : ∀ group, (f group).key = (group.groupAddress, count group.use)) (addr : IpAddress) (groups : List Group)
    (distinct : ((groups.map Group.key).map Prod.fst).Nodup) :
    (update addr f groups).map Group.key = recount addr count (groups.map Group.key) := by
  induction groups with
  | nil => rfl
  | cons group groups ih =>
    obtain ⟨new, distinct⟩ := List.nodup_cons.mp distinct
    rw [update, List.map_cons, recount_cons]
    by_cases same : group.groupAddress = addr
    · have here : group.key.1 = addr := same
      rw [if_pos same, if_pos here, List.map_cons, counted, recount_absent (here ▸ new)]
      rfl
    · have elsewhere : group.key.1 ≠ addr := same
      rw [if_neg same, if_neg elsewhere, List.map_cons, ih distinct]

theorem update_keys_same {f : Group → Group} (same : ∀ group, (f group).key = group.key) (addr : IpAddress)
    (groups : List Group) : (update addr f groups).map Group.key = groups.map Group.key := by
  induction groups with
  | nil => rfl
  | cons group groups ih =>
    rw [update]
    split
    · rw [List.map_cons, List.map_cons, same]
    · rw [List.map_cons, List.map_cons, ih]

theorem mem_update {f : Group → Group} {groups : List Group} {group : Group} (member : group ∈ update addr f groups) :
    group ∈ groups ∨ ∃ old ∈ groups, group = f old := by
  induction groups with
  | nil => cases member
  | cons first groups ih =>
    rw [update] at member
    split at member
    · rcases List.mem_cons.mp member with rfl | member
      · exact .inr ⟨first, List.mem_cons_self, rfl⟩
      · exact .inl (List.mem_cons_of_mem _ member)
    · rcases List.mem_cons.mp member with rfl | member
      · exact .inl List.mem_cons_self
      · rcases ih member with known | ⟨old, known, rfl⟩
        · exact .inl (List.mem_cons_of_mem _ known)
        · exact .inr ⟨old, List.mem_cons_of_mem _ known, rfl⟩

theorem lookfor_some {group : Group} (found : n.igmpLookforGroup addr = some group) :
    group ∈ n.groups ∧ group.groupAddress = addr := by
  have same := List.find?_some found
  exact ⟨List.mem_of_find?_eq_some found, of_decide_eq_true same⟩

theorem lookfor_none (missing : n.igmpLookforGroup addr = none) : addr ∉ n.keys.map Prod.fst := by
  rw [mem_keys_fst]
  rintro ⟨group, member, same⟩
  exact List.find?_eq_none.mp missing group member (decide_eq_true same)

theorem filterCalls_igmpMacFilter (addr : IpAddress) (action : Bool) (n : Netif) (a : IpAddress) :
    (n.igmpMacFilter addr action).filterCalls a =
      if addr = a then action :: n.filterCalls a else n.filterCalls a := by
  rw [Netif.filterCalls, Netif.igmpMacFilter, List.filter_cons]
  by_cases same : addr = a
  · rw [if_pos same, if_pos (decide_eq_true same), List.map_cons]
    rfl
  · rw [if_neg same, if_neg (by simpa using same)]
    rfl

/-! ## Timers and messages -/

/-- What changes neither which groups there are nor how often they are used. -/
theorem Represents.of_keys (represents : Represents n m) (keys : n'.keys = n.keys)
    (member : ∀ group ∈ n'.groups, group.groupState ≠ .nonMember) (macFilter : n'.macFilter = n.macFilter)
    (aborted : n'.aborted = n.aborted) : Represents n' m where
  running := aborted.trans represents.running
  stopped := by
    rw [keys]
    exact represents.stopped
  started := by
    rw [keys]
    exact represents.started
  member := member
  filtered := by
    intro addr
    rw [keys, Netif.filterCalls, macFilter]
    exact represents.filtered addr

theorem igmpDelayingMember_key (maxresp rand : Nat) (group : Group) :
    (group.igmpDelayingMember maxresp rand).key = group.key := by
  rw [Group.igmpDelayingMember]
  split <;> rfl

theorem igmpDelayingMember_member (maxresp rand : Nat) {group : Group} (member : group.groupState ≠ .nonMember) :
    (group.igmpDelayingMember maxresp rand).groupState ≠ .nonMember := by
  rw [Group.igmpDelayingMember]
  split
  · exact GroupState.noConfusion
  · exact member

theorem reported_key (group : Group) : group.reported.key = group.key := by
  rw [Group.reported]
  split <;> rfl

theorem reported_member {group : Group} (member : group.groupState ≠ .nonMember) :
    group.reported.groupState ≠ .nonMember := by
  rw [Group.reported]
  split
  · exact GroupState.noConfusion
  · exact member

theorem igmpTimeout_key (memory : Bool) (group : Group) : (group.igmpTimeout memory).1.key = group.key := by
  rw [Group.igmpTimeout]
  split
  · split <;> rfl
  · rfl

theorem igmpTimeout_member (memory : Bool) {group : Group} (member : group.groupState ≠ .nonMember) :
    (group.igmpTimeout memory).1.groupState ≠ .nonMember := by
  rw [Group.igmpTimeout]
  split
  · split
    · exact GroupState.noConfusion
    · exact GroupState.noConfusion
  · exact member

theorem tmr_key (memory : Bool) (group : Group) : (group.tmr memory).1.key = group.key := by
  rw [Group.tmr]
  split
  · dsimp only
    split
    · exact igmpTimeout_key ..
    · rfl
  · rfl

theorem tmr_member (memory : Bool) {group : Group} (member : group.groupState ≠ .nonMember) :
    (group.tmr memory).1.groupState ≠ .nonMember := by
  rw [Group.tmr]
  split
  · dsimp only
    split
    · exact igmpTimeout_member memory member
    · exact member
  · exact member

theorem Represents.update (represents : Represents n m) {f : Group → Group} (same : ∀ group, (f group).key = group.key)
    (member : ∀ group, group.groupState ≠ .nonMember → (f group).groupState ≠ .nonMember) (addr : IpAddress) :
    Represents { n with groups := update addr f n.groups } m := by
  refine represents.of_keys (update_keys_same same addr n.groups) ?_ rfl rfl
  intro group changed
  rcases mem_update changed with known | ⟨old, known, rfl⟩
  · exact represents.member group known
  · exact member old (represents.member old known)

theorem Represents.delayAll (represents : Represents n m) (maxresp : Nat) (rand : IpAddress → Nat) :
    Represents (n.delayAll maxresp rand) m := by
  have member := represents.member
  rw [Netif.delayAll]
  split
  · exact represents
  · next first next list =>
    rw [list] at member
    refine represents.of_keys ?_ ?_ rfl rfl
    · simp [Netif.keys, list, Function.comp_def, igmpDelayingMember_key]
    · refine List.forall_mem_cons.mpr ⟨member first List.mem_cons_self, ?_⟩
      intro group changed
      obtain ⟨old, known, rfl⟩ := List.mem_map.mp changed
      exact igmpDelayingMember_member _ _ (member old (List.mem_cons_of_mem _ known))

theorem Represents.igmpInput (represents : Represents n m) (dest : IpAddress) (msgtype : MsgType) (maxresp : UInt8)
    (groupAddress : IpAddress) (rand : IpAddress → Nat) :
    Represents (n.igmpInput dest msgtype maxresp groupAddress rand) m := by
  unfold Netif.igmpInput
  split
  · exact represents
  · cases msgtype with
    | membQuery =>
      dsimp only
      split
      · exact represents.delayAll ..
      · split
        · exact represents.update (fun _ => igmpDelayingMember_key ..) (fun _ => igmpDelayingMember_member _ _) _
        · exact represents
    | v2MembReport => exact represents.update reported_key (fun _ => reported_member) dest
    | other => exact represents

theorem Represents.igmpTmr (represents : Represents n m) (memory : IpAddress → Bool) :
    Represents (n.igmpTmr memory) m := by
  refine represents.of_keys ?_ ?_ rfl rfl
  · simp [Netif.keys, Netif.igmpTmr, Function.comp_def, tmr_key]
  · intro group changed
    obtain ⟨old, known, rfl⟩ := List.mem_map.mp changed
    exact tmr_member _ (represents.member old known)

/-! ## Starting and stopping -/

theorem filtered_change {before after : List IpAddress} {action : Bool}
    (filtered : ∀ a, Toggles (decide (a ∈ before)) (n.filterCalls a)) (was : decide (addr ∈ before) = !action)
    (now : decide (addr ∈ after) = action) (others : ∀ a, a ≠ addr → (a ∈ after ↔ a ∈ before)) (a : IpAddress) :
    Toggles (decide (a ∈ after)) ((n.igmpMacFilter addr action).filterCalls a) := by
  have told := filtered a
  rw [filterCalls_igmpMacFilter]
  by_cases same : addr = a
  · subst same
    rw [if_pos rfl, now]
    rw [was] at told
    exact ⟨rfl, told⟩
  · rw [if_neg same, decide_eq_decide.mpr (others a (Ne.symm same))]
    exact told

theorem stop_filtered (groups : List Group) (distinct : ((groups.map Group.key).map Prod.fst).Nodup)
    (filtered : ∀ a, Toggles (decide (a ∈ (groups.map Group.key).map Prod.fst)) (n.filterCalls a)) (a : IpAddress) :
    Toggles false ((groups.foldl (fun n group => n.igmpMacFilter group.groupAddress false) n).filterCalls a) := by
  induction groups generalizing n with
  | nil => exact filtered a
  | cons group groups ih =>
    obtain ⟨new, distinct⟩ := List.nodup_cons.mp distinct
    rw [List.foldl_cons]
    apply ih distinct
    apply filtered_change filtered
    · exact decide_eq_true List.mem_cons_self
    · exact decide_eq_false new
    · intro a' different
      rw [List.map_cons, List.map_cons, List.mem_cons]
      exact (or_iff_right different).symm

theorem foldl_igmpMacFilter (groups : List Group) (n : Netif) :
    (groups.foldl (fun n group => n.igmpMacFilter group.groupAddress false) n).groups = n.groups ∧
      (groups.foldl (fun n group => n.igmpMacFilter group.groupAddress false) n).aborted = n.aborted ∧
      (groups.foldl (fun n group => n.igmpMacFilter group.groupAddress false) n).sent = n.sent := by
  induction groups generalizing n with
  | nil => exact ⟨rfl, rfl, rfl⟩
  | cons group groups ih => exact ih (n.igmpMacFilter group.groupAddress false)

theorem Represents.distinct (represents : Represents n m) : (n.keys.map Prod.fst).Nodup := by
  cases started : m.started with
  | false =>
    rw [(represents.stopped started).1]
    exact List.nodup_nil
  | true =>
    obtain ⟨use, next, keys, counts⟩ := represents.started started
    rw [keys]
    exact List.nodup_cons.mpr ⟨counts.not_allsystems, counts.distinct⟩

theorem Represents.igmpStop (represents : Represents n m) : Represents n.igmpStop { started := false } := by
  obtain ⟨groups, aborted, -⟩ := foldl_igmpMacFilter n.groups { n with groups := [] }
  have keys : n.igmpStop.keys = [] := by
    rw [Netif.keys, Netif.igmpStop, groups]
    rfl
  refine ⟨aborted.trans represents.running, fun _ => ⟨keys, rfl⟩, nofun, ?_, ?_⟩
  · rw [Netif.igmpStop, groups]
    exact List.forall_mem_nil _
  · intro addr
    rw [keys]
    exact stop_filtered (n := { n with groups := [] }) n.groups represents.distinct represents.filtered addr

theorem Represents.igmpStart (represents : Represents n m) (empty : n.groups = []) :
    n.igmpStart.1 = .ok ∧ Represents n.igmpStart.2 { started := true } := by
  have keys : n.keys = [] := by rw [Netif.keys, empty]; rfl
  have started : n.igmpStart = (.ok, { n with
      groups := [{ groupAddress := allsystems, groupState := .idleMember, use := 1 }]
      aborted := n.aborted || allsystems != allsystems }.igmpMacFilter allsystems true) := by
    simp [Netif.igmpStart, Netif.igmpLookupGroup, Netif.igmpLookforGroup, empty, mempNumIgmpGroup, Igmp.update, Group.addUse]
  rw [started]
  refine ⟨rfl, ?_, nofun, ?_, ?_, ?_⟩
  · simp [Netif.igmpMacFilter, represents.running]
  · exact fun _ => ⟨1, [], rfl, ⟨List.nodup_nil, by simp, by simp, by simp⟩⟩
  · simp [Netif.igmpMacFilter]
  · have filtered := represents.filtered
    rw [keys] at filtered
    change ∀ addr, Toggles (decide (addr ∈ [allsystems])) _
    apply filtered_change filtered
    · simp
    · simp
    · intro a different
      simp [different]

/-! ## Joining and leaving -/

theorem Represents.started_of_joined (represents : Represents n m) (joined : addr ∈ m.joined) : m.started = true := by
  by_contra stopped
  rw [(represents.stopped (Bool.eq_false_iff.mpr stopped)).2] at joined
  cases joined

theorem Represents.started_of_groups (represents : Represents n m) (some : n.groups ≠ []) : m.started = true := by
  by_contra stopped
  exact some (List.map_eq_nil_iff.mp (represents.stopped (Bool.eq_false_iff.mpr stopped)).1)

theorem Represents.mem_iff (represents : Represents n m) (other : addr ≠ allsystems) :
    addr ∈ n.keys.map Prod.fst ↔ addr ∈ m.joined := by
  cases started : m.started with
  | false =>
    obtain ⟨keys, joined⟩ := represents.stopped started
    simp [keys, joined]
  | true =>
    obtain ⟨use, next, keys, counts⟩ := represents.started started
    rw [keys, List.map_cons, List.mem_cons, or_iff_right other]
    exact counts.mem_iff

theorem Represents.used (represents : Represents n m) {group : Group} (member : group ∈ n.groups)
    (other : group.groupAddress ≠ allsystems) :
    group.groupAddress ∈ m.joined ∧ group.use.toNat = m.joined.count group.groupAddress := by
  have key : group.key ∈ n.keys := List.mem_map_of_mem member
  obtain ⟨use, next, keys, counts⟩ := represents.started (represents.started_of_groups (List.ne_nil_of_mem member))
  rw [keys] at key
  rcases List.mem_cons.mp key with first | later
  · exact absurd (congrArg Prod.fst first) other
  · exact ⟨counts.mem_iff.mp (List.mem_map_of_mem later), (counts.used group.key later).1⟩

theorem Represents.found (represents : Represents n m) (other : addr ≠ allsystems) {group : Group}
    (found : n.igmpLookforGroup addr = some group) :
    addr ∈ m.joined ∧ group.use.toNat = m.joined.count addr := by
  obtain ⟨member, rfl⟩ := lookfor_some found
  exact represents.used member other

theorem Represents.recount (represents : Represents n m) {f : Group → Group} (count : UInt8 → UInt8)
    (other : addr ≠ allsystems) (there : addr ∈ m.joined)
    (counted : ∀ group, (f group).key = (group.groupAddress, count group.use))
    (member : ∀ group, group.groupState ≠ .nonMember → (f group).groupState ≠ .nonMember)
    {joined : Multiset IpAddress} (others : ∀ a, a ≠ addr → joined.count a = m.joined.count a)
    (used : ∀ use : UInt8, use.toNat = m.joined.count addr → 0 < use.toNat →
      (∃ group ∈ n.groups, group.groupAddress = addr ∧ group.use = use) →
        (count use).toNat = joined.count addr ∧ 0 < (count use).toNat) :
    Represents { n with groups := Igmp.update addr f n.groups } { m with joined } := by
  have keys : ({ n with groups := Igmp.update addr f n.groups } : Netif).keys = Igmp.recount addr count n.keys :=
    update_keys counted addr n.groups represents.distinct
  refine ⟨represents.running, ?_, ?_, ?_, ?_⟩
  · intro stopped
    rw [(represents.stopped stopped).2] at there
    cases there
  · intro started
    obtain ⟨use, next, list, counts⟩ := represents.started started
    refine ⟨use, Igmp.recount addr count next, ?_, counts.recount addr others ?_ (counts.mem_iff.mpr there)⟩
    · rw [keys, list, recount_cons, if_neg other.symm]
    · intro k known same
      have listed : k ∈ n.keys := by
        rw [list]
        exact List.mem_cons_of_mem _ known
      obtain ⟨group, inside, rfl⟩ := List.mem_map.mp listed
      obtain ⟨equal, positive⟩ := counts.used group.key known
      exact used group.use (equal.trans (congrArg (m.joined.count ·) same)) positive ⟨group, inside, same, rfl⟩
  · intro group changed
    rcases mem_update changed with known | ⟨old, known, rfl⟩
    · exact represents.member group known
    · exact member old (represents.member old known)
  · intro a
    rw [keys, recount_fst]
    exact represents.filtered a

theorem update_second {f : Group → Group} {first group : Group} {next : List Group} (other : first.groupAddress ≠ addr)
    (same : group.groupAddress = addr) : update addr f (first :: group :: next) = first :: f group :: next := by
  rw [update, if_neg other, update, if_pos same]

theorem Represents.insert (represents : Represents n m) (started : m.started = true) (other : addr ≠ allsystems)
    (new : addr ∉ m.joined) {first : Group} {next : List Group} (list : n.groups = first :: next) (group : Group)
    (key : group.key = (addr, 1)) (member : group.groupState ≠ .nonMember) (groups : n'.groups = first :: group :: next)
    (macFilter : n'.macFilter = (addr, true) :: n.macFilter) (aborted : n'.aborted = n.aborted) :
    Represents n' { m with joined := addr ::ₘ m.joined } := by
  obtain ⟨use, keys, list', counts⟩ := represents.started started
  rw [Netif.keys, list, List.map_cons] at list'
  obtain ⟨first_key, rfl⟩ := List.cons_eq_cons.mp list'
  have known := represents.member
  rw [list] at known
  refine ⟨aborted.trans represents.running, ?_, ?_, ?_, ?_⟩
  · intro stopped
    rw [started] at stopped
    cases stopped
  · intro _
    refine ⟨use, _, ?_, counts.add new other⟩
    rw [Netif.keys, groups, List.map_cons, List.map_cons, first_key, key]
  · rw [groups]
    refine List.forall_mem_cons.mpr ⟨known first List.mem_cons_self, List.forall_mem_cons.mpr ⟨member, ?_⟩⟩
    exact fun group later => known group (List.mem_cons_of_mem _ later)
  · intro a
    have calls : n'.filterCalls a = (n.igmpMacFilter addr true).filterCalls a := by
      rw [Netif.filterCalls, macFilter]
      rfl
    rw [calls]
    apply filtered_change represents.filtered
    · exact decide_eq_false fun listed => new ((represents.mem_iff other).mp listed)
    · simp [Netif.keys, groups, key]
    · intro a' different
      simp [Netif.keys, list, groups, key, different]

theorem Represents.length (represents : Represents n m) (started : m.started = true) :
    n.groups.length = m.joined.toFinset.card + 1 := by
  obtain ⟨use, next, keys, counts⟩ := represents.started started
  rw [← counts.length_eq, ← List.length_cons, ← keys, Netif.keys, List.length_map]

theorem lookup_found {group : Group} (found : n.igmpLookforGroup addr = some group) :
    n.igmpLookupGroup addr = (some group, n) := by
  rw [Netif.igmpLookupGroup, found]

theorem lookup_full (missing : n.igmpLookforGroup addr = none) (full : mempNumIgmpGroup ≤ n.groups.length) :
    n.igmpLookupGroup addr = (none, n) := by
  rw [Netif.igmpLookupGroup, missing]
  exact if_pos full

theorem lookup_new (missing : n.igmpLookforGroup addr = none) (space : n.groups.length < mempNumIgmpGroup)
    (other : addr ≠ allsystems) {first : Group} {next : List Group} (list : n.groups = first :: next) :
    n.igmpLookupGroup addr =
      (some { groupAddress := addr }, { n with groups := first :: { groupAddress := addr } :: next }) := by
  have unlike : (addr == allsystems) = false := beq_eq_false_iff_ne.mpr other
  rw [Netif.igmpLookupGroup, missing]
  dsimp only
  rw [if_neg (Nat.not_le.mpr space), list]
  dsimp only
  rw [unlike, Bool.or_false]

theorem sendReport_second (memory : Bool) {first group : Group} {next : List Group}
    (list : n.groups = first :: group :: next) (other : first.groupAddress ≠ addr) (same : group.groupAddress = addr) :
    ∃ group', (n.sendReport addr memory).groups = first :: group' :: next ∧ group'.key = group.key ∧
      (n.sendReport addr memory).macFilter = n.macFilter ∧ (n.sendReport addr memory).aborted = n.aborted := by
  cases memory with
  | false => exact ⟨group, list, rfl, rfl, rfl⟩
  | true =>
    refine ⟨{ group with lastReporterFlag := true }, ?_, rfl, rfl, rfl⟩
    change Igmp.update addr _ n.groups = _
    rw [list, update_second other same]

theorem Represents.first (represents : Represents n m) (started : m.started = true) :
    ∃ first next, n.groups = first :: next ∧ first.groupAddress = allsystems := by
  obtain ⟨use, keys, list, -⟩ := represents.started started
  obtain ⟨first, next, groups, key, -⟩ := List.map_eq_cons_iff.mp list
  exact ⟨first, next, groups, congrArg Prod.fst key⟩

theorem Represents.igmpJoingroupNetif (represents : Represents n m) (started : m.started = true) (memory : Bool)
    (rand : Nat) (room : ∀ group ∈ n.groups, group.groupAddress = addr → group.use ≠ 255) :
    (n.igmpJoingroupNetif addr memory rand).1 = (m.call (.join addr memory rand)).1 ∧
      Represents (n.igmpJoingroupNetif addr memory rand).2 (m.call (.join addr memory rand)).2 := by
  unfold Netif.igmpJoingroupNetif Members.call
  dsimp only
  by_cases invalid : (!isMulticast addr) = true ∨ addr = allsystems
  · rw [if_pos invalid, if_pos invalid]
    exact ⟨rfl, represents⟩
  rw [if_neg invalid, if_neg invalid]
  have other : addr ≠ allsystems := fun same => invalid (.inr same)
  cases found : n.igmpLookforGroup addr with
  | some group =>
    obtain ⟨joined, -⟩ := represents.found other found
    have member := represents.member group (lookfor_some found).1
    rw [lookup_found found, if_neg fun full => full.1 joined]
    dsimp only
    rw [if_pos member]
    refine ⟨rfl, represents.recount (f := Group.addUse) (· + 1) other joined (fun _ => rfl) (fun _ => id) ?_ ?_⟩
    · exact fun a different => Multiset.count_cons_of_ne different _
    · rintro use equal - ⟨group', inside, same, rfl⟩
      have space : group'.use.toNat ≠ 255 := fun full => room group' inside same (UInt8.toNat_inj.mp full)
      have small := group'.use.toNat_lt
      have more : (group'.use + 1).toNat = group'.use.toNat + 1 := by
        rw [UInt8.toNat_add, UInt8.toNat_one, Nat.mod_eq_of_lt (by omega)]
      rw [more, equal, Multiset.count_cons_self]
      exact ⟨rfl, Nat.succ_pos _⟩
  | none =>
    have new : addr ∉ m.joined := mt (represents.mem_iff other).mpr (lookfor_none found)
    have length := represents.length started
    by_cases full : 8 ≤ m.joined.toFinset.card
    · rw [lookup_full found (by rw [length]; exact Nat.succ_le_succ full), if_pos ⟨new, full⟩]
      exact ⟨rfl, represents⟩
    · obtain ⟨first, next, list, address⟩ := represents.first started
      have space : n.groups.length < mempNumIgmpGroup := by
        rw [length]
        exact Nat.succ_lt_succ (Nat.not_le.mp full)
      have skip : first.groupAddress ≠ addr := fun same => other (same.symm.trans address)
      rw [lookup_new found space other list, if_neg fun full' => full full'.2]
      dsimp only
      rw [if_neg (not_not.mpr rfl), if_pos rfl]
      obtain ⟨group, groups, key, macFilter, aborted⟩ := sendReport_second (n := Netif.igmpMacFilter addr true
        { n with groups := first :: { groupAddress := addr } :: next }) memory rfl skip rfl
      have here : group.groupAddress = addr := congrArg Prod.fst key
      have unused : group.use = 0 := congrArg Prod.snd key
      refine ⟨rfl, represents.insert started other new list
        { group.igmpStartTimer igmpJoinDelayingMemberTmr rand with groupState := .delayingMember }.addUse
        ?_ ?_ ?_ macFilter aborted⟩
      · change (group.groupAddress, group.use + 1) = (addr, 1)
        rw [here, unused]
        rfl
      · exact GroupState.noConfusion
      · dsimp only
        rw [groups]
        exact update_second skip here

theorem Represents.dropUse (represents : Represents n m) (other : addr ≠ allsystems) (joined : addr ∈ m.joined)
    (more : 1 < m.joined.count addr) :
    Represents { n with groups := Igmp.update addr Group.dropUse n.groups } { m with joined := m.joined.erase addr } := by
  refine represents.recount (f := Group.dropUse) (· - 1) other joined (fun _ => rfl) (fun _ => id) ?_ ?_
  · exact fun a different => Multiset.count_erase_of_ne different _
  · intro use equal _ _
    have less : (use - 1).toNat = use.toNat - 1 := by
      have one_le : (1 : UInt8) ≤ use := UInt8.le_iff_toNat_le.mpr (by rw [UInt8.toNat_one]; omega)
      rw [UInt8.toNat_sub_of_le _ _ one_le, UInt8.toNat_one]
    rw [less, equal, Multiset.count_erase_self]
    exact ⟨rfl, by omega⟩

theorem Represents.remove (represents : Represents n m) (other : addr ≠ allsystems) (there : addr ∈ m.joined)
    (last : m.joined.count addr ≤ 1) (groups : n'.groups = (n.igmpRemoveGroup addr).groups)
    (macFilter : n'.macFilter = (addr, false) :: n.macFilter) (aborted : n'.aborted = n.aborted) :
    Represents n' { m with joined := m.joined.erase addr } := by
  have started := represents.started_of_joined there
  obtain ⟨use, keys, list, counts⟩ := represents.started started
  obtain ⟨first, next, list', address⟩ := represents.first started
  have removed : n'.groups = first :: next.eraseP (·.groupAddress = addr) := by
    rw [groups, Netif.igmpRemoveGroup, list']
  rw [Netif.keys, list', List.map_cons] at list
  obtain ⟨first_key, rfl⟩ := List.cons_eq_cons.mp list
  have erased : (next.eraseP (·.groupAddress = addr)).map Group.key = (next.map Group.key).eraseP (·.1 = addr) := by
    rw [List.eraseP_map]
    rfl
  have keys : n'.keys = (allsystems, use) :: (next.map Group.key).eraseP (·.1 = addr) := by
    rw [Netif.keys, removed, List.map_cons, first_key, erased]
  have left := counts.remove last
  refine ⟨aborted.trans represents.running, ?_, ?_, ?_, ?_⟩
  · intro stopped
    rw [started] at stopped
    cases stopped
  · exact fun _ => ⟨use, _, keys, left⟩
  · intro group member
    apply represents.member group
    rw [removed] at member
    rw [list']
    exact (List.eraseP_sublist.cons_cons first).subset member
  · intro a
    have calls : n'.filterCalls a = (n.igmpMacFilter addr false).filterCalls a := by
      rw [Netif.filterCalls, macFilter]
      rfl
    rw [calls]
    apply filtered_change represents.filtered
    · exact decide_eq_true ((represents.mem_iff other).mpr there)
    · apply decide_eq_false
      rw [keys, List.map_cons, List.mem_cons, or_iff_right other, left.mem_iff]
      intro still
      have some := Multiset.count_pos.mpr still
      rw [Multiset.count_erase_self] at some
      omega
    · intro a' different
      rw [keys, Netif.keys, list', List.map_cons, List.map_cons, List.map_cons, first_key, List.mem_cons, List.mem_cons,
        left.mem_iff, counts.mem_iff, Multiset.mem_erase_of_ne different]

theorem igmpRemoveGroup_rest (addr : IpAddress) (n : Netif) :
    (n.igmpRemoveGroup addr).macFilter = n.macFilter ∧ (n.igmpRemoveGroup addr).aborted = n.aborted ∧
      (n.igmpRemoveGroup addr).sent = n.sent := by
  rw [Netif.igmpRemoveGroup]
  split
  · exact ⟨rfl, rfl, rfl⟩
  · exact ⟨rfl, rfl, rfl⟩

theorem Represents.igmpLeavegroupNetif (represents : Represents n m) (addr : IpAddress) (memory : Bool) :
    (n.igmpLeavegroupNetif addr memory).1 = (m.call (.leave addr memory)).1 ∧
      Represents (n.igmpLeavegroupNetif addr memory).2 (m.call (.leave addr memory)).2 := by
  unfold Netif.igmpLeavegroupNetif Members.call
  dsimp only
  by_cases invalid : (!isMulticast addr) = true ∨ addr = allsystems
  · rw [if_pos invalid, if_pos (.inl invalid)]
    exact ⟨rfl, represents⟩
  rw [if_neg invalid]
  have other : addr ≠ allsystems := fun same => invalid (.inr same)
  cases found : n.igmpLookforGroup addr with
  | none =>
    rw [if_pos (.inr (mt (represents.mem_iff other).mpr (lookfor_none found)))]
    exact ⟨rfl, represents⟩
  | some group =>
    obtain ⟨joined, used⟩ := represents.found other found
    rw [if_neg (not_or.mpr ⟨invalid, not_not.mpr joined⟩)]
    dsimp only
    split
    · next last =>
      have once : m.joined.count addr ≤ 1 := used ▸ UInt8.le_iff_toNat_le.mp last
      obtain ⟨macFilter, aborted, -⟩ := igmpRemoveGroup_rest addr n
      refine ⟨rfl, represents.remove other joined once ?_ ?_ ?_⟩
      · split <;> rfl
      · rw [← macFilter]
        split <;> rfl
      · rw [← aborted]
        split <;> rfl
    · next more =>
      have twice : 1 < m.joined.count addr := used ▸ UInt8.lt_iff_toNat_lt.mp (UInt8.not_le.mp more)
      exact ⟨rfl, represents.dropUse other joined twice⟩

/-! ## A run -/

/-- The interface is added once before it is removed, nothing is joined without one, and no group is used 256 times. -/
def Sane (n : Netif) : Op → Prop
  | .start => n.groups = []
  | .join addr _ _ => n.groups ≠ [] ∧ ∀ group ∈ n.groups, group.groupAddress = addr → group.use ≠ 255
  | _ => True

instance (n : Netif) : DecidablePred (Sane n) := fun o => by
  cases o <;> (dsimp only [Sane]; infer_instance)

theorem Represents.call (represents : Represents n m) (o : Op) (sane : Sane n o) :
    (n.call o).1 = (m.call o).1 ∧ Represents (n.call o).2 (m.call o).2 := by
  cases o with
  | start => exact represents.igmpStart sane
  | stop => exact ⟨rfl, represents.igmpStop⟩
  | reportGroups rand => exact ⟨rfl, represents.delayAll ..⟩
  | input dest msgtype maxresp groupAddress rand => exact ⟨rfl, represents.igmpInput ..⟩
  | join addr memory rand =>
    exact represents.igmpJoingroupNetif (represents.started_of_groups sane.1) memory rand sane.2
  | leave addr memory => exact represents.igmpLeavegroupNetif addr memory
  | tmr memory => exact ⟨rfl, represents.igmpTmr memory⟩

def Netif.answers : Netif → List Op → List Err
  | _, [] => []
  | n, o :: ops => (n.call o).1 :: (n.step o).answers ops

def Members.answers : Members → List Op → List Err
  | _, [] => []
  | m, o :: ops => (m.call o).1 :: (m.call o).2.answers ops

def Members.run (ops : List Op) : Members := ops.foldl (fun m o => (m.call o).2) {}

theorem Represents.boot : Represents {} {} where
  running := rfl
  stopped _ := ⟨rfl, rfl⟩
  started := nofun
  member := nofun
  filtered _ := rfl

theorem Represents.run (represents : Represents n m) (ops : List Op) (sane : Run.Allowed Sane Netif.step n ops) :
    n.answers ops = m.answers ops ∧ Represents (ops.foldl Netif.step n) (ops.foldl (fun m o => (m.call o).2) m) := by
  induction ops generalizing n m with
  | nil => exact ⟨rfl, represents⟩
  | cons o ops ih =>
    obtain ⟨same, next⟩ := represents.call o sane.1
    have stepped : n.step o = (n.call o).2 := if_neg (by simp [represents.running])
    rw [← stepped] at next
    obtain ⟨answers, later⟩ := ih next sane.2
    refine ⟨?_, later⟩
    rw [Netif.answers, Members.answers, same, answers]

/-- The list of groups and the calls of the MAC filter are as the members say. -/
structure Faithful (n : Netif) (m : Members) : Prop where
  running : n.aborted = false
  distinct : (n.groups.map Group.groupAddress).Nodup
  listed : ∀ addr, addr ≠ allsystems → ((∃ group ∈ n.groups, group.groupAddress = addr) ↔ addr ∈ m.joined)
  used : ∀ group ∈ n.groups, group.groupAddress ≠ allsystems → group.use.toNat = m.joined.count group.groupAddress
  filtered : ∀ addr, addr ≠ allsystems → Toggles (decide (addr ∈ m.joined)) (n.filterCalls addr)

theorem Represents.faithful (represents : Represents n m) : Faithful n m where
  running := represents.running
  distinct := by
    have distinct := represents.distinct
    rw [Netif.keys, List.map_map] at distinct
    exact distinct
  listed := by
    intro addr other
    rw [← mem_keys_fst]
    exact represents.mem_iff other
  used _ member other := (represents.used member other).2
  filtered := by
    intro addr other
    rw [← decide_eq_decide.mpr (represents.mem_iff other)]
    exact represents.filtered addr

/-- Joining and leaving answer as if each group just counted how often it has been joined, whatever the timers and the
messages of others do, and the MAC filter is told of the first and of the last use of a group. -/
theorem groups_exact (ops : List Op) (sane : Run.Allowed Sane Netif.step {} ops) :
    Netif.answers {} ops = Members.answers {} ops ∧ Faithful (ops.foldl Netif.step {}) (Members.run ops) := by
  obtain ⟨answers, represents⟩ := Represents.boot.run ops sane
  exact ⟨answers, represents.faithful⟩

/-- `224.0.0.251` is joined twice and left once while a router asks. -/
def joinedTwice : List Op :=
  [.start, .join 0xfb0000e0 true 7, .join 0xfb0000e0 true 9, .input allsystems .membQuery 20 0 fun _ => 13,
    .leave 0xfb0000e0 true, .tmr fun _ => true]

theorem groups_exact_joinedTwice :
    Netif.answers {} joinedTwice = Members.answers {} joinedTwice ∧
      Faithful (joinedTwice.foldl Netif.step {}) (Members.run joinedTwice) :=
  groups_exact joinedTwice (by decide)

end QNEthernet.Igmp
