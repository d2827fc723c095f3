import QNEthernet.Igmp.Members

/-! A query is answered within the time it gives. -/

namespace QNEthernet.Igmp

open EthernetClass (IpAddress)

variable {n n' : Netif} {m : Members} {addr : IpAddress}

/-- A report for the group is to be sent within that many calls of `igmp_tmr`. -/
def Due (addr : IpAddress) (within : Nat) (n : Netif) : Prop :=
  ∃ group ∈ n.groups, group.groupAddress = addr ∧ group.groupState = .delayingMember ∧
    0 < group.timer ∧ group.timer ≤ within

/-- The group is not left, no other host reports it, and there are packet buffers to report it in. -/
def Op.Undisturbed (addr : IpAddress) : Op → Prop
  | .stop => False
  | .leave addr' _ => addr' ≠ addr
  | .input dest .v2MembReport _ _ _ => dest ≠ addr
  | .tmr memory => memory addr = true
  | _ => True

def Op.isTmr : Op → Bool
  | .tmr _ => true
  | _ => false

/-! ## The timer of a group -/

theorem igmpStartTimer_bounds (maxTime rand : Nat) (group : Group) :
    0 < (group.igmpStartTimer maxTime rand).timer ∧
      ∀ bound, 0 < bound → maxTime ≤ bound → (group.igmpStartTimer maxTime rand).timer ≤ bound := by
  rw [Group.igmpStartTimer]
  dsimp only
  by_cases long : maxTime > 2
  · rw [if_pos long]
    have less : rand % maxTime < maxTime := Nat.mod_lt _ (by omega)
    split
    · exact ⟨Nat.one_pos, fun bound some _ => some⟩
    · exact ⟨by omega, fun bound _ more => by omega⟩
  · rw [if_neg long, if_neg Nat.one_ne_zero]
    exact ⟨Nat.one_pos, fun bound some _ => some⟩

theorem igmpDelayingMember_still {group : Group} (delaying : group.groupState = .delayingMember) (some : 0 < group.timer)
    (maxresp rand : Nat) :
    (group.igmpDelayingMember maxresp rand).groupState = .delayingMember ∧
      0 < (group.igmpDelayingMember maxresp rand).timer ∧
      (group.igmpDelayingMember maxresp rand).timer ≤ group.timer := by
  rw [Group.igmpDelayingMember]
  split
  · next again =>
    have sooner : maxresp < group.timer := by
      rcases again with idle | ⟨_, none | sooner⟩
      · rw [delaying] at idle
        cases idle
      · omega
      · exact sooner
    obtain ⟨positive, bounded⟩ := igmpStartTimer_bounds maxresp rand group
    exact ⟨rfl, positive, bounded group.timer some sooner.le⟩
  · exact ⟨delaying, some, le_rfl⟩

theorem igmpDelayingMember_due {group : Group} (member : group.groupState ≠ .nonMember) {maxresp : Nat}
    (some : 0 < maxresp) (rand : Nat) :
    (group.igmpDelayingMember maxresp rand).groupState = .delayingMember ∧
      0 < (group.igmpDelayingMember maxresp rand).timer ∧ (group.igmpDelayingMember maxresp rand).timer ≤ maxresp := by
  rw [Group.igmpDelayingMember]
  split
  · obtain ⟨positive, bounded⟩ := igmpStartTimer_bounds maxresp rand group
    exact ⟨rfl, positive, bounded maxresp some le_rfl⟩
  · next waiting =>
    rw [not_or] at waiting
    have delaying : group.groupState = .delayingMember := by
      cases state : group.groupState with
      | nonMember => exact absurd state member
      | delayingMember => rfl
      | idleMember => exact absurd state waiting.1
    have running : ¬ (group.timer = 0 ∨ maxresp < group.timer) := fun again => waiting.2 ⟨delaying, again⟩
    exact ⟨delaying, by omega, by omega⟩

theorem igmpDelayingMember_groupAddress (maxresp rand : Nat) (group : Group) :
    (group.igmpDelayingMember maxresp rand).groupAddress = group.groupAddress :=
  congrArg Prod.fst (igmpDelayingMember_key maxresp rand group)

/-! ## The list -/

theorem mem_update_of_ne {f : Group → Group} {groups : List Group} {group : Group} (member : group ∈ groups)
    (other : group.groupAddress ≠ addr) : group ∈ update addr f groups := by
  induction groups with
  | nil => cases member
  | cons first groups ih =>
    rw [update]
    rcases List.mem_cons.mp member with rfl | later
    · rw [if_neg other]
      exact List.mem_cons_self
    · split
      · exact List.mem_cons_of_mem _ later
      · exact List.mem_cons_of_mem _ (ih later)

theorem mem_update_self {f : Group → Group} {groups : List Group} (distinct : ((groups.map Group.key).map Prod.fst).Nodup)
    {group : Group} (member : group ∈ groups) : f group ∈ update group.groupAddress f groups := by
  induction groups with
  | nil => cases member
  | cons first groups ih =>
    obtain ⟨new, distinct⟩ := List.nodup_cons.mp distinct
    rw [update]
    rcases List.mem_cons.mp member with rfl | later
    · rw [if_pos rfl]
      exact List.mem_cons_self
    · have different : first.groupAddress ≠ group.groupAddress := by
        intro same
        apply new
        rw [show first.key.1 = group.key.1 from same]
        exact List.mem_map_of_mem (List.mem_map_of_mem later)
      rw [if_neg different]
      exact List.mem_cons_of_mem _ (ih distinct later)

theorem mem_sendReport {group : Group} (member : group ∈ n.groups) (other : group.groupAddress ≠ addr) (memory : Bool) :
    group ∈ (n.sendReport addr memory).groups := by
  cases memory with
  | true => exact mem_update_of_ne member other
  | false => exact member

/-! ## A step -/

variable {within : Nat}

theorem Due.update (due : Due addr within n) (represents : Represents n m) {f : Group → Group}
    (address : ∀ group, (f group).groupAddress = group.groupAddress)
    (still : ∀ group, group.groupState = .delayingMember → 0 < group.timer →
      (f group).groupState = .delayingMember ∧ 0 < (f group).timer ∧ (f group).timer ≤ group.timer)
    (target : IpAddress) : Due addr within { n with groups := Igmp.update target f n.groups } := by
  obtain ⟨group, member, same, delaying, positive, soon⟩ := due
  by_cases other : group.groupAddress = target
  · obtain ⟨delaying', positive', sooner⟩ := still group delaying positive
    refine ⟨f group, ?_, (address group).trans same, delaying', positive', sooner.trans soon⟩
    rw [← other]
    exact mem_update_self represents.distinct member
  · exact ⟨group, mem_update_of_ne member other, same, delaying, positive, soon⟩

theorem Due.delayAll (due : Due addr within n) (maxresp : Nat) (rand : IpAddress → Nat) :
    Due addr within (n.delayAll maxresp rand) := by
  obtain ⟨group, member, same, delaying, positive, soon⟩ := due
  rw [Netif.delayAll]
  split
  · exact ⟨group, member, same, delaying, positive, soon⟩
  · next first next list =>
    rw [list] at member
    rcases List.mem_cons.mp member with rfl | later
    · exact ⟨group, List.mem_cons_self, same, delaying, positive, soon⟩
    · obtain ⟨delaying', positive', sooner⟩ :=
        igmpDelayingMember_still delaying positive maxresp (rand group.groupAddress)
      refine ⟨_, List.mem_cons_of_mem _ (List.mem_map_of_mem later), ?_, delaying', positive', sooner.trans soon⟩
      exact (igmpDelayingMember_groupAddress ..).trans same

theorem Due.igmpInput (due : Due addr within n) (represents : Represents n m) (dest : IpAddress) (msgtype : MsgType)
    (maxresp : UInt8) (groupAddress : IpAddress) (rand : IpAddress → Nat)
    (undisturbed : (Op.input dest msgtype maxresp groupAddress rand).Undisturbed addr) :
    Due addr within (n.igmpInput dest msgtype maxresp groupAddress rand) := by
  unfold Netif.igmpInput
  split
  · exact due
  · cases msgtype with
    | membQuery =>
      dsimp only
      split
      · exact due.delayAll ..
      · split
        · exact due.update represents (fun _ => igmpDelayingMember_groupAddress ..)
            (fun _ delaying positive => igmpDelayingMember_still delaying positive ..) _
        · exact due
    | v2MembReport =>
      obtain ⟨group, member, same, waits⟩ := due
      have other : group.groupAddress ≠ dest := fun equal => undisturbed (equal.symm.trans same)
      exact ⟨group, mem_update_of_ne member other, same, waits⟩
    | other => exact due

theorem Due.igmpJoingroupNetif (due : Due addr within n) (represents : Represents n m) (started : m.started = true)
    (addr' : IpAddress) (memory : Bool) (rand : Nat) : Due addr within (n.igmpJoingroupNetif addr' memory rand).2 := by
  unfold Netif.igmpJoingroupNetif
  split
  · exact due
  · next valid =>
    cases found : n.igmpLookforGroup addr' with
    | some group =>
      rw [lookup_found found]
      dsimp only
      rw [if_pos (represents.member group (lookfor_some found).1)]
      exact due.update (f := Group.addUse) represents (fun _ => rfl)
        (fun _ delaying positive => ⟨delaying, positive, le_rfl⟩) addr'
    | none =>
      by_cases full : mempNumIgmpGroup ≤ n.groups.length
      · rw [lookup_full found full]
        exact due
      · obtain ⟨first, next, list, -⟩ := represents.first started
        obtain ⟨group, member, same, waits⟩ := due
        have other : group.groupAddress ≠ addr' := fun equal =>
          lookfor_none found ((mem_keys_fst n).mpr ⟨group, member, equal⟩)
        rw [lookup_new found (Nat.not_le.mp full) (fun equal => valid (.inr equal)) list]
        dsimp only
        rw [if_neg (not_not.mpr rfl), if_pos rfl]
        refine ⟨group, mem_update_of_ne (mem_sendReport ?_ other memory) other, same, waits⟩
        rw [list] at member
        change group ∈ first :: _ :: next
        rcases List.mem_cons.mp member with rfl | later
        · exact List.mem_cons_self
        · exact List.mem_cons_of_mem _ (List.mem_cons_of_mem _ later)

theorem Due.igmpLeavegroupNetif (due : Due addr within n) (represents : Represents n m) {addr' : IpAddress}
    (other : addr' ≠ addr) (memory : Bool) : Due addr within (n.igmpLeavegroupNetif addr' memory).2 := by
  unfold Netif.igmpLeavegroupNetif
  split
  · exact due
  · split
    · exact due
    · next group' found =>
      split
      · obtain ⟨group, member, same, waits⟩ := due
        have kept : group ∈ (n.igmpRemoveGroup addr').groups := by
          rw [Netif.igmpRemoveGroup]
          split
          · exact member
          · next first next list =>
            rw [list] at member
            rcases List.mem_cons.mp member with rfl | later
            · exact List.mem_cons_self
            · refine List.mem_cons_of_mem _ ((List.mem_eraseP_of_neg ?_).mpr later)
              simpa [same] using other.symm
        refine ⟨group, ?_, same, waits⟩
        dsimp only
        split <;> exact kept
      · exact due.update (f := Group.dropUse) represents (fun _ => rfl)
          (fun _ delaying positive => ⟨delaying, positive, le_rfl⟩) addr'

theorem Due.igmpTmr (due : Due addr (within + 1) n) (other : addr ≠ allsystems) {memory : IpAddress → Bool}
    (buffer : memory addr = true) :
    Due addr within (n.igmpTmr memory) ∨ ∃ new, (n.igmpTmr memory).sent = new ++ n.sent ∧ .membReport addr ∈ new := by
  obtain ⟨group, member, rfl, delaying, positive, soon⟩ := due
  by_cases last : group.timer = 1
  · refine .inr ⟨_, rfl, List.mem_reverse.mpr (List.mem_flatMap.mpr ⟨group, member, ?_⟩)⟩
    have due : group.timer > 0 := positive
    rw [buffer, Group.tmr, if_pos due]
    dsimp only
    rw [if_pos (by omega), Group.igmpTimeout, if_pos ⟨delaying, other⟩]
    exact List.mem_singleton.mpr rfl
  · refine .inl ⟨_, List.mem_map_of_mem member, ?_⟩
    have due : group.timer > 0 := positive
    rw [Group.tmr, if_pos due]
    dsimp only
    rw [if_neg (by omega)]
    exact ⟨rfl, delaying, by dsimp only; omega, by dsimp only; omega⟩

theorem lookup_sent (addr : IpAddress) (n : Netif) : (n.igmpLookupGroup addr).2.sent = n.sent := by
  unfold Netif.igmpLookupGroup
  split
  · rfl
  · split
    · rfl
    · dsimp only
      split <;> rfl

theorem sendReport_sent (addr : IpAddress) (memory : Bool) (n : Netif) : n.sent <:+ (n.sendReport addr memory).sent := by
  cases memory with
  | true => exact List.suffix_cons ..
  | false => exact List.suffix_rfl

theorem sent_suffix (n : Netif) (o : Op) : n.sent <:+ (n.call o).2.sent := by
  cases o with
  | start =>
    have kept := lookup_sent allsystems n
    rw [Netif.call, Netif.igmpStart]
    cases result : n.igmpLookupGroup allsystems with
    | mk found n' =>
      rw [result] at kept
      cases found with
      | none => exact kept ▸ List.suffix_rfl
      | some group => exact kept ▸ List.suffix_rfl
  | stop =>
    have kept := (foldl_igmpMacFilter n.groups { n with groups := [] }).2.2
    exact kept ▸ List.suffix_rfl
  | reportGroups rand =>
    change n.sent <:+ (n.delayAll _ rand).sent
    rw [Netif.delayAll]
    split <;> exact List.suffix_rfl
  | input dest msgtype maxresp groupAddress rand =>
    change n.sent <:+ (n.igmpInput ..).sent
    unfold Netif.igmpInput Netif.delayAll
    split
    · exact List.suffix_rfl
    · cases msgtype with
      | membQuery =>
        dsimp only
        split
        · split <;> exact List.suffix_rfl
        · split <;> exact List.suffix_rfl
      | v2MembReport | other => exact List.suffix_rfl
  | join addr memory rand =>
    have kept := lookup_sent addr n
    rw [Netif.call, Netif.igmpJoingroupNetif]
    split
    · exact List.suffix_rfl
    · cases result : n.igmpLookupGroup addr with
      | mk found n' =>
        rw [result] at kept
        cases found with
        | none => exact kept ▸ List.suffix_rfl
        | some group =>
          dsimp only at kept ⊢
          split
          · exact kept ▸ List.suffix_rfl
          · rw [← kept]
            split
            · exact sendReport_sent addr memory (n'.igmpMacFilter addr true)
            · exact sendReport_sent addr memory n'
  | leave addr memory =>
    have kept := (igmpRemoveGroup_rest addr n).2.2
    rw [Netif.call, Netif.igmpLeavegroupNetif]
    split
    · exact List.suffix_rfl
    · split
      · exact List.suffix_rfl
      · split
        · dsimp only
          rw [← kept]
          split
          · exact List.suffix_cons ..
          · exact List.suffix_rfl
        · exact List.suffix_rfl
  | tmr memory => exact ⟨_, rfl⟩

theorem Due.call (due : Due addr within n) (represents : Represents n m) {o : Op} (sane : Sane n o)
    (undisturbed : o.Undisturbed addr) (still : o.isTmr = false) : Due addr within (n.call o).2 := by
  cases o with
  | start =>
    obtain ⟨group, member, -⟩ := due
    rw [show n.groups = [] from sane] at member
    cases member
  | stop => exact undisturbed.elim
  | reportGroups rand => exact due.delayAll ..
  | input dest msgtype maxresp groupAddress rand =>
    exact due.igmpInput represents dest msgtype maxresp groupAddress rand undisturbed
  | join addr' memory rand =>
    exact due.igmpJoingroupNetif represents (represents.started_of_groups sane.1) addr' memory rand
  | leave addr' memory => exact due.igmpLeavegroupNetif represents undisturbed memory
  | tmr memory => cases still

/-! ## A run -/

theorem run_suffix (ops : List Op) (n : Netif) : n.sent <:+ (ops.foldl Netif.step n).sent := by
  induction ops generalizing n with
  | nil => exact List.suffix_rfl
  | cons o ops ih =>
    have one : n.sent <:+ (n.step o).sent := by
      rw [Netif.step]
      split
      · exact List.suffix_rfl
      · exact sent_suffix n o
    exact one.trans (ih (n.step o))

/-- As many calls of `igmp_tmr` as it may take bring the report. -/
theorem Due.run (due : Due addr within n) (represents : Represents n m) (other : addr ≠ allsystems) (ops : List Op)
    (sane : Run.Allowed Sane Netif.step n ops) (undisturbed : ∀ o ∈ ops, o.Undisturbed addr)
    (enough : within ≤ ops.countP Op.isTmr) :
    ∃ new, (ops.foldl Netif.step n).sent = new ++ n.sent ∧ .membReport addr ∈ new := by
  induction ops generalizing n m within with
  | nil =>
    obtain ⟨group, -, -, -, positive, soon⟩ := due
    rw [List.countP_nil] at enough
    omega
  | cons o ops ih =>
    obtain ⟨allowed, later⟩ := sane
    obtain ⟨now, undisturbed⟩ := List.forall_mem_cons.mp undisturbed
    have stepped : n.step o = (n.call o).2 := if_neg (by simp [represents.running])
    have next := stepped ▸ (represents.call o allowed).2
    have rest (within' : Nat) (due' : Due addr within' (n.step o)) (enough' : within' ≤ ops.countP Op.isTmr) :
        ∃ new, ((o :: ops).foldl Netif.step n).sent = new ++ n.sent ∧ .membReport addr ∈ new := by
      obtain ⟨new, sent, member⟩ := ih due' next later undisturbed enough'
      obtain ⟨earlier, before⟩ := sent_suffix n o
      refine ⟨new ++ earlier, ?_, List.mem_append_left _ member⟩
      rw [List.foldl_cons, sent, stepped, ← before, List.append_assoc]
    cases timer : o.isTmr with
    | false =>
      rw [List.countP_cons_of_neg (by simp [timer])] at enough
      exact rest within (stepped ▸ due.call represents allowed now timer) enough
    | true =>
      rw [List.countP_cons_of_pos timer] at enough
      cases o with
      | tmr memory =>
        have due' : Due addr (within - 1 + 1) n := by
          obtain ⟨group, member, same, delaying, positive, soon⟩ := due
          exact ⟨group, member, same, delaying, positive, by omega⟩
        rcases due'.igmpTmr other now with closer | ⟨new, sent, member⟩
        · exact rest (within - 1) (stepped ▸ closer) (by omega)
        · obtain ⟨more, after⟩ := run_suffix ops (n.step (.tmr memory))
          refine ⟨more ++ new, ?_, List.mem_append_right _ member⟩
          rw [List.foldl_cons, ← after, stepped, List.append_assoc]
          exact congrArg (more ++ ·) sent
      | start | stop | reportGroups | input | join | leave => cases timer

theorem allowed_append {before ops : List Op} (sane : Run.Allowed Sane Netif.step n (before ++ ops)) :
    Run.Allowed Sane Netif.step n before ∧ Run.Allowed Sane Netif.step (before.foldl Netif.step n) ops := by
  induction before generalizing n with
  | nil => exact ⟨trivial, sane⟩
  | cons o before ih =>
    obtain ⟨first, later⟩ := ih sane.2
    exact ⟨⟨sane.1, first⟩, later⟩

theorem Represents.other (represents : Represents n m) (joined : addr ∈ m.joined) : addr ≠ allsystems := by
  rintro rfl
  obtain ⟨use, next, keys, counts⟩ := represents.started (represents.started_of_joined joined)
  exact counts.not_allsystems (counts.mem_iff.mpr joined)

/-- A general query makes every group that is joined report. -/
theorem Represents.queried (represents : Represents n m) (joined : addr ∈ m.joined) (maxresp : UInt8)
    (rand : IpAddress → Nat) :
    Due addr (if maxresp = 0 then igmpV1DelayingMemberTmr else maxresp.toNat)
      (n.igmpInput allsystems .membQuery maxresp 0 rand) := by
  have other := represents.other joined
  obtain ⟨group, member, rfl⟩ := (mem_keys_fst n).mp ((represents.mem_iff other).mpr joined)
  have known := represents.member group member
  have positive : 0 < if maxresp = 0 then igmpV1DelayingMemberTmr else maxresp.toNat := by
    split
    · decide
    · next asked => exact UInt8.lt_iff_toNat_lt.mp (UInt8.pos_iff_ne_zero.mpr asked)
  obtain ⟨first, next, list, address⟩ := represents.first (represents.started_of_joined joined)
  have all : n.igmpLookforGroup allsystems = some first := by
    rw [Netif.igmpLookforGroup, list]
    exact List.find?_cons_of_pos (decide_eq_true address)
  unfold Netif.igmpInput
  rw [all]
  dsimp only
  generalize (if maxresp = 0 then igmpV1DelayingMemberTmr else maxresp.toNat) = within at positive ⊢
  rw [if_pos ⟨rfl, rfl⟩, Netif.delayAll, list]
  rw [list] at member
  rcases List.mem_cons.mp member with rfl | later
  · exact absurd address other
  · have waits := igmpDelayingMember_due known positive (rand group.groupAddress)
    refine ⟨_, List.mem_cons_of_mem _ (List.mem_map_of_mem later), ?_, waits⟩
    exact igmpDelayingMember_groupAddress ..

/-- Whoever joins or leaves other groups and whatever is received meanwhile, a general query is answered for a group that
is joined within the time the query gives, unless the group is left or reported by another host. -/
theorem query_answered (before ops : List Op) (maxresp : UInt8) (rand : IpAddress → Nat) (addr : IpAddress)
    (sane : Run.Allowed Sane Netif.step {} (before ++ .input allsystems .membQuery maxresp 0 rand :: ops))
    (joined : addr ∈ (Members.run before).joined) (undisturbed : ∀ o ∈ ops, o.Undisturbed addr)
    (enough : (if maxresp = 0 then igmpV1DelayingMemberTmr else maxresp.toNat) ≤ ops.countP Op.isTmr) :
    ∃ new, ((before ++ .input allsystems .membQuery maxresp 0 rand :: ops).foldl Netif.step {}).sent =
        new ++ (before.foldl Netif.step {}).sent ∧
      .membReport addr ∈ new := by
  obtain ⟨first, -, later⟩ := allowed_append sane
  have represents := (Represents.boot.run before first).2
  rw [List.foldl_append, List.foldl_cons]
  generalize before.foldl Netif.step {} = n at represents later ⊢
  have stepped : n.step (.input allsystems .membQuery maxresp 0 rand) =
      n.igmpInput allsystems .membQuery maxresp 0 rand := if_neg (by simp [represents.running])
  rw [stepped] at later ⊢
  have due := represents.queried joined maxresp rand
  have asked := represents.igmpInput allsystems .membQuery maxresp 0 rand
  obtain ⟨new, sent, member⟩ := due.run asked (represents.other joined) ops later undisturbed enough
  obtain ⟨earlier, kept⟩ := sent_suffix n (.input allsystems .membQuery maxresp 0 rand)
  refine ⟨new ++ earlier, ?_, List.mem_append_left _ member⟩
  rw [sent, List.append_assoc]
  exact congrArg (new ++ ·) kept.symm

/-- A query for an answer within 300 ms, while another host is heard. -/
def asked : List Op :=
  [.tmr fun _ => true, .input 0xfc0000e0 .v2MembReport 0 0xfc0000e0 fun _ => 0, .tmr fun _ => true, .tmr fun _ => true]

set_option maxRecDepth 4000 in
theorem query_answered_asked :
    ∃ new, ((joinedTwice ++ .input allsystems .membQuery 3 0 (fun _ => 8) :: asked).foldl Netif.step {}).sent =
        new ++ (joinedTwice.foldl Netif.step {}).sent ∧
      .membReport 0xfb0000e0 ∈ new :=
  query_answered joinedTwice asked 3 (fun _ => 8) 0xfb0000e0 (by decide) (by decide)
    (by simp [asked, Op.Undisturbed]) (by decide)

end QNEthernet.Igmp
