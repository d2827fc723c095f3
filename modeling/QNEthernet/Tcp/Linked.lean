import QNEthernet.Tcp.Change

/-! States, blocks and the list of connections refer to each other: what every change keeps, and what
the safe and the clean ones keep in addition. -/

namespace QNEthernet.Tcp

open Lwip World

/-- States and blocks refer to each other, and the list has the holders whose state is to remove
them, in the order they were made. -/
structure Linked (w : World) : Prop where
  owner : ∀ h state, (w.holder h).state = some state →
    state.pcb < w.nextPcb ∧ state.pcb ∉ w.listenPool ∧ h < w.nextHolder ∧
      (w.pcb state.pcb).callbackArg = .holder h ∧ (w.pcb state.pcb).errf ∧ (w.pcb state.pcb).recv
  arg : ∀ p h, (w.pcb p).callbackArg = .holder h →
    ∃ state, (w.holder h).state = some state ∧ state.pcb = p
  handshake : ∀ p, (w.pcb p).state = .synRcvd →
    (w.pcb p).rxClosed = false ∧ ∀ h, (w.pcb p).callbackArg ≠ .holder h
  sorted : w.connections.Pairwise (· < ·)
  listed : ∀ h, h ∈ w.connections ↔ ∃ state, (w.holder h).state = some state ∧ state.removeFunc

variable {safe clean : Prop} {w w' : World}

theorem Linked.unique (linked : Linked w) {h h' : Nat} {state state' : ConnectionState}
    (there : (w.holder h).state = some state) (there' : (w.holder h').state = some state')
    (same : state.pcb = state'.pcb) : h = h' := by
  have first := (linked.owner h state there).2.2.2.1
  have second := (linked.owner h' state' there').2.2.2.1
  rw [same, second] at first
  injection first with equal
  exact equal.symm

theorem Linked.unattached (linked : Linked w) {p : Nat}
    (free : ∀ h, (w.pcb p).callbackArg ≠ .holder h) {h : Nat} {state : ConnectionState}
    (there : (w.holder h).state = some state) : state.pcb ≠ p := by
  intro equal
  subst equal
  exact free h (linked.owner h state there).2.2.2.1

theorem Linked.of_same (linked : Linked w)
    (pcb : ∀ h, (w'.holder h).state.map (·.pcb) = (w.holder h).state.map (·.pcb))
    (removeFunc : ∀ h, (w'.holder h).state.map (·.removeFunc) =
      (w.holder h).state.map (·.removeFunc))
    (args : ∀ p h, (w'.pcb p).callbackArg = .holder h ↔ (w.pcb p).callbackArg = .holder h)
    (registered : ∀ p h, (w.pcb p).callbackArg = .holder h →
      (w'.pcb p).errf = (w.pcb p).errf ∧ (w'.pcb p).recv = (w.pcb p).recv)
    (handshake : ∀ p, (w'.pcb p).state = .synRcvd →
      (w'.pcb p).rxClosed = false ∧ ∀ h, (w'.pcb p).callbackArg ≠ .holder h)
    (next : w.nextPcb ≤ w'.nextPcb) (nextHolder : w'.nextHolder = w.nextHolder)
    (listenPool : ∀ l ∈ w'.listenPool, l ∈ w.listenPool ∨ w.nextPcb ≤ l)
    (connections : w'.connections = w.connections) : Linked w' where
  owner := by
    intro h state there
    have mapped := pcb h
    rw [there] at mapped
    rcases Option.map_eq_some_iff.mp mapped.symm with ⟨old, before, same⟩
    have owner := linked.owner h old before
    have same : old.pcb = state.pcb := same
    rw [same] at owner
    rcases owner with ⟨below, notListening, born, arg, errf, recv⟩
    have registered := registered _ h arg
    refine ⟨lt_of_lt_of_le below next, ?_, nextHolder ▸ born, (args _ h).mpr arg, ?_, ?_⟩
    · intro member
      rcases listenPool _ member with old | new
      · exact notListening old
      · omega
    · rw [registered.1]
      exact errf
    · rw [registered.2]
      exact recv
  arg := by
    intro p h arg
    rcases linked.arg p h ((args p h).mp arg) with ⟨old, before, same⟩
    have mapped := pcb h
    rw [before] at mapped
    rcases Option.map_eq_some_iff.mp mapped with ⟨state, there, same'⟩
    exact ⟨state, there, same'.trans same⟩
  handshake := handshake
  sorted := connections ▸ linked.sorted
  listed := by
    intro h
    rw [connections, linked.listed h]
    have mapped := removeFunc h
    cases before : (w.holder h).state <;> cases after : (w'.holder h).state <;>
      simp_all

theorem Linked.below (linked : Linked w) {h : Nat} (member : h ∈ w.connections) :
    h < w.nextHolder := by
  rcases (linked.listed h).mp member with ⟨state, there, -⟩
  exact (linked.owner h state there).2.2.1

theorem Linked.unborn (linked : Linked w) : (w.holder w.nextHolder).state = none := by
  cases there : (w.holder w.nextHolder).state with
  | none => rfl
  | some state => exact absurd (linked.owner _ state there).2.2.1 (lt_irrefl _)

theorem Linked.attach (linked : Linked w) {p : Nat} {x : ConnectionHolder} {q : TcpPcb}
    {state : ConnectionState} (below : p < w.nextPcb) (notListening : p ∉ w.listenPool)
    (free : ∀ h, (w.pcb p).callbackArg ≠ .holder h)
    (holder : w'.holder = Function.update w.holder w.nextHolder x) (there : x.state = some state)
    (block : state.pcb = p) (pcb : w'.pcb = Function.update w.pcb p q)
    (arg : q.callbackArg = .holder w.nextHolder) (errf : q.errf = true) (recv : q.recv = true)
    (open_ : q.state ≠ .synRcvd) (next : w'.nextPcb = w.nextPcb)
    (nextHolder : w'.nextHolder = w.nextHolder + 1) (listenPool : w'.listenPool = w.listenPool)
    (connections : w'.connections =
      if state.removeFunc then w.connections ++ [w.nextHolder] else w.connections) : Linked w' where
  owner := by
    intro h s present
    rw [next, listenPool, nextHolder, pcb]
    by_cases new : h = w.nextHolder
    · subst new
      rw [holder, Function.update_self, there] at present
      cases present
      rw [block, Function.update_self]
      exact ⟨below, notListening, Nat.lt_succ_self _, arg, errf, recv⟩
    · rw [holder, Function.update_of_ne new] at present
      rcases linked.owner h s present with ⟨below, notListening, born, registered⟩
      rw [Function.update_of_ne (linked.unattached free present)]
      exact ⟨below, notListening, Nat.lt_succ_of_lt born, registered⟩
  arg := by
    intro p' h argument
    rw [pcb] at argument
    rw [holder]
    by_cases same : p' = p
    · subst same
      rw [Function.update_self, arg] at argument
      injection argument with new
      subst new
      rw [Function.update_self]
      exact ⟨state, there, block⟩
    · rw [Function.update_of_ne same] at argument
      rcases linked.arg p' h argument with ⟨s, present, block'⟩
      have old : h ≠ w.nextHolder := (linked.owner h s present).2.2.1.ne
      rw [Function.update_of_ne old]
      exact ⟨s, present, block'⟩
  handshake := by
    intro p'
    rw [pcb]
    by_cases same : p' = p
    · subst same
      rw [Function.update_self]
      exact fun syn => absurd syn open_
    · rw [Function.update_of_ne same]
      exact linked.handshake p'
  sorted := by
    rw [connections]
    split
    · rw [List.pairwise_append]
      refine ⟨linked.sorted, List.pairwise_singleton _ _, fun h member last new => ?_⟩
      rw [List.mem_singleton.mp new]
      exact linked.below member
    · exact linked.sorted
  listed := by
    intro h
    rw [connections, holder]
    by_cases new : h = w.nextHolder
    · subst new
      have unlisted : w.nextHolder ∉ w.connections := fun member =>
        absurd (linked.below member) (lt_irrefl _)
      rw [Function.update_self, there]
      by_cases remove : state.removeFunc <;> simp [remove, unlisted]
    · rw [Function.update_of_ne new, ← linked.listed h]
      by_cases remove : state.removeFunc <;> simp [remove, new]

theorem Linked.detach (linked : Linked w) (h : Nat) : Linked (w.detach h) := by
  cases there : (w.holder h).state with
  | none => rwa [detach_none there]
  | some state =>
      rw [detach_some there]
      have other {h' : Nat} {s : ConnectionState} (ne : h' ≠ h)
          (present : (w.holder h').state = some s) : s.pcb ≠ state.pcb := fun same =>
        ne (linked.unique present there same)
      have nodup : w.connections.Nodup := linked.sorted.imp fun less => less.ne
      constructor
      · intro h' s present
        by_cases same : h' = h
        · subst same
          simp at present
        · simp only [Function.update_of_ne same] at present
          simp only [Function.update_of_ne (other same present)]
          exact linked.owner h' s present
      · intro p h' argument
        by_cases same : p = state.pcb
        · subst same
          simp at argument
        · simp only [Function.update_of_ne same] at argument
          rcases linked.arg p h' argument with ⟨s, present, block⟩
          have ne : h' ≠ h := by
            intro equal
            subst equal
            rw [there] at present
            cases present
            exact same block.symm
          simp only [Function.update_of_ne ne]
          exact ⟨s, present, block⟩
      · intro p
        by_cases same : p = state.pcb
        · subst same
          simpa using fun syn => (linked.handshake _ syn).1
        · simp only [Function.update_of_ne same]
          exact linked.handshake p
      · dsimp only
        split
        · exact linked.sorted.sublist List.erase_sublist
        · exact linked.sorted
      · intro h'
        dsimp only
        by_cases same : h' = h
        · subst same
          have listed := linked.listed h'
          by_cases remove : state.removeFunc
          · simp [remove, nodup.not_mem_erase]
          · simp_all
        · rw [Function.update_of_ne same, ← linked.listed h']
          by_cases remove : state.removeFunc
          · simp [remove, List.mem_erase_of_ne same]
          · simp [remove]

theorem Linked.addConnection (linked : Linked w) {h : Nat} {state : ConnectionState}
    (last : h + 1 = w.nextHolder) (there : (w.holder h).state = some state)
    (unlisted : state.removeFunc = false) : Linked (w.addConnection h) := by
  rw [addConnection_eq there]
  have absent : h ∉ w.connections := by
    intro member
    rcases (linked.listed h).mp member with ⟨s, present, remove⟩
    rw [there] at present
    cases present
    rw [unlisted] at remove
    exact absurd remove (by simp)
  constructor
  · intro h' s present
    by_cases same : h' = h
    · subst same
      simp only [Function.update_self, Option.some.injEq] at present
      subst present
      exact linked.owner h' state there
    · simp only [Function.update_of_ne same] at present
      exact linked.owner h' s present
  · intro p h' argument
    rcases linked.arg p h' argument with ⟨s, present, block⟩
    by_cases same : h' = h
    · subst same
      rw [there] at present
      cases present
      exact ⟨{ state with removeFunc := true }, by simp, block⟩
    · exact ⟨s, by simpa [Function.update_of_ne same] using present, block⟩
  · exact linked.handshake
  · rw [List.pairwise_append]
    refine ⟨linked.sorted, List.pairwise_singleton _ _, fun h' member new equal => ?_⟩
    rw [List.mem_singleton.mp equal]
    have below := linked.below member
    have other : h' ≠ h := fun same => absent (same ▸ member)
    omega
  · intro h'
    by_cases same : h' = h
    · subst same
      simp
    · simp only [Function.update_of_ne same, ← linked.listed h', List.mem_append,
        List.mem_singleton, same, or_false]

theorem Change.linked (change : Change safe clean w w') (pools : Pools w) (linked : Linked w) :
    Linked w' := by
  have below (p h : Nat) (arg : (w.pcb p).callbackArg = .holder h) : p < w.nextPcb := by
    rcases linked.arg p h arg with ⟨state, there, rfl⟩
    exact (linked.owner h state there).1
  -- A new block is no holder's, and no holder has had it before.
  have args {q : TcpPcb} (arg : ∀ h, q.callbackArg ≠ .holder h) (p h : Nat) :
      (Function.update w.pcb w.nextPcb q p).callbackArg = .holder h ↔ (w.pcb p).callbackArg = .holder h := by
    by_cases new : p = w.nextPcb
    · subst new
      simp only [Function.update_self, arg h, false_iff]
      exact fun old => absurd (below _ h old) (lt_irrefl _)
    · rw [Function.update_of_ne new]
  have registered (q : TcpPcb) (p h : Nat) (old : (w.pcb p).callbackArg = .holder h) :
      Function.update w.pcb w.nextPcb q p = w.pcb p := Function.update_of_ne (below p h old).ne _ _
  cases change with
  | flags misuse nullArg client server kept =>
      exact ⟨linked.owner, linked.arg, linked.handshake, linked.sorted, linked.listed⟩
  | event e bytes =>
      exact ⟨linked.owner, linked.arg, linked.handshake, linked.sorted, linked.listed⟩
  | pcb p q arg errf recv port follows rxClosed =>
      refine linked.of_same (fun _ => rfl) (fun _ => rfl) ?_ ?_ ?_ (le_refl _) rfl
        (fun l member => .inl member) rfl
      · intro p' h
        by_cases same : p' = p
        · simp [setPcb, same, arg]
        · simp [setPcb, Function.update_of_ne same]
      · intro p' h _
        by_cases same : p' = p
        · simp [setPcb, same, errf, recv]
        · simp [setPcb, Function.update_of_ne same]
      · intro p'
        by_cases same : p' = p
        · subst same
          simp only [setPcb, Function.update_self, arg]
          intro syn
          rw [syn] at follows
          rw [rxClosed syn]
          exact linked.handshake p' (TcpState.follows_synRcvd follows)
        · simp only [setPcb, Function.update_of_ne same]
          exact linked.handshake p'
  | free p unused =>
      exact ⟨linked.owner, linked.arg, linked.handshake, linked.sorted, linked.listed⟩
  | closeListener l stopped =>
      have same (p : Nat) : ((w.tcpListenClosed l).pcb p).callbackArg = (w.pcb p).callbackArg ∧
          ((w.tcpListenClosed l).pcb p).errf = (w.pcb p).errf ∧
          ((w.tcpListenClosed l).pcb p).recv = (w.pcb p).recv ∧
          ((w.tcpListenClosed l).pcb p).state = (w.pcb p).state ∧
          ((w.tcpListenClosed l).pcb p).rxClosed = (w.pcb p).rxClosed := by
        simp only [tcpListenClosed]
        split <;> exact ⟨rfl, rfl, rfl, rfl, rfl⟩
      refine linked.of_same (fun _ => rfl) (fun _ => rfl) ?_ ?_ ?_ (le_refl _) rfl
        (fun l' member => .inl (List.mem_of_mem_erase member)) rfl
      · intro p h
        rw [(same p).1]
      · intro p _ _
        exact ⟨(same p).2.1, (same p).2.2.1⟩
      · intro p
        rw [(same p).1, (same p).2.2.2.1, (same p).2.2.2.2]
        exact linked.handshake p
  | holder h x accepted pcb removeFunc =>
      refine linked.of_same ?_ ?_ (fun _ _ => Iff.rfl) (fun _ _ _ => ⟨rfl, rfl⟩) linked.handshake
        (le_refl _) rfl (fun l member => .inl member) rfl
      · intro h'
        by_cases same : h' = h
        · simp [setHolder, same, pcb]
        · simp [setHolder, Function.update_of_ne same]
      · intro h'
        by_cases same : h' = h
        · simp [setHolder, same, removeFunc]
        · simp [setHolder, Function.update_of_ne same]
  | detach h => exact linked.detach h
  | alloc q place free room arg rxOpen =>
      refine linked.of_same (fun _ => rfl) (fun _ => rfl) (args arg) ?_ ?_ (Nat.le_succ _) rfl
        (fun l member => .inl member) rfl
      · intro p h old
        simp only [setPcb, newBlock_pcb, registered q p h old, and_self]
      · intro p
        by_cases new : p = w.nextPcb
        · subst new
          simpa [setPcb, rxOpen] using fun _ => arg
        · simpa [setPcb, Function.update_of_ne new] using linked.handshake p
  | listen q room state arg =>
      refine linked.of_same (fun _ => rfl) (fun _ => rfl) (args arg) ?_ ?_ (Nat.le_succ _) rfl ?_ rfl
      · intro p h old
        simp only [setPcb, registered q p h old, and_self]
      · intro p
        by_cases new : p = w.nextPcb
        · subst new
          simp [setPcb, state]
        · simpa [setPcb, Function.update_of_ne new] using linked.handshake p
      · intro l member
        rcases List.mem_cons.mp member with rfl | old
        · exact .inr (le_refl _)
        · exact .inl old
  | stopListening l =>
      exact ⟨linked.owner, linked.arg, linked.handshake, linked.sorted, linked.listed⟩
  | make p x there free open_ accepted =>
      rw [makeHolder_eq x there]
      have notListening : p ∉ w.listenPool := fun member => (pools.listening p member).2 there
      exact linked.attach (pools.poolBelow p there) notListening free rfl rfl rfl rfl rfl rfl rfl
        open_ rfl rfl rfl rfl
  | add h last accepted state =>
      rcases state with ⟨state, there, unlisted⟩
      exact linked.addConnection last there unlisted
  | arrive p finOk there handshake =>
      rw [arrive_eq finOk there]
      have notListening : p ∉ w.listenPool := fun member => (pools.listening p member).2 there
      exact linked.attach (pools.poolBelow p there) notListening
        (linked.handshake p handshake).2 rfl rfl rfl rfl rfl rfl rfl (by simp) rfl rfl rfl rfl

/-- What every run has, and what it has as long as it is safe or clean. -/
structure Good (safe clean : Prop) (w : World) : Prop where
  pools : Pools w
  linked : Linked w
  alive : safe → ∀ h state, (w.holder h).state = some state → state.pcb ∈ w.pool
  unmisused : clean → w.misuse = false

theorem Change.alive (change : Change safe clean w w') (secure : safe)
    (alive : ∀ h state, (w.holder h).state = some state → state.pcb ∈ w.pool) :
    ∀ h state, (w'.holder h).state = some state → state.pcb ∈ w'.pool := by
  cases change with
  | flags misuse nullArg client server kept => exact alive
  | event e bytes => exact alive
  | pcb p q arg errf recv port follows rxClosed => exact alive
  | free p unused =>
      intro h state there
      have other : state.pcb ≠ p := fun same => unused secure ⟨h, state, there, same⟩
      exact (List.mem_erase_of_ne other).mpr (alive h state there)
  | closeListener l stopped => exact alive
  | holder h x accepted pcb removeFunc =>
      intro h' state there
      by_cases same : h' = h
      · subst same
        simp only [setHolder, Function.update_self] at there
        rw [there] at pcb
        rcases Option.map_eq_some_iff.mp pcb.symm with ⟨old, before, block⟩
        rw [← show old.pcb = state.pcb from block]
        exact alive h' old before
      · simp only [setHolder, Function.update_of_ne same] at there
        exact alive h' state there
  | detach h =>
      cases there : (w.holder h).state with
      | none => rwa [detach_none there]
      | some old =>
          rw [detach_some there]
          intro h' state there'
          by_cases same : h' = h
          · subst same
            simp at there'
          · simp only [Function.update_of_ne same] at there'
            exact alive h' state there'
  | alloc q place free room arg rxOpen => exact fun h state there => List.mem_cons_of_mem _ (alive h state there)
  | listen q room state arg => exact alive
  | stopListening l => exact alive
  | make p x there free open_ accepted =>
      rw [makeHolder_eq x there]
      intro h state present
      by_cases new : h = w.nextHolder
      · subst new
        simp only [Function.update_self, Option.some.injEq] at present
        subst present
        exact there
      · simp only [Function.update_of_ne new] at present
        exact alive h state present
  | add h last accepted state =>
      rcases state with ⟨old, there, -⟩
      rw [addConnection_eq there]
      intro h' state present
      by_cases same : h' = h
      · subst same
        simp only [Function.update_self, Option.some.injEq] at present
        subst present
        exact alive h' old there
      · simp only [Function.update_of_ne same] at present
        exact alive h' state present
  | arrive p finOk there handshake =>
      rw [arrive_eq finOk there]
      intro h state present
      by_cases new : h = w.nextHolder
      · subst new
        simp only [Function.update_self, Option.some.injEq] at present
        subst present
        exact there
      · simp only [Function.update_of_ne new] at present
        exact alive h state present

theorem Change.misuse (change : Change safe clean w w') (proper : clean) : w'.misuse = w.misuse := by
  cases change with
  | flags misuse nullArg client server kept => exact kept proper
  | make p x there free open_ accepted => rw [makeHolder_eq x there]
  | arrive p finOk there handshake => rw [arrive_eq finOk there]
  | _ => rfl

theorem Change.good (change : Change safe clean w w') (good : Good safe clean w) :
    Good safe clean w' where
  pools := change.pools good.pools
  linked := change.linked good.pools good.linked
  alive := fun secure => change.alive secure (good.alive secure)
  unmisused := fun proper => (change.misuse proper).trans (good.unmisused proper)

theorem Changes.good (changes : Changes safe clean w w') (good : Good safe clean w) :
    Good safe clean w' := by
  induction changes with
  | refl => exact good
  | tail _ change ih => exact change.good ih

theorem Good.attached (good : Good safe clean w) {p h : Nat}
    (arg : (w.pcb p).callbackArg = .holder h) : w.Attached p := by
  rcases good.linked.arg p h arg with ⟨state, there, block⟩
  exact ⟨h, state, there, block⟩

theorem Good.registered (good : Good safe clean w) {p : Nat} (attached : w.Attached p) :
    ∃ h, (w.pcb p).callbackArg = .holder h ∧ (w.pcb p).errf = true ∧ (w.pcb p).recv = true := by
  rcases attached with ⟨h, state, there, rfl⟩
  have owner := good.linked.owner h state there
  exact ⟨h, owner.2.2.2⟩

end QNEthernet.Tcp
