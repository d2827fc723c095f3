import QNEthernet.Udp.Queue

/-! Which object holds which control block: the invariant of runs without moves, and the ways in
which one object and one block change. -/

namespace QNEthernet.Udp

open Internal Lwip

structure Ownership (w : World) : Prop where
  held : ∀ p, (w.pcbs p).isSome → ∃! o, o ∈ w.live ∧ (w.obj o).pcb = some p
  registered : ∀ p q, w.pcbs p = some q → ∀ o ∈ w.live, (w.obj o).pcb = some p →
    q.recvArg = if (w.obj o).listening then some o else none
  removedOnce : w.removed.Nodup
  removedFree : ∀ p ∈ w.removed, ∀ o ∈ w.live, (w.obj o).pcb ≠ some p
  sent : ∀ entry ∈ w.sent, entry.2 = true
  queue : ∀ o ∈ w.live, 1 ≤ (w.obj o).inBuf.capacity ∧ (w.obj o).inBuf.size ≤ (w.obj o).inBuf.capacity

/-- Allocated blocks and held blocks are the same, and only listening objects are registered. -/
structure Held (w : World) : Prop where
  owner : ∀ p q, w.pcbs p = some q → ∃ o ∈ w.live, (w.obj o).pcb = some p ∧
    q.recvArg = if (w.obj o).listening then some o else none
  allocated : ∀ o ∈ w.live, ∀ p, (w.obj o).pcb = some p → (w.pcbs p).isSome
  unique : ∀ o ∈ w.live, ∀ o' ∈ w.live, ∀ p,
    (w.obj o).pcb = some p → (w.obj o').pcb = some p → o = o'
  bound : ∀ o ∈ w.live, (w.obj o).listening = true → (w.obj o).pcb ≠ none

/-- The invariant of runs without moves. -/
structure Owned (w : World) : Prop extends Held w where
  liveNodup : w.live.Nodup
  fresh : ∀ p, w.nextPcb ≤ p → w.pcbs p = none
  removedNodup : w.removed.Nodup
  removedGone : ∀ p ∈ w.removed, p < w.nextPcb ∧ w.pcbs p = none
  sentAllocated : ∀ entry ∈ w.sent, entry.2 = true
  queueWf : ∀ o ∈ w.live, (w.obj o).inBuf.WF

theorem Held.update {w w' : World} (held : Held w) (o : ObjId) (p : PcbId) (u : EthernetUDP)
    (q : Option UdpPcb) (pcbs : w'.pcbs = Function.update w.pcbs p q)
    (obj : w'.obj = Function.update w.obj o u) (lives : w'.live = w.live) (live : o ∈ w.live)
    (only : ∀ o' ∈ w.live, (w.obj o').pcb = some p → o' = o)
    (mine : ∀ p', (w.obj o).pcb = some p' → p' = p) (pcb : u.pcb = q.map fun _ => p)
    (arg : ∀ r, q = some r → r.recvArg = if u.listening then some o else none)
    (bound : u.listening = true → u.pcb ≠ none) : Held w' := by
  have other : ∀ p', p' ≠ p → w'.pcbs p' = w.pcbs p' := by
    intro p' different
    rw [pcbs, Function.update_of_ne different]
  have self : w'.pcbs p = q := by rw [pcbs, Function.update_self]
  have same : ∀ o', o' ≠ o → w'.obj o' = w.obj o' := by
    intro o' different
    rw [obj, Function.update_of_ne different]
  have target : w'.obj o = u := by rw [obj, Function.update_self]
  have holds : ∀ p', u.pcb = some p' → p' = p ∧ q.isSome := by
    intro p' has
    rw [pcb] at has
    cases q with
    | none => cases has
    | some r => exact ⟨(Option.some.inj has).symm, rfl⟩
  constructor
  · intro p' r found
    rw [lives]
    by_cases changed : p' = p
    · subst changed
      rw [self] at found
      refine ⟨o, live, ?_⟩
      rw [target]
      exact ⟨by rw [pcb, found]; rfl, arg r found⟩
    · rw [other p' changed] at found
      obtain ⟨o', live', pcb', arg'⟩ := held.owner p' r found
      have different : o' ≠ o := by
        intro equal
        subst equal
        exact changed (mine p' pcb')
      refine ⟨o', live', ?_⟩
      rw [same o' different]
      exact ⟨pcb', arg'⟩
  · rw [lives]
    intro o' live' p' pcb'
    by_cases different : o' = o
    · rw [different, target] at pcb'
      obtain ⟨rfl, present⟩ := holds p' pcb'
      rw [self]
      exact present
    · rw [same o' different] at pcb'
      have changed : p' ≠ p := by
        intro equal
        subst equal
        exact different (only o' live' pcb')
      rw [other p' changed]
      exact held.allocated o' live' p' pcb'
  · rw [lives]
    have stray : ∀ o' ∈ w.live, o' ≠ o → ∀ p', u.pcb = some p' → (w.obj o').pcb ≠ some p' := by
      intro o' live' different p' pcb' also
      obtain ⟨rfl, -⟩ := holds p' pcb'
      exact different (only o' live' also)
    intro o₁ live₁ o₂ live₂ p' pcb₁ pcb₂
    by_cases first : o₁ = o
    · by_cases second : o₂ = o
      · rw [first, second]
      · rw [first, target] at pcb₁
        rw [same o₂ second] at pcb₂
        exact absurd pcb₂ (stray o₂ live₂ second p' pcb₁)
    · rw [same o₁ first] at pcb₁
      by_cases second : o₂ = o
      · rw [second, target] at pcb₂
        exact absurd pcb₁ (stray o₁ live₁ first p' pcb₂)
      · rw [same o₂ second] at pcb₂
        exact held.unique o₁ live₁ o₂ live₂ p' pcb₁ pcb₂
  · rw [lives]
    intro o' live' listens
    by_cases different : o' = o
    · rw [different, target] at listens ⊢
      exact bound listens
    · rw [same o' different] at listens ⊢
      exact held.bound o' live' listens

namespace Owned

variable {w : World}

theorem ownership (owned : Owned w) : Ownership w where
  held := by
    intro p allocated
    obtain ⟨q, found⟩ := Option.isSome_iff_exists.mp allocated
    obtain ⟨o, live, pcb, -⟩ := owned.owner p q found
    refine ⟨o, ⟨live, pcb⟩, ?_⟩
    intro o' given
    obtain ⟨live', pcb'⟩ := given
    exact owned.unique o' live' o live p pcb' pcb
  registered := by
    intro p q found o live pcb
    obtain ⟨o', live', pcb', arg⟩ := owned.owner p q found
    cases owned.unique o live o' live' p pcb pcb'
    exact arg
  removedOnce := owned.removedNodup
  removedFree := by
    intro p gone o live pcb
    have present := owned.allocated o live p pcb
    rw [(owned.removedGone p gone).2] at present
    cases present
  sent := owned.sentAllocated
  queue := fun o live => ⟨(owned.queueWf o live).positive, (owned.queueWf o live).bounded⟩

theorem of_same {w' : World} (owned : Owned w) (pcbs : w'.pcbs = w.pcbs)
    (nextPcb : w'.nextPcb = w.nextPcb) (obj : w'.obj = w.obj) (live : w'.live = w.live)
    (removed : w'.removed = w.removed) (sent : w'.sent = w.sent) : Owned w' := by
  cases w
  cases w'
  dsimp only at pcbs nextPcb obj live removed sent
  subst pcbs nextPcb obj live removed sent
  exact ⟨⟨owned.owner, owned.allocated, owned.unique, owned.bound⟩, owned.liveNodup, owned.fresh,
    owned.removedNodup, owned.removedGone, owned.sentAllocated, owned.queueWf⟩

theorem emit (owned : Owned w) (o : ObjId) (event : Event) : Owned (w.emit o event) :=
  owned.of_same rfl rfl rfl rfl rfl rfl

theorem queueWf_setObj (owned : Owned w) (o : ObjId) (u : EthernetUDP) (wf : u.inBuf.WF)
    (o' : ObjId) (live : o' ∈ w.live) : (Function.update w.obj o u o').inBuf.WF := by
  by_cases target : o' = o
  · rw [target, Function.update_self]
    exact wf
  · rw [Function.update_of_ne target]
    exact owned.queueWf o' live

theorem change (owned : Owned w) (o : ObjId) (live : o ∈ w.live) (p : PcbId)
    (held : (w.obj o).pcb = some p) (u : EthernetUDP) (q : UdpPcb) (pcb : u.pcb = some p)
    (arg : q.recvArg = if u.listening then some o else none) (wf : u.inBuf.WF) :
    Owned ((w.setObj o u).setPcb p (some q)) := by
  have present := owned.allocated o live p held
  have absent : ∀ p', w.pcbs p' = none → Function.update w.pcbs p (some q) p' = none := by
    intro p' none
    have different : p' ≠ p := by
      intro equal
      subst equal
      rw [none] at present
      cases present
    rw [Function.update_of_ne different, none]
  refine ⟨owned.toHeld.update o p u (some q) rfl rfl rfl live ?_ ?_ pcb ?_ ?_, owned.liveNodup, ?_,
    owned.removedNodup, ?_, owned.sentAllocated, owned.queueWf_setObj o u wf⟩
  · exact fun o' live' pcb' => owned.unique o' live' o live p pcb' held
  · exact fun p' pcb' => Option.some.inj (pcb'.symm.trans held)
  · intro r found
    cases found
    exact arg
  · intro _ none
    rw [pcb] at none
    cases none
  · exact fun p' beyond => absent p' (owned.fresh p' beyond)
  · exact fun p' gone =>
      ⟨(owned.removedGone p' gone).1, absent p' (owned.removedGone p' gone).2⟩

theorem setObj (owned : Owned w) (o : ObjId) (live : o ∈ w.live) (u : EthernetUDP)
    (pcb : u.pcb = (w.obj o).pcb) (listening : u.listening = (w.obj o).listening)
    (wf : u.inBuf.WF) : Owned (w.setObj o u) := by
  cases held : (w.obj o).pcb with
  | some p =>
      obtain ⟨q, found⟩ := Option.isSome_iff_exists.mp (owned.allocated o live p held)
      obtain ⟨o', live', pcb', arg⟩ := owned.owner p q found
      have target : o' = o := owned.unique o' live' o live p pcb' held
      rw [target, ← listening] at arg
      have changed := owned.change o live p held u q (pcb.trans held) arg wf
      refine changed.of_same ?_ rfl rfl rfl rfl rfl
      exact (Function.update_eq_self_iff.mpr found.symm).symm
  | none =>
      -- Without a block there is one to pick: any that is not allocated.
      have absent := owned.fresh w.nextPcb (Nat.le_refl _)
      have silent : u.listening = false := by
        have bound := owned.bound o live
        rw [held] at bound
        simpa [listening] using bound
      refine ⟨owned.toHeld.update o w.nextPcb u none ?_ rfl rfl live ?_ ?_ (pcb.trans held) ?_ ?_,
        owned.liveNodup, owned.fresh, owned.removedNodup, owned.removedGone, owned.sentAllocated,
        owned.queueWf_setObj o u wf⟩
      · exact (Function.update_eq_self_iff.mpr absent.symm).symm
      · intro o' live' pcb'
        have present := owned.allocated o' live' w.nextPcb pcb'
        rw [absent] at present
        cases present
      · intro p' pcb'
        rw [held] at pcb'
        cases pcb'
      · intro r given
        cases given
      · intro listens
        rw [silent] at listens
        cases listens

theorem release (owned : Owned w) (o : ObjId) (live : o ∈ w.live) (p : PcbId)
    (held : (w.obj o).pcb = some p) (u : EthernetUDP) (pcb : u.pcb = none)
    (listening : u.listening = false) (wf : u.inBuf.WF) : Owned ((w.udpRemove p).setObj o u) := by
  have present := owned.allocated o live p held
  have absent : ∀ p', w.pcbs p' = none → Function.update w.pcbs p none p' = none := by
    intro p' none
    by_cases target : p' = p
    · rw [target, Function.update_self]
    · rw [Function.update_of_ne target, none]
  refine ⟨owned.toHeld.update o p u none rfl rfl rfl live ?_ ?_ pcb ?_ ?_, owned.liveNodup, ?_, ?_,
    ?_, owned.sentAllocated, owned.queueWf_setObj o u wf⟩
  · exact fun o' live' pcb' => owned.unique o' live' o live p pcb' held
  · exact fun p' pcb' => Option.some.inj (pcb'.symm.trans held)
  · intro r found
    cases found
  · intro listens
    rw [listening] at listens
    cases listens
  · exact fun p' beyond => absent p' (owned.fresh p' beyond)
  · have unseen : p ∉ w.removed := by
      intro gone
      rw [(owned.removedGone p gone).2] at present
      cases present
    exact owned.removedNodup.append (List.nodup_singleton p) (by simpa using unseen)
  · intro p' gone
    have entry : p' ∈ w.removed ++ [p] := gone
    rcases List.mem_append.mp entry with earlier | new
    · exact ⟨(owned.removedGone p' earlier).1, absent p' (owned.removedGone p' earlier).2⟩
    · rw [List.mem_singleton.mp new]
      refine ⟨?_, Function.update_self ..⟩
      by_contra beyond
      rw [owned.fresh p (Nat.le_of_not_lt beyond)] at present
      cases present

theorem acquire (owned : Owned w) (o : ObjId) (live : o ∈ w.live) (none : (w.obj o).pcb = none) :
    Owned (w.udpNew o) := by
  have silent : (w.obj o).listening = false := by
    have bound := owned.bound o live
    rw [none] at bound
    simpa using bound
  refine ⟨owned.toHeld.update o w.nextPcb _ (some {}) rfl rfl rfl live ?_ ?_ rfl ?_ ?_,
    owned.liveNodup, ?_, owned.removedNodup, ?_, owned.sentAllocated,
    owned.queueWf_setObj o _ (owned.queueWf o live)⟩
  · -- Blocks handed out before have smaller numbers.
    intro o' live' held
    have present := owned.allocated o' live' w.nextPcb held
    rw [owned.fresh w.nextPcb (Nat.le_refl _)] at present
    cases present
  · intro p' pcb'
    rw [none] at pcb'
    cases pcb'
  · intro r found
    cases found
    simp [silent]
  · exact fun _ => Option.some_ne_none _
  · intro p beyond
    have later : w.nextPcb < p := beyond
    have kept : Function.update w.pcbs w.nextPcb (some {}) p = w.pcbs p :=
      Function.update_of_ne (Nat.ne_of_gt later) ..
    exact kept.trans (owned.fresh p (Nat.le_of_lt later))
  · intro p gone
    obtain ⟨below, absent⟩ := owned.removedGone p gone
    have kept : Function.update w.pcbs w.nextPcb (some {}) p = w.pcbs p :=
      Function.update_of_ne (Nat.ne_of_lt below) ..
    exact ⟨Nat.lt_succ_of_lt below, kept.trans absent⟩

theorem listen (owned : Owned w) (o : ObjId) (live : o ∈ w.live) (p : PcbId)
    (held : (w.obj o).pcb = some p) (reuse : Bool) :
    Owned ((w.setObj o { w.obj o with listening := true, listenReuse := reuse }).udpRecv p o) := by
  obtain ⟨q, found⟩ := Option.isSome_iff_exists.mp (owned.allocated o live p held)
  simp only [World.udpRecv, World.setObj, found]
  exact owned.change o live p held _ { q with recvArg := some o } held rfl (owned.queueWf o live)

theorem setPcb (owned : Owned w) (o : ObjId) (live : o ∈ w.live) (p : PcbId)
    (held : (w.obj o).pcb = some p) (q q' : UdpPcb) (found : w.pcbs p = some q)
    (same : q'.recvArg = q.recvArg) : Owned (w.setPcb p (some q')) := by
  obtain ⟨o', live', pcb', arg⟩ := owned.owner p q found
  have target : o' = o := owned.unique o' live' o live p pcb' held
  rw [target, ← same] at arg
  have changed := owned.change o live p held (w.obj o) q' held arg (owned.queueWf o live)
  exact changed.of_same rfl rfl (Function.update_eq_self o w.obj).symm rfl rfl rfl

theorem sendto (owned : Owned w) (o : ObjId) (live : o ∈ w.live) (held : (w.obj o).pcb ≠ none) :
    Owned (w.udpSendto (w.obj o).pcb) := by
  obtain ⟨p, pcb⟩ := Option.ne_none_iff_exists'.mp held
  have present : ((w.obj o).pcb.bind w.pcbs).isSome := by
    rw [pcb]
    exact owned.allocated o live p pcb
  refine ⟨⟨owned.owner, owned.allocated, owned.unique, owned.bound⟩, owned.liveNodup, owned.fresh,
    owned.removedNodup, owned.removedGone, ?_, owned.queueWf⟩
  intro entry member
  rcases List.mem_append.mp member with earlier | new
  · exact owned.sentAllocated entry earlier
  · rw [List.mem_singleton.mp new]
    exact present

theorem construct (owned : Owned w) (o : ObjId) (unused : o ∉ w.live) (capacity : Nat) :
    Owned (w.construct o capacity) := by
  have same : ∀ o' ∈ w.live, (w.construct o capacity).obj o' = w.obj o' := by
    intro o' live
    refine Function.update_of_ne ?_ ..
    intro equal
    subst equal
    exact unused live
  have target : (w.construct o capacity).obj o =
      { inBuf := CircularBuffer.make (max capacity 1) } := Function.update_self ..
  have lives : ∀ o', o' ∈ (w.construct o capacity).live ↔ o' = o ∨ o' ∈ w.live :=
    fun o' => List.mem_cons
  refine ⟨⟨?_, ?_, ?_, ?_⟩, List.nodup_cons.mpr ⟨unused, owned.liveNodup⟩, owned.fresh,
    owned.removedNodup, owned.removedGone, owned.sentAllocated, ?_⟩
  · intro p q found
    obtain ⟨o', live, held⟩ := owned.owner p q found
    refine ⟨o', List.mem_cons_of_mem o live, ?_⟩
    rw [same o' live]
    exact held
  · intro o' live p pcb
    rcases (lives o').mp live with rfl | live
    · rw [target] at pcb
      cases pcb
    · rw [same o' live] at pcb
      exact owned.allocated o' live p pcb
  · intro o₁ live₁ o₂ live₂ p pcb₁ pcb₂
    rcases (lives o₁).mp live₁ with rfl | live₁
    · rw [target] at pcb₁
      cases pcb₁
    · rcases (lives o₂).mp live₂ with rfl | live₂
      · rw [target] at pcb₂
        cases pcb₂
      · rw [same o₁ live₁] at pcb₁
        rw [same o₂ live₂] at pcb₂
        exact owned.unique o₁ live₁ o₂ live₂ p pcb₁ pcb₂
  · intro o' live listens
    rcases (lives o').mp live with rfl | live
    · rw [target] at listens
      cases listens
    · rw [same o' live] at listens ⊢
      exact owned.bound o' live listens
  · intro o' live
    rcases (lives o').mp live with rfl | live
    · rw [target]
      exact CircularBuffer.make_wf _
    · rw [same o' live]
      exact owned.queueWf o' live

theorem erase (owned : Owned w) (o : ObjId) (none : (w.obj o).pcb = none) :
    Owned { w with live := w.live.erase o } := by
  have kept : ∀ {o'}, o' ∈ w.live.erase o → o' ∈ w.live := fun member => List.mem_of_mem_erase member
  refine ⟨⟨?_, ?_, ?_, ?_⟩, owned.liveNodup.erase o, owned.fresh, owned.removedNodup,
    owned.removedGone, owned.sentAllocated, fun o' live => owned.queueWf o' (kept live)⟩
  · intro p q found
    obtain ⟨o', live, pcb, arg⟩ := owned.owner p q found
    have different : o' ≠ o := by
      intro equal
      subst equal
      rw [none] at pcb
      cases pcb
    exact ⟨o', (List.mem_erase_of_ne different).mpr live, pcb, arg⟩
  · exact fun o' live => owned.allocated o' (kept live)
  · exact fun o₁ live₁ o₂ live₂ => owned.unique o₁ (kept live₁) o₂ (kept live₂)
  · exact fun o' live => owned.bound o' (kept live)

end Owned

end QNEthernet.Udp
