import QNEthernet.Tcp.Listeners

/-! Every listener belongs to one live `EthernetServer`, as long as no listening object is moved. -/

namespace QNEthernet.Tcp

open Lwip World

variable {w w' : World} {live : List Nat}

theorem startListening_serving {i : Nat} (matched : Matched w live) (there : i ∈ live)
    (idle : (w.server i).listeningPort = 0) (port : UInt16) (reuse : Bool) (attempt : Attempt)
    (bound : attempt.localPort ≠ 0) :
    Serving (fun _ w' => Matched w' live ∧ Extends w w')
      (EthernetServer.startListening i port reuse attempt w) := by
  apply Call.Keeps.bind (listen_serving w port attempt)
  intro result s outcome
  cases result with
  | none => exact ⟨matched.serves outcome, outcome.extends⟩
  | some value =>
      rcases outcome with ⟨chosen, l, opens⟩
      have nonzero : value ≠ 0 := by
        rw [chosen, Attempt.portFor]
        split
        · exact bound
        · assumption
      have positive : 0 < value := UInt16.pos_iff_ne_zero.mpr nonzero
      dsimp only
      rw [if_pos positive]
      exact matched.opens there idle opens nonzero _ rfl

theorem beginListening_serving {i : Nat} (matched : Matched w live) (there : i ∈ live)
    (port : UInt16) (reuse : Bool) (attempt : Attempt) (bound : attempt.localPort ≠ 0) :
    Serving (fun _ w' => Matched w' live ∧ Extends w w')
      (EthernetServer.beginListening i port reuse attempt w) := by
  unfold EthernetServer.beginListening
  by_cases listening : 0 < (w.server i).listeningPort
  · rw [if_pos listening]
    split
    · exact ⟨matched, (Serves.refl w).extends⟩
    · apply Call.Keeps.bind (endListening_serving w i)
      intro _ s serves
      rcases matched.ended there with ⟨ended, stopped, idle⟩
      have idle' : (s.server i).listeningPort = 0 := by rw [serves.server, idle]
      have started := startListening_serving (ended.serves serves) there idle' port reuse attempt bound
      apply Call.Keeps.mono started
      exact fun _ s' reached => ⟨reached.1, (stopped.trans serves.extends).trans reached.2⟩
  · rw [if_neg listening]
    have idle : (w.server i).listeningPort = 0 := by
      simpa [UInt16.pos_iff_ne_zero] using listening
    exact startListening_serving matched there idle port reuse attempt bound

theorem Matched.construct {i : Nat} (matched : Matched w live) (absent : i ∉ live) (x : EthernetServer)
    (idle : x.listeningPort = 0) : Matched (w.setServer i x) (i :: live) := by
  refine ⟨List.nodup_cons.mpr ⟨absent, matched.alive⟩, matched.listed, matched.below, ?_⟩
  rw [serverPorts_cons, if_pos (by simpa [setServer] using idle), serverPorts_setServer w i x absent]
  exact matched.ports

theorem Matched.assign {i : Nat} (matched : Matched w live) (there : i ∈ live)
    (before : (w.server i).listeningPort = 0) (x : EthernetServer) (after : x.listeningPort = 0) :
    Matched (w.setServer i x) live := by
  have split := serverPorts_split w there
  rw [serverPorts_cons, if_pos before] at split
  have split' := setServer_split w x matched.alive there
  rw [if_pos after] at split'
  exact ⟨matched.alive, matched.listed, matched.below, (matched.ports.trans split).trans split'.symm⟩

theorem Matched.destroy {i : Nat} (matched : Matched w live) (there : i ∈ live)
    (idle : (w.server i).listeningPort = 0) : Matched w (live.erase i) := by
  have split := serverPorts_split w there
  rw [serverPorts_cons, if_pos idle] at split
  exact ⟨matched.alive.erase i, matched.listed, matched.below, matched.ports.trans split⟩

theorem ServerOp.call_serving {s : Servers} (e : ServerStep) (matched : Matched s.world s.live)
    (possible : e.op.possible s.live) (unshared : s.Unshared e) :
    Serving (fun _ w' => Matched w' (e.op.after s.live) ∧ Extends s.world w')
      (e.op.call s.world) := by
  have still (i : Nat) (x : EthernetServer) : Extends s.world (s.world.setServer i x) :=
    ⟨le_refl _, fun _ old => .inl old⟩
  cases e with | mk op turns =>
  cases op with
  | construct i port =>
      have absent : i ∉ s.live := by simpa [ServerOp.possible] using possible
      exact ⟨matched.construct absent _ rfl, still i _⟩
  | beginListening i port reuse attempt =>
      simp only [ServerOp.possible, Bool.and_eq_true, decide_eq_true_eq, bne_iff_ne] at possible
      simp only [ServerOp.call]
      split
      · exact ⟨matched, (Serves.refl s.world).extends⟩
      next port' _ =>
        apply Call.Keeps.bind
          (beginListening_serving matched possible.1 port' reuse attempt possible.2)
        exact fun _ s' reached => reached
  | endListening i =>
      have there : i ∈ s.live := by simpa [ServerOp.possible] using possible
      rcases matched.ended there with ⟨ended, stopped, -⟩
      apply Call.Keeps.mono (endListening_serving s.world i)
      exact fun _ s' serves => ⟨ended.serves serves, stopped.trans serves.extends⟩
  | moveConstruct i i' =>
      simp only [ServerOp.possible, Bool.and_eq_true, decide_eq_true_eq] at possible
      exact ⟨matched.construct possible.2 _ unshared, still i' _⟩
  | moveAssign i i' =>
      simp only [ServerOp.possible, Bool.and_eq_true, decide_eq_true_eq] at possible
      rcases unshared with same | ⟨source, target⟩
      · subst same
        have self : s.world.setServer i (s.world.server i) = s.world := by
          simp [setServer]
        refine ⟨?_, still i _⟩
        rw [self]
        exact matched
      · exact ⟨matched.assign possible.2 target _ source, still i' _⟩
  | destroy i =>
      have there : i ∈ s.live := by simpa [ServerOp.possible] using possible
      rcases matched.ended there with ⟨ended, stopped, idle⟩
      apply Call.Keeps.mono (endListening_serving s.world i)
      intro _ s' serves
      have idle' : (s'.server i).listeningPort = 0 := by rw [serves.server, idle]
      exact ⟨(ended.serves serves).destroy there idle', stopped.trans serves.extends⟩

namespace Servers

/-- The state of the objects, with its history: each block was opened once, and is listed until it is
stopped. -/
structure Kept (s : Servers) : Prop where
  matched : Matched s.world s.live
  opened : s.opened.Nodup
  stopped : (s.stopped ++ s.world.listeners).Nodup
  below : ∀ l ∈ s.opened, l < s.world.nextPcb
  either : ∀ l, l ∈ s.opened ↔ l ∈ s.stopped ∨ l ∈ s.world.listeners

theorem step_kept {s : Servers} (kept : Kept s) (e : ServerStep) (unshared : s.Unshared e) :
    Kept (s.step e) := by
  unfold step
  split
  next possible =>
    have reached := (ServerOp.call_serving e kept.matched possible unshared).run e.turns
    generalize ((e.op.call s.world).run answer e.turns).2 = w' at reached
    rcases reached with ⟨matched, later⟩
    have fresh (l : Nat) (member : l ∈ w'.listeners) (new : l ∉ s.world.listeners) :
        s.world.nextPcb ≤ l := (later.listeners l member).resolve_left new
    have unopened (l : Nat) (member : l ∈ w'.listeners) (new : l ∉ s.world.listeners) :
        l ∉ s.opened := fun old => absurd (kept.below l old) (not_lt.mpr (fresh l member new))
    have apart := List.nodup_append.mp kept.stopped
    refine ⟨matched, ?_, ?_, ?_, ?_⟩
    · refine List.nodup_append.mpr ⟨kept.opened, matched.listed.filter _, ?_⟩
      intro l old l' new equal
      subst equal
      simp only [List.mem_filter, decide_eq_true_eq] at new
      exact unopened l new.1 new.2 old
    · refine List.nodup_append.mpr ⟨?_, matched.listed, ?_⟩
      · refine List.nodup_append.mpr ⟨apart.1, apart.2.1.filter _, ?_⟩
        intro l old l' new
        exact apart.2.2 l old l' (List.mem_of_mem_filter new)
      · intro l gone l' member equal
        subst equal
        rcases List.mem_append.mp gone with old | new
        · by_cases listed : l ∈ s.world.listeners
          · exact apart.2.2 l old l listed rfl
          · exact unopened l member listed ((kept.either l).mpr (.inl old))
        · simp only [List.mem_filter, decide_eq_true_eq] at new
          exact new.2 member
    · intro l member
      rcases List.mem_append.mp member with old | new
      · exact (kept.below l old).trans_le later.nextPcb
      · exact matched.below l (List.mem_of_mem_filter new)
    · intro l
      simp only [List.mem_append, List.mem_filter, decide_eq_true_eq, kept.either l]
      have old := later.listeners l
      tauto
  · exact kept

theorem start_kept (mtu : Nat) : Kept (start mtu) where
  matched := ⟨List.nodup_nil, List.nodup_nil, by simp [start], .refl _⟩
  opened := List.nodup_nil
  stopped := List.nodup_nil
  below := by simp [start]
  either := by simp [start]

theorem Kept.owned {s : Servers} (kept : Kept s) : Owned s where
  ports := kept.matched.ports
  operatorBool := by
    intro i there
    rw [operatorBool, decide_eq_true_eq, UInt16.pos_iff_ne_zero]
    have held : (s.world.server i).listeningPort ∈ s.world.listenerPorts ↔
        (s.world.server i).listeningPort ≠ 0 := by
      rw [kept.matched.ports.mem_iff, World.serverPorts, List.mem_filter, decide_eq_true_eq]
      exact and_iff_right (List.mem_map_of_mem there)
    rw [← held, World.listenerPorts, List.mem_map]
  once := by
    refine ⟨kept.opened, ?_⟩
    rw [List.perm_ext_iff_of_nodup kept.opened kept.stopped]
    intro l
    rw [kept.either, List.mem_append]

theorem listeners_owned (mtu : Nat) (steps : List ServerStep)
    (unshared : Run.Allowed Unshared step (start mtu) steps) : Owned (steps.foldl step (start mtu)) :=
  (Run.allowed_preserves Kept Unshared step (fun _ e ok kept => step_kept kept e ok) steps (start mtu) unshared
    (start_kept mtu)).owned

/-- A server that listens, is stopped by its destructor, and one moved before it listens. -/
def unsharedRun : List ServerStep :=
  [⟨.construct 0 (some 80), []⟩, ⟨.beginListening 0 none false {}, []⟩, ⟨.construct 1 none, []⟩,
    ⟨.moveConstruct 1 2, []⟩, ⟨.beginListening 2 (some 0) true {}, []⟩, ⟨.destroy 0, []⟩]

theorem listeners_owned_unsharedRun : Owned (unsharedRun.foldl step (start 1500)) :=
  listeners_owned 1500 unsharedRun (by decide)

/-- Both objects hold the port after a move, and the listener goes with the first. -/
theorem listeners_shared :
    ¬ Owned ([⟨.construct 0 (some 80), []⟩, ⟨.beginListening 0 none false {}, []⟩,
      ⟨.moveConstruct 0 1, []⟩].foldl step (start 1500)) ∧
    ¬ Owned ([⟨.construct 0 (some 80), []⟩, ⟨.beginListening 0 none false {}, []⟩,
      ⟨.moveConstruct 0 1, []⟩, ⟨.destroy 0, []⟩].foldl step (start 1500)) ∧
    ¬ Owned ([⟨.construct 0 (some 80), []⟩, ⟨.beginListening 0 none false {}, []⟩,
      ⟨.construct 1 none, []⟩, ⟨.moveAssign 1 0, []⟩].foldl step (start 1500)) := by
  refine ⟨?_, ?_, ?_⟩
  all_goals
    intro owned
    exact absurd owned.ports (by decide)

end Servers
end QNEthernet.Tcp
