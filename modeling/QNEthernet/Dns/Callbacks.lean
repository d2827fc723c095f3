import QNEthernet.Dns.Lookup

/-! The callback of a blocking lookup does not outlive its caller, over every order of the steps of any
number of lookups. -/

namespace QNEthernet.Dns.World

def Sound (base : Nat) (w : World) : Prop :=
  ∀ (i : Nat) (l : Lookup), w.lookups[i]? = some l → l.Sound base w.now

variable {base : Nat} {w : World}

theorem Sound.change (sound : w.Sound base) (i : Nat) {f : Lookup → Lookup}
    (kept : ∀ l, w.lookups[i]? = some l → l.Sound base w.now → (f l).Sound base w.now) :
    (w.change i f).Sound base := by
  intro j l there
  change (w.lookups.modify i f)[j]? = some l at there
  rw [List.getElem?_modify] at there
  obtain ⟨before, found, rfl⟩ := Option.map_eq_some_iff.mp there
  change Lookup.Sound base w.now _
  split
  · next here =>
      cases here
      exact kept before found (sound i before found)
  · exact sound j before found

theorem getHostByName_sound (after : base ≤ w.now) (blocking callback : Bool) (hostname : Option String)
    (timeout : BitVec 32) (ip : IpAddress) :
    (w.getHostByName blocking callback hostname timeout ip).Sound base w.now := by
  rw [getHostByName]
  dsimp only
  split
  · exact Lookup.sound_new after rfl rfl rfl rfl rfl rfl rfl (.inr ⟨rfl, rfl⟩)
  · exact Lookup.sound_new after rfl rfl rfl rfl rfl rfl rfl (.inl ⟨rfl, rfl, rfl⟩)

theorem step_now (w : World) (e : Event) : w.now ≤ (w.step e).now := by
  cases e with
  | tick ms => exact Nat.le_add_right w.now ms
  | _ => exact Nat.le_refl w.now

theorem Sound.step (after : base ≤ w.now) (sound : w.Sound base) (e : Event) (lwip : w.Lwip e)
    (short : (w.step e).now < base + 2 ^ 32) : (w.step e).Sound base := by
  have before : w.now < base + 2 ^ 32 := Nat.lt_of_le_of_lt (step_now w e) short
  cases e with
  | tick ms =>
      intro i l there
      exact (sound i l there).later (Nat.le_add_right w.now ms)
  | getHostByName blocking callback hostname timeout ip =>
      intro i l there
      change (w.lookups ++ [_])[i]? = some l at there
      rw [List.getElem?_append] at there
      split at there
      · exact sound i l there
      · have new : l = w.getHostByName blocking callback hostname timeout ip :=
          List.mem_singleton.mp (List.mem_of_getElem? there)
        rw [new]
        exact getHostByName_sound after blocking callback hostname timeout ip
  | queue i =>
      refine sound.change i fun l there sound => ?_
      obtain ⟨asking, fresh⟩ := lwip l there
      exact sound.queue asking fresh
  | found i ipaddr =>
      refine sound.change i fun l there sound => ?_
      exact sound.found before (lwip l there) ipaddr
  | answer i a =>
      refine sound.change i fun l there sound => ?_
      split
      · next asking => exact sound.answer asking a (lwip l there asking)
      · exact sound
  | take i =>
      refine sound.change i fun l there sound => ?_
      split
      · next answered => exact sound.take answered
      · exact sound
  | turn i => exact sound.change i fun l there sound => sound.turn before

end QNEthernet.Dns.World
