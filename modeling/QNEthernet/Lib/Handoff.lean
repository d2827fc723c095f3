import Mathlib.Tactic

/-! A ring of slots that one side hands to the other in ring order, with one flag a slot. The `lo`
slots handed back and the `hi` slots handed over so far are counted from the start. -/

namespace QNEthernet.Handoff

variable {n lo hi : Nat} {flag : Nat → Bool}

/-- The flagged slots are those handed over and not yet handed back. -/
structure Marks (n lo hi : Nat) (flag : Nat → Bool) : Prop where
  le : lo ≤ hi
  room : hi ≤ lo + n
  flag_iff : ∀ i < n, flag i = true ↔ ∃ k, lo ≤ k ∧ k < hi ∧ k % n = i

theorem mod_inj {a b : Nat} (le : a ≤ b) (near : b < a + n) (same : a % n = b % n) : a = b := by
  have same' : b ≡ a [MOD n] := same.symm
  have divides : n ∣ b - a := (Nat.modEq_iff_dvd' le).mp same'.symm
  have zero : b - a = 0 := Nat.eq_zero_of_dvd_of_lt divides (by omega)
  omega

theorem next_mod (pos : 0 < n) (k : Nat) :
    (k + 1) % n = if k % n + 1 = n then 0 else k % n + 1 := by
  rw [← Nat.mod_add_mod]
  split
  · rename_i last
    rw [last, Nat.mod_self]
  · have := Nat.mod_lt k pos
    exact Nat.mod_eq_of_lt (by omega)

namespace Marks

theorem start (none : ∀ i < n, flag i = false) : Marks n 0 0 flag where
  le := Nat.le_refl 0
  room := Nat.zero_le _
  flag_iff i bound := by simp [none i bound]

theorem flag_hi (marks : Marks n lo hi flag) (pos : 0 < n) :
    flag (hi % n) = false ↔ hi < lo + n := by
  rw [← Bool.not_eq_true, marks.flag_iff _ (Nat.mod_lt hi pos)]
  have room := marks.room
  constructor
  · intro free
    by_contra full
    apply free
    refine ⟨lo, Nat.le_refl lo, by omega, ?_⟩
    rw [show hi = lo + n by omega, Nat.add_mod_right]
  · intro space given
    obtain ⟨k, from_lo, to_hi, same⟩ := given
    have := mod_inj (Nat.le_of_lt to_hi) (by omega) same
    omega

theorem flag_add (marks : Marks n lo hi flag) {j : Nat} (bound : j < n) :
    flag ((lo + j) % n) = true ↔ lo + j < hi := by
  rw [marks.flag_iff _ (Nat.mod_lt _ (by omega))]
  have room := marks.room
  constructor
  · intro given
    obtain ⟨k, from_lo, to_hi, same⟩ := given
    have equal : k = lo + j := by
      rcases Nat.le_total k (lo + j) with le | le
      · exact mod_inj le (by omega) same
      · exact (mod_inj le (by omega) same.symm).symm
    omega
  · intro some
    exact ⟨lo + j, Nat.le_add_right lo j, some, rfl⟩

theorem flag_lo (marks : Marks n lo hi flag) (pos : 0 < n) :
    flag (lo % n) = true ↔ lo < hi := marks.flag_add pos

theorem push (marks : Marks n lo hi flag) (space : hi < lo + n) {flag' : Nat → Bool}
    (set : flag' (hi % n) = true) (others : ∀ i < n, i ≠ hi % n → flag' i = flag i) :
    Marks n lo (hi + 1) flag' where
  le := Nat.le_succ_of_le marks.le
  room := space
  flag_iff i bound := by
    by_cases here : i = hi % n
    · subst here
      simp only [set, true_iff]
      exact ⟨hi, marks.le, Nat.lt_succ_self hi, rfl⟩
    · rw [others i bound here, marks.flag_iff i bound]
      constructor
      · intro given
        obtain ⟨k, from_lo, to_hi, same⟩ := given
        exact ⟨k, from_lo, Nat.lt_succ_of_lt to_hi, same⟩
      · intro given
        obtain ⟨k, from_lo, to_hi, same⟩ := given
        have other : k ≠ hi := by
          intro equal
          subst equal
          exact here same.symm
        exact ⟨k, from_lo, by omega, same⟩

theorem pop (marks : Marks n lo hi flag) (some : lo < hi) {flag' : Nat → Bool}
    (clear : flag' (lo % n) = false) (others : ∀ i < n, i ≠ lo % n → flag' i = flag i) :
    Marks n (lo + 1) hi flag' where
  le := some
  room := by
    have := marks.room
    omega
  flag_iff i bound := by
    have room := marks.room
    by_cases here : i = lo % n
    · subst here
      simp only [clear, Bool.false_eq_true, false_iff]
      intro given
      obtain ⟨k, from_lo, to_hi, same⟩ := given
      have := mod_inj (Nat.le_of_succ_le from_lo) (by omega) same.symm
      omega
    · rw [others i bound here, marks.flag_iff i bound]
      constructor
      · intro given
        obtain ⟨k, from_lo, to_hi, same⟩ := given
        have other : k ≠ lo := by
          intro equal
          subst equal
          exact here same.symm
        exact ⟨k, by omega, to_hi, same⟩
      · intro given
        obtain ⟨k, from_lo, to_hi, same⟩ := given
        exact ⟨k, by omega, to_hi, same⟩

end Marks

structure Holds {α : Type} (n lo : Nat) (items : List α) (flag : Nat → Bool) (content : Nat → α) :
    Prop where
  marks : Marks n lo items.length flag
  held : ∀ k, lo ≤ k → k < items.length → items[k]? = some (content (k % n))

namespace Holds

variable {α : Type} {items : List α} {content : Nat → α}

theorem start (none : ∀ i < n, flag i = false) (content : Nat → α) : Holds n 0 [] flag content where
  marks := Marks.start none
  held k _ bound := absurd bound (Nat.not_lt_zero k)

theorem write (holds : Holds n lo items flag content) (space : items.length < lo + n)
    {flag' : Nat → Bool} {content' : Nat → α} (flags : ∀ i < n, flag' i = flag i)
    (others : ∀ i, i ≠ items.length % n → content' i = content i) : Holds n lo items flag' content' where
  marks :=
    { le := holds.marks.le
      room := holds.marks.room
      flag_iff := fun i bound => by rw [flags i bound, holds.marks.flag_iff i bound] }
  held k from_lo bound := by
    have other : k % n ≠ items.length % n := by
      intro same
      have := mod_inj (Nat.le_of_lt bound) (by omega) same
      omega
    rw [others _ other, holds.held k from_lo bound]

theorem push (holds : Holds n lo items flag content) (space : items.length < lo + n)
    {flag' : Nat → Bool} {content' : Nat → α} {x : α} (set : flag' (items.length % n) = true)
    (value : content' (items.length % n) = x)
    (flags : ∀ i < n, i ≠ items.length % n → flag' i = flag i)
    (others : ∀ i, i ≠ items.length % n → content' i = content i) :
    Holds n lo (items ++ [x]) flag' content' where
  marks := by
    rw [List.length_append, List.length_singleton]
    exact holds.marks.push space set flags
  held k from_lo bound := by
    rw [List.length_append, List.length_singleton] at bound
    by_cases last : k = items.length
    · subst last
      simp [value]
    · have inside : k < items.length := by omega
      have other : k % n ≠ items.length % n := by
        intro same
        have := mod_inj (Nat.le_of_lt inside) (by omega) same
        omega
      rw [List.getElem?_append_left inside, others _ other, holds.held k from_lo inside]

theorem pop (holds : Holds n lo items flag content) (some : lo < items.length)
    {flag' : Nat → Bool} {content' : Nat → α} (clear : flag' (lo % n) = false)
    (flags : ∀ i < n, i ≠ lo % n → flag' i = flag i)
    (others : ∀ i, i ≠ lo % n → content' i = content i) :
    Holds n (lo + 1) items flag' content' where
  marks := holds.marks.pop some clear flags
  held k from_lo bound := by
    have room := holds.marks.room
    have other : k % n ≠ lo % n := by
      intro same
      have := mod_inj (Nat.le_of_succ_le from_lo) (by omega) same.symm
      omega
    rw [others _ other, holds.held k (by omega) bound]

theorem drop_eq (holds : Holds n lo items flag content) :
    items.drop lo = (List.range (items.length - lo)).map fun j => content ((lo + j) % n) := by
  apply List.ext_getElem?
  intro j
  rw [List.getElem?_drop, List.getElem?_map]
  by_cases inside : j < items.length - lo
  · rw [List.getElem?_range inside, holds.held (lo + j) (by omega) (by omega)]
    rfl
  · rw [List.getElem?_eq_none (by omega), List.getElem?_eq_none (by simp; omega)]
    rfl

end Holds
end QNEthernet.Handoff
