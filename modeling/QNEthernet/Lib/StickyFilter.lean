import Mathlib.Tactic

/-! A filter with one bit a slot: many keys share a slot, and a slot that was ever asked for twice is
never released. -/

namespace QNEthernet

@[ext] structure StickyFilter (β : Type) where
  set : β → Bool
  kept : β → Bool

namespace StickyFilter

variable {α β : Type} [DecidableEq β] {slot : α → β} {f : StickyFilter β}
  {allowed : List α}

def allow (f : StickyFilter β) (b : β) : StickyFilter β :=
  if f.set b then { f with kept := Function.update f.kept b true }
  else { f with set := Function.update f.set b true }

def remove (f : StickyFilter β) (b : β) : StickyFilter β :=
  { f with set := Function.update f.set b (f.set b && f.kept b) }

/-- How many of the keys, with multiplicity, use the slot. -/
def users (slot : α → β) (allowed : List α) (b : β) : Nat := (allowed.map slot).count b

@[simp] theorem users_cons (a : α) (b : β) :
    users slot (a :: allowed) b = users slot allowed b + if slot a = b then 1 else 0 := by
  simp [users, List.count_cons]

theorem users_erase [BEq α] [LawfulBEq α] (slot : α → β) {a : α} (mem : a ∈ allowed) (b : β) :
    users slot allowed b = users slot (allowed.erase a) b + if slot a = b then 1 else 0 := by
  have perm : (allowed.map slot).Perm ((a :: allowed.erase a).map slot) :=
    (List.perm_cons_erase mem).map slot
  calc users slot allowed b = users slot (a :: allowed.erase a) b := perm.count_eq b
    _ = _ := users_cons a b

theorem users_pos_iff (b : β) : 0 < users slot allowed b ↔ ∃ a ∈ allowed, slot a = b := by
  simp [users, List.count_pos_iff]

/-- No slot in use is off, and a slot with two users cannot be released. -/
structure Covers (slot : α → β) (f : StickyFilter β) (allowed : List α) : Prop where
  sticky : ∀ b, f.kept b = true → f.set b = true
  used : ∀ b, 0 < users slot allowed b → f.set b = true
  shared : ∀ b, 1 < users slot allowed b → f.kept b = true

theorem Covers.of_unused (sticky : ∀ b, f.kept b = true → f.set b = true) : Covers slot f [] where
  sticky := sticky
  used := by simp [users]
  shared := by simp [users]

theorem allow_set (b c : β) : (f.allow b).set c = (f.set c || decide (c = b)) := by
  unfold allow
  split <;> by_cases same : c = b <;> simp_all [Function.update_of_ne]

theorem allow_kept (b c : β) : (f.allow b).kept c = (f.kept c || (decide (c = b) && f.set b)) := by
  unfold allow
  split <;> by_cases same : c = b <;> simp_all [Function.update_of_ne]

theorem remove_set (b c : β) :
    (f.remove b).set c = (f.set c && (f.kept c || decide (c ≠ b))) := by
  by_cases same : c = b <;> simp [remove, same, Function.update_of_ne]

@[simp] theorem remove_kept (b : β) : (f.remove b).kept = f.kept := rfl

theorem Covers.allow (covers : Covers slot f allowed) (a : α) :
    Covers slot (f.allow (slot a)) (a :: allowed) where
  sticky b kept := by
    rw [allow_kept] at kept
    rw [allow_set]
    rcases Bool.or_eq_true_iff.mp kept with before | now
    · simp [covers.sticky b before]
    · simp_all
  used b pos := by
    rw [users_cons] at pos
    rw [allow_set]
    by_cases same : b = slot a
    · simp [same]
    · rw [if_neg (Ne.symm same), add_zero] at pos
      simp [covers.used b pos]
  shared b many := by
    rw [users_cons] at many
    rw [allow_kept]
    by_cases same : b = slot a
    · subst same
      rw [if_pos rfl] at many
      simp [covers.used (slot a) (by omega)]
    · rw [if_neg (Ne.symm same), add_zero] at many
      simp [covers.shared b many]

theorem Covers.remove [BEq α] [LawfulBEq α] (covers : Covers slot f allowed) {a : α} (mem : a ∈ allowed) :
    Covers slot (f.remove (slot a)) (allowed.erase a) where
  sticky b kept := by
    rw [remove_kept] at kept
    simp [remove_set, kept, covers.sticky b kept]
  used b pos := by
    have count := users_erase slot mem b
    have on : f.set b = true := covers.used b (by omega)
    rw [remove_set, on, Bool.true_and]
    by_cases same : b = slot a
    · -- Another user is left, so there were two.
      rw [if_pos same.symm] at count
      simp [covers.shared b (by omega)]
    · simp [same]
  shared b many := by
    have count := users_erase slot mem b
    exact covers.shared b (by omega)

theorem Covers.released_iff (covers : Covers slot f allowed) (b : β) :
    f.kept b = false ↔ (f.remove b).set b = false := by
  have sticky := covers.sticky b
  cases kept : f.kept b <;> simp_all [remove_set]

/-- Nothing was shared so far: the filter is the image of its keys. -/
structure Exact (slot : α → β) (f : StickyFilter β) (allowed : List α) : Prop where
  free : ∀ b, f.kept b = false
  alone : ∀ b, users slot allowed b ≤ 1
  set_iff : ∀ b, f.set b = true ↔ 0 < users slot allowed b

theorem Exact.allow (exact : Exact slot f allowed) {a : α}
    (unused : ∀ other ∈ allowed, slot other ≠ slot a) :
    Exact slot (f.allow (slot a)) (a :: allowed) := by
  have none : users slot allowed (slot a) = 0 := by
    by_contra some
    obtain ⟨other, mem, same⟩ := (users_pos_iff (slot a)).mp (Nat.pos_of_ne_zero some)
    exact unused other mem same
  have off : f.set (slot a) = false := by
    by_contra on
    have := (exact.set_iff (slot a)).mp (by simpa using on)
    omega
  constructor
  · intro b
    simp [allow_kept, exact.free b, off]
  · intro b
    rw [users_cons]
    have := exact.alone b
    split
    · rename_i same
      subst same
      omega
    · omega
  · intro b
    rw [allow_set, users_cons, Bool.or_eq_true_iff, exact.set_iff b, decide_eq_true_iff]
    constructor
    · intro either
      rcases either with pos | same
      · omega
      · rw [if_pos same.symm]
        omega
    · intro pos
      by_cases same : b = slot a
      · exact .inr same
      · rw [if_neg (Ne.symm same)] at pos
        exact .inl (by omega)

theorem Exact.remove [BEq α] [LawfulBEq α] (exact : Exact slot f allowed) {a : α} (mem : a ∈ allowed) :
    Exact slot (f.remove (slot a)) (allowed.erase a) := by
  constructor
  · exact exact.free
  · intro b
    have count := users_erase slot mem b
    have := exact.alone b
    omega
  · intro b
    have count := users_erase slot mem b
    have alone := exact.alone b
    rw [remove_set, exact.free b, Bool.false_or, Bool.and_eq_true_iff, exact.set_iff b,
      decide_eq_true_iff]
    by_cases same : b = slot a
    · rw [if_pos same.symm] at count
      simp only [same, ne_eq, not_true_eq_false, and_false, false_iff]
      rw [← same]
      omega
    · rw [if_neg (Ne.symm same)] at count
      simp [same, count]

end StickyFilter
end QNEthernet
