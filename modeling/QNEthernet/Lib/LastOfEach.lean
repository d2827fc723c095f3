import Mathlib.Data.List.Dedup
import Mathlib.Tactic

/-! From a list in order of some key, the last entry of each key. -/

namespace QNEthernet.LastOfEach

variable {α κ : Type} {key : α → κ} {le : α → α → Prop} {l : List α}

structure Ordered (key : α → κ) (le : α → α → Prop) (l : List α) : Prop where
  sorted : l.Pairwise le
  squeeze : ∀ a ∈ l, ∀ b ∈ l, le a b → ∀ c ∈ l, le b c → key a = key c → key a = key b

theorem Ordered.tail {a : α} (ordered : Ordered key le (a :: l)) : Ordered key le l where
  sorted := (List.pairwise_cons.mp ordered.sorted).2
  squeeze := fun x hx y hy first z hz second => ordered.squeeze x (List.mem_cons_of_mem _ hx) y
    (List.mem_cons_of_mem _ hy) first z (List.mem_cons_of_mem _ hz) second

variable [DecidableEq κ] (key)

/-- The entries that differ from their successors; `behind` comes after the last one. -/
def lasts (behind : α) : List α → List α
  | [] => []
  | a :: l => if key a = key (l.headD behind) then lasts behind l else a :: lasts behind l

variable {key} {behind : α}

theorem lasts_sublist (l : List α) : (lasts key behind l).Sublist l := by
  induction l with
  | nil => exact .slnil
  | cons a l ih =>
      rw [lasts]
      split
      · exact ih.cons a
      · exact ih.cons_cons a

theorem key_mem_lasts (differs : ∀ a, l.getLast? = some a → key a ≠ key behind) {a : α} (member : a ∈ l) :
    key a ∈ (lasts key behind l).map key := by
  induction l generalizing a with
  | nil => cases member
  | cons b l ih =>
      have inner : ∀ a, l.getLast? = some a → key a ≠ key behind := by
        intro a last
        apply differs a
        rw [List.getLast?_cons, last]
        rfl
      rw [lasts]
      split
      · next same =>
          cases l with
          | nil => exact absurd same (differs b rfl)
          | cons c l =>
              rcases List.mem_cons.mp member with rfl | later
              · rw [same]
                exact ih inner (List.mem_cons_self)
              · exact ih inner later
      · rw [List.map_cons]
        rcases List.mem_cons.mp member with rfl | later
        · exact List.mem_cons_self
        · exact List.mem_cons_of_mem _ (ih inner later)

theorem Ordered.nodup_lasts (ordered : Ordered key le l) : ((lasts key behind l).map key).Nodup := by
  induction l with
  | nil => exact List.nodup_nil
  | cons a l ih =>
      have least := (List.pairwise_cons.mp ordered.sorted).1
      rw [lasts]
      split
      · exact ih ordered.tail
      · next differs =>
          rw [List.map_cons, List.nodup_cons]
          refine ⟨?_, ih ordered.tail⟩
          intro again
          obtain ⟨b, kept, same⟩ := List.mem_map.mp again
          have member := (lasts_sublist l).mem kept
          cases l with
          | nil => cases member
          | cons c l =>
              rcases List.mem_cons.mp member with rfl | later
              · exact differs same.symm
              · -- What lies between two equal keys has that key.
                have order := (List.pairwise_cons.mp ordered.tail.sorted).1 b later
                exact differs (ordered.squeeze a List.mem_cons_self c (List.mem_cons_of_mem _ List.mem_cons_self)
                  (least c List.mem_cons_self) b (List.mem_cons_of_mem _ member) order same.symm)

theorem Ordered.length_lasts (ordered : Ordered key le l)
    (differs : ∀ a, l.getLast? = some a → key a ≠ key behind) :
    (lasts key behind l).length = (l.map key).dedup.length := by
  have same : ((lasts key behind l).map key).Perm (l.map key).dedup := by
    apply (List.perm_ext_iff_of_nodup ordered.nodup_lasts (List.nodup_dedup _)).mpr
    intro k
    rw [List.mem_dedup]
    constructor
    · intro kept
      exact ((lasts_sublist l).map key).mem kept
    · intro member
      obtain ⟨a, present, rfl⟩ := List.mem_map.mp member
      exact key_mem_lasts differs present
  rw [← same.length_eq, List.length_map]

end QNEthernet.LastOfEach
