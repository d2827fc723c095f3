import Mathlib.Tactic

/-! Entries kept in the order of their due times, those of one time in the order they came in. -/

namespace QNEthernet.Agenda

variable {α : Type} (due : α → Nat)

def insert (e : α) : List α → List α
  | [] => [e]
  | next :: rest => if due e < due next then e :: next :: rest else next :: insert e rest

def Sorted (entries : List α) : Prop := entries.Pairwise fun e e' => due e ≤ due e'

variable {due} {e : α} {entries : List α}

theorem insert_perm (e : α) (entries : List α) : (insert due e entries).Perm (e :: entries) := by
  induction entries with
  | nil => exact List.Perm.refl _
  | cons next rest ih =>
    rw [insert]
    split
    · exact List.Perm.refl _
    · exact (ih.cons next).trans (List.Perm.swap e next rest)

theorem mem_insert {x : α} : x ∈ insert due e entries ↔ x = e ∨ x ∈ entries := by
  rw [(insert_perm e entries).mem_iff, List.mem_cons]

theorem Sorted.insert (sorted : Sorted due entries) : Sorted due (insert due e entries) := by
  induction entries with
  | nil => exact List.pairwise_singleton _ e
  | cons next rest ih =>
    obtain ⟨first, others⟩ := List.pairwise_cons.mp sorted
    rw [Agenda.insert]
    split
    · next earlier =>
      refine List.pairwise_cons.mpr ⟨?_, sorted⟩
      intro x member
      rcases List.mem_cons.mp member with rfl | member
      · exact earlier.le
      · exact earlier.le.trans (first x member)
    · next later =>
      refine List.pairwise_cons.mpr ⟨?_, ih others⟩
      intro x member
      rcases mem_insert.mp member with rfl | member
      · exact Nat.le_of_not_lt later
      · exact first x member

end QNEthernet.Agenda
