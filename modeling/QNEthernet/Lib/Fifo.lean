import Mathlib.Tactic

/-! A bounded first-in first-out queue that makes room by giving up its oldest elements. -/

namespace QNEthernet

structure Fifo (α : Type) where
  capacity : Nat
  items : List α
  positive : 1 ≤ capacity
  bounded : items.length ≤ capacity

namespace Fifo

variable {α : Type}

@[ext] theorem ext_items {left right : Fifo α} (capacity : left.capacity = right.capacity)
    (items : left.items = right.items) : left = right := by
  cases left
  cases right
  simp_all

theorem clamp_pos (capacity : Nat) : 1 ≤ max capacity 1 := Nat.le_max_right capacity 1

theorem nil_le_clamp (capacity : Nat) : ([] : List α).length ≤ max capacity 1 := Nat.zero_le _

/-- The elements that have to go so that `incoming` more fit into `capacity`. -/
def displaced (capacity incoming : Nat) (items : List α) : List α :=
  items.take (items.length + incoming - capacity)

def kept (capacity incoming : Nat) (items : List α) : List α :=
  items.drop (items.length + incoming - capacity)

theorem displaced_append_kept (capacity incoming : Nat) (items : List α) :
    displaced capacity incoming items ++ kept capacity incoming items = items :=
  List.take_append_drop _ _

def push (q : Fifo α) (x : α) : Fifo α where
  capacity := q.capacity
  items := kept q.capacity 1 q.items ++ [x]
  positive := q.positive
  bounded := by
    have positive := q.positive
    have bounded := q.bounded
    simp only [kept, List.length_append, List.length_drop, List.length_singleton]
    omega

def pop (q : Fifo α) : Option (α × Fifo α) :=
  match found : q.items with
  | [] => none
  | x :: rest =>
      some (x,
        { capacity := q.capacity
          items := rest
          positive := q.positive
          bounded := by
            have bounded := q.bounded
            rw [found, List.length_cons] at bounded
            omega })

def resize (q : Fifo α) (capacity : Nat) : Fifo α where
  capacity := max capacity 1
  items := kept (max capacity 1) 0 q.items
  positive := Nat.le_max_right _ _
  bounded := by
    simp only [kept, List.length_drop]
    omega

def empty (capacity : Nat) : Fifo α where
  capacity := max capacity 1
  items := []
  positive := clamp_pos capacity
  bounded := nil_le_clamp capacity

def clear (q : Fifo α) : Fifo α where
  capacity := q.capacity
  items := []
  positive := q.positive
  bounded := Nat.zero_le _

/-- Appends as many elements as there is room for, and counts them. -/
def append (q : Fifo α) (xs : List α) : Nat × Fifo α :=
  (min xs.length (q.capacity - q.items.length),
    { capacity := q.capacity
      items := q.items ++ xs.take (min xs.length (q.capacity - q.items.length))
      positive := q.positive
      bounded := by
        have bounded := q.bounded
        rw [List.length_append, List.length_take]
        omega })

/-- Removes the `n` oldest elements, or all that there are. -/
def take (q : Fifo α) (n : Nat) : List α × Fifo α :=
  (q.items.take n,
    { capacity := q.capacity
      items := q.items.drop n
      positive := q.positive
      bounded := by
        have bounded := q.bounded
        rw [List.length_drop]
        omega })

end Fifo
end QNEthernet
