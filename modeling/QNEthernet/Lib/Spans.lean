import Mathlib.Tactic

/-! Spans of a list that grows: what is taken from it in order, so that no position is taken twice. -/

namespace QNEthernet.Spans

variable {α : Type}

/-- Values that were taken from a position on. -/
structure Span (α : Type) where
  start : Nat
  values : List α := []

namespace Span

def stop (s : Span α) : Nat := s.start + s.values.length

def positions (s : Span α) : List Nat := List.range' s.start s.values.length

def Stands (whole : List α) (s : Span α) : Prop := s.values <+: whole.drop s.start

def extend (s : Span α) (more : List α) : Span α := { s with values := s.values ++ more }

theorem Stands.get {whole : List α} {s : Span α} (stands : s.Stands whole) :
    s.values.map some = s.positions.map (whole[·]?) := by
  apply List.ext_getElem
  · rw [List.length_map, List.length_map, positions, List.length_range']
  · intro i inside inside'
    rw [List.length_map] at inside
    have same := stands.getElem inside
    rw [List.getElem_drop] at same
    simp only [List.getElem_map, positions, List.getElem_range', Nat.one_mul, same]
    exact (List.getElem?_eq_getElem _).symm

theorem Stands.grow {whole : List α} {s : Span α} (stands : s.Stands whole) (more : List α) :
    s.Stands (whole ++ more) := by
  rw [Stands, List.drop_append]
  exact stands.trans (List.prefix_append _ _)

theorem Stands.extend {whole : List α} {s : Span α} (stands : s.Stands whole) {more : List α}
    (next : more <+: whole.drop s.stop) : (s.extend more).Stands whole := by
  obtain ⟨rest, split⟩ := stands
  obtain ⟨rest', split'⟩ := next
  refine ⟨rest', ?_⟩
  have behind : whole.drop s.stop = rest := by
    rw [stop, ← List.drop_drop, ← split, List.drop_left]
  rw [Span.extend, List.append_assoc, split', behind, split]

end Span

structure InOrder (whole : List α) (spans : List (Span α)) : Prop where
  apart : spans.Pairwise fun a b => a.stop ≤ b.start
  stand : ∀ s ∈ spans, s.Stands whole

variable {whole : List α} {spans : List (Span α)}

theorem InOrder.grow (ordered : InOrder whole spans) (more : List α) : InOrder (whole ++ more) spans where
  apart := ordered.apart
  stand := fun s member => (ordered.stand s member).grow more

theorem InOrder.append (ordered : InOrder whole spans) {s : Span α} (behind : ∀ t ∈ spans, t.stop ≤ s.start)
    (stands : s.Stands whole) : InOrder whole (spans ++ [s]) where
  apart := by
    rw [List.pairwise_append]
    refine ⟨ordered.apart, List.pairwise_singleton _ _, ?_⟩
    intro t first u second
    rw [List.mem_singleton.mp second]
    exact behind t first
  stand := by
    intro t member
    rcases List.mem_append.mp member with first | second
    · exact ordered.stand t first
    · rw [List.mem_singleton.mp second]
      exact stands

theorem InOrder.front {s : Span α} (ordered : InOrder whole (spans ++ [s])) :
    InOrder whole spans ∧ (∀ t ∈ spans, t.stop ≤ s.start) ∧ s.Stands whole := by
  obtain ⟨apart, -, before⟩ := List.pairwise_append.mp ordered.apart
  refine ⟨⟨apart, fun t member => ordered.stand t (List.mem_append_left _ member)⟩, ?_, ?_⟩
  · intro t member
    exact before t member s (List.mem_singleton_self s)
  · exact ordered.stand s (List.mem_append_right _ (List.mem_singleton_self s))

theorem InOrder.extend {s : Span α} (ordered : InOrder whole (spans ++ [s])) {more : List α}
    (next : more <+: whole.drop s.stop) : InOrder whole (spans ++ [s.extend more]) := by
  obtain ⟨front, before, stands⟩ := ordered.front
  exact front.append before (stands.extend next)

theorem InOrder.positions (ordered : InOrder whole spans) :
    (spans.flatMap Span.values).map some = (spans.flatMap Span.positions).map (whole[·]?) ∧
      (spans.flatMap Span.positions).Pairwise (· < ·) := by
  induction spans with
  | nil => exact ⟨rfl, .nil⟩
  | cons s spans ih =>
      obtain ⟨before, apart⟩ := List.pairwise_cons.mp ordered.apart
      obtain ⟨values, up⟩ := ih ⟨apart, fun t member => ordered.stand t (List.mem_cons_of_mem _ member)⟩
      constructor
      · rw [List.flatMap_cons, List.flatMap_cons, List.map_append, List.map_append, values,
          (ordered.stand s List.mem_cons_self).get]
      · rw [List.flatMap_cons, List.pairwise_append]
        refine ⟨List.pairwise_lt_range', up, ?_⟩
        intro i first j second
        obtain ⟨t, member, here⟩ := List.mem_flatMap.mp second
        have order := before t member
        rw [Span.positions, List.mem_range'_1] at first here
        rw [Span.stop] at order
        omega

end QNEthernet.Spans
