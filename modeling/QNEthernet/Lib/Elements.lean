import QNEthernet.Lib.Memory

/-! Elements that stand in a row in memory: each begins with its id and the length of its data. -/

namespace QNEthernet.Elements

structure Element where
  id : UInt8
  data : List UInt8
  fits : data.length < 256

namespace Element

def encode (e : Element) : List UInt8 := e.id :: .ofNat e.data.length :: e.data

def size (e : Element) : Nat := e.data.length + 2

theorem length_encode (e : Element) : e.encode.length = e.size := by
  rw [encode, List.length_cons, List.length_cons, size]

theorem toNat_length (e : Element) : (UInt8.ofNat e.data.length).toNat = e.data.length := by
  rw [UInt8.toNat_ofNat']
  exact Nat.mod_eq_of_lt e.fits

end Element

variable (m : Nat → UInt8)

def first (p : Nat) : Element where
  id := m p
  data := Memory.window m (p + 2) (m (p + 1)).toNat
  fits := by
    rw [Memory.length_window]
    exact (m (p + 1)).toNat_lt

/-- The complete elements from an index on, in so many turns. -/
def complete : (turns p len : Nat) → List Element
  | 0, _, _ => []
  | turns + 1, p, len =>
      if (first m p).size ≤ len then first m p :: complete turns (p + (first m p).size) (len - (first m p).size) else []

/-- Complete elements, and a single byte behind them. -/
def Stray (p len : Nat) : Prop :=
  ∃ (es : List Element) (b : UInt8), Memory.window m p len = es.flatMap Element.encode ++ [b]

variable {m} {p len : Nat}

theorem size_first (p : Nat) : (first m p).size = (m (p + 1)).toNat + 2 := by
  rw [Element.size, first, Memory.length_window]

theorem window_succ (p len : Nat) : Memory.window m p (len + 1) = m p :: Memory.window m (p + 1) len := by
  rw [Nat.add_comm len, Memory.window_add]
  rfl

theorem encode_first (p : Nat) : Memory.window m p (first m p).size = (first m p).encode := by
  rw [size_first, window_succ, window_succ, Element.encode]
  simp only [first, Memory.length_window, UInt8.ofNat_toNat]

theorem window_first (fits : (first m p).size ≤ len) :
    Memory.window m p len =
      (first m p).encode ++ Memory.window m (p + (first m p).size) (len - (first m p).size) := by
  rw [← encode_first, ← Memory.window_add, Nat.add_sub_cancel' fits]

theorem complete_stands (turns p len : Nat) :
    ∃ rest, Memory.window m p len = (complete m turns p len).flatMap Element.encode ++ rest := by
  induction turns generalizing p len with
  | zero => exact ⟨Memory.window m p len, rfl⟩
  | succ turns ih =>
      rw [complete]
      split
      · next fits =>
          obtain ⟨rest, stands⟩ := ih (p + (first m p).size) (len - (first m p).size)
          exact ⟨rest, by rw [window_first fits, stands, List.flatMap_cons, List.append_assoc]⟩
      · exact ⟨Memory.window m p len, rfl⟩

theorem first_eq {e : Element} {rest : List UInt8} (stands : Memory.window m p len = e.encode ++ rest) :
    first m p = e ∧ Memory.window m (p + e.size) (len - e.size) = rest := by
  have total : len = e.size + rest.length := by
    have lengths := congrArg List.length stands
    rwa [Memory.length_window, List.length_append, e.length_encode] at lengths
  have parts : Memory.window m p e.size = e.encode ∧ Memory.window m (p + e.size) rest.length = rest := by
    rw [total, Memory.window_add] at stands
    exact List.append_inj stands (by rw [Memory.length_window, e.length_encode])
  have fields := parts.1
  rw [Element.size, window_succ, window_succ, Element.encode, List.cons.injEq, List.cons.injEq] at fields
  have same : (m (p + 1)).toNat = e.data.length := by
    rw [fields.2.1]
    exact e.toNat_length
  constructor
  · cases e
    simp only [first, Element.mk.injEq]
    exact ⟨fields.1, by rw [same]; exact fields.2.2⟩
  · rw [total, Nat.add_sub_cancel_left]
    exact parts.2

theorem not_stray_zero : ¬ Stray m p 0 := by
  intro ⟨es, b, stands⟩
  have lengths := congrArg List.length stands
  simp only [Memory.length_window, List.length_append, List.length_singleton] at lengths
  omega

theorem stray_one : Stray m p 1 := ⟨[], m p, rfl⟩

theorem not_stray_cut (header : 2 ≤ len) (cut : len < (first m p).size) : ¬ Stray m p len := by
  intro ⟨es, b, stands⟩
  cases es with
  | nil =>
      have lengths := congrArg List.length stands
      rw [Memory.length_window, List.flatMap_nil, List.nil_append, List.length_singleton] at lengths
      omega
  | cons e es =>
      rw [List.flatMap_cons, List.append_assoc] at stands
      have lengths := congrArg List.length stands
      rw [Memory.length_window, List.length_append, e.length_encode] at lengths
      rw [(first_eq stands).1] at cut
      omega

theorem stray_next (fits : (first m p).size ≤ len) :
    Stray m p len ↔ Stray m (p + (first m p).size) (len - (first m p).size) := by
  constructor
  · intro ⟨es, b, stands⟩
    cases es with
    | nil =>
        have lengths := congrArg List.length stands
        rw [Memory.length_window, List.flatMap_nil, List.nil_append, List.length_singleton] at lengths
        rw [size_first] at fits
        omega
    | cons e es =>
        rw [List.flatMap_cons, List.append_assoc] at stands
        obtain ⟨same, rest⟩ := first_eq stands
        rw [same]
        exact ⟨es, b, rest⟩
  · intro ⟨es, b, stands⟩
    refine ⟨first m p :: es, b, ?_⟩
    calc Memory.window m p len
        = (first m p).encode ++ Memory.window m (p + (first m p).size) (len - (first m p).size) := window_first fits
      _ = (first m p :: es).flatMap Element.encode ++ [b] := by
          rw [stands, List.flatMap_cons, List.append_assoc]

end QNEthernet.Elements
