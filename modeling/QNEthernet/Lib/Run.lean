import Mathlib.Tactic

/-! Runs of a transition function, and the rules that carry an invariant along them. -/

namespace QNEthernet.Run

variable {σ τ ε ω : Type}

/-- Every step of the run meets `ok` in the state it is taken in. -/
def Allowed (ok : σ → ε → Prop) (step : σ → ε → σ) : σ → List ε → Prop
  | _, [] => True
  | s, e :: es => ok s e ∧ Allowed ok step (step s e) es

instance Allowed.decidable (ok : σ → ε → Prop) [∀ s e, Decidable (ok s e)] (step : σ → ε → σ) :
    (s : σ) → (es : List ε) → Decidable (Allowed ok step s es)
  | _, [] => .isTrue trivial
  | s, e :: es =>
      have := Allowed.decidable ok step (step s e) es
      inferInstanceAs (Decidable (ok s e ∧ Allowed ok step (step s e) es))

theorem Allowed.mono {ok ok' : σ → ε → Prop} {step : σ → ε → σ} {es : List ε} {s : σ}
    (allowed : Allowed ok step s es) (weaker : ∀ s e, ok s e → ok' s e) : Allowed ok' step s es := by
  induction es generalizing s with
  | nil => trivial
  | cons e es ih => exact ⟨weaker s e allowed.1, ih allowed.2⟩

theorem Allowed.and {ok ok' : σ → ε → Prop} {step : σ → ε → σ} {es : List ε} {s : σ}
    (allowed : Allowed ok step s es) (allowed' : Allowed ok' step s es) :
    Allowed (fun s e => ok s e ∧ ok' s e) step s es := by
  induction es generalizing s with
  | nil => trivial
  | cons e es ih => exact ⟨⟨allowed.1, allowed'.1⟩, ih allowed.2 allowed'.2⟩

theorem foldl_preserves (P : σ → Prop) (step : σ → ε → σ)
    (kept : ∀ s e, P s → P (step s e)) (es : List ε) (s : σ) (start : P s) :
    P (es.foldl step s) := by
  induction es generalizing s with
  | nil => exact start
  | cons e es ih => exact ih (step s e) (kept s e start)

theorem allowed_preserves (P : σ → Prop) (ok : σ → ε → Prop) (step : σ → ε → σ)
    (kept : ∀ s e, ok s e → P s → P (step s e)) (es : List ε) (s : σ)
    (allowed : Allowed ok step s es) (start : P s) : P (es.foldl step s) := by
  induction es generalizing s with
  | nil => exact start
  | cons e es ih =>
      obtain ⟨head, tail⟩ := allowed
      exact ih (step s e) tail (kept s e head start)

theorem allowed_of_forall (ok : σ → ε → Prop) (step : σ → ε → σ) (all : ∀ s e, ok s e) (es : List ε)
    (s : σ) : Allowed ok step s es := by
  induction es generalizing s with
  | nil => trivial
  | cons e es ih => exact ⟨all s e, ih (step s e)⟩

/-- Where `P` lasts and a step keeps it exactly if it is allowed, it holds at the end of the allowed runs. -/
theorem foldl_iff_allowed (P : σ → Prop) (ok : σ → ε → Prop) (step : σ → ε → σ)
    (exact : ∀ s e, P (step s e) ↔ P s ∧ ok s e) (es : List ε) (s : σ) :
    P (es.foldl step s) ↔ P s ∧ Allowed ok step s es := by
  induction es generalizing s with
  | nil => exact (and_iff_left trivial).symm
  | cons e es ih =>
      rw [List.foldl_cons, ih, exact s e, and_assoc]
      rfl

/-- Where a step keeps `P` exactly if it is allowed, the runs that keep it all along are the allowed ones. -/
theorem always_iff_allowed (I P : σ → Prop) (ok : σ → ε → Prop) (step : σ → ε → σ)
    (kept : ∀ s e, I s → I (step s e)) (exact : ∀ s e, I s → P s → (P (step s e) ↔ ok s e))
    (es : List ε) (s : σ) (inv : I s) (start : P s) :
    (∀ k, P ((es.take k).foldl step s)) ↔ Allowed ok step s es := by
  induction es generalizing s with
  | nil =>
      constructor
      · intro _
        trivial
      · intro _ k
        rw [List.take_nil]
        exact start
  | cons e es ih =>
      constructor
      · intro always
        have next : P (step s e) := always 1
        refine ⟨(exact s e inv start).mp next, (ih (step s e) (kept s e inv) next).mp ?_⟩
        intro k
        exact always (k + 1)
      · intro allowed k
        have next : P (step s e) := (exact s e inv start).mpr allowed.1
        cases k with
        | zero => exact start
        | succ k => exact (ih (step s e) (kept s e inv) next).mpr allowed.2 k

/-- The answers of a run and the state it ends in. -/
def trace (step : σ → ε → ω × σ) : σ → List ε → List ω × σ
  | s, [] => ([], s)
  | s, e :: es => ((step s e).1 :: (trace step (step s e).2 es).1, (trace step (step s e).2 es).2)

/-- Two machines in related states that answer alike and stay related answer alike all along. -/
theorem trace_simulates (R : σ → τ → Prop) (step : σ → ε → ω × σ) (spec : τ → ε → ω × τ)
    (agree : ∀ s t e, R s t → (step s e).1 = (spec t e).1 ∧ R (step s e).2 (spec t e).2)
    (es : List ε) (s : σ) (t : τ) (start : R s t) :
    (trace step s es).1 = (trace spec t es).1 ∧ R (trace step s es).2 (trace spec t es).2 := by
  induction es generalizing s t with
  | nil => exact ⟨rfl, start⟩
  | cons e es ih =>
      obtain ⟨answer, related⟩ := agree s t e start
      obtain ⟨answers, last⟩ := ih _ _ related
      exact ⟨congrArg₂ List.cons answer answers, last⟩

def outputs (step : σ → ε → σ) (out : σ → ε → List ω) : σ → List ε → List ω
  | _, [] => []
  | s, e :: es => out s e ++ outputs step out (step s e) es

theorem outputs_append (step : σ → ε → σ) (out : σ → ε → List ω) (es more : List ε) (s : σ) :
    outputs step out s (es ++ more) = outputs step out s es ++ outputs step out (es.foldl step s) more := by
  induction es generalizing s with
  | nil => rfl
  | cons e es ih => rw [List.cons_append, outputs, ih, outputs, List.append_assoc, List.foldl_cons]

theorem mem_outputs (step : σ → ε → σ) (out : σ → ε → List ω) (P : ω → Prop) (es : List ε)
    (each : ∀ s, ∀ e ∈ es, ∀ x ∈ out s e, P x) (s : σ) : ∀ x ∈ outputs step out s es, P x := by
  induction es generalizing s with
  | nil => exact fun x member => absurd member List.not_mem_nil
  | cons e es ih =>
      intro x member
      rcases List.mem_append.mp member with first | later
      · exact each s e List.mem_cons_self x first
      · exact ih (fun s e' inside => each s e' (List.mem_cons_of_mem e inside)) (step s e) x later

/-- A machine each of whose steps is some moves of another, with the same outputs, is refined by it
along every run. -/
theorem outputs_refine {δ : Type} (R : σ → τ → Prop) (step : σ → ε → σ) (out : σ → ε → List ω)
    (spec : τ → δ → τ) (told : τ → δ → List ω) (moves : σ → ε → List δ)
    (agree : ∀ s t e, R s t →
      out s e = outputs spec told t (moves s e) ∧ R (step s e) ((moves s e).foldl spec t))
    (es : List ε) (s : σ) (t : τ) (start : R s t) :
    outputs step out s es = outputs spec told t (outputs step moves s es) ∧
      R (es.foldl step s) ((outputs step moves s es).foldl spec t) := by
  induction es generalizing s t with
  | nil => exact ⟨rfl, start⟩
  | cons e es ih =>
      obtain ⟨same, related⟩ := agree s t e start
      obtain ⟨rest, last⟩ := ih _ _ related
      refine ⟨?_, ?_⟩
      · rw [outputs, same, rest, outputs, outputs_append]
      · rw [outputs, List.foldl_append, List.foldl_cons]
        exact last

theorem outputs_nil (step : σ → ε → σ) (out : σ → ε → List ω) (es : List ε)
    (silent : ∀ s, ∀ e ∈ es, out s e = []) (s : σ) : outputs step out s es = [] := by
  induction es generalizing s with
  | nil => rfl
  | cons e es ih =>
      rw [outputs, silent s e List.mem_cons_self,
        ih (fun s e' member => silent s e' (List.mem_cons_of_mem e member))]
      rfl

/-- Every step of the run meets `ok`, as far as the steps have results. -/
def Permitted (ok : σ → ε → Prop) (step : σ → ε → Option (ω × σ)) : σ → List ε → Prop
  | _, [] => True
  | s, e :: es => ok s e ∧ ∀ r ∈ step s e, Permitted ok step r.2 es

instance Permitted.decidable (ok : σ → ε → Prop) [∀ s e, Decidable (ok s e)] (step : σ → ε → Option (ω × σ)) :
    (s : σ) → (es : List ε) → Decidable (Permitted ok step s es)
  | _, [] => .isTrue trivial
  | s, e :: es =>
      have (r : ω × σ) := Permitted.decidable ok step r.2 es
      inferInstanceAs (Decidable (ok s e ∧ ∀ r ∈ step s e, Permitted ok step r.2 es))

/-- The state that a run ends in, if its steps have results. -/
def last? (step : σ → ε → Option (ω × σ)) : σ → List ε → Option σ
  | s, [] => some s
  | s, e :: es => (step s e).bind fun r => last? step r.2 es

theorem permitted_last (I : τ → σ → Prop) (ok : σ → ε → Prop) (step : σ → ε → Option (ω × σ)) (history : τ → ε → τ)
    (Good : τ → ε → ω × σ → Prop)
    (kept : ∀ t s e, I t s → ok s e → ∃ r, step s e = some r ∧ I (history t e) r.2 ∧ Good t e r)
    (es : List ε) (e : ε) (t : τ) (s : σ) (start : I t s) (permitted : Permitted ok step s (es ++ [e])) :
    ∃ s' r, last? step s es = some s' ∧ step s' e = some r ∧ Good (es.foldl history t) e r := by
  induction es generalizing t s with
  | nil =>
      obtain ⟨r, ran, -, good⟩ := kept t s e start permitted.1
      exact ⟨s, r, rfl, ran, good⟩
  | cons e' es ih =>
      obtain ⟨ok', rest⟩ := permitted
      obtain ⟨r, ran, inv, -⟩ := kept t s e' start ok'
      obtain ⟨s', r', ran', last, good⟩ := ih (history t e') r.2 inv (rest r ran)
      exact ⟨s', r', by rw [last?, ran, Option.bind_some, ran'], last, good⟩

end QNEthernet.Run
