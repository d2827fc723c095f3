import Mathlib.Data.List.Basic

/-! Calls that let their environment run. A call ends with a value, or it makes a request, gets a
response and goes on in the state the environment leaves. -/

namespace QNEthernet

inductive Call (σ ι ρ α : Type) where
  | done (value : α) (s : σ)
  | request (i : ι) (s : σ) (next : ρ → σ → Call σ ι ρ α)

namespace Call

variable {σ ι ρ α β τ : Type}

def bind : Call σ ι ρ α → (α → σ → Call σ ι ρ β) → Call σ ι ρ β
  | .done value s, rest => rest value s
  | .request i s next, rest => .request i s fun r s => (next r s).bind rest

/-- A call whose result is of no interest. -/
def forget (call : Call σ ι ρ α) : Call σ ι ρ Unit := call.bind fun _ s => .done () s

theorem bind_assoc {γ : Type} (call : Call σ ι ρ α) (next : α → σ → Call σ ι ρ β)
    (last : β → σ → Call σ ι ρ γ) :
    (call.bind next).bind last = call.bind fun value s => (next value s).bind last := by
  induction call with
  | done value s => rfl
  | request i s more ih =>
      simp only [bind, request.injEq, true_and]
      funext r s'
      exact ih r s'

section Environment

variable [Inhabited τ] (answer : ι → τ → σ → ρ × σ)

/-- The environment answers each request with its next turn; after the last one it takes the default
turn. -/
def run : Call σ ι ρ α → List τ → α × σ
  | .done value s, _ => (value, s)
  | .request i s next, turns =>
      (next (answer i turns.headI s).1 (answer i turns.headI s).2).run turns.tail

/-- The turns that are left at its end. -/
def rest : Call σ ι ρ α → List τ → List τ
  | .done _ _, turns => turns
  | .request i s next, turns =>
      (next (answer i turns.headI s).1 (answer i turns.headI s).2).rest turns.tail

theorem run_bind (call : Call σ ι ρ α) (next : α → σ → Call σ ι ρ β) (turns : List τ) :
    (call.bind next).run answer turns =
      (next (call.run answer turns).1 (call.run answer turns).2).run answer (call.rest answer turns) := by
  induction call generalizing turns with
  | done value s => rfl
  | request i s more ih => exact ih _ _ turns.tail

theorem run_forget (call : Call σ ι ρ α) (turns : List τ) :
    (call.forget.run answer turns).2 = (call.run answer turns).2 := by
  induction call generalizing turns with
  | done value s => rfl
  | request i s next ih => exact ih _ _ turns.tail

/-- Every request and the turn that answers it meet `ok` in the state the request is made in. -/
def Meets (ok : ι → τ → σ → Prop) : Call σ ι ρ α → List τ → Prop
  | .done _ _, _ => True
  | .request i s next, turns =>
      ok i turns.headI s ∧
        (next (answer i turns.headI s).1 (answer i turns.headI s).2).Meets ok turns.tail

end Environment

/-- Each request is made where `pre` holds; when all answers satisfy `post`, the call ends with
`goal`. -/
def Keeps (pre : ι → σ → Prop) (post : ι → σ → ρ → σ → Prop) (goal : α → σ → Prop) :
    Call σ ι ρ α → Prop
  | .done value s => goal value s
  | .request i s next => pre i s ∧ ∀ r s', post i s r s' → (next r s').Keeps pre post goal

variable {pre : ι → σ → Prop} {post : ι → σ → ρ → σ → Prop} {goal : α → σ → Prop}

theorem Keeps.mono {goal' : α → σ → Prop} {call : Call σ ι ρ α} (kept : call.Keeps pre post goal)
    (weaker : ∀ value s, goal value s → goal' value s) : call.Keeps pre post goal' := by
  induction call with
  | done value s => exact weaker value s kept
  | request i s next ih => exact ⟨kept.1, fun r s' answered => ih r s' (kept.2 r s' answered)⟩

theorem keeps_true (call : Call σ ι ρ α) : call.Keeps (fun _ _ => True) post fun _ _ => True := by
  induction call with
  | done value s => trivial
  | request i s next ih => exact ⟨trivial, fun r s' _ => ih r s'⟩

theorem Keeps.anywhere {call : Call σ ι ρ α} (kept : call.Keeps pre post goal) :
    call.Keeps (fun _ _ => True) post goal := by
  induction call with
  | done value s => exact kept
  | request i s next ih => exact ⟨trivial, fun r s' answered => ih r s' (kept.2 r s' answered)⟩

theorem Keeps.and {pre' : ι → σ → Prop} {goal' : α → σ → Prop} {call : Call σ ι ρ α}
    (kept : call.Keeps pre post goal) (kept' : call.Keeps pre' post goal') :
    call.Keeps pre post fun value s => goal value s ∧ goal' value s := by
  induction call with
  | done value s => exact ⟨kept, kept'⟩
  | request i s next ih =>
      exact ⟨kept.1, fun r s' answered => ih r s' (kept.2 r s' answered) (kept'.2 r s' answered)⟩

theorem Keeps.bind {goal' : β → σ → Prop} {call : Call σ ι ρ α} {rest : α → σ → Call σ ι ρ β}
    (kept : call.Keeps pre post goal)
    (continued : ∀ value s, goal value s → (rest value s).Keeps pre post goal') :
    (call.bind rest).Keeps pre post goal' := by
  induction call with
  | done value s => exact continued value s kept
  | request i s next ih => exact ⟨kept.1, fun r s' answered => ih r s' (kept.2 r s' answered)⟩

variable [Inhabited τ] {answer : ι → τ → σ → ρ × σ} {ok : ι → τ → σ → Prop}

theorem Keeps.run {call : Call σ ι ρ α} (kept : call.Keeps pre post goal)
    (environment : ∀ i turn s, ok i turn s → pre i s →
      post i s (answer i turn s).1 (answer i turn s).2)
    (turns : List τ) (meets : call.Meets answer ok turns) :
    goal (call.run answer turns).1 (call.run answer turns).2 := by
  induction call generalizing turns with
  | done value s => exact kept
  | request i s next ih =>
      have answered := environment i turns.headI s meets.1 kept.1
      exact ih _ _ (kept.2 _ _ answered) turns.tail meets.2

theorem Keeps.meets {call : Call σ ι ρ α} (kept : call.Keeps pre post goal)
    (environment : ∀ i turn s, ok i turn s → pre i s →
      post i s (answer i turn s).1 (answer i turn s).2)
    (turns : List τ) (meets : call.Meets answer ok turns) :
    call.Meets answer (fun i _ s => pre i s) turns := by
  induction call generalizing turns with
  | done value s => trivial
  | request i s next ih =>
      have answered := environment i turns.headI s meets.1 kept.1
      exact ⟨kept.1, ih _ _ (kept.2 _ _ answered) turns.tail meets.2⟩

theorem Meets.mono {ok' : ι → τ → σ → Prop} {call : Call σ ι ρ α} {turns : List τ}
    (meets : call.Meets answer ok turns) (weaker : ∀ i turn s, ok i turn s → ok' i turn s) :
    call.Meets answer ok' turns := by
  induction call generalizing turns with
  | done value s => trivial
  | request i s next ih => exact ⟨weaker i _ s meets.1, ih _ _ meets.2⟩

theorem meets_of_forall (all : ∀ i turn s, ok i turn s) (call : Call σ ι ρ α) (turns : List τ) :
    call.Meets answer ok turns := by
  induction call generalizing turns with
  | done value s => trivial
  | request i s next ih => exact ⟨all i _ s, ih _ _ turns.tail⟩

end Call
end QNEthernet
