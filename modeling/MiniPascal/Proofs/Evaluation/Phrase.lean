import MiniPascal.Proofs.Evaluation.Evaluates
import MiniPascal.Proofs.Evaluation.Monotone
import MiniPascal.Proofs.Tree.Statements
/-! Parts of programs and what they give without a bound. -/

namespace MiniPascal

inductive Phrase where
  | expr (e : Expr)
  | stmt (s : Stmt)
  | stmts (ss : List Stmt)
  | block (b : Block)

namespace Phrase

def run (n : ℕ) : Phrase → Run (Option Value)
  | expr e => do pure (some (← e.eval (callWithin n) n))
  | stmt s => s.exec (callWithin n) n
  | stmts ss => Stmt.execAll (callWithin n) n none ss
  | block b => b.exec (callWithin n) n

def inner (deep : Bool) : Phrase → List Stmt
  | expr e => e.inner deep
  | stmt s => s :: s.inner deep
  | stmts ss => Stmt.listInner deep ss
  | block b => b.inner deep

/-- Evaluated on `m`, the phrase comes to its end with the outcome `o` and leaves `m'`. -/
def Gives (t : Phrase) (m : Machine) (o : Option Value) (m' : Machine) : Prop :=
  ∃ n, t.run n m = some (o, m')

variable {t : Phrase} {m m' m₁ m₂ : Machine} {o o₁ o₂ : Option Value} {n n' : ℕ}

lemma below_run (h : n ≤ n') : ∀ t : Phrase, (t.run n).Below (t.run n')
  | expr e => (Run.Below.eval ⟨.callWithin h, h⟩ e).bind fun _ => .refl _
  | stmt s => .exec ⟨.callWithin h, h⟩ s
  | stmts ss => .execAll ⟨.callWithin h, h⟩ none ss
  | block b => .execBlock ⟨.callWithin h, h⟩ b

lemma run_expr (e : Expr) :
    (expr e).run n m = (e.eval (callWithin n) n m).map fun r => (some r.1, r.2) := by
  rw [run, Run.bind_apply]
  cases e.eval (callWithin n) n m <;> rfl

lemma run_expr_eq_some {e : Expr} {v : Value} :
    (expr e).run n m = some (some v, m') ↔ e.eval (callWithin n) n m = some (v, m') := by
  rw [run_expr, Option.map_eq_some_iff]
  constructor
  · rintro ⟨⟨w, m₁⟩, hr, ⟨⟩⟩
    exact hr
  · exact fun h => ⟨_, h, rfl⟩

namespace Gives

lemma eventually (h : t.Gives m o m') : ∀ᶠ n in Filter.atTop, t.run n m = some (o, m') := by
  obtain ⟨n, hn⟩ := h
  filter_upwards [Filter.eventually_ge_atTop n] with k hk
  exact below_run hk t m _ hn

lemma of_eventually (h : ∀ᶠ n in Filter.atTop, t.run n m = some (o, m')) : t.Gives m o m' :=
  h.exists

lemma unique (h₁ : t.Gives m o₁ m₁) (h₂ : t.Gives m o₂ m₂) : o₁ = o₂ ∧ m₁ = m₂ := by
  obtain ⟨n, hn₁, hn₂⟩ := (h₁.eventually.and h₂.eventually).exists
  rw [hn₁] at hn₂
  cases hn₂
  exact ⟨rfl, rfl⟩

lemma evaluates (h : t.Gives m o m') : m.Evaluates m' := by
  obtain ⟨n, hn⟩ := h
  cases t with
  | expr e =>
    rw [run_expr, Option.map_eq_some_iff] at hn
    obtain ⟨⟨v, m₁⟩, hr, ⟨⟩⟩ := hn
    exact .expression e hr
  | stmt s => exact .statement s hn
  | stmts ss => exact .statements ⟨ss⟩ hn
  | block b => exact .statement (.block b) hn

end Gives

end Phrase

end MiniPascal
