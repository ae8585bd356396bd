import MiniPascal.Proofs.Evaluation.Phrase
import MiniPascal.Proofs.Evaluation.Balance
/-! The positions in a phrase at which other phrases are evaluated. -/

namespace MiniPascal

namespace Machine

def resume (m m' : Machine) : Machine := { m' with current := m.current, depth := m.depth }

lemma resume_resume (m m₁ m' : Machine) : m.resume (m₁.resume m') = m.resume m' := rfl

def define (m : Machine) (name : String) (v : Value) : Machine :=
  { m with store := m.store.define m.current name v }

structure Back (m m' : Machine) : Prop where
  current : m'.current = m.current
  depth : m'.depth = m.depth

lemma Back.refl (m : Machine) : m.Back m := ⟨rfl, rfl⟩

lemma Back.trans {m₁ m₂ m₃ : Machine} (h : m₁.Back m₂) (h' : m₂.Back m₃) : m₁.Back m₃ :=
  ⟨h'.current.trans h.current, h'.depth.trans h.depth⟩

lemma back_define (m : Machine) (name : String) (v : Value) : m.Back (m.define name v) := ⟨rfl, rfl⟩

def bindAll (m : Machine) (bindings : List (Parameter × Value)) : Machine :=
  bindings.foldl (fun m b => m.define b.1.name b.2) m

def entered (m : Machine) (p : Procedure) (args : List Value) : Machine :=
  let counted := { m with depth := m.depth + 1, calls := ⟨p.header.name, args.length⟩ :: m.calls }
  (counted.openScope p.closure).2.bindAll (p.header.parameters.zip args)

end Machine

namespace Run

variable {α β : Type} {m m₁ m' : Machine} {v : Value} {x : Run Value} {outcome : Value → α}
  {f : Value → Run α} {o : Option Value}

lemma onValue_of_abrupt (hx : x m = some (v, m')) (hv : v.isAbrupt = true) :
    onValue outcome x f m = some (outcome v, m') := by
  rw [onValue, bind_apply, hx, Option.bind_some, if_pos hv]
  rfl

lemma onValue_of_normal (hx : x m = some (v, m₁)) (hv : v.isAbrupt = false) :
    onValue outcome x f m = f v m₁ := by
  rw [onValue, bind_apply, hx, Option.bind_some, hv]
  rfl

lemma bind_of_eq {y : Run β} {g : β → Run α} {b : β} (hy : y m = some (b, m₁)) :
    (y >>= g) m = g b m₁ := by
  rw [bind_apply, hy, Option.bind_some]

lemma next_of_abrupt {y : Run (Option Value)} {g : Option Value → Run (Option Value)}
    (hy : y m = some (some v, m')) (hv : v.isAbrupt = true) :
    (y >>= fun o => if o.any Value.isAbrupt then pure o else g o) m = some (some v, m') := by
  rw [bind_of_eq hy, Option.any_some, if_pos hv]
  rfl

lemma next_of_normal {y : Run (Option Value)} {g : Option Value → Run (Option Value)}
    (hy : y m = some (o, m₁)) (ho : o.any Value.isAbrupt = false) :
    (y >>= fun o => if o.any Value.isAbrupt then pure o else g o) m = g o m₁ := by
  rw [bind_of_eq hy, ho]
  rfl

lemma repeatFor_succ_apply (counter : String) (body : Run (Option Value)) (count : ℕ) (n : Int64) :
    repeatFor counter body (count + 1) n m =
      (body >>= fun o => if o.any Value.isAbrupt then pure o else
        repeatFor counter body count (n + 1)) (m.define counter (.integer n)) :=
  rfl

lemma inScope_of_eq {parent : ScopeId} {y : Run β} {b : β}
    (hy : y (m.openScope parent).2 = some (b, m')) :
    inScope parent y m = some (b, { m' with current := m.current }) := by
  rw [inScope_apply, hy]
  rfl

lemma bindAll_apply (bindings : List (Parameter × Value)) :
    bindAll bindings m = some ((), m.bindAll bindings) := by
  induction bindings generalizing m with
  | nil => rfl
  | cons b rest ih => exact ih

lemma execute_of_body {p : Procedure} {args : List Value} {body : Run (Option Value)}
    (harity : args.length = p.arity)
    (hbody : body (({ m with calls := ⟨p.header.name, args.length⟩ :: m.calls }.openScope
      p.closure).2.bindAll (p.header.parameters.zip args)) = some (o, m')) :
    execute p args body m = some ((o.getD .null).unwrap, { m' with current := m.current }) := by
  have hrecord : record ⟨p.header.name, args.length⟩ m =
      some ((), { m with calls := ⟨p.header.name, args.length⟩ :: m.calls }) := rfl
  rw [execute, if_pos harity, bind_of_eq hrecord]
  exact bind_of_eq (inScope_of_eq ((bind_of_eq (bindAll_apply _)).trans hbody))

lemma enter_of_body {n : ℕ} {p : Procedure} {args : List Value} (hdepth : m.depth < maxCallDepth)
    (harity : args.length = p.arity)
    (hbody : Stmt.execAll (callWithin n) n none p.body.statements (m.entered p args) =
      some (o, m')) :
    enter (callWithin (n + 1) p args) m = some ((o.getD .null).unwrap,
      { m' with current := m.current, depth := m'.depth - 1 }) := by
  have hdeeper : enter (callWithin (n + 1) p args) m = deeper (callWithin (n + 1) p args) m := by
    rw [enter, bind_apply]
    exact congrFun (if_neg (Nat.not_le_of_lt hdepth)) m
  rw [hdeeper, deeper_apply]
  exact congrArg (Option.map _) (execute_of_body harity hbody)

end Run

-- With its alternative left open, a conditional does not unfold by itself.
lemma Expr.eval_conditional (call : Caller) (passes : ℕ) (lexeme : String) (condition : Expr)
    (consequence : Block) (alternative : Option Block) :
    (Expr.conditional lexeme condition consequence alternative).eval call passes =
      Run.onValue id (condition.eval call passes) fun v =>
        if v.isTruthy then do pure ((← consequence.exec call passes).getD .null)
        else
          match alternative with
          | some block => do pure ((← block.exec call passes).getD .null)
          | none => pure .null := by
  cases alternative <;> rfl

abbrev Task := Phrase × Machine

namespace Phrase

open Run

inductive Pass : List Phrase → Machine → List (Option Value) → Machine → Prop
  | nil {m} : Pass [] m [] m
  | cons {t ts m o m₁ os m'} : t.Gives m o m₁ → o.any Value.isAbrupt = false → Pass ts m₁ os m' →
    Pass (t :: ts) m (o :: os) m'

inductive Rounds (condition : Expr) (body : Block) : Machine → Machine → Prop
  | start {m} : Rounds condition body m m
  | round {m v m₁ o m₂ m'} : (expr condition).Gives m (some v) m₁ → v.isAbrupt = false →
    v.isTruthy = true → (block body).Gives m₁ o m₂ → o.any Value.isAbrupt = false →
    Rounds condition body m₂ m' → Rounds condition body m m'

/-- So many passes of a `for` that end normally, from one value of the counter to another. -/
inductive Counted (counter : String) (body : Block) : ℕ → Int64 → Machine → Int64 → Machine → Prop
  | start {n m} : Counted counter body 0 n m n m
  | pass {k n m o m₁ n' m'} : (block body).Gives (m.define counter (.integer n)) o m₁ →
    o.any Value.isAbrupt = false → Counted counter body k (n + 1) m₁ n' m' →
    Counted counter body (k + 1) n m n' m'

section Back

variable {m m' : Machine}

lemma Gives.back {t : Phrase} {o : Option Value} (h : t.Gives m o m') : m.Back m' := by
  have hchange := Discipline.change_of_evaluates (Discipline.ready_unrestricted m) h.evaluates
  exact ⟨hchange.current, hchange.depth⟩

lemma Pass.back {ts : List Phrase} {os : List (Option Value)} (h : Pass ts m os m') :
    m.Back m' := by
  induction h with
  | nil => exact .refl _
  | cons hfirst _ _ ih => exact hfirst.back.trans ih

lemma Rounds.back {condition : Expr} {body : Block} (h : Rounds condition body m m') :
    m.Back m' := by
  induction h with
  | start => exact .refl _
  | round hcondition _ _ hbody _ _ ih => exact hcondition.back.trans (hbody.back.trans ih)

lemma Counted.back {counter : String} {body : Block} {k : ℕ} {a n : Int64}
    (h : Counted counter body k a m n m') : m.Back m' := by
  induction h with
  | start => exact .refl _
  | pass hbody _ _ ih => exact (Machine.back_define _ _ _).trans (hbody.back.trans ih)

end Back

/-- The evaluation of the first phrase comes to the evaluation of the second, which is a part of it:
whatever is evaluated before has ended normally. -/
inductive Reaches : Task → Task → Prop
  | operand {lexeme operator right m} :
    Reaches (expr (.prefixed lexeme operator right), m) (expr right, m)
  | left {lexeme operator left right m} :
    Reaches (expr (.infixed lexeme operator left right), m) (expr left, m)
  | right {lexeme operator left right m v m₁} : (expr left).Gives m (some v) m₁ →
    v.isAbrupt = false → Reaches (expr (.infixed lexeme operator left right), m) (expr right, m₁)
  | condition {lexeme condition consequence alternative m} :
    Reaches (expr (.conditional lexeme condition consequence alternative), m) (expr condition, m)
  | consequence {lexeme condition consequence alternative m v m₁} :
    (expr condition).Gives m (some v) m₁ → v.isAbrupt = false → v.isTruthy = true →
    Reaches (expr (.conditional lexeme condition consequence alternative), m)
      (block consequence, m₁)
  | alternative {lexeme condition consequence alternative m v m₁} :
    (expr condition).Gives m (some v) m₁ → v.isAbrupt = false → v.isTruthy = false →
    Reaches (expr (.conditional lexeme condition consequence (some alternative)), m)
      (block alternative, m₁)
  | callee {lexeme callee arguments m} :
    Reaches (expr (.call lexeme callee arguments), m) (expr callee, m)
  -- Arguments are evaluated only if there is a procedure to be called.
  | argument {lexeme callee before e after m p m₁ os m₂} :
    (expr callee).Gives m (some (.procedure p)) m₁ → Pass (before.map expr) m₁ os m₂ →
    Reaches (expr (.call lexeme callee (before ++ e :: after)), m) (expr e, m₂)
  | declared {lexeme constant name type value m} :
    Reaches (stmt (.declare lexeme constant name type value), m) (expr value, m)
  | assigned {name value m} : Reaches (stmt (.assign name value), m) (expr value, m)
  | givenBack {lexeme value m} : Reaches (stmt (.giveBack lexeme value), m) (expr value, m)
  | expression {lexeme value m} : Reaches (stmt (.expression lexeme value), m) (expr value, m)
  | inner {body m} : Reaches (stmt (.block body), m) (block body, m)
  | test {lexeme condition body m m₁} : Rounds condition body m m₁ →
    Reaches (stmt (.whileLoop lexeme condition body), m) (expr condition, m₁)
  | whileBody {lexeme condition body m m₁ v m₂} : Rounds condition body m m₁ →
    (expr condition).Gives m₁ (some v) m₂ → v.isAbrupt = false → v.isTruthy = true →
    Reaches (stmt (.whileLoop lexeme condition body), m) (block body, m₂)
  | first {lexeme counter first last body m} :
    Reaches (stmt (.forLoop lexeme counter first last body), m) (expr first, m)
  | last {lexeme counter first last body m v m₁} : (expr first).Gives m (some v) m₁ →
    v.isAbrupt = false →
    Reaches (stmt (.forLoop lexeme counter first last body), m) (expr last, m₁)
  | forBody {lexeme counter first last body m a m₁ b m₂ k n m₃} :
    (expr first).Gives m (some (.integer a)) m₁ → (expr last).Gives m₁ (some (.integer b)) m₂ →
    Counted counter body k a (m₂.openScope m₂.current).2 n m₃ → a.toInt + k ≤ b.toInt →
    Reaches (stmt (.forLoop lexeme counter first last body), m)
      (block body, m₃.define counter (.integer n))
  | statement {before s after m os m₁} : Pass (before.map stmt) m os m₁ →
    Reaches (stmts (before ++ s :: after), m) (stmt s, m₁)
  | statements {opener ss m} :
    Reaches (block (.mk opener ss), m) (stmts ss, (m.openScope m.current).2)

/-- The evaluation of a call comes to the evaluation of the body of a procedure. -/
inductive Enters : Task → Task → Prop
  | body {lexeme callee arguments m p m₁ vs m₂} : (expr callee).Gives m (some (.procedure p)) m₁ →
    Pass (arguments.map expr) m₁ (vs.map some) m₂ → m₂.depth < maxCallDepth →
    vs.length = p.arity →
    Enters (expr (.call lexeme callee arguments), m) (stmts p.body.statements, m₂.entered p vs)

namespace Gives

variable {t : Phrase} {e : Expr} {s : Stmt} {m m₁ m' : Machine} {o : Option Value} {v : Value}

lemma resumed (h : t.Gives m o m') : t.Gives m o (m.resume m') := by
  have hresume : m.resume m' = m' := by
    rw [Machine.resume, ← h.back.current, ← h.back.depth]
  rwa [hresume]

lemma eval (h : (expr e).Gives m (some v) m') :
    ∀ᶠ n in Filter.atTop, e.eval (callWithin n) n m = some (v, m') := by
  filter_upwards [h.eventually] with n hn
  exact run_expr_eq_some.1 hn

lemma of_eval (h : ∀ᶠ n in Filter.atTop, e.eval (callWithin n) n m = some (v, m')) :
    (expr e).Gives m (some v) m' := by
  refine .of_eventually ?_
  filter_upwards [h] with n hn
  exact run_expr_eq_some.2 hn

end Gives

end Phrase

end MiniPascal
