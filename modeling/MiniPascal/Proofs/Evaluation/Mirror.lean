import MiniPascal.Proofs.Evaluation.Bare
import MiniPascal.Proofs.Evaluation.Closed
/-! Types and literals have no effect on what is evaluated. -/

namespace MiniPascal

def Value.bareAll : Except Value (List Value) → Except Value (List Value)
  | .ok args => .ok (args.map Value.bare)
  | .error v => .error v.bare

namespace Run

variable {α β γ δ : Type} {view : α → β}

/-- On bare machines `y` goes the way of `x`, and it gives what `view` makes of the result. -/
def Mirrors (view : α → β) (x : Run α) (y : Run β) : Prop :=
  ∀ m, y m.bare = (x m).map fun r => (view r.1, r.2.bare)

namespace Mirrors

lemma pure {a : α} {b : β} (h : b = view a) : Mirrors view (pure a) (pure b) :=
  fun m => congrArg (fun b => some (b, m.bare)) h

lemma bind {view' : γ → δ} {x : Run α} {y : Run β} {f : α → Run γ} {g : β → Run δ}
    (hx : Mirrors view x y) (hf : ∀ a, Mirrors view' (f a) (g (view a))) :
    Mirrors view' (x >>= f) (y >>= g) := by
  intro m
  rw [bind_apply, bind_apply, hx m]
  cases x m with
  | none => rfl
  | some r => exact hf r.1 r.2

lemma ite {c c' : Bool} {x₁ x₂ : Run α} {y₁ y₂ : Run β} (hc : c' = c) (h₁ : Mirrors view x₁ y₁)
    (h₂ : Mirrors view x₂ y₂) :
    Mirrors view (if c then x₁ else x₂) (if c' then y₁ else y₂) := by
  subst hc
  split
  · exact h₁
  · exact h₂

lemma onValue {outcome : Value → α} {outcome' : Value → β} {x y : Run Value} {f : Value → Run α}
    {g : Value → Run β} (hx : Mirrors Value.bare x y)
    (houtcome : ∀ v, outcome' v.bare = view (outcome v))
    (hf : ∀ v, Mirrors view (f v) (g v.bare)) :
    Mirrors view (onValue outcome x f) (onValue outcome' y g) :=
  hx.bind fun v => ite v.isAbrupt_bare (pure (houtcome v)) (hf v)

lemma orNull (o : Option Value) : Mirrors Value.bare (Pure.pure (o.getD .null))
    (Pure.pure ((o.map Value.bare).getD .null)) := by
  cases o <;> exact pure rfl

lemma cutOff : Mirrors view cutOff cutOff := fun _ => rfl

lemma current : Mirrors id current current := fun _ => rfl

lemma depth : Mirrors id depth depth := fun _ => rfl

lemma record (call : CallRecord) : Mirrors id (record call) (record call) := fun _ => rfl

lemma close (header : Header) (body : Block) :
    Mirrors Procedure.bare (close header body) (close header.bare body.bare) := fun _ => rfl

lemma lookup (name : String) : Mirrors Value.bare (lookup name) (lookup name) := by
  intro m
  have hvalue := m.store.get?_bare m.current name
  change some ((m.store.bare.get? m.current name).getD _, m.bare) =
    some (((m.store.get? m.current name).getD _).bare, m.bare)
  rw [hvalue]
  cases m.store.get? m.current name <;> rfl

lemma define (name : String) (v : Value) : Mirrors id (define name v) (define name v.bare) := by
  intro m
  change some ((), { m.bare with store := m.store.bare.define m.current name v.bare }) = _
  rw [← Store.define_bare]
  rfl

-- The store refuses alike, and a refusal is an error, which is bare.
lemma answer_bare (m : Machine) {answer answer' : Option EvalError × Store}
    (h : answer' = (answer.1, answer.2.bare)) :
    (answer'.1.map Value.ofError, { m.bare with store := answer'.2 }) =
      ((answer.1.map Value.ofError).map Value.bare, Machine.bare { m with store := answer.2 }) := by
  obtain ⟨refusal, store⟩ := answer
  cases h
  cases refusal <;> rfl

lemma declare (name : String) (v : Value) (constant : Bool) :
    Mirrors (Option.map Value.bare) (declare name v constant) (declare name v.bare constant) :=
  fun m => congrArg some (answer_bare m (m.store.declare_bare m.current name v constant))

lemma assign (name : String) (v : Value) :
    Mirrors (Option.map Value.bare) (assign name v) (assign name v.bare) :=
  fun m => congrArg some (answer_bare m (m.store.assign_bare m.current name v))

lemma inScope (parent : ScopeId) {x : Run α} {y : Run β} (h : Mirrors view x y) :
    Mirrors view (inScope parent x) (inScope parent y) := by
  intro m
  rw [inScope_apply, inScope_apply, m.openScope_bare, h, Option.map_map, Option.map_map]
  rfl

lemma deeper {x : Run α} {y : Run β} (h : Mirrors view x y) :
    Mirrors view (deeper x) (deeper y) := by
  intro m
  rw [deeper_apply, deeper_apply]
  change Option.map _ (y (Machine.bare { m with depth := m.depth + 1 })) = _
  rw [h, Option.map_map, Option.map_map]
  rfl

lemma enter {x y : Run Value} (h : Mirrors Value.bare x y) :
    Mirrors Value.bare (enter x) (enter y) := by
  refine depth.bind fun n => ?_
  rw [id]
  split
  · exact pure rfl
  · exact h.deeper

lemma bindAll (parameters : List Parameter) (args : List Value) :
    Mirrors id (bindAll (parameters.zip args))
      (bindAll ((parameters.map Parameter.bare).zip (args.map Value.bare))) := by
  induction parameters generalizing args with
  | nil => exact pure rfl
  | cons p parameters ih =>
    cases args with
    | nil => exact pure rfl
    | cons v args => exact (define p.name v).bind fun _ => ih args

section Combined

variable {body body' : Run (Option Value)} (hbody : Mirrors (Option.map Value.bare) body body')

include hbody

lemma repeatWhile {test test' : Run Value} (htest : Mirrors Value.bare test test') (passes : ℕ) :
    Mirrors (Option.map Value.bare) (repeatWhile test body passes)
      (repeatWhile test' body' passes) := by
  induction passes with
  | zero => exact cutOff
  | succ passes ih =>
    refine htest.onValue (fun _ => rfl) fun v => ite v.isTruthy_bare ?_ (pure rfl)
    exact hbody.bind fun outcome => ite (Value.any_isAbrupt_bare outcome) (pure rfl) ih

lemma repeatFor (counter : String) (count : ℕ) (n : Int64) :
    Mirrors (Option.map Value.bare) (repeatFor counter body count n)
      (repeatFor counter body' count n) := by
  induction count generalizing n with
  | zero => exact pure rfl
  | succ count ih =>
    refine (define counter (.integer n)).bind fun _ => hbody.bind fun outcome => ?_
    exact ite (Value.any_isAbrupt_bare outcome) (pure rfl) (ih (n + 1))

lemma countedLoop (counter : String) (first last : Value) :
    Mirrors (Option.map Value.bare) (countedLoop counter body first last)
      (countedLoop counter body' first.bare last.bare) := by
  cases first with
  | integer a =>
    cases last with
    | integer b => exact current.bind fun parent => (hbody.repeatFor counter _ a).inScope parent
    | _ => exact pure rfl
  | _ => exact pure rfl

lemma execute (p : Procedure) (args : List Value) :
    Mirrors Value.bare (execute p args body) (execute p.bare (args.map Value.bare) body') := by
  rw [Run.execute, Run.execute, List.length_map, p.arity_bare]
  split
  · refine (record ⟨p.header.name, args.length⟩).bind fun _ => ?_
    refine (inScope p.closure ((bindAll p.header.parameters args).bind fun _ => hbody)).bind ?_
    rintro (_ | v)
    · exact pure rfl
    · exact pure v.unwrap_bare.symm
  · exact pure rfl

end Combined

section Syntax

def Calls (call call' : Caller) : Prop :=
  ∀ p args, Mirrors Value.bare (call p args) (call' p.bare (args.map Value.bare))

variable {call call' : Caller} {passes : ℕ}

-- Induction on the syntax: the bare tree has the same constructors, so the runs are put together
-- in the same way.
mutual
lemma eval (hcall : Calls call call') :
    ∀ e : Expr, Mirrors Value.bare (e.eval call passes) (e.bare.eval call' passes)
  | .named name => lookup name
  | .integer _ _ => pure rfl
  | .real _ _ => pure rfl
  | .boolean _ _ => pure rfl
  | .string _ => pure rfl
  | .prefixed _ operator right =>
    (eval hcall right).onValue (fun _ => rfl) fun v => pure (v.applyPrefix_bare operator).symm
  | .infixed _ operator left right =>
    (eval hcall left).onValue (fun _ => rfl) fun a =>
      (eval hcall right).onValue (fun _ => rfl) fun b =>
        pure (Value.applyInfix_bare operator a b).symm
  | .conditional _ condition consequence none =>
    (eval hcall condition).onValue (fun _ => rfl) fun v =>
      ite v.isTruthy_bare ((execBlock hcall consequence).bind orNull) (pure rfl)
  | .conditional _ condition consequence (some other) =>
    (eval hcall condition).onValue (fun _ => rfl) fun v =>
      ite v.isTruthy_bare ((execBlock hcall consequence).bind orNull)
        ((execBlock hcall other).bind orNull)
  | .procedure header body =>
    (close header body).bind fun p => (declare header.name (.procedure p) false).bind fun o => by
      cases o <;> exact pure rfl
  | .call _ callee arguments => by
    refine (eval hcall callee).bind fun v => ?_
    cases v with
    | procedure p =>
      refine (evalAll hcall arguments).bind fun result => ?_
      cases result with
      | ok args => exact (hcall p args).enter
      | error v => exact pure rfl
    | _ => exact pure rfl

lemma evalAll (hcall : Calls call call') :
    ∀ es : List Expr, Mirrors Value.bareAll (Expr.evalAll call passes es)
      (Expr.evalAll call' passes (Expr.listBare es))
  | [] => pure rfl
  | e :: rest => by
    refine (eval hcall e).onValue (fun _ => rfl) fun v => (evalAll hcall rest).bind fun result => ?_
    cases result <;> exact pure rfl

lemma exec (hcall : Calls call call') :
    ∀ s : Stmt, Mirrors (Option.map Value.bare) (s.exec call passes) (s.bare.exec call' passes)
  | .declare _ constant name _ value =>
    (eval hcall value).onValue (fun _ => rfl) fun v => declare name v constant
  | .assign name value => (eval hcall value).onValue (fun _ => rfl) fun v => assign name v
  | .giveBack _ value => (eval hcall value).onValue (fun _ => rfl) fun _ => pure rfl
  | .expression _ value => (eval hcall value).bind fun _ => pure rfl
  | .block body => execBlock hcall body
  | .whileLoop _ condition body => (execBlock hcall body).repeatWhile (eval hcall condition) passes
  | .forLoop _ counter first last body =>
    (eval hcall first).onValue (fun _ => rfl) fun a =>
      (eval hcall last).onValue (fun _ => rfl) fun b =>
        (execBlock hcall body).countedLoop counter a b

lemma execAll (hcall : Calls call call') :
    ∀ (before : Option Value) (ss : List Stmt),
      Mirrors (Option.map Value.bare) (Stmt.execAll call passes before ss)
        (Stmt.execAll call' passes (before.map Value.bare) (Stmt.listBare ss))
  | _, [] => pure rfl
  | _, s :: rest => (exec hcall s).bind fun outcome =>
    ite (Value.any_isAbrupt_bare outcome) (pure rfl) (execAll hcall outcome rest)

lemma execBlock (hcall : Calls call call') :
    ∀ b : Block, Mirrors (Option.map Value.bare) (b.exec call passes) (b.bare.exec call' passes)
  | .mk _ statements => current.bind fun parent => (execAll hcall none statements).inScope parent
end

end Syntax

lemma callWithin (n : ℕ) (p : Procedure) (args : List Value) :
    Mirrors Value.bare (callWithin n p args) (callWithin n p.bare (args.map Value.bare)) := by
  induction n generalizing p args with
  | zero => exact cutOff
  | succ n ih =>
    have hbody : p.bare.body.statements = Stmt.listBare p.body.statements := p.body.statements_bare
    refine execute ?_ p args
    rw [hbody]
    exact execAll ih none p.body.statements

lemma outcomeOf (n : ℕ) (before : Option Value) (ss : List Stmt) :
    Mirrors (Option.map Value.bare) (Program.outcomeOf n before ss)
      (Program.outcomeOf n (before.map Value.bare) (Stmt.listBare ss)) := by
  induction ss generalizing before with
  | nil => exact pure rfl
  | cons s rest ih =>
    refine (exec (callWithin n) s).bind fun outcome => ?_
    cases outcome with
    | none => exact ih none
    | some v =>
      cases v with
      | returned v => exact pure rfl
      | error message => exact pure rfl
      | _ => exact ih (some _)

lemma valuesOf (n : ℕ) (ss : List Stmt) :
    Mirrors (List.map Value.bare) (Program.valuesOf n ss)
      (Program.valuesOf n (Stmt.listBare ss)) := by
  induction ss with
  | nil => exact pure rfl
  | cons s rest ih =>
    refine (exec (callWithin n) s).bind fun outcome => ?_
    cases outcome with
    | none => exact ih
    | some v =>
      cases v with
      | returned v => exact pure rfl
      | error message => exact pure rfl
      | _ => exact ih.bind fun _ => pure rfl

end Mirrors

end Run

namespace Program

open Run

section Drivers

variable (n : ℕ) (p : Program)

lemma exec_bare : Mirrors (Option.map Value.bare) (p.exec n) (p.bare.exec n) :=
  .outcomeOf n none p.statements

lemma execEach_bare : Mirrors (List.map Value.bare) (p.execEach n) (p.bare.execEach n) :=
  .valuesOf n p.statements

lemma execStatements_bare :
    Mirrors (Option.map Value.bare) (p.execStatements n) (p.bare.execStatements n) :=
  .execAll (.callWithin n) none p.statements

end Drivers

end Program

end MiniPascal
