import Mathlib
import MiniPascal.Evaluation
/-! Properties that all evaluations have if single steps do. -/

namespace MiniPascal

namespace Run

section Apply

variable {α β : Type} (m : Machine)

lemma bind_apply (x : Run α) (f : α → Run β) : (x >>= f) m = (x m).bind fun r => f r.1 r.2 := rfl

lemma inScope_apply (parent : ScopeId) (x : Run α) :
    inScope parent x m =
      (x (m.openScope parent).2).map fun r => (r.1, { r.2 with current := m.current }) := by
  rw [inScope]
  dsimp only
  cases x (m.openScope parent).2 <;> rfl

lemma deeper_apply (x : Run α) :
    deeper x m =
      (x { m with depth := m.depth + 1 }).map
        fun r => (r.1, { r.2 with depth := r.2.depth - 1 }) := by
  rw [deeper]
  cases x { m with depth := m.depth + 1 } <;> rfl

end Apply

structure Closed (P : {α : Type} → Run α → Prop) : Prop where
  pure {α : Type} (a : α) : P (pure a : Run α)
  bind {α β : Type} {x : Run α} {f : α → Run β} : P x → (∀ a, P (f a)) → P (x >>= f)
  cutOff {α : Type} : P (cutOff : Run α)
  lookup (name : String) : P (lookup name)
  define (name : String) (v : Value) : P (define name v)
  declare (name : String) (v : Value) (constant : Bool) : P (declare name v constant)
  assign (name : String) (v : Value) : P (assign name v)
  close (header : Header) (body : Block) : P (close header body)
  record (call : CallRecord) : P (record call)
  current : P current
  depth : P depth
  inScope {α : Type} (parent : ScopeId) {x : Run α} : P x → P (inScope parent x)
  deeper {α : Type} {x : Run α} : P x → P (deeper x)

namespace Closed

variable {P : {α : Type} → Run α → Prop} (h : Closed P)

include h

lemma onValue {α : Type} {outcome : Value → α} {x : Run Value} {f : Value → Run α} (hx : P x)
    (hf : ∀ v, P (f v)) : P (onValue outcome x f) := by
  refine h.bind hx fun v => ?_
  split
  · exact h.pure _
  · exact hf v

lemma repeatWhile {test : Run Value} {body : Run (Option Value)} (htest : P test)
    (hbody : P body) (passes : Nat) : P (repeatWhile test body passes) := by
  induction passes with
  | zero => exact h.cutOff
  | succ passes ih =>
    refine h.onValue htest fun v => ?_
    split
    · refine h.bind hbody fun outcome => ?_
      split
      · exact h.pure _
      · exact ih
    · exact h.pure _

lemma repeatFor {body : Run (Option Value)} (hbody : P body) (counter : String) (count : Nat)
    (n : Int64) : P (repeatFor counter body count n) := by
  induction count generalizing n with
  | zero => exact h.pure _
  | succ count ih =>
    refine h.bind (h.define _ _) fun _ => ?_
    refine h.bind hbody fun outcome => ?_
    split
    · exact h.pure _
    · exact ih (n + 1)

lemma countedLoop {body : Run (Option Value)} (hbody : P body) (counter : String)
    (first last : Value) : P (countedLoop counter body first last) := by
  rw [Run.countedLoop.eq_def]
  split
  · exact h.bind h.current fun parent => h.inScope parent (h.repeatFor hbody _ _ _)
  · exact h.pure _
  · exact h.pure _

lemma bindAll (bindings : List (Parameter × Value)) : P (bindAll bindings) := by
  induction bindings with
  | nil => exact h.pure _
  | cons b rest ih => exact h.bind (h.define _ _) fun _ => ih

lemma execute {body : Run (Option Value)} (hbody : P body) (p : Procedure) (args : List Value) :
    P (execute p args body) := by
  rw [Run.execute]
  split
  · refine h.bind (h.record _) fun _ => ?_
    refine h.bind (h.inScope _ ?_) fun outcome => h.pure _
    exact h.bind (h.bindAll _) fun _ => hbody
  · exact h.pure _

lemma enter {x : Run Value} (hx : P x) : P (enter x) := by
  refine h.bind h.depth fun n => ?_
  split
  · exact h.pure _
  · exact h.deeper hx

section Syntax

variable {call : Caller} {passes : ℕ}

-- Induction on the syntax.
mutual
lemma eval (hcall : ∀ p args, P (call p args)) : ∀ e : Expr, P (e.eval call passes)
  | .named name => h.lookup name
  | .integer _ _ => h.pure _
  | .real _ _ => h.pure _
  | .boolean _ _ => h.pure _
  | .string _ => h.pure _
  | .prefixed _ _ right => h.onValue (eval hcall right) fun _ => h.pure _
  | .infixed _ _ left right =>
    h.onValue (eval hcall left) fun _ => h.onValue (eval hcall right) fun _ => h.pure _
  | .conditional _ condition consequence none => by
    refine h.onValue (eval hcall condition) fun v => ?_
    split
    · exact h.bind (execBlock hcall consequence) fun _ => h.pure _
    · exact h.pure _
  | .conditional _ condition consequence (some other) => by
    refine h.onValue (eval hcall condition) fun v => ?_
    split
    · exact h.bind (execBlock hcall consequence) fun _ => h.pure _
    · exact h.bind (execBlock hcall other) fun _ => h.pure _
  | .procedure header body =>
    h.bind (h.close header body) fun _ => h.bind (h.declare _ _ _) fun _ => h.pure _
  | .call _ callee arguments => by
    refine h.bind (eval hcall callee) fun v => ?_
    split
    · refine h.bind (evalAll hcall arguments) fun result => ?_
      split
      · exact h.enter (hcall _ _)
      · exact h.pure _
    · exact h.pure _

lemma evalAll (hcall : ∀ p args, P (call p args)) :
    ∀ es : List Expr, P (Expr.evalAll call passes es)
  | [] => h.pure _
  | e :: rest => h.onValue (eval hcall e) fun _ => h.bind (evalAll hcall rest) fun _ => h.pure _

lemma exec (hcall : ∀ p args, P (call p args)) : ∀ s : Stmt, P (s.exec call passes)
  | .declare _ _ _ _ value => h.onValue (eval hcall value) fun _ => h.declare _ _ _
  | .assign _ value => h.onValue (eval hcall value) fun _ => h.assign _ _
  | .giveBack _ value => h.onValue (eval hcall value) fun _ => h.pure _
  | .expression _ value => h.bind (eval hcall value) fun _ => h.pure _
  | .block body => execBlock hcall body
  | .whileLoop _ condition body =>
    h.repeatWhile (eval hcall condition) (execBlock hcall body) passes
  | .forLoop _ counter first last body =>
    h.onValue (eval hcall first) fun _ => h.onValue (eval hcall last) fun _ =>
      h.countedLoop (execBlock hcall body) counter _ _

lemma execAll (hcall : ∀ p args, P (call p args)) :
    ∀ (before : Option Value) (ss : List Stmt), P (Stmt.execAll call passes before ss)
  | before, [] => h.pure _
  | before, s :: rest => by
    refine h.bind (exec hcall s) fun outcome => ?_
    split
    · exact h.pure _
    · exact execAll hcall outcome rest

lemma execBlock (hcall : ∀ p args, P (call p args)) : ∀ b : Block, P (b.exec call passes)
  | .mk _ statements =>
    h.bind h.current fun parent => h.inScope parent (execAll hcall none statements)
end

end Syntax

lemma callWithin (n : Nat) : ∀ p args, P (callWithin n p args) := by
  induction n with
  | zero => exact fun _ _ => h.cutOff
  | succ n ih => exact fun p args => h.execute (h.execAll ih none p.body.statements) p args

lemma outcomeOf (n : Nat) (before : Option Value) (ss : List Stmt) :
    P (Program.outcomeOf n before ss) := by
  induction ss generalizing before with
  | nil => exact h.pure _
  | cons s rest ih =>
    refine h.bind (h.exec (h.callWithin n) s) fun outcome => ?_
    split
    · exact h.pure _
    · exact h.pure _
    · exact ih _

lemma valuesOf (n : Nat) (ss : List Stmt) : P (Program.valuesOf n ss) := by
  induction ss with
  | nil => exact h.pure _
  | cons s rest ih =>
    refine h.bind (h.exec (h.callWithin n) s) fun outcome => ?_
    split
    · exact h.pure _
    · exact h.pure _
    · exact h.bind ih fun _ => h.pure _
    · exact ih

end Closed

end Run

end MiniPascal
