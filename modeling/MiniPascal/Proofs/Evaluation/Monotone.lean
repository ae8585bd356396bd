import MiniPascal.Proofs.Evaluation.Closed
/-! What is given under one bound is given under all larger ones. -/

namespace MiniPascal

namespace Run

variable {α β : Type}

def Below (x y : Run α) : Prop := ∀ m r, x m = some r → y m = some r

namespace Below

lemma refl (x : Run α) : Below x x := fun _ _ => id

lemma cutOff (y : Run α) : Below cutOff y := nofun

lemma bind {x y : Run α} {f g : α → Run β} (hx : Below x y) (hf : ∀ a, Below (f a) (g a)) :
    Below (x >>= f) (y >>= g) := by
  intro m r hr
  rw [bind_apply, Option.bind_eq_some_iff] at hr ⊢
  obtain ⟨first, hfirst, hr⟩ := hr
  exact ⟨first, hx m first hfirst, hf first.1 first.2 r hr⟩

lemma onValue {outcome : Value → α} {x y : Run Value} {f g : Value → Run α} (hx : Below x y)
    (hf : ∀ v, Below (f v) (g v)) : Below (onValue outcome x f) (onValue outcome y g) := by
  refine hx.bind fun v => ?_
  split
  · exact refl _
  · exact hf v

lemma inScope (parent : ScopeId) {x y : Run α} (h : Below x y) :
    Below (inScope parent x) (inScope parent y) := by
  intro m r hr
  rw [inScope_apply, Option.map_eq_some_iff] at hr ⊢
  obtain ⟨inner, hinner, hr⟩ := hr
  exact ⟨inner, h _ inner hinner, hr⟩

lemma deeper {x y : Run α} (h : Below x y) : Below (deeper x) (deeper y) := by
  intro m r hr
  rw [deeper_apply, Option.map_eq_some_iff] at hr ⊢
  obtain ⟨inner, hinner, hr⟩ := hr
  exact ⟨inner, h _ inner hinner, hr⟩

lemma repeatWhile {test test' : Run Value} {body body' : Run (Option Value)} {passes passes' : ℕ}
    (htest : Below test test') (hbody : Below body body') (hpasses : passes ≤ passes') :
    Below (repeatWhile test body passes) (repeatWhile test' body' passes') := by
  induction passes generalizing passes' with
  | zero => exact cutOff _
  | succ passes ih =>
    obtain ⟨passes', rfl⟩ := Nat.exists_eq_add_one_of_ne_zero (Nat.ne_zero_of_lt hpasses)
    refine htest.onValue fun v => ?_
    split
    · refine hbody.bind fun outcome => ?_
      split
      · exact refl _
      · exact ih (Nat.le_of_succ_le_succ hpasses)
    · exact refl _

lemma repeatFor {body body' : Run (Option Value)} (hbody : Below body body') (counter : String)
    (count : ℕ) (n : Int64) :
    Below (repeatFor counter body count n) (repeatFor counter body' count n) := by
  induction count generalizing n with
  | zero => exact refl _
  | succ count ih =>
    refine (refl _).bind fun _ => hbody.bind fun outcome => ?_
    split
    · exact refl _
    · exact ih (n + 1)

lemma countedLoop {body body' : Run (Option Value)} (hbody : Below body body') (counter : String)
    (first last : Value) :
    Below (countedLoop counter body first last) (countedLoop counter body' first last) := by
  rw [Run.countedLoop.eq_def, Run.countedLoop.eq_def]
  split
  · exact (refl _).bind fun parent => (hbody.repeatFor counter _ _).inScope parent
  · exact refl _
  · exact refl _

lemma execute {body body' : Run (Option Value)} (hbody : Below body body') (p : Procedure)
    (args : List Value) : Below (execute p args body) (execute p args body') := by
  rw [Run.execute, Run.execute]
  split
  · refine (refl _).bind fun _ => ?_
    exact (((refl _).bind fun _ => hbody).inScope p.closure).bind fun _ => refl _
  · exact refl _

lemma enter {x y : Run Value} (h : Below x y) : Below (enter x) (enter y) := by
  refine (refl _).bind fun n => ?_
  split
  · exact refl _
  · exact h.deeper

section Syntax

structure Wider (call call' : Caller) (passes passes' : ℕ) : Prop where
  call : ∀ p args, Below (call p args) (call' p args)
  passes : passes ≤ passes'

variable {call call' : Caller} {passes passes' : ℕ}

-- Induction on the syntax.
mutual
lemma eval (h : Wider call call' passes passes') :
    ∀ e : Expr, Below (e.eval call passes) (e.eval call' passes')
  | .named _ => refl _
  | .integer _ _ => refl _
  | .real _ _ => refl _
  | .boolean _ _ => refl _
  | .string _ => refl _
  | .prefixed _ _ right => (eval h right).onValue fun _ => refl _
  | .infixed _ _ left right => (eval h left).onValue fun _ => (eval h right).onValue fun _ => refl _
  | .conditional _ condition consequence none => by
    refine (eval h condition).onValue fun v => ?_
    split
    · exact (execBlock h consequence).bind fun _ => refl _
    · exact refl _
  | .conditional _ condition consequence (some other) => by
    refine (eval h condition).onValue fun v => ?_
    split
    · exact (execBlock h consequence).bind fun _ => refl _
    · exact (execBlock h other).bind fun _ => refl _
  | .procedure _ _ => refl _
  | .call _ callee arguments => by
    refine (eval h callee).bind fun v => ?_
    split
    · refine (evalAll h arguments).bind fun result => ?_
      split
      · exact (h.call _ _).enter
      · exact refl _
    · exact refl _

lemma evalAll (h : Wider call call' passes passes') :
    ∀ es : List Expr, Below (Expr.evalAll call passes es) (Expr.evalAll call' passes' es)
  | [] => refl _
  | e :: rest => (eval h e).onValue fun _ => (evalAll h rest).bind fun _ => refl _

lemma exec (h : Wider call call' passes passes') :
    ∀ s : Stmt, Below (s.exec call passes) (s.exec call' passes')
  | .declare _ _ _ _ value => (eval h value).onValue fun _ => refl _
  | .assign _ value => (eval h value).onValue fun _ => refl _
  | .giveBack _ value => (eval h value).onValue fun _ => refl _
  | .expression _ value => (eval h value).bind fun _ => refl _
  | .block body => execBlock h body
  | .whileLoop _ condition body => (eval h condition).repeatWhile (execBlock h body) h.passes
  | .forLoop _ counter first last body =>
    (eval h first).onValue fun _ => (eval h last).onValue fun _ =>
      (execBlock h body).countedLoop counter _ _

lemma execAll (h : Wider call call' passes passes') :
    ∀ (before : Option Value) (ss : List Stmt),
      Below (Stmt.execAll call passes before ss) (Stmt.execAll call' passes' before ss)
  | _, [] => refl _
  | before, s :: rest => by
    refine (exec h s).bind fun outcome => ?_
    split
    · exact refl _
    · exact execAll h outcome rest

lemma execBlock (h : Wider call call' passes passes') :
    ∀ b : Block, Below (b.exec call passes) (b.exec call' passes')
  | .mk _ statements => (refl _).bind fun parent => (execAll h none statements).inScope parent
end

end Syntax

variable {n n' : ℕ} (h : n ≤ n')

include h

lemma callWithin (p : Procedure) (args : List Value) :
    Below (callWithin n p args) (callWithin n' p args) := by
  induction n generalizing n' p args with
  | zero => exact cutOff _
  | succ n ih =>
    obtain ⟨n', rfl⟩ := Nat.exists_eq_add_one_of_ne_zero (Nat.ne_zero_of_lt h)
    have hle : n ≤ n' := Nat.le_of_succ_le_succ h
    exact (execAll ⟨ih hle, hle⟩ none p.body.statements).execute p args

lemma outcomeOf (before : Option Value) (ss : List Stmt) :
    Below (Program.outcomeOf n before ss) (Program.outcomeOf n' before ss) := by
  induction ss generalizing before with
  | nil => exact refl _
  | cons s rest ih =>
    refine (exec ⟨callWithin h, h⟩ s).bind fun outcome => ?_
    split
    · exact refl _
    · exact refl _
    · exact ih _

lemma valuesOf (ss : List Stmt) : Below (Program.valuesOf n ss) (Program.valuesOf n' ss) := by
  induction ss with
  | nil => exact refl _
  | cons s rest ih =>
    refine (exec ⟨callWithin h, h⟩ s).bind fun outcome => ?_
    split
    · exact refl _
    · exact refl _
    · exact ih.bind fun _ => refl _
    · exact ih

end Below

end Run

end MiniPascal
