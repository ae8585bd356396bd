import MiniPascal.Proofs.Evaluation.Discipline

namespace MiniPascal

/-- An expression, a statement, or a program by one of its drivers, is evaluated on `m` to its end
and leaves the other machine, whatever its outcome. -/
inductive Machine.Evaluates (m : Machine) : Machine → Prop
  | expression {n v m'} (e : Expr) : e.eval (callWithin n) n m = some (v, m') → Evaluates m m'
  | statement {n outcome m'} (s : Stmt) : s.exec (callWithin n) n m = some (outcome, m') →
    Evaluates m m'
  | statements {n outcome m'} (p : Program) : p.execStatements n m = some (outcome, m') →
    Evaluates m m'
  | program {n outcome m'} (p : Program) : p.exec n m = some (outcome, m') → Evaluates m m'
  | each {n values m'} (p : Program) : p.execEach n m = some (values, m') → Evaluates m m'

namespace Discipline

open Run

variable {D : Discipline}

def KeepsCalls (D : Discipline) (call : Caller) : Prop :=
  ∀ p args c m, D.Ready c m → D.val m.store (.procedure p) →
    (∀ v ∈ args, D.held m.store v) → ∀ d, D.Keeps d D.val m (call p args)

section Syntax

variable {call : Caller} {passes : ℕ}

-- Induction on the syntax; a block keeps to the rules of every scope, as its own is new.
mutual
lemma eval (hcall : D.KeepsCalls call) {c : ScopeId} {m : Machine} (h : D.Ready c m) :
    ∀ e : Expr, D.Keeps c D.val m (e.eval call passes)
  | .named name => .lookup name h
  | .integer _ value => .pure h (D.plain (v := .integer value) trivial)
  | .real _ value => .pure h (D.plain (v := .real value) trivial)
  | .boolean _ value => .pure h (D.plain (v := .boolean value) trivial)
  | .string value => .pure h (D.plain (v := .string value) trivial)
  | .prefixed _ operator right => by
    refine .onValue h (eval hcall h right) (fun _ _ => id) fun v m₁ h₁ _ => ?_
    exact .pure h₁ (D.plain (Value.isPlain_applyPrefix operator v))
  | .infixed _ operator left right => by
    refine .onValue h (eval hcall h left) (fun _ _ => id) fun a m₁ h₁ _ => ?_
    refine .onValue h₁ (eval hcall h₁ right) (fun _ _ => id) fun b m₂ h₂ _ => ?_
    exact .pure h₂ (D.plain (Value.isPlain_applyInfix operator a b))
  | .conditional _ condition consequence none => by
    refine .onValue h (eval hcall h condition) (fun _ _ => id) fun v m₁ h₁ _ => ?_
    split
    · exact .map h₁ (execBlock hcall h₁ consequence c) fun _ _ => outcome_getD
    · exact .pure h₁ (D.plain (v := .null) trivial)
  | .conditional _ condition consequence (some other) => by
    refine .onValue h (eval hcall h condition) (fun _ _ => id) fun v m₁ h₁ _ => ?_
    split
    · exact .map h₁ (execBlock hcall h₁ consequence c) fun _ _ => outcome_getD
    · exact .map h₁ (execBlock hcall h₁ other c) fun _ _ => outcome_getD
  | .procedure header body => by
    refine (Keeps.close header body h).bind h fun p m₁ h₁ hp => ?_
    have hdeclare := Keeps.declare header.name false h₁ (D.hold hp rfl)
    refine (hdeclare.with_mono (fun _ _ => D.val_mono) hp).map h₁ fun refusal s hs => ?_
    cases refusal with
    | none => exact hs.2
    | some v => exact hs.1 v rfl
  | .call _ callee arguments => by
    refine (eval hcall h callee).bind h fun v m₁ h₁ hv => ?_
    split
    · next p =>
      refine ((evalAll hcall h₁ arguments).with_mono (fun _ _ => D.val_mono) hv).bind h₁
        fun result m₂ h₂ hresult => ?_
      split
      · next args =>
        refine .enter h₂ fun m₃ h₃ hstore => ?_
        rw [← hstore] at hresult
        exact hcall p args c m₃ h₃ hresult.2 hresult.1 c
      · exact .pure h₂ hresult.1
    · refine .pure h₁ ?_
      split
      · exact hv
      · exact D.plain (Value.isPlain_ofError _)

lemma evalAll (hcall : D.KeepsCalls call) {c : ScopeId} {m : Machine} (h : D.Ready c m) :
    ∀ es : List Expr, D.Keeps c D.Arguments m (Expr.evalAll call passes es)
  | [] => .pure h nofun
  | e :: rest => by
    refine .onValue h (eval hcall h e) (fun _ _ => id) fun v m₁ h₁ hv => ?_
    refine ((evalAll hcall h₁ rest).with_mono (fun _ _ => D.held_mono) hv).map h₁
      fun result s hs => ?_
    cases result with
    | error w => exact hs.1
    | ok vs => exact List.forall_mem_cons.2 hs.symm

lemma exec (hcall : D.KeepsCalls call) {c : ScopeId} {m : Machine} (h : D.Ready c m) :
    ∀ s : Stmt, D.Keeps c D.Outcome m (s.exec call passes)
  | .declare _ constant name _ value =>
    .onValue h (eval hcall h value) (fun _ _ => outcome_some) fun _ _ h₁ hv =>
      .declare name constant h₁ hv
  | .assign name value =>
    .onValue h (eval hcall h value) (fun _ _ => outcome_some) fun _ _ h₁ hv =>
      .assign name h₁ hv
  | .giveBack _ value =>
    .onValue h (eval hcall h value) (fun _ _ => outcome_some) fun _ _ h₁ hv =>
      .pure h₁ (outcome_some (D.returned hv))
  | .expression _ value => .map h (eval hcall h value) fun _ _ => outcome_some
  | .block body => execBlock hcall h body c
  | .whileLoop _ condition body =>
    .repeatWhile (fun _ h => eval hcall h condition) (fun _ h => execBlock hcall h body c) passes h
  | .forLoop _ counter first last body => by
    refine .onValue h (eval hcall h first) (fun _ _ => outcome_some) fun a m₁ h₁ _ => ?_
    refine .onValue h₁ (eval hcall h₁ last) (fun _ _ => outcome_some) fun b m₂ h₂ _ => ?_
    exact .countedLoop (fun _ _ h => execBlock hcall h body) counter a b h₂

lemma execAll (hcall : D.KeepsCalls call) {c : ScopeId} {m : Machine} (h : D.Ready c m) :
    ∀ (before : Option Value) (ss : List Stmt), D.Outcome m.store before →
      D.Keeps c D.Outcome m (Stmt.execAll call passes before ss)
  | _, [], hbefore => .pure h hbefore
  | before, s :: rest, _ => by
    refine (exec hcall h s).bind h fun outcome m₁ h₁ houtcome => ?_
    split
    · exact .pure h₁ houtcome
    · exact execAll hcall h₁ outcome rest houtcome

lemma execBlock (hcall : D.KeepsCalls call) {c : ScopeId} {m : Machine} (h : D.Ready c m) :
    ∀ (b : Block) (d : ScopeId), D.Keeps d D.Outcome m (b.exec call passes)
  | .mk _ statements, d => by
    refine (Keeps.current h).bind h fun id m₁ h₁ hid => ?_
    obtain ⟨_, rfl⟩ := hid
    exact .inScope h₁ h₁.live fun h₂ _ => execAll hcall h₂ none statements outcome_none
end

end Syntax

variable (D) in
lemma keepsCalls (n : Nat) : D.KeepsCalls (callWithin n) := by
  induction n with
  | zero => exact fun _ _ _ _ _ _ _ _ => .cutOff
  | succ n ih =>
    intro p args c m h hp hargs d
    exact .execute (fun c m h => execAll ih h none p.body.statements outcome_none) h hp hargs

section Drivers

variable {c : ScopeId} {m m' : Machine} (n : Nat)

lemma outcomeOf (h : D.Ready c m) (before : Option Value) (ss : List Stmt)
    (hbefore : D.Outcome m.store before) :
    D.Keeps c D.Outcome m (Program.outcomeOf n before ss) := by
  induction ss generalizing m before with
  | nil => exact .pure h hbefore
  | cons s rest ih =>
    refine (exec (D.keepsCalls n) h s).bind h fun outcome m₁ h₁ houtcome => ?_
    split
    · exact .pure h₁ (outcome_some (D.unwrap (houtcome _ rfl)))
    · exact .pure h₁ houtcome
    · exact ih h₁ _ houtcome

lemma valuesOf (h : D.Ready c m) (ss : List Stmt) :
    D.Keeps c (fun s vs => ∀ v ∈ vs, D.val s v) m (Program.valuesOf n ss) := by
  induction ss generalizing m with
  | nil => exact .pure h nofun
  | cons s rest ih =>
    refine (exec (D.keepsCalls n) h s).bind h fun outcome m₁ h₁ houtcome => ?_
    split
    · exact .pure h₁ (List.forall_mem_singleton.2 (D.unwrap (houtcome _ rfl)))
    · exact .pure h₁ (List.forall_mem_singleton.2 (houtcome _ rfl))
    · next v _ _ =>
      refine ((ih h₁).with_mono (fun _ _ => D.val_mono) (houtcome v rfl)).map h₁ fun vs s hs => ?_
      exact List.forall_mem_cons.2 hs.symm
    · exact ih h₁

theorem change_of_evaluates (h : D.Ready c m) (hm : m.Evaluates m') : D.Change c m m' := by
  have hcall := D.keepsCalls
  cases hm with
  | expression e hrun => exact (eval (hcall _) h e _ _ hrun).toChange
  | statement s hrun => exact (exec (hcall _) h s _ _ hrun).toChange
  | statements p hrun =>
    exact (execAll (hcall _) h none p.statements outcome_none _ _ hrun).toChange
  | program p hrun => exact (outcomeOf _ h none p.statements outcome_none _ _ hrun).toChange
  | each p hrun => exact (valuesOf _ h p.statements _ _ hrun).toChange

end Drivers

end Discipline

end MiniPascal
