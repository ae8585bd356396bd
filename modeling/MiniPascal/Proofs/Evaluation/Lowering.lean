import MiniPascal.Proofs.Evaluation.Positions

namespace MiniPascal

def Machine.withDepth (m : Machine) (depth : ℕ) : Machine := { m with depth := depth }

def Value.tooDeep : Value := .error "maximum call depth of 200 exceeded"

lemma Value.ofError_callDepthExceeded : ofError (.callDepthExceeded maxCallDepth) = tooDeep := by
  rw [maxCallDepth]
  rfl

namespace Run

variable {α β : Type} {d passes : ℕ} {stopped : α → Prop} {stopped' : β → Prop}

lemma enter_apply (x : Run Value) (m : Machine) :
    enter x m = if maxCallDepth ≤ m.depth then some (.tooDeep, m) else deeper x m := by
  rw [enter, bind_apply, Value.ofError_callDepthExceeded]
  change (if maxCallDepth ≤ m.depth then pure .tooDeep else deeper x : Run Value) m = _
  split <;> rfl

/-- What `x` gives at the depth `d` of calls, `y` gives at this depth, and at every lesser one too
unless `x` is stopped by the limit. -/
def Lowers (d : ℕ) (stopped : α → Prop) (x y : Run α) : Prop :=
  ∀ m a m', m.depth = d → x m = some (a, m') →
    m'.depth = d ∧ ∀ c, c = d ∨ c < d ∧ ¬ stopped a →
      y (m.withDepth c) = some (a, m'.withDepth c)

namespace Lowers

lemma of_still {x : Run α}
    (h : ∀ m c, x (m.withDepth c) = (x m).map fun r => (r.1, r.2.withDepth c)) :
    Lowers d stopped x x := by
  intro m a m' hd hx
  refine ⟨?_, fun c _ => ?_⟩
  · have hsame := h m m.depth
    change x m = _ at hsame
    rw [hx] at hsame
    injection hsame with hsame
    injection hsame with _ hsame
    rw [hsame]
    exact hd
  · rw [h, hx]
    rfl

lemma pure (a : α) : Lowers d stopped (Pure.pure a) (Pure.pure a) := of_still fun _ _ => rfl

lemma cutOff : Lowers d stopped (cutOff : Run α) cutOff := of_still fun _ _ => rfl

lemma bind {x y : Run α} {f g : α → Run β} (hx : Lowers d stopped x y)
    (hf : ∀ a, Lowers d stopped' (f a) (g a))
    (hstop : ∀ a, stopped a → ∀ m r, f a m = some r → stopped' r.1) :
    Lowers d stopped' (x >>= f) (y >>= g) := by
  intro m b m' hd h
  obtain ⟨⟨a, m₁⟩, hm₁, h⟩ := Option.bind_eq_some_iff.1 h
  obtain ⟨hd₁, hy⟩ := hx m a m₁ hd hm₁
  obtain ⟨hd', hg⟩ := hf a m₁ b m' hd₁ h
  refine ⟨hd', fun c hc => ?_⟩
  have hc' : c = d ∨ c < d ∧ ¬ stopped a :=
    hc.imp_right fun hlow => ⟨hlow.1, fun ha => hlow.2 (hstop a ha m₁ _ h)⟩
  exact (bind_of_eq (hy c hc')).trans (hg c hc)

lemma next {x y : Run α} {f g : α → Run β} (hx : Lowers d (fun _ => False) x y)
    (hf : ∀ a, Lowers d stopped' (f a) (g a)) : Lowers d stopped' (x >>= f) (y >>= g) :=
  hx.bind hf fun _ h => h.elim

lemma map {x y : Run α} {f : α → β} (hx : Lowers d stopped x y)
    (hf : ∀ a, stopped a → stopped' (f a)) :
    Lowers d stopped' (x >>= fun a => Pure.pure (f a)) (y >>= fun a => Pure.pure (f a)) := by
  refine hx.bind (fun a => pure (f a)) ?_
  rintro a ha m r ⟨⟩
  exact hf a ha

lemma onValue {outcome : Value → α} {x y : Run Value} {f g : Value → Run α}
    (hx : Lowers d (· = .tooDeep) x y) (houtcome : stopped (outcome .tooDeep))
    (hf : ∀ v, Lowers d stopped (f v) (g v)) :
    Lowers d stopped (onValue outcome x f) (onValue outcome y g) := by
  refine hx.bind (fun v => ?_) ?_
  · split
    · exact pure _
    · exact hf v
  · rintro _ rfl m r ⟨⟩
    exact houtcome

lemma onOutcome {x y : Run (Option Value)} {f g : Option Value → Run (Option Value)}
    (hx : Lowers d (· = some .tooDeep) x y) (hf : ∀ o, Lowers d (· = some .tooDeep) (f o) (g o)) :
    Lowers d (· = some .tooDeep) (x >>= fun o => if o.any Value.isAbrupt then Pure.pure o else f o)
      (y >>= fun o => if o.any Value.isAbrupt then Pure.pure o else g o) := by
  refine hx.bind (fun o => ?_) ?_
  · split
    · exact pure _
    · exact hf o
  · rintro _ rfl m r ⟨⟩
    rfl

lemma inScope {x y : Run α} (h : Lowers d stopped x y) (parent : ScopeId) :
    Lowers d stopped (inScope parent x) (inScope parent y) := by
  intro m a m' hd hrun
  rw [inScope_apply, Option.map_eq_some_iff] at hrun
  obtain ⟨⟨a, m₁⟩, hx, ⟨⟩⟩ := hrun
  obtain ⟨hd₁, hy⟩ := h (m.openScope parent).2 a m₁ hd hx
  refine ⟨hd₁, fun c hc => ?_⟩
  have hinner : y ((m.withDepth c).openScope parent).2 = some (a, m₁.withDepth c) := hy c hc
  exact inScope_of_eq hinner

-- A call that the limit refuses is stopped, so at a lesser depth it may well be made.
lemma enter {x y : Run Value} (h : d < maxCallDepth → Lowers (d + 1) (· = .tooDeep) x y) :
    Lowers d (· = .tooDeep) (enter x) (enter y) := by
  rintro m v m' rfl hrun
  rw [enter_apply] at hrun
  split at hrun
  · next hle =>
    cases hrun
    refine ⟨rfl, fun c hc => ?_⟩
    obtain rfl := hc.resolve_right fun hlow => hlow.2 rfl
    rw [enter_apply]
    exact if_pos hle
  · next hlt =>
    have hlt : m.depth < maxCallDepth := Nat.lt_of_not_le hlt
    rw [deeper_apply, Option.map_eq_some_iff] at hrun
    obtain ⟨⟨v, m₁⟩, hx, ⟨⟩⟩ := hrun
    obtain ⟨hd₁, hy⟩ := h hlt (m.withDepth (m.depth + 1)) v m₁ rfl hx
    refine ⟨Nat.sub_eq_of_eq_add hd₁, fun c hc => ?_⟩
    have hinner : y ((m.withDepth c).withDepth (c + 1)) = some (v, m₁.withDepth (c + 1)) :=
      hy (c + 1) (hc.imp (congrArg (· + 1)) fun hlow => ⟨Nat.succ_lt_succ hlow.1, hlow.2⟩)
    have hlow : ¬ maxCallDepth ≤ c := by omega
    rw [enter_apply, deeper_apply]
    refine (if_neg hlow).trans ?_
    exact congrArg (Option.map _) hinner

lemma bindAll (bindings : List (Parameter × Value)) :
    Lowers d (fun _ => False) (bindAll bindings) (bindAll bindings) := by
  induction bindings with
  | nil => exact pure _
  | cons b rest ih => exact .next (.of_still fun _ _ => rfl) fun _ => ih

lemma repeatWhile {test test' : Run Value} {body body' : Run (Option Value)}
    (htest : Lowers d (· = .tooDeep) test test')
    (hbody : Lowers d (· = some .tooDeep) body body') (passes : ℕ) :
    Lowers d (· = some .tooDeep) (repeatWhile test body passes)
      (repeatWhile test' body' passes) := by
  induction passes with
  | zero => exact cutOff
  | succ passes ih =>
    refine htest.onValue rfl fun v => ?_
    split
    · exact hbody.onOutcome fun _ => ih
    · exact pure _

section Bodies

variable {body body' : Run (Option Value)} (hbody : Lowers d (· = some .tooDeep) body body')

include hbody

lemma repeatFor (counter : String) (count : ℕ) (n : Int64) :
    Lowers d (· = some .tooDeep) (repeatFor counter body count n)
      (repeatFor counter body' count n) := by
  induction count generalizing n with
  | zero => exact pure _
  | succ count ih =>
    refine .next (.of_still fun _ _ => rfl) fun _ => ?_
    exact hbody.onOutcome fun _ => ih (n + 1)

lemma countedLoop (counter : String) (first last : Value) :
    Lowers d (· = some .tooDeep) (countedLoop counter body first last)
      (countedLoop counter body' first last) := by
  rw [Run.countedLoop.eq_def, Run.countedLoop.eq_def]
  split
  · refine .next (.of_still fun _ _ => rfl) fun parent => ?_
    exact (hbody.repeatFor counter _ _).inScope parent
  · exact pure _
  · exact pure _

lemma execute (p : Procedure) (args : List Value) :
    Lowers d (· = .tooDeep) (execute p args body) (execute p args body') := by
  rw [Run.execute, Run.execute]
  split
  · refine .next (.of_still fun _ _ => rfl) fun _ => .map (.inScope (.next ?_ fun _ => hbody) _) ?_
    · exact bindAll _
    · rintro _ rfl
      rfl
  · exact pure _

end Bodies

section Syntax

def Calls (d : ℕ) (call call' : Caller) : Prop :=
  d < maxCallDepth → ∀ p args, Lowers (d + 1) (· = .tooDeep) (call p args) (call' p args)

variable {call call' : Caller} {passes : ℕ}

-- Induction on the syntax.
mutual
lemma eval (hcall : Calls d call call') :
    ∀ e : Expr, Lowers d (· = .tooDeep) (e.eval call passes) (e.eval call' passes)
  | .named _ => .of_still fun _ _ => rfl
  | .integer _ _ => pure _
  | .real _ _ => pure _
  | .boolean _ _ => pure _
  | .string _ => pure _
  | .prefixed _ _ right => (eval hcall right).onValue rfl fun _ => pure _
  | .infixed _ _ left right =>
    (eval hcall left).onValue rfl fun _ => (eval hcall right).onValue rfl fun _ => pure _
  | .conditional _ condition consequence none => by
    refine (eval hcall condition).onValue rfl fun v => ?_
    split
    · exact (execBlock hcall consequence).map fun _ h => by rw [h]; rfl
    · exact pure _
  | .conditional _ condition consequence (some other) => by
    refine (eval hcall condition).onValue rfl fun v => ?_
    split
    · exact (execBlock hcall consequence).map fun _ h => by rw [h]; rfl
    · exact (execBlock hcall other).map fun _ h => by rw [h]; rfl
  | .procedure _ _ =>
    .next (.of_still fun _ _ => rfl) fun _ => .next (.of_still fun _ _ => rfl) fun _ => pure _
  | .call _ callee arguments => by
    refine (eval hcall callee).bind (fun v => ?_) ?_
    · split
      · refine (evalAll hcall arguments).bind (fun result => ?_) ?_
        · split
          · exact enter fun hd => hcall hd _ _
          · exact pure _
        · rintro _ rfl m r ⟨⟩
          rfl
      · exact pure _
    · rintro _ rfl m r ⟨⟩
      rfl

lemma evalAll (hcall : Calls d call call') :
    ∀ es : List Expr, Lowers d (· = .error .tooDeep)
      (Expr.evalAll call passes es) (Expr.evalAll call' passes es)
  | [] => pure _
  | e :: rest =>
    (eval hcall e).onValue rfl fun _ => (evalAll hcall rest).map fun _ h => by rw [h]; rfl

lemma exec (hcall : Calls d call call') :
    ∀ s : Stmt, Lowers d (· = some .tooDeep) (s.exec call passes) (s.exec call' passes)
  | .declare _ _ _ _ value => (eval hcall value).onValue rfl fun _ => .of_still fun _ _ => rfl
  | .assign _ value => (eval hcall value).onValue rfl fun _ => .of_still fun _ _ => rfl
  | .giveBack _ value => (eval hcall value).onValue rfl fun _ => pure _
  | .expression _ value => (eval hcall value).map fun _ => congrArg some
  | .block body => execBlock hcall body
  | .whileLoop _ condition body => (eval hcall condition).repeatWhile (execBlock hcall body) passes
  | .forLoop _ counter first last body =>
    (eval hcall first).onValue rfl fun _ => (eval hcall last).onValue rfl fun _ =>
      (execBlock hcall body).countedLoop counter _ _

lemma execAll (hcall : Calls d call call') :
    ∀ (before : Option Value) (ss : List Stmt), Lowers d (· = some .tooDeep)
      (Stmt.execAll call passes before ss) (Stmt.execAll call' passes before ss)
  | _, [] => pure _
  | _, s :: rest => (exec hcall s).onOutcome fun outcome => execAll hcall outcome rest

lemma execBlock (hcall : Calls d call call') :
    ∀ b : Block, Lowers d (· = some .tooDeep) (b.exec call passes) (b.exec call' passes)
  | .mk _ statements =>
    .next (.of_still fun _ _ => rfl) fun parent => (execAll hcall none statements).inScope parent
end

end Syntax

end Lowers

end Run

open Run

/-- As `callWithin`, but only `room` bodies run inside one another; what would run inside these is
left to `beyond`. -/
def callBeyond (beyond : Caller) : (room n : ℕ) → Caller
  | 0, _ => beyond
  | _ + 1, 0 => fun _ _ => cutOff
  | room + 1, n + 1 => fun p args =>
    execute p args (Stmt.execAll (callBeyond beyond room n) n none p.body.statements)

section Callers

variable {beyond beyond' : Caller} {d room room' n : ℕ}

variable (beyond) in
lemma callBeyond_of_lt (h : n < room) : callBeyond beyond room n = callWithin n := by
  induction n generalizing room with
  | zero =>
    obtain ⟨room, rfl⟩ := Nat.exists_eq_add_one_of_ne_zero (Nat.ne_zero_of_lt h)
    rfl
  | succ n ih =>
    obtain ⟨room, rfl⟩ := Nat.exists_eq_add_one_of_ne_zero (Nat.ne_zero_of_lt h)
    rw [callBeyond, callWithin, ih (Nat.lt_of_succ_lt_succ h)]

-- At the depth at which no room would be left, the limit refuses the call.
lemma Run.Lowers.callBeyond (hd : d < maxCallDepth) (hroom : maxCallDepth ≤ d + room)
    (hroom' : maxCallDepth ≤ d + room') (p : Procedure) (args : List Value) :
    Lowers (d + 1) (· = .tooDeep) (callBeyond beyond room n p args)
      (MiniPascal.callBeyond beyond' room' n p args) := by
  induction n generalizing d room room' p args with
  | zero =>
    obtain ⟨room, rfl⟩ : ∃ k, room = k + 1 := Nat.exists_eq_add_one_of_ne_zero (by omega)
    obtain ⟨room', rfl⟩ : ∃ k, room' = k + 1 := Nat.exists_eq_add_one_of_ne_zero (by omega)
    exact .cutOff
  | succ n ih =>
    obtain ⟨room, rfl⟩ : ∃ k, room = k + 1 := Nat.exists_eq_add_one_of_ne_zero (by omega)
    obtain ⟨room', rfl⟩ : ∃ k, room' = k + 1 := Nat.exists_eq_add_one_of_ne_zero (by omega)
    have hcall : Calls (d + 1) (MiniPascal.callBeyond beyond room n)
        (MiniPascal.callBeyond beyond' room' n) :=
      fun hd' => ih hd' (by omega) (by omega)
    exact .execute (.execAll hcall none p.body.statements) p args

end Callers

def Phrase.runWith (call : Caller) (passes : ℕ) : Phrase → Run (Option Value)
  | expr e => do pure (some (← e.eval call passes))
  | stmt s => s.exec call passes
  | stmts ss => Stmt.execAll call passes none ss
  | block b => b.exec call passes

lemma Phrase.runWith_callWithin (t : Phrase) (n : ℕ) : t.runWith (callWithin n) n = t.run n := by
  cases t <;> rfl

namespace Run.Lowers

variable {d n : ℕ}

lemma same {α : Type} {stopped : α → Prop} {x y : Run α} (h : Lowers d stopped x y) {m : Machine}
    (hd : m.depth = d) {r : α × Machine} (hx : x m = some r) : y m = some r := by
  subst hd
  obtain ⟨a, m'⟩ := r
  obtain ⟨hd', hy⟩ := h m a m' rfl hx
  have hsame := hy m.depth (.inl rfl)
  have hback : m'.withDepth m.depth = m' := by
    rw [← hd']
    rfl
  rw [hback] at hsame
  exact hsame

lemma lesser {α : Type} {stopped : α → Prop} {x y : Run α} {m m' : Machine} {a : α}
    (h : Lowers m.depth stopped x y) (hx : x m = some (a, m')) (ha : ¬ stopped a)
    (hd : d ≤ m.depth) :
    y (m.withDepth d) = some (a, m'.withDepth d) :=
  (h m a m' rfl hx).2 d (hd.eq_or_lt.imp_right fun hlt => ⟨hlt, ha⟩)

lemma runWith {call call' : Caller} {passes : ℕ} (hcall : Calls d call call') :
    ∀ t : Phrase, Lowers d (· = some .tooDeep) (t.runWith call passes) (t.runWith call' passes)
  | .expr e => (eval hcall e).map fun _ => congrArg some
  | .stmt s => exec hcall s
  | .stmts ss => execAll hcall none ss
  | .block b => execBlock hcall b

lemma callWithin (hd : d < maxCallDepth) (p : Procedure) (args : List Value) :
    Lowers (d + 1) (· = .tooDeep) (callWithin n p args) (MiniPascal.callWithin n p args) := by
  have hlt : n < n + 1 + maxCallDepth := by omega
  have hroom : maxCallDepth ≤ d + (n + 1 + maxCallDepth) := by omega
  rw [← callBeyond_of_lt (fun _ _ => Run.cutOff) hlt]
  exact callBeyond hd hroom hroom p args

lemma run (t : Phrase) : Lowers d (· = some .tooDeep) (t.run n) (t.run n) := by
  rw [← t.runWith_callWithin]
  exact runWith callWithin t

lemma outcomeOf (before : Option Value) (ss : List Stmt) :
    Lowers d (· = some .tooDeep) (Program.outcomeOf n before ss)
      (Program.outcomeOf n before ss) := by
  induction ss generalizing before with
  | nil => exact pure _
  | cons s rest ih =>
    refine (exec callWithin s).bind (fun o => ?_) ?_
    · split
      · exact pure _
      · exact pure _
      · exact ih _
    · rintro _ rfl m r ⟨⟩
      rfl

lemma valuesOf (ss : List Stmt) :
    Lowers d (fun vs => vs.getLast? = some .tooDeep) (Program.valuesOf n ss)
      (Program.valuesOf n ss) := by
  induction ss with
  | nil => exact pure _
  | cons s rest ih =>
    refine (exec callWithin s).bind (fun o => ?_) ?_
    · split
      · exact pure _
      · exact pure _
      · refine ih.map fun vs hvs => ?_
        rw [List.getLast?_cons, hvs]
        rfl
      · exact ih
    · rintro _ rfl m r ⟨⟩
      rfl

end Run.Lowers

end MiniPascal
