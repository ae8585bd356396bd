import MiniPascal.Proofs.Evaluation.Regime
import MiniPascal.Proofs.Evaluation.Phrase
/-! Code that has none but allowed statements inside it keeps to the rules of a regime. -/

namespace MiniPascal

namespace Regime

open Run

def Allows (R : Regime) (ss : List Stmt) : Prop := ∀ s ∈ ss, R.allowed s

variable {R : Regime} {d : ℕ} {s : Stmt} {ss rest : List Stmt}

lemma allows_append : R.Allows (ss ++ rest) ↔ R.Allows ss ∧ R.Allows rest := List.forall_mem_append

lemma allows_cons : R.Allows (s :: ss) ↔ R.allowed s ∧ R.Allows ss := List.forall_mem_cons

def SoundCalls (R : Regime) (d : ℕ) (call : Caller) : Prop :=
  ∀ p args, R.Allows (p.body.inner R.deep) → (∀ v ∈ args, R.bound v) →
    R.Sound d (R.given []) (call p args)

section Syntax

variable {call : Caller} {passes : ℕ}

-- Induction on the syntax; what a call runs is in the store, so it is left to `hcall`.
mutual
lemma sound_eval (hcall : d < maxCallDepth → R.SoundCalls (d + 1) call) :
    ∀ e : Expr, R.Allows (e.inner R.deep) →
      R.Sound d (R.given (e.inner R.deep)) (e.eval call passes)
  | .named name, _ => .lookup name
  | .integer _ _, _ => .pure (given_plain trivial)
  | .real _ _, _ => .pure (given_plain trivial)
  | .boolean _ _, _ => .pure (given_plain trivial)
  | .string _, _ => .pure (given_plain trivial)
  | .prefixed _ operator right, h =>
    .onValue (sound_eval hcall right h) (fun _ => id) fun v _ =>
      .pure (given_plain (v.isPlain_applyPrefix operator))
  | .infixed _ operator left right, h => by
    obtain ⟨hleft, hright⟩ := allows_append.1 h
    refine .onValue (sound_eval hcall left hleft) (fun _ => given_left) fun a _ => ?_
    refine .onValue (sound_eval hcall right hright) (fun _ => given_right) fun b _ => ?_
    exact .pure (given_plain (Value.isPlain_applyInfix operator a b))
  | .conditional _ condition consequence none, h => by
    obtain ⟨hcondition, hconsequence⟩ := allows_append.1 h
    refine .onValue (sound_eval hcall condition hcondition) (fun _ => given_left) fun v _ => ?_
    split
    · exact .map (sound_execBlock hcall consequence hconsequence) fun _ ho =>
        given_right ho.getD_null
    · exact .pure (given_plain trivial)
  | .conditional _ condition consequence (some other), h => by
    obtain ⟨h, hother⟩ := allows_append.1 h
    obtain ⟨hcondition, hconsequence⟩ := allows_append.1 h
    refine .onValue (sound_eval hcall condition hcondition) (fun _ hv => given_left (given_left hv))
      fun v _ => ?_
    split
    · exact .map (sound_execBlock hcall consequence hconsequence) fun _ ho =>
        given_left (given_right ho.getD_null)
    · exact .map (sound_execBlock hcall other hother) fun _ ho => given_right ho.getD_null
  | .procedure header body, h => by
    refine (Sound.close header body).bind fun p hp => ?_
    obtain ⟨rfl, rfl⟩ := hp
    have hbound : R.bound (.procedure p) := R.close h
    exact .map (.declare p.header.name false hbound) fun _ ho =>
      Outcome.getD ho (given_bound hbound)
  | .call _ callee arguments, h => by
    obtain ⟨hcallee, harguments⟩ := allows_append.1 h
    refine (sound_eval hcall callee hcallee).bind fun v hv => ?_
    split
    · next p =>
      refine (sound_evalAll hcall arguments harguments).bind fun result hresult => ?_
      split
      · next args =>
        refine .mono (.enter fun hd => hcall hd p args (R.body hv) hresult) fun w hw => ?_
        exact R.mono hw (List.nil_subset _)
      · exact .pure (given_right hresult)
    · refine .pure ?_
      split
      · exact given_left hv
      · exact given_plain (Value.isPlain_ofError _)

lemma sound_evalAll (hcall : d < maxCallDepth → R.SoundCalls (d + 1) call) :
    ∀ es : List Expr, R.Allows (Expr.listInner R.deep es) →
      R.Sound d (R.Arguments (Expr.listInner R.deep es)) (Expr.evalAll call passes es)
  | [], _ => .pure nofun
  | e :: rest, h => by
    obtain ⟨he, hrest⟩ := allows_append.1 h
    refine .onValue (sound_eval hcall e he) (fun _ => given_left) fun v hv => ?_
    refine .map (sound_evalAll hcall rest hrest) fun result hresult => ?_
    cases result with
    | error w => exact given_right hresult
    | ok vs => exact List.forall_mem_cons.2 ⟨hv, hresult⟩

lemma sound_exec (hcall : d < maxCallDepth → R.SoundCalls (d + 1) call) :
    ∀ s : Stmt, R.Allows (s :: s.inner R.deep) →
      R.Sound d (R.Outcome (s :: s.inner R.deep)) (s.exec call passes)
  | .declare _ constant name _ value, h =>
    .onValue (sound_eval hcall value (allows_cons.1 h).2) (fun _ hv => .some (given_cons _ hv))
      fun _ hv => .declare name constant hv
  | .assign name value, h =>
    .onValue (sound_eval hcall value (allows_cons.1 h).2) (fun _ hv => .some (given_cons _ hv))
      fun _ hv => .assign name hv
  | .giveBack lexeme value, h => by
    refine .bind (sound_eval hcall value (allows_cons.1 h).2) fun v hv => ?_
    split
    · exact .pure (.some (given_cons _ hv))
    · next habrupt => exact .pure (.some (R.returned lexeme value hv (by simpa using habrupt)))
  | .expression _ value, h =>
    .map (sound_eval hcall value (allows_cons.1 h).2) fun _ hv => .some (given_cons _ hv)
  | .block body, h =>
    (sound_execBlock hcall body (allows_cons.1 h).2).widen (List.subset_cons_self _ _)
  | .whileLoop _ condition body, h => by
    obtain ⟨hs, h⟩ := allows_cons.1 h
    obtain ⟨hcondition, hbody⟩ := allows_append.1 h
    have htest : R.Sound d (R.given (condition.inner R.deep ++ body.inner R.deep))
        (condition.eval call passes) :=
      (sound_eval hcall condition hcondition).mono fun _ => given_left
    have hpass := (sound_execBlock hcall body hbody).widen
      (List.subset_append_right (condition.inner R.deep) _)
    exact (Sound.repeatWhile (R.loop hs) htest hpass passes).widen (List.subset_cons_self _ _)
  | .forLoop _ counter first last body, h => by
    obtain ⟨h, hbody⟩ := allows_append.1 (allows_cons.1 h).2
    obtain ⟨hfirst, hlast⟩ := allows_append.1 h
    refine Sound.widen ?_ (List.subset_cons_self _ _)
    refine .onValue (sound_eval hcall first hfirst) (fun _ hv => .some (given_left (given_left hv)))
      fun a _ => ?_
    refine .onValue (sound_eval hcall last hlast) (fun _ hv => .some (given_left (given_right hv)))
      fun b _ => ?_
    refine .countedLoop ?_ counter a b
    exact (sound_execBlock hcall body hbody).widen (List.subset_append_right _ _)

lemma sound_execAll (hcall : d < maxCallDepth → R.SoundCalls (d + 1) call) :
    ∀ (before : Option Value) (ss : List Stmt), R.Outcome [] before →
      R.Allows (Stmt.listInner R.deep ss) →
      R.Sound d (R.Outcome (Stmt.listInner R.deep ss)) (Stmt.execAll call passes before ss)
  | _, [], hbefore, _ => .pure hbefore
  | before, s :: rest, _, h => by
    rw [Stmt.listInner_cons] at h ⊢
    obtain ⟨hs, hrest⟩ := allows_append.1 h
    refine (sound_exec hcall s hs).bind fun outcome houtcome => ?_
    split
    · exact .pure (houtcome.mono (List.subset_append_left _ _))
    · next habrupt =>
      have hsettled : R.Outcome [] outcome := houtcome.settled (by simpa using habrupt)
      exact (sound_execAll hcall outcome rest hsettled hrest).widen (List.subset_append_right _ _)

lemma sound_execBlock (hcall : d < maxCallDepth → R.SoundCalls (d + 1) call) :
    ∀ b : Block, R.Allows (b.inner R.deep) →
      R.Sound d (R.Outcome (b.inner R.deep)) (b.exec call passes)
  | .mk _ statements, h =>
    Sound.current.bind fun parent _ => (sound_execAll hcall none statements .none h).inScope parent
end

end Syntax

-- If runs may not be cut off, the bound has to be larger than the number of calls left.
lemma soundCalls {n d : ℕ} (h : R.cut ∨ d ≤ maxCallDepth ∧ maxCallDepth < n + d) :
    R.SoundCalls d (callWithin n) := by
  induction n generalizing d with
  | zero => exact fun _ _ _ _ => .cutOff (h.resolve_right (by omega))
  | succ n ih =>
    intro p args hp hargs
    have hcall (hd : d < maxCallDepth) : R.SoundCalls (d + 1) (callWithin n) :=
      ih (h.imp_right fun _ => by omega)
    have hbody : R.Allows (Stmt.listInner R.deep p.body.statements) := by
      cases hb : p.body with
      | mk opener statements => rwa [hb] at hp
    exact .execute (sound_execAll hcall none p.body.statements .none hbody) hargs

section Drivers

variable {n : ℕ} (hn : R.cut ∨ maxCallDepth ≤ n)

include hn

lemma soundCalls_of_le (hd : d < maxCallDepth) : R.SoundCalls (d + 1) (callWithin n) :=
  soundCalls (hn.imp_right fun _ => by omega)

lemma sound_run : ∀ t : Phrase, R.Allows (t.inner R.deep) →
    R.Sound d (R.Outcome (t.inner R.deep)) (t.run n)
  | .expr e, h => .map (sound_eval (soundCalls_of_le hn) e h) fun _ => .some
  | .stmt s, h => sound_exec (soundCalls_of_le hn) s h
  | .stmts ss, h => sound_execAll (soundCalls_of_le hn) none ss .none h
  | .block b, h => sound_execBlock (soundCalls_of_le hn) b h

lemma sound_outcomeOf (ss : List Stmt) (h : R.Allows (Stmt.listInner R.deep ss))
    (before : Option Value) (hbefore : R.Outcome [] before) :
    R.Sound d (R.Outcome []) (Program.outcomeOf n before ss) := by
  induction ss generalizing before with
  | nil => exact .pure hbefore
  | cons s rest ih =>
    rw [Stmt.listInner_cons, allows_append] at h
    obtain ⟨hs, hrest⟩ := h
    refine (sound_exec (soundCalls_of_le hn) s hs).bind fun outcome houtcome => ?_
    split
    · exact .pure (.some (R.unwrap (houtcome _ rfl)))
    · exact .pure (.some (given_plain trivial))
    · next hreturned herror =>
      refine ih hrest outcome ?_
      rintro v rfl
      have habrupt : v.isAbrupt = false := Value.isAbrupt_eq_false
        (fun w hw => hreturned w (congrArg some hw)) fun _ hw => herror _ (congrArg some hw)
      exact R.get (R.hold (houtcome v rfl) habrupt)

lemma sound_valuesOf (ss : List Stmt) (h : R.Allows (Stmt.listInner R.deep ss)) :
    R.Sound d (fun values => ∀ v ∈ values, R.given [] v) (Program.valuesOf n ss) := by
  induction ss with
  | nil => exact .pure nofun
  | cons s rest ih =>
    rw [Stmt.listInner_cons, allows_append] at h
    obtain ⟨hs, hrest⟩ := h
    refine (sound_exec (soundCalls_of_le hn) s hs).bind fun outcome houtcome => ?_
    split
    · exact .pure (List.forall_mem_singleton.2 (R.unwrap (houtcome _ rfl)))
    · exact .pure (List.forall_mem_singleton.2 (given_plain trivial))
    · next v hreturned herror =>
      refine .map (ih hrest) fun values hvalues => List.forall_mem_cons.2 ⟨?_, hvalues⟩
      exact R.get (R.hold (houtcome v rfl) (Value.isAbrupt_eq_false hreturned herror))
    · exact ih hrest

end Drivers

end Regime

end MiniPascal
