import MiniPascal.Proofs.Evaluation.Phrase
import MiniPascal.Proofs.Evaluation.Reach
import MiniPascal.Proofs.Evaluation.Regime
import MiniPascal.Proofs.Value.Comparison

namespace MiniPascal

namespace Value

def Among (K : Set Procedure) (v : Value) : Prop := ∀ p, v.Holds p → p ∈ K

def OutcomeAmong (K : Set Procedure) (o : Option Value) : Prop := ∀ v ∈ o, v.Among K

def ArgumentsAmong (K : Set Procedure) : Except Value (List Value) → Prop
  | .ok vs => ∀ v ∈ vs, v.Among K
  | .error v => v.Among K

variable {K L : Set Procedure} {p : Procedure} {v : Value} {o : Option Value}

lemma Among.of_isPlain (h : v.IsPlain) : v.Among K := by
  rintro p ⟨⟩ <;> exact h.elim

lemma Among.mono (h : v.Among K) (hK : K ⊆ L) : v.Among L := fun p hp => hK (h p hp)

lemma Among.returned (h : v.Among K) : (Value.returned v).Among K := by
  rintro p ⟨⟩
  exact h p ‹_›

lemma Among.unwrap (h : v.Among K) : v.unwrap.Among K := by
  cases v with
  | returned w => exact fun p hp => h p (.returned hp)
  | _ => exact h

lemma Among.procedure (h : p ∈ K) : (Value.procedure p).Among K := by
  rintro q ⟨⟩
  exact h

namespace OutcomeAmong

lemma none : OutcomeAmong K none := nofun

lemma some (h : v.Among K) : OutcomeAmong K (some v) := by
  rintro w ⟨⟩
  exact h

lemma getD (h : OutcomeAmong K o) (hv : v.Among K) : (o.getD v).Among K := by
  cases o with
  | none => exact hv
  | some w => exact h w rfl

lemma getD_null (h : OutcomeAmong K o) : (o.getD .null).Among K :=
  h.getD (.of_isPlain (v := .null) trivial)

lemma refusal (e : Option EvalError) : OutcomeAmong K (e.map ofError) := by
  cases e with
  | none => exact none
  | some e => exact some (.of_isPlain (isPlain_ofError e))

end OutcomeAmong

end Value

open Value (Among OutcomeAmong ArgumentsAmong)

namespace Machine

/-- What can be looked up on the machine holds no other procedures than these, all of them were made
before, and no two have the same identity. -/
structure Knows (m : Machine) (K : Set Procedure) : Prop where
  store : m.store.BindsOnly (Among K)
  made : ∀ p ∈ K, p.identity < m.made
  apart : K.InjOn Procedure.identity

/-- From `m` to `m'`, procedures with new identities came to be known. -/
structure Learns (m : Machine) (K : Set Procedure) (m' : Machine) (K' : Set Procedure) : Prop where
  kept : K ⊆ K'
  knows : m'.Knows K'
  made : m.made ≤ m'.made
  fresh : ∀ p ∈ K', p ∉ K → m.made ≤ p.identity

variable {m m' m₁ m₂ : Machine} {K K' K₁ K₂ : Set Procedure}

lemma Knows.of_eq (h : m.Knows K) (hstore : m'.store = m.store) (hmade : m'.made = m.made) :
    m'.Knows K where
  store := by
    rw [hstore]
    exact h.store
  made := by
    rw [hmade]
    exact h.made
  apart := h.apart

lemma knows_initial : initial.Knows ∅ :=
  ⟨Store.BindsOnly.initial, fun p hp => absurd hp (Set.notMem_empty p), Set.injOn_empty _⟩

namespace Learns

lemma same (h : m'.Knows K) (hmade : m.made ≤ m'.made) : m.Learns K m' K :=
  ⟨subset_rfl, h, hmade, fun _ hp hne => absurd hp hne⟩

lemma refl (h : m.Knows K) : m.Learns K m K := same h (Nat.le_refl _)

lemma of_eq (h : m₁.Learns K m₂ K') (hfirst : m₁.made = m.made) (hstore : m'.store = m₂.store)
    (hlast : m'.made = m₂.made) : m.Learns K m' K' where
  kept := h.kept
  knows := h.knows.of_eq hstore hlast
  made := by
    rw [← hfirst, hlast]
    exact h.made
  fresh := by
    rw [← hfirst]
    exact h.fresh

lemma trans (h : m.Learns K m₁ K₁) (h' : m₁.Learns K₁ m₂ K₂) : m.Learns K m₂ K₂ where
  kept := h.kept.trans h'.kept
  knows := h'.knows
  made := h.made.trans h'.made
  fresh := by
    intro p hp hne
    by_cases hp₁ : p ∈ K₁
    · exact h.fresh p hp₁ hne
    · exact h.made.trans (h'.fresh p hp hp₁)

lemma close (h : m.Knows K) (header : Header) (body : Block) :
    m.Learns K (m.close header body).2 (insert (m.close header body).1 K) where
  kept := Set.subset_insert _ _
  knows := by
    have hlt : ∀ p ∈ K, p.identity ≠ m.made := fun p hp => (h.made p hp).ne
    refine ⟨fun i name b hb => ?_, ?_, ?_⟩
    · exact (h.store i name b hb).mono (Set.subset_insert _ _)
    · rintro p (rfl | hp)
      · exact Nat.lt_succ_self _
      · exact Nat.lt_succ_of_lt (h.made p hp)
    · rw [Set.injOn_insert]
      · refine ⟨h.apart, ?_⟩
        rintro ⟨p, hp, heq⟩
        exact hlt p hp heq
      · intro hp
        exact hlt _ hp rfl
  made := Nat.le_succ _
  fresh := by
    rintro p (rfl | hp) hne
    · exact Nat.le_refl _
    · exact absurd hp hne

end Learns

end Machine

namespace Run

open Machine (Knows)

variable {α β : Type} {m : Machine} {K : Set Procedure} {good : Set Procedure → α → Prop}
  {goal : Set Procedure → β → Prop} {v : Value}

def Learns (K : Set Procedure) (good : Set Procedure → α → Prop) (m : Machine) (x : Run α) : Prop :=
  ∀ a m', x m = some (a, m') → ∃ K', m.Learns K m' K' ∧ good K' a

namespace Learns

lemma pure {a : α} (h : m.Knows K) (ha : good K a) : Learns K good m (pure a) := by
  rintro b m' ⟨⟩
  exact ⟨K, .refl h, ha⟩

lemma bind {x : Run α} {f : α → Run β} (hx : Learns K good m x)
    (hf : ∀ a m' K', m'.Knows K' → K ⊆ K' → good K' a → Learns K' goal m' (f a)) :
    Learns K goal m (x >>= f) := by
  intro b m₂ hrun
  rw [bind_apply, Option.bind_eq_some_iff] at hrun
  obtain ⟨⟨a, m₁⟩, hm₁, hm₂⟩ := hrun
  obtain ⟨K₁, hfirst, ha⟩ := hx a m₁ hm₁
  obtain ⟨K₂, hsecond, hb⟩ := hf a m₁ K₁ hfirst.knows hfirst.kept ha b m₂ hm₂
  exact ⟨K₂, hfirst.trans hsecond, hb⟩

lemma map {f : α → β} {x : Run α} (hx : Learns K good m x)
    (hf : ∀ a K', K ⊆ K' → good K' a → goal K' (f a)) :
    Learns K goal m (x >>= fun a => Pure.pure (f a)) :=
  hx.bind fun a _ K' h hK ha => pure h (hf a K' hK ha)

lemma onValue {outcome : Value → β} {x : Run Value} {f : Value → Run β}
    (hx : Learns K Among m x) (hout : ∀ v K', v.Among K' → goal K' (outcome v))
    (hf : ∀ v m' K', m'.Knows K' → K ⊆ K' → v.Among K' → Learns K' goal m' (f v)) :
    Learns K goal m (onValue outcome x f) := by
  refine hx.bind fun v m' K' h hK hv => ?_
  split
  · exact pure h (hout v K' hv)
  · exact hf v m' K' h hK hv

lemma cutOff : Learns K good m (cutOff : Run α) := nofun

lemma lookup (h : m.Knows K) (name : String) : Learns K Among m (lookup name) := by
  rintro v m' ⟨⟩
  refine ⟨K, .refl h, ?_⟩
  cases hget : m.store.get? m.current name with
  | none => exact .of_isPlain (Value.isPlain_ofError _)
  | some v => exact h.store.get hget

lemma define (h : m.Knows K) (name : String) (hv : v.Among K) :
    Learns K (fun _ _ => True) m (define name v) := by
  rintro a m' ⟨⟩
  exact ⟨K, .same ⟨h.store.put hv false, h.made, h.apart⟩ (Nat.le_refl _), trivial⟩

lemma declare (h : m.Knows K) (name : String) (constant : Bool) (hv : v.Among K) :
    Learns K OutcomeAmong m (declare name v constant) := by
  rintro o m' ⟨⟩
  exact ⟨K, .same ⟨h.store.declare hv constant, h.made, h.apart⟩ (Nat.le_refl _), .refusal _⟩

lemma assign (h : m.Knows K) (name : String) (hv : v.Among K) :
    Learns K OutcomeAmong m (assign name v) := by
  rintro o m' ⟨⟩
  exact ⟨K, .same ⟨h.store.assign hv, h.made, h.apart⟩ (Nat.le_refl _), .refusal _⟩

lemma close (h : m.Knows K) (header : Header) (body : Block) :
    Learns K (fun K' p => p ∈ K') m (close header body) := by
  rintro p m' ⟨⟩
  exact ⟨_, .close h header body, Set.mem_insert _ _⟩

lemma record (h : m.Knows K) (call : CallRecord) : Learns K (fun _ _ => True) m (record call) := by
  rintro a m' ⟨⟩
  exact ⟨K, .same (h.of_eq rfl rfl) (Nat.le_refl _), trivial⟩

lemma current (h : m.Knows K) : Learns K (fun _ _ => True) m current := by
  rintro id m' ⟨⟩
  exact ⟨K, .refl h, trivial⟩

lemma depth (h : m.Knows K) : Learns K (fun _ _ => True) m depth := by
  rintro n m' ⟨⟩
  exact ⟨K, .refl h, trivial⟩

lemma inScope (h : m.Knows K) (parent : ScopeId) {x : Run α}
    (hx : ∀ m', m'.Knows K → Learns K good m' x) : Learns K good m (inScope parent x) := by
  intro a m' hrun
  rw [inScope_apply, Option.map_eq_some_iff] at hrun
  obtain ⟨⟨a, after⟩, hinner, ⟨⟩⟩ := hrun
  have hopened : (m.openScope parent).2.Knows K := ⟨h.store.push _, h.made, h.apart⟩
  obtain ⟨K', hlearns, ha⟩ := hx _ hopened a after hinner
  exact ⟨K', hlearns.of_eq rfl rfl rfl, ha⟩

lemma deeper (h : m.Knows K) {x : Run α} (hx : ∀ m', m'.Knows K → Learns K good m' x) :
    Learns K good m (deeper x) := by
  intro a m' hrun
  rw [deeper_apply, Option.map_eq_some_iff] at hrun
  obtain ⟨⟨a, after⟩, hinner, ⟨⟩⟩ := hrun
  have hdeeper : { m with depth := m.depth + 1 }.Knows K := h.of_eq rfl rfl
  obtain ⟨K', hlearns, ha⟩ := hx _ hdeeper a after hinner
  exact ⟨K', hlearns.of_eq rfl rfl rfl, ha⟩

lemma repeatWhile {test : Run Value} {body : Run (Option Value)}
    (htest : ∀ m K, m.Knows K → Learns K Among m test)
    (hbody : ∀ m K, m.Knows K → Learns K OutcomeAmong m body) (passes : ℕ) (h : m.Knows K) :
    Learns K OutcomeAmong m (repeatWhile test body passes) := by
  induction passes generalizing m K with
  | zero => exact cutOff
  | succ passes ih =>
    refine onValue (htest m K h) (fun _ _ => .some) fun v m₁ K₁ h₁ _ _ => ?_
    split
    · refine (hbody m₁ K₁ h₁).bind fun outcome m₂ K₂ h₂ _ houtcome => ?_
      split
      · exact pure h₂ houtcome
      · exact ih h₂
    · exact pure h₁ .none

lemma repeatFor {body : Run (Option Value)}
    (hbody : ∀ m K, m.Knows K → Learns K OutcomeAmong m body) (counter : String) (count : ℕ)
    (n : Int64) (h : m.Knows K) : Learns K OutcomeAmong m (repeatFor counter body count n) := by
  induction count generalizing m K n with
  | zero => exact pure h .none
  | succ count ih =>
    have hn : Among K (.integer n) := .of_isPlain trivial
    refine (define h counter hn).bind fun _ m₁ K₁ h₁ _ _ => ?_
    refine (hbody m₁ K₁ h₁).bind fun outcome m₂ K₂ h₂ _ houtcome => ?_
    split
    · exact pure h₂ houtcome
    · exact ih (n + 1) h₂

lemma countedLoop {body : Run (Option Value)}
    (hbody : ∀ m K, m.Knows K → Learns K OutcomeAmong m body) (counter : String)
    (first last : Value) (h : m.Knows K) :
    Learns K OutcomeAmong m (countedLoop counter body first last) := by
  rw [Run.countedLoop.eq_def]
  split
  · refine (current h).bind fun id m₁ K₁ h₁ _ _ => ?_
    exact inScope h₁ id fun m₂ h₂ => repeatFor hbody counter _ _ h₂
  · exact pure h (.some (.of_isPlain (Value.isPlain_ofError _)))
  · exact pure h (.some (.of_isPlain (Value.isPlain_ofError _)))

lemma bindAll {bindings : List (Parameter × Value)} (h : m.Knows K)
    (hvalues : ∀ b ∈ bindings, b.2.Among K) : Learns K (fun _ _ => True) m (bindAll bindings) := by
  induction bindings generalizing m K with
  | nil => exact pure h trivial
  | cons b rest ih =>
    rw [List.forall_mem_cons] at hvalues
    refine (define h b.1.name hvalues.1).bind fun _ m₁ K₁ h₁ hK _ => ?_
    exact ih h₁ fun b hb => (hvalues.2 b hb).mono hK

lemma execute {body : Run (Option Value)} {p : Procedure} {args : List Value}
    (hbody : ∀ m K, m.Knows K → Learns K OutcomeAmong m body) (h : m.Knows K)
    (hargs : ∀ v ∈ args, v.Among K) : Learns K Among m (execute p args body) := by
  rw [Run.execute]
  split
  · refine (record h _).bind fun _ m₁ K₁ h₁ hK _ => ?_
    have hvalues : ∀ b ∈ p.header.parameters.zip args, b.2.Among K₁ :=
      fun b hb => (hargs b.2 (List.of_mem_zip hb).2).mono hK
    have hresult (o : Option Value) (K' : Set Procedure) (_ : K₁ ⊆ K') (ho : OutcomeAmong K' o) :
        (o.getD .null).unwrap.Among K' :=
      ho.getD_null.unwrap
    refine map (inScope h₁ _ fun m₂ h₂ => ?_) hresult
    exact (bindAll h₂ hvalues).bind fun _ m₃ K₃ h₃ _ _ => hbody m₃ K₃ h₃
  · exact pure h (.of_isPlain (Value.isPlain_ofError _))

lemma enter {x : Run Value} (h : m.Knows K)
    (hx : ∀ m' K', m'.Knows K' → K ⊆ K' → Learns K' Among m' x) : Learns K Among m (enter x) := by
  refine (depth h).bind fun n m₁ K₁ h₁ hK _ => ?_
  split
  · exact pure h₁ (.of_isPlain (Value.isPlain_ofError _))
  · exact deeper h₁ fun m₂ h₂ => hx m₂ K₁ h₂ hK

section Syntax

def Calls (call : Caller) : Prop :=
  ∀ m K p args, m.Knows K → (∀ v ∈ args, Among K v) → Learns K Among m (call p args)

variable {call : Caller} {passes : ℕ}

-- Induction on the syntax; only procedure literals make procedures known.
mutual
lemma eval (hcall : Calls call) {m : Machine} {K : Set Procedure} (h : m.Knows K) :
    ∀ e : Expr, Learns K Among m (e.eval call passes)
  | .named name => lookup h name
  | .integer _ value => pure h (.of_isPlain (v := .integer value) trivial)
  | .real _ value => pure h (.of_isPlain (v := .real value) trivial)
  | .boolean _ value => pure h (.of_isPlain (v := .boolean value) trivial)
  | .string value => pure h (.of_isPlain (v := .string value) trivial)
  | .prefixed _ operator right => by
    refine onValue (eval hcall h right) (fun _ _ => id) fun v m₁ K₁ h₁ _ _ => ?_
    exact pure h₁ (.of_isPlain (Value.isPlain_applyPrefix operator v))
  | .infixed _ operator left right => by
    refine onValue (eval hcall h left) (fun _ _ => id) fun a m₁ K₁ h₁ _ _ => ?_
    refine onValue (eval hcall h₁ right) (fun _ _ => id) fun b m₂ K₂ h₂ _ _ => ?_
    exact pure h₂ (.of_isPlain (Value.isPlain_applyInfix operator a b))
  | .conditional _ condition consequence none => by
    refine onValue (eval hcall h condition) (fun _ _ => id) fun v m₁ K₁ h₁ _ _ => ?_
    split
    · exact map (execBlock hcall h₁ consequence) fun _ _ _ ho => ho.getD_null
    · exact pure h₁ (.of_isPlain (v := .null) trivial)
  | .conditional _ condition consequence (some other) => by
    refine onValue (eval hcall h condition) (fun _ _ => id) fun v m₁ K₁ h₁ _ _ => ?_
    split
    · exact map (execBlock hcall h₁ consequence) fun _ _ _ ho => ho.getD_null
    · exact map (execBlock hcall h₁ other) fun _ _ _ ho => ho.getD_null
  | .procedure header body => by
    refine (close h header body).bind fun p m₁ K₁ h₁ _ hp => ?_
    refine map (declare h₁ header.name false (.procedure hp)) fun refusal K₂ hK hrefusal => ?_
    exact hrefusal.getD (.procedure (hK hp))
  | .call _ callee arguments => by
    refine (eval hcall h callee).bind fun v m₁ K₁ h₁ _ hv => ?_
    split
    · refine (evalAll hcall h₁ arguments).bind fun result m₂ K₂ h₂ _ hresult => ?_
      split
      · next args =>
        refine enter h₂ fun m₃ K₃ h₃ hK => ?_
        exact hcall m₃ K₃ _ args h₃ fun v hv => (hresult v hv).mono hK
      · exact pure h₂ hresult
    · refine pure h₁ ?_
      split
      · exact hv
      · exact .of_isPlain (Value.isPlain_ofError _)

lemma evalAll (hcall : Calls call) {m : Machine} {K : Set Procedure} (h : m.Knows K) :
    ∀ es : List Expr, Learns K ArgumentsAmong m (Expr.evalAll call passes es)
  | [] => pure h nofun
  | e :: rest => by
    refine onValue (eval hcall h e) (fun _ _ => id) fun v m₁ K₁ h₁ _ hv => ?_
    refine map (evalAll hcall h₁ rest) fun result K₂ hK hresult => ?_
    cases result with
    | error w => exact hresult
    | ok vs => exact List.forall_mem_cons.2 ⟨hv.mono hK, hresult⟩

lemma exec (hcall : Calls call) {m : Machine} {K : Set Procedure} (h : m.Knows K) :
    ∀ s : Stmt, Learns K OutcomeAmong m (s.exec call passes)
  | .declare _ constant name _ value =>
    onValue (eval hcall h value) (fun _ _ => .some) fun _ _ _ h₁ _ hv => declare h₁ name constant hv
  | .assign name value =>
    onValue (eval hcall h value) (fun _ _ => .some) fun _ _ _ h₁ _ hv => assign h₁ name hv
  | .giveBack _ value =>
    onValue (eval hcall h value) (fun _ _ => .some) fun _ _ _ h₁ _ hv => pure h₁ (.some hv.returned)
  | .expression _ value => map (eval hcall h value) fun _ _ _ => .some
  | .block body => execBlock hcall h body
  | .whileLoop _ condition body =>
    repeatWhile (fun _ _ h => eval hcall h condition) (fun _ _ h => execBlock hcall h body) passes h
  | .forLoop _ counter first last body => by
    refine onValue (eval hcall h first) (fun _ _ => .some) fun a m₁ K₁ h₁ _ _ => ?_
    refine onValue (eval hcall h₁ last) (fun _ _ => .some) fun b m₂ K₂ h₂ _ _ => ?_
    exact countedLoop (fun _ _ h => execBlock hcall h body) counter a b h₂

lemma execAll (hcall : Calls call) {m : Machine} {K : Set Procedure} (h : m.Knows K) :
    ∀ (before : Option Value) (ss : List Stmt), OutcomeAmong K before →
      Learns K OutcomeAmong m (Stmt.execAll call passes before ss)
  | _, [], hbefore => pure h hbefore
  | before, s :: rest, _ => by
    refine (exec hcall h s).bind fun outcome m₁ K₁ h₁ _ houtcome => ?_
    split
    · exact pure h₁ houtcome
    · exact execAll hcall h₁ outcome rest houtcome

lemma execBlock (hcall : Calls call) {m : Machine} {K : Set Procedure} (h : m.Knows K) :
    ∀ b : Block, Learns K OutcomeAmong m (b.exec call passes)
  | .mk _ statements => by
    refine (current h).bind fun id m₁ K₁ h₁ _ _ => ?_
    exact inScope h₁ id fun m₂ h₂ => execAll hcall h₂ none statements .none
end

end Syntax

lemma callWithin (n : ℕ) {p : Procedure} {args : List Value} (h : m.Knows K)
    (hargs : ∀ v ∈ args, v.Among K) : Learns K Among m (callWithin n p args) := by
  induction n generalizing m K p args with
  | zero => exact cutOff
  | succ n ih =>
    refine execute (fun m K h => ?_) h hargs
    exact execAll (fun m K p args => ih) h none p.body.statements .none

end Learns

end Run

namespace Phrase

variable {t : Phrase} {m m' : Machine} {K : Set Procedure} {o : Option Value}

lemma Gives.learns (hgives : t.Gives m o m') (h : m.Knows K) :
    ∃ K', m.Learns K m' K' ∧ OutcomeAmong K' o := by
  obtain ⟨n, hrun⟩ := hgives
  have hcall : Run.Learns.Calls (callWithin n) := fun _ _ _ _ => Run.Learns.callWithin n
  cases t with
  | expr e => exact Run.Learns.map (Run.Learns.eval hcall h e) (fun _ _ _ => .some) o m' hrun
  | stmt s => exact Run.Learns.exec hcall h s o m' hrun
  | stmts ss => exact Run.Learns.execAll hcall h none ss .none o m' hrun
  | block b => exact Run.Learns.execBlock hcall h b o m' hrun

lemma Gives.identity_of_literal {header : Header} {body : Block} {v : Value} {p : Procedure}
    (h : (expr (.procedure header body)).Gives m (some v) m') (hp : v.Holds p) :
    p.identity = m.made := by
  obtain ⟨n, hrun⟩ := h
  rw [run_expr_eq_some] at hrun
  have hvalue : ((m.store.declare m.current header.name (.procedure (m.close header body).1)
      false).1.map Value.ofError).getD (.procedure (m.close header body).1) = v :=
    congrArg Prod.fst (Option.some.inj hrun)
  cases hrefusal : (m.store.declare m.current header.name (.procedure (m.close header body).1)
      false).1 with
  | none =>
    rw [hrefusal] at hvalue
    subst hvalue
    cases hp
    rfl
  | some e =>
    rw [hrefusal] at hvalue
    subst hvalue
    cases hp

end Phrase

namespace Value

lemma equalTo_procedures (p q : Procedure) :
    applyInfix .equalTo (.procedure p) (.procedure q) = .boolean (p.identity == q.identity) := rfl

end Value

open Value (Accord Compares Denial applyInfix)

/-- The comparison operators go together on all values. Procedures are equal if they come from one
evaluation of a literal: those that a machine can come upon are equal only if they are the same, and
what evaluation makes known later differs from all of them. -/
theorem comparisons_consistent :
    (∀ l r, Denial l r (applyInfix .equalTo l r) (applyInfix .notEqualTo l r)) ∧
    (∀ operator ∈ InfixOperator.comparisons, ∀ l r,
      Accord operator l r (applyInfix operator l r) (applyInfix operator.mirror r l)) ∧
    (∀ a b,
      (∃! operator, operator ∈ [.lessThan, .equalTo, .greaterThan] ∧
        Compares operator (.integer a) (.integer b)) ∧
      (Compares .lessEq (.integer a) (.integer b) ↔
        Compares .lessThan (.integer a) (.integer b) ∨
          Compares .equalTo (.integer a) (.integer b)) ∧
      (Compares .greaterEq (.integer a) (.integer b) ↔
        Compares .greaterThan (.integer a) (.integer b) ∨
          Compares .equalTo (.integer a) (.integer b))) ∧
    Machine.initial.Knows ∅ ∧
    ∀ (m : Machine) (K : Set Procedure), m.Knows K →
      (∀ p ∈ K, ∀ q ∈ K, Compares .equalTo (.procedure p) (.procedure q) ↔ p = q) ∧
      (∀ t o m', Phrase.Gives t m o m' → ∃ K', m.Learns K m' K' ∧ OutcomeAmong K' o) ∧
      ∀ header body v m', (Phrase.expr (.procedure header body)).Gives m (some v) m' →
        ∀ p, v.Holds p → ∀ q ∈ K,
          applyInfix .equalTo (.procedure p) (.procedure q) = .boolean false := by
  refine ⟨Value.denial, fun operator => Value.accord, fun a b => ⟨Value.compares_one a b, ?_, ?_⟩,
    Machine.knows_initial, fun m K h => ⟨fun p hp q hq => ?_, fun t o m' ht => ht.learns h, ?_⟩⟩
  · obtain ⟨hlt, heq, -, hle, -⟩ := Value.compares_integers a b
    rw [hlt, heq, hle]
    exact Int64.le_iff_lt_or_eq
  · obtain ⟨-, heq, hgt, -, hge⟩ := Value.compares_integers a b
    rw [hgt, heq, hge, Int64.le_iff_lt_or_eq, eq_comm]
  · rw [Compares, Value.equalTo_procedures]
    constructor
    · intro hsame
      exact h.apart hp hq (by simpa using hsame)
    · rintro rfl
      simp
  · intro header body v m' hv p hp q hq
    have hne : p.identity ≠ q.identity := by
      rw [hv.identity_of_literal hp]
      exact (h.made q hq).ne'
    rw [Value.equalTo_procedures, beq_false_of_ne hne]

def twinHeader : Header := ⟨"procedure", "f", []⟩

def twinBody : Block := .mk ⟨.beginWord, "begin"⟩ []

def twin (identity : ℕ) : Procedure := ⟨identity, twinHeader, twinBody, 0⟩

def twinMachine : Machine :=
  ⟨(Store.initial.declare 0 "f" (.procedure (twin 0)) false).2, 0, 0, 1, []⟩

theorem comparisons_consistent_twin :
    (Phrase.expr (.procedure twinHeader twinBody)).Gives .initial (some (.procedure (twin 0)))
        twinMachine ∧
      (Phrase.expr (.named "f")).Gives twinMachine (some (.procedure (twin 0))) twinMachine ∧
      (∃ m, (Phrase.expr (.procedure twinHeader twinBody)).Gives twinMachine
        (some (.procedure (twin 1))) m) ∧
      Compares .equalTo (.procedure (twin 0)) (.procedure (twin 0)) ∧
      applyInfix .equalTo (.procedure (twin 1)) (.procedure (twin 0)) = .boolean false ∧
      .lessThan ∈ InfixOperator.comparisons ∧
      Accord .lessThan (.procedure (twin 0)) (.integer 1)
        (applyInfix .lessThan (.procedure (twin 0)) (.integer 1))
        (applyInfix .greaterThan (.integer 1) (.procedure (twin 0))) := by
  obtain ⟨-, haccord, -, hinitial, hrun⟩ := comparisons_consistent
  have hfirst : (Phrase.expr (.procedure twinHeader twinBody)).Gives .initial
      (some (.procedure (twin 0))) twinMachine := ⟨0, rfl⟩
  have hname : (Phrase.expr (.named "f")).Gives twinMachine (some (.procedure (twin 0)))
      twinMachine := by
    have hget : twinMachine.store.get? 0 "f" = some (.procedure (twin 0)) := by cbv
    refine ⟨0, Phrase.run_expr_eq_some.2 ?_⟩
    change some ((twinMachine.store.get? 0 "f").getD _, twinMachine) = _
    rw [hget]
    rfl
  have hsecond : (Phrase.expr (.procedure twinHeader twinBody)).Gives twinMachine
      (some (.procedure (twin 1))) _ := ⟨0, rfl⟩
  obtain ⟨K, hlearns, hknown⟩ := (hrun _ _ hinitial).2.1 _ _ _ hfirst
  have hp := hknown _ rfl _ .procedure
  obtain ⟨hequal, -, hfresh⟩ := hrun _ _ hlearns.knows
  exact ⟨hfirst, hname, ⟨_, hsecond⟩, (hequal _ hp _ hp).2 rfl,
    hfresh _ _ _ _ hsecond _ .procedure _ hp, by decide, haccord _ (by decide) _ _⟩

end MiniPascal
