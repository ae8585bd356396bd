import MiniPascal.Proofs.Evaluation.Closed
import MiniPascal.Proofs.Store
import MiniPascal.Proofs.Value
import MiniPascal.Proofs.Tree.Statements

namespace MiniPascal

namespace Store

def BindsOnly (kind : Value → Prop) (s : Store) : Prop :=
  ∀ i name b, s.bindingAt? i name = some b → kind b.value

namespace BindsOnly

variable {kind : Value → Prop} {s : Store} {id : ScopeId} {name : String} {v : Value}

lemma initial : BindsOnly kind .initial := by
  intro i name b hb
  obtain ⟨scope, hscope, hb⟩ := Option.bind_eq_some_iff.1 hb
  cases Array.mem_singleton.1 (Array.mem_of_getElem? hscope)
  cases hb

lemma put (h : s.BindsOnly kind) (hv : kind v) (constant : Bool) :
    (s.put id name ⟨v, constant⟩).BindsOnly kind := by
  intro i other b hb
  rw [bindingAt?_put] at hb
  split at hb
  · cases hb
    exact hv
  · exact h i other b hb

lemma push (h : s.BindsOnly kind) (parent : Option ScopeId) :
    (s.push parent).BindsOnly kind := by
  intro i name b hb
  rw [bindingAt?_push] at hb
  exact h i name b hb

lemma declare (h : s.BindsOnly kind) (hv : kind v) (constant : Bool) :
    (s.declare id name v constant).2.BindsOnly kind := by
  rcases declare_cases s id name v constant with hs | ⟨_, hs⟩
  · rwa [hs]
  · rw [hs]
    exact h.put hv constant

lemma assign (h : s.BindsOnly kind) (hv : kind v) : (s.assign id name v).2.BindsOnly kind := by
  rcases assign_cases s id name v with hs | ⟨_, _, _, _, _, hs⟩
  · rwa [hs]
  · rw [hs]
    exact h.put hv false

lemma get (h : s.BindsOnly kind) (hget : s.get? id name = some v) : kind v := by
  rw [get?, Option.map_eq_some_iff] at hget
  obtain ⟨⟨holder, b⟩, hfind, rfl⟩ := hget
  exact h holder name b (find?_eq_some hfind).2

end BindsOnly

end Store

/-- Rules for evaluation that look at the code: whether a run may be cut off, which statements code
may have inside it, counting those in procedures if `deep`, which values may be bound, and which
values may be given by code with certain statements inside it. -/
structure Regime where
  cut : Prop
  deep : Bool
  allowed : Stmt → Prop
  bound : Value → Prop
  given : List Stmt → Value → Prop
  mono {ss rest v} : given ss v → ss ⊆ rest → given rest v
  plain {v} : v.IsPlain → given [] v
  get {v} : bound v → given [] v
  hold {ss v} : given ss v → v.isAbrupt = false → bound v
  returned {ss v} (lexeme : String) (e : Expr) : given ss v → v.isAbrupt = false →
    given (.giveBack lexeme e :: ss) (.returned v)
  unwrap {ss v} : given ss v → given [] v.unwrap
  close {p} : (∀ s ∈ (Expr.procedure p.header p.body).inner deep, allowed s) → bound (.procedure p)
  body {ss p} : given ss (.procedure p) → ∀ s ∈ p.body.inner deep, allowed s
  loop {lexeme condition body} : allowed (.whileLoop lexeme condition body) → cut

namespace Regime

open Run

variable {α β : Type} (R : Regime)

structure Fit (d : ℕ) (m : Machine) : Prop where
  store : m.store.BindsOnly R.bound
  depth : m.depth = d

def Ends (d : ℕ) (good : α → Prop) : Option (α × Machine) → Prop
  | none => R.cut
  | some (a, m) => R.Fit d m ∧ good a

def Sound (d : ℕ) (good : α → Prop) (x : Run α) : Prop := ∀ m, R.Fit d m → R.Ends d good (x m)

def Outcome (ss : List Stmt) (o : Option Value) : Prop := ∀ v ∈ o, R.given ss v

def Arguments (ss : List Stmt) : Except Value (List Value) → Prop
  | .ok vs => ∀ v ∈ vs, R.bound v
  | .error v => R.given ss v

variable {R} {d : ℕ} {good : α → Prop} {goal : β → Prop} {ss rest : List Stmt} {v : Value}
  {o : Option Value}

lemma given_plain (h : v.IsPlain) : R.given ss v := R.mono (R.plain h) (List.nil_subset _)

lemma given_bound (h : R.bound v) : R.given ss v := R.mono (R.get h) (List.nil_subset _)

lemma given_left (h : R.given ss v) : R.given (ss ++ rest) v :=
  R.mono h (List.subset_append_left _ _)

lemma given_right (h : R.given rest v) : R.given (ss ++ rest) v :=
  R.mono h (List.subset_append_right _ _)

lemma given_cons (s : Stmt) (h : R.given ss v) : R.given (s :: ss) v :=
  R.mono h (List.subset_cons_self _ _)

namespace Outcome

lemma none : R.Outcome ss none := nofun

lemma some (h : R.given ss v) : R.Outcome ss (some v) := by
  rintro w ⟨⟩
  exact h

lemma mono (h : R.Outcome ss o) (hss : ss ⊆ rest) : R.Outcome rest o :=
  fun v hv => R.mono (h v hv) hss

lemma getD (h : R.Outcome ss o) (hv : R.given ss v) : R.given ss (o.getD v) := by
  cases o with
  | none => exact hv
  | some w => exact h w rfl

lemma getD_null (h : R.Outcome ss o) : R.given ss (o.getD .null) :=
  h.getD (given_plain (v := .null) trivial)

lemma refusal (e : Option EvalError) : R.Outcome ss (e.map Value.ofError) := by
  cases e with
  | none => exact none
  | some e => exact some (given_plain (Value.isPlain_ofError e))

-- It does not matter where a value that is not on its way out comes from.
lemma settled (h : R.Outcome ss o) (ho : o.any Value.isAbrupt = false) : R.Outcome [] o := by
  rintro v rfl
  exact R.get (R.hold (h v rfl) ho)

end Outcome

namespace Sound

lemma pure {a : α} (ha : good a) : R.Sound d good (pure a) := fun _ hm => ⟨hm, ha⟩

lemma bind {x : Run α} {f : α → Run β} (hx : R.Sound d good x)
    (hf : ∀ a, good a → R.Sound d goal (f a)) : R.Sound d goal (x >>= f) := by
  intro m hm
  have hfirst := hx m hm
  rw [bind_apply]
  cases hrun : x m with
  | none => rwa [hrun] at hfirst
  | some r =>
    rw [hrun] at hfirst
    exact hf r.1 hfirst.2 r.2 hfirst.1

lemma result {x : Run α} (hx : R.Sound d good x) {m m' : Machine} {a : α} (hm : R.Fit d m)
    (hrun : x m = some (a, m')) : R.Fit d m' ∧ good a := by
  have h := hx m hm
  rwa [hrun] at h

lemma exists_result {x : Run α} (hx : R.Sound d good x) (hcut : ¬ R.cut) {m : Machine}
    (hm : R.Fit d m) : ∃ r, x m = some r := by
  have h := hx m hm
  cases hrun : x m with
  | none =>
    rw [hrun] at h
    exact absurd h hcut
  | some r => exact ⟨r, rfl⟩

lemma map {f : α → β} {x : Run α} (hx : R.Sound d good x) (hf : ∀ a, good a → goal (f a)) :
    R.Sound d goal (x >>= fun a => Pure.pure (f a)) :=
  hx.bind fun a ha => pure (hf a ha)

lemma mono {goal : α → Prop} {x : Run α} (hx : R.Sound d good x) (h : ∀ a, good a → goal a) :
    R.Sound d goal x := by
  have hmap := hx.map h
  rwa [bind_pure] at hmap

lemma widen {x : Run (Option Value)} (hx : R.Sound d (R.Outcome ss) x) (hss : ss ⊆ rest) :
    R.Sound d (R.Outcome rest) x :=
  hx.mono fun _ ho => ho.mono hss

lemma onValue {outcome : Value → β} {x : Run Value} {f : Value → Run β}
    (hx : R.Sound d (R.given ss) x) (hout : ∀ v, R.given ss v → goal (outcome v))
    (hf : ∀ v, R.bound v → R.Sound d goal (f v)) : R.Sound d goal (onValue outcome x f) := by
  refine hx.bind fun v hv => ?_
  split
  · exact pure (hout v hv)
  · next habrupt => exact hf v (R.hold hv (by simpa using habrupt))

lemma cutOff (h : R.cut) : R.Sound d good (cutOff : Run α) := fun _ _ => h

lemma lookup (name : String) : R.Sound d (R.given []) (lookup name) := by
  intro m hm
  refine ⟨hm, ?_⟩
  cases hget : m.store.get? m.current name with
  | none => exact R.plain (Value.isPlain_ofError _)
  | some v => exact R.get (hm.store.get hget)

lemma define (name : String) (hv : R.bound v) : R.Sound d (fun _ => True) (define name v) :=
  fun _ hm => ⟨⟨hm.store.put hv false, hm.depth⟩, trivial⟩

lemma declare (name : String) (constant : Bool) (hv : R.bound v) :
    R.Sound d (R.Outcome ss) (declare name v constant) :=
  fun _ hm => ⟨⟨hm.store.declare hv constant, hm.depth⟩, .refusal _⟩

lemma assign (name : String) (hv : R.bound v) : R.Sound d (R.Outcome ss) (assign name v) :=
  fun _ hm => ⟨⟨hm.store.assign hv, hm.depth⟩, .refusal _⟩

lemma close (header : Header) (body : Block) :
    R.Sound d (fun p => p.header = header ∧ p.body = body) (Run.close header body) :=
  fun _ hm => ⟨⟨hm.store, hm.depth⟩, rfl, rfl⟩

lemma record (call : CallRecord) : R.Sound d (fun _ => True) (record call) :=
  fun _ hm => ⟨⟨hm.store, hm.depth⟩, trivial⟩

lemma current : R.Sound d (fun _ => True) current := fun _ hm => ⟨hm, trivial⟩

lemma depth : R.Sound d (· = d) depth := fun _ hm => ⟨hm, hm.depth⟩

lemma inScope (parent : ScopeId) {x : Run α} (hx : R.Sound d good x) :
    R.Sound d good (inScope parent x) := by
  intro m hm
  have hinner := hx (m.openScope parent).2 ⟨hm.store.push _, hm.depth⟩
  rw [inScope_apply]
  cases hrun : x (m.openScope parent).2 with
  | none => rwa [hrun] at hinner
  | some r =>
    rw [hrun] at hinner
    exact ⟨⟨hinner.1.store, hinner.1.depth⟩, hinner.2⟩

lemma deeper {x : Run α} (hx : R.Sound (d + 1) good x) : R.Sound d good (deeper x) := by
  intro m hm
  have hinner := hx { m with depth := m.depth + 1 } ⟨hm.store, congrArg (· + 1) hm.depth⟩
  rw [deeper_apply]
  cases hrun : x { m with depth := m.depth + 1 } with
  | none => rwa [hrun] at hinner
  | some r =>
    rw [hrun] at hinner
    exact ⟨⟨hinner.1.store, Nat.sub_eq_of_eq_add hinner.1.depth⟩, hinner.2⟩

lemma repeatWhile {test : Run Value} {body : Run (Option Value)} (hcut : R.cut)
    (htest : R.Sound d (R.given ss) test) (hbody : R.Sound d (R.Outcome ss) body) (passes : ℕ) :
    R.Sound d (R.Outcome ss) (repeatWhile test body passes) := by
  induction passes with
  | zero => exact cutOff hcut
  | succ passes ih =>
    refine htest.onValue (fun _ => .some) fun v _ => ?_
    split
    · refine hbody.bind fun outcome houtcome => ?_
      split
      · exact pure houtcome
      · exact ih
    · exact pure .none

lemma repeatFor {body : Run (Option Value)} (hbody : R.Sound d (R.Outcome ss) body)
    (counter : String) (count : ℕ) (n : Int64) :
    R.Sound d (R.Outcome ss) (repeatFor counter body count n) := by
  induction count generalizing n with
  | zero => exact pure .none
  | succ count ih =>
    have hn : R.bound (.integer n) := R.hold (R.plain trivial) rfl
    refine (define counter hn).bind fun _ _ => hbody.bind fun outcome houtcome => ?_
    split
    · exact pure houtcome
    · exact ih (n + 1)

lemma countedLoop {body : Run (Option Value)} (hbody : R.Sound d (R.Outcome ss) body)
    (counter : String) (first last : Value) :
    R.Sound d (R.Outcome ss) (countedLoop counter body first last) := by
  rw [Run.countedLoop.eq_def]
  split
  · exact current.bind fun parent _ => (hbody.repeatFor counter _ _).inScope parent
  · exact pure (.some (given_plain (Value.isPlain_ofError _)))
  · exact pure (.some (given_plain (Value.isPlain_ofError _)))

lemma bindAll {bindings : List (Parameter × Value)} (h : ∀ b ∈ bindings, R.bound b.2) :
    R.Sound d (fun _ => True) (bindAll bindings) := by
  induction bindings with
  | nil => exact pure trivial
  | cons b rest ih =>
    rw [List.forall_mem_cons] at h
    exact (define b.1.name h.1).bind fun _ _ => ih h.2

lemma execute {body : Run (Option Value)} {p : Procedure} {args : List Value}
    (hbody : R.Sound d (R.Outcome ss) body) (hargs : ∀ v ∈ args, R.bound v) :
    R.Sound d (R.given []) (execute p args body) := by
  rw [Run.execute]
  split
  · have hunwrap (o : Option Value) (ho : R.Outcome ss o) : R.given [] (o.getD .null).unwrap :=
      R.unwrap ho.getD_null
    refine (record _).bind fun _ _ => map (inScope _ ?_) hunwrap
    exact (bindAll fun b hb => hargs b.2 (List.of_mem_zip hb).2).bind fun _ _ => hbody
  · exact pure (R.plain (Value.isPlain_ofError _))

lemma enter {x : Run Value} (hx : d < maxCallDepth → R.Sound (d + 1) (R.given []) x) :
    R.Sound d (R.given []) (enter x) := by
  refine depth.bind fun n hn => ?_
  subst hn
  split
  · exact pure (R.plain (Value.isPlain_ofError _))
  · next h => exact deeper (hx (Nat.lt_of_not_le h))

end Sound

end Regime

end MiniPascal
