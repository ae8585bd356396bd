import MiniPascal.Proofs.Evaluation.Positions
import MiniPascal.Proofs.Evaluation.Values

namespace MiniPascal

namespace Phrase

open Run Filter

variable {m m₁ m₂ m' : Machine} {v : Value} {os : List (Option Value)}

lemma Gives.exists_value {e : Expr} {o : Option Value} (h : (expr e).Gives m o m') :
    ∃ v, o = some v := by
  obtain ⟨n, hn⟩ := h
  rw [run_expr, Option.map_eq_some_iff] at hn
  obtain ⟨r, -, hr⟩ := hn
  cases hr
  exact ⟨_, rfl⟩

section Lists

lemma evalAll_of_abrupt {before after : List Expr} {e : Expr}
    (hpass : Pass (before.map expr) m os m₁) (he : (expr e).Gives m₁ (some v) m')
    (hv : v.isAbrupt = true) :
    ∀ᶠ n in atTop, Expr.evalAll (callWithin n) n (before ++ e :: after) m =
      some (.error v, m') := by
  induction before generalizing m os with
  | nil =>
    cases hpass
    filter_upwards [he.eval] with n hn
    exact onValue_of_abrupt hn hv
  | cons first rest ih =>
    cases hpass with
    | cons hfirst hnormal hrest =>
      obtain ⟨w, rfl⟩ := hfirst.exists_value
      filter_upwards [hfirst.eval, ih hrest] with n hn htail
      exact (onValue_of_normal hn hnormal).trans (bind_of_eq htail)

lemma evalAll_of_pass {arguments : List Expr} {vs : List Value}
    (hpass : Pass (arguments.map expr) m (vs.map some) m') :
    ∀ᶠ n in atTop, Expr.evalAll (callWithin n) n arguments m = some (.ok vs, m') := by
  induction arguments generalizing m vs with
  | nil =>
    cases vs with
    | cons => cases hpass
    | nil =>
      cases hpass
      exact .of_forall fun _ => rfl
  | cons first rest ih =>
    cases vs with
    | nil => cases hpass
    | cons w vs =>
      cases hpass with
      | cons hfirst hnormal hrest =>
        filter_upwards [hfirst.eval, ih hrest] with n hn htail
        exact (onValue_of_normal hn hnormal).trans (bind_of_eq htail)

lemma execAll_of_abrupt {before after : List Stmt} {s : Stmt}
    (hpass : Pass (before.map stmt) m os m₁) (hs : (stmt s).Gives m₁ (some v) m')
    (hv : v.isAbrupt = true) :
    ∀ᶠ n in atTop, ∀ prior, Stmt.execAll (callWithin n) n prior (before ++ s :: after) m =
      some (some v, m') := by
  induction before generalizing m os with
  | nil =>
    cases hpass
    filter_upwards [hs.eventually] with n hn prior
    exact next_of_abrupt hn hv
  | cons first rest ih =>
    cases hpass with
    | cons hfirst hnormal hrest =>
      filter_upwards [hfirst.eventually, ih hrest] with n hn htail prior
      exact (next_of_normal hn hnormal).trans (htail _)

end Lists

section Loops

variable {condition : Expr} {body : Block} {counter : String}

lemma Rounds.eventually (h : Rounds condition body m m₁) :
    ∃ k, ∀ᶠ n in atTop, ∀ passes,
      repeatWhile (condition.eval (callWithin n) n) (body.exec (callWithin n) n) (passes + k) m =
        repeatWhile (condition.eval (callWithin n) n) (body.exec (callWithin n) n) passes m₁ := by
  induction h with
  | start => exact ⟨0, .of_forall fun _ _ => rfl⟩
  | round hcondition hnormal htruthy hbody hout _ ih =>
    obtain ⟨k, hk⟩ := ih
    refine ⟨k + 1, ?_⟩
    filter_upwards [hcondition.eval, hbody.eventually, hk] with n hc hb hrest passes
    refine (onValue_of_normal hc hnormal).trans ?_
    rw [htruthy]
    exact (next_of_normal hb hout).trans (hrest passes)

-- A large bound leaves one more pass after the rounds.
lemma Rounds.eventually_succ (h : Rounds condition body m m₁) :
    ∀ᶠ n in atTop, ∃ passes,
      repeatWhile (condition.eval (callWithin n) n) (body.exec (callWithin n) n) n m =
        repeatWhile (condition.eval (callWithin n) n) (body.exec (callWithin n) n) (passes + 1)
          m₁ := by
  obtain ⟨k, hk⟩ := h.eventually
  filter_upwards [hk, eventually_ge_atTop (k + 1)] with n hrest hle
  have hpasses : n = n - (k + 1) + 1 + k := by omega
  exact ⟨n - (k + 1), (congrArg (fun passes => repeatWhile _ _ passes _) hpasses).trans (hrest _)⟩

lemma Counted.eventually {k : ℕ} {a n' : Int64} (h : Counted counter body k a m n' m₁) :
    ∀ᶠ n in atTop, ∀ count,
      repeatFor counter (body.exec (callWithin n) n) (count + k) a m =
        repeatFor counter (body.exec (callWithin n) n) count n' m₁ := by
  induction h with
  | start => exact .of_forall fun _ _ => rfl
  | pass hbody hout _ ih =>
    filter_upwards [hbody.eventually, ih] with n hb hrest count
    rw [Nat.add_succ, repeatFor_succ_apply]
    exact (next_of_normal hb hout).trans (hrest count)

lemma Counted.eventually_of_abrupt {k count : ℕ} {a n' : Int64}
    (h : Counted counter body k a m n' m₁) (hk : k < count)
    (hbody : (block body).Gives (m₁.define counter (.integer n')) (some v) m')
    (hv : v.isAbrupt = true) :
    ∀ᶠ n in atTop,
      repeatFor counter (body.exec (callWithin n) n) count a m = some (some v, m') := by
  filter_upwards [h.eventually, hbody.eventually] with n hrest hb
  have hcount : count = count - (k + 1) + 1 + k := by omega
  rw [hcount, hrest, repeatFor_succ_apply]
  exact next_of_abrupt hb hv

end Loops

-- One case for each position; a run under a large bound first repeats what came before it.
lemma Reaches.gives {T U : Task} (h : Reaches T U) (hU : U.1.Gives U.2 (some v) m')
    (hv : v.isAbrupt = true) : T.1.Gives T.2 (some v) (T.2.resume m') := by
  cases h with
  | operand | left =>
    refine Gives.resumed (.of_eval ?_)
    filter_upwards [hU.eval] with n hn
    exact onValue_of_abrupt hn hv
  | right hleft hnormal =>
    refine Gives.resumed (.of_eval ?_)
    filter_upwards [hleft.eval, hU.eval] with n hl hn
    exact (onValue_of_normal hl hnormal).trans (onValue_of_abrupt hn hv)
  | condition =>
    refine Gives.resumed (.of_eval ?_)
    filter_upwards [hU.eval] with n hn
    rw [Expr.eval_conditional]
    exact onValue_of_abrupt hn hv
  | consequence hcondition hnormal htruthy | alternative hcondition hnormal htruthy =>
    refine Gives.resumed (.of_eval ?_)
    filter_upwards [hcondition.eval, hU.eventually] with n hc hn
    rw [Expr.eval_conditional, onValue_of_normal hc hnormal, htruthy]
    exact bind_of_eq hn
  | callee =>
    refine Gives.resumed (.of_eval ?_)
    filter_upwards [hU.eval] with n hn
    refine (bind_of_eq hn).trans ?_
    cases v with
    | returned | error => rfl
    | _ => cases hv
  | argument hcallee hpass =>
    refine Gives.resumed (.of_eval ?_)
    filter_upwards [hcallee.eval, evalAll_of_abrupt hpass hU hv] with n hc hn
    exact (bind_of_eq hc).trans (bind_of_eq hn)
  | declared | assigned | givenBack | first =>
    refine Gives.resumed (.of_eventually ?_)
    filter_upwards [hU.eval] with n hn
    exact onValue_of_abrupt hn hv
  | expression =>
    refine Gives.resumed (.of_eventually ?_)
    filter_upwards [hU.eval] with n hn
    exact bind_of_eq hn
  | inner => exact Gives.resumed hU
  | test hrounds =>
    refine Gives.resumed (.of_eventually ?_)
    filter_upwards [hrounds.eventually_succ, hU.eval] with n hrest hn
    obtain ⟨passes, hrest⟩ := hrest
    exact hrest.trans (onValue_of_abrupt hn hv)
  | whileBody hrounds hcondition hnormal htruthy =>
    refine Gives.resumed (.of_eventually ?_)
    filter_upwards [hrounds.eventually_succ, hcondition.eval, hU.eventually] with n hrest hc hn
    obtain ⟨passes, hrest⟩ := hrest
    refine hrest.trans ((onValue_of_normal hc hnormal).trans ?_)
    rw [htruthy]
    exact next_of_abrupt hn hv
  | last hfirst hnormal =>
    refine Gives.resumed (.of_eventually ?_)
    filter_upwards [hfirst.eval, hU.eval] with n hf hn
    exact (onValue_of_normal hf hnormal).trans (onValue_of_abrupt hn hv)
  | @forBody lexeme counter first last body m a _ b m₂ k _ _ hfirst hlast hcounted hle =>
    suffices hloop : (stmt (.forLoop lexeme counter first last body)).Gives m (some v)
        { m' with current := m₂.current } from hloop.resumed
    have hk : k < (b.toInt - a.toInt + 1).toNat := by omega
    refine .of_eventually ?_
    filter_upwards [hfirst.eval, hlast.eval, hcounted.eventually_of_abrupt hk hU hv]
      with n hf hl hpasses
    refine (onValue_of_normal hf rfl).trans ((onValue_of_normal hl rfl).trans ?_)
    exact inScope_of_eq hpasses
  | statement hpass =>
    refine Gives.resumed (.of_eventually ?_)
    filter_upwards [execAll_of_abrupt hpass hU hv] with n hn
    exact hn none
  | @statements opener ss m =>
    suffices hblock : (block (.mk opener ss)).Gives m (some v) { m' with current := m.current } from
      hblock.resumed
    refine .of_eventually ?_
    filter_upwards [hU.eventually] with n hn
    exact inScope_of_eq hn

lemma Enters.gives {T U : Task} {o : Option Value} (h : Enters T U)
    (hU : U.1.Gives U.2 o m') :
    T.1.Gives T.2 (some (o.getD .null).unwrap) (T.2.resume m') := by
  cases h with
  | @body lexeme callee arguments m p m₁ vs m₂ hcallee hpass hdepth harity =>
    suffices hcall : (expr (.call lexeme callee arguments)).Gives m (some (o.getD .null).unwrap)
        { m' with current := m₂.current, depth := m'.depth - 1 } from hcall.resumed
    refine .of_eval ?_
    -- The body runs under a bound that is one less.
    obtain ⟨k, hk⟩ := eventually_atTop.1 hU.eventually
    filter_upwards [hcallee.eval, evalAll_of_pass hpass, eventually_ge_atTop (k + 1)]
      with n hc hargs hle
    obtain ⟨n, rfl⟩ := Nat.exists_eq_add_one_of_ne_zero (Nat.ne_zero_of_lt hle)
    have hbody := hk n (Nat.le_of_succ_le_succ hle)
    exact (bind_of_eq hc).trans ((bind_of_eq hargs).trans (enter_of_body hdepth harity hbody))

lemma Reaches.gives_of_path {T U : Task} (h : Relation.ReflTransGen Reaches T U)
    (hU : U.1.Gives U.2 (some v) m') (hv : v.isAbrupt = true) :
    T.1.Gives T.2 (some v) (T.2.resume m') := by
  induction h using Relation.ReflTransGen.head_induction_on with
  | refl => exact hU.resumed
  | head hstep _ ih => simpa only [Machine.resume_resume] using hstep.gives ih hv

lemma gives_of_path_of_isError {T U : Task}
    (h : Relation.ReflTransGen (fun T U => Reaches T U ∨ Enters T U) T U)
    (hU : U.1.Gives U.2 (some v) m') (hv : v.isError = true) :
    T.1.Gives T.2 (some v) (T.2.resume m') := by
  obtain ⟨message, rfl⟩ : ∃ message, v = .error message := by
    cases v <;> cases hv
    exact ⟨_, rfl⟩
  induction h using Relation.ReflTransGen.head_induction_on with
  | refl => exact hU.resumed
  | head hstep _ ih =>
    rw [← Machine.resume_resume _ _ m']
    rcases hstep with hstep | hstep
    · exact hstep.gives ih rfl
    · exact hstep.gives ih

end Phrase

namespace Program

open Run

variable {n : ℕ} {m m' : Machine} {v : Value}

/-- Run in either of two ways, the program stops with the value: it is the outcome, or the last of
the values of its statements. -/
def StopsWith (p : Program) (m : Machine) (v : Value) (m' : Machine) : Prop :=
  ∃ n, p.exec n m = some (some v, m') ∧
    ∃ before, (∀ w ∈ before, w.isAbrupt = false) ∧ p.execEach n m = some (before ++ [v], m')

lemma outcomeOf_of_abrupt {s : Stmt} {rest : List Stmt} (before : Option Value)
    (hs : s.exec (callWithin n) n m = some (some v, m')) (hv : v.isAbrupt = true) :
    outcomeOf n before (s :: rest) m = some (some v.unwrap, m') := by
  refine (bind_of_eq hs).trans ?_
  cases v with
  | returned | error => rfl
  | _ => cases hv

lemma outcomeOf_of_normal {s : Stmt} {rest : List Stmt} {o : Option Value} {m₁ : Machine}
    (before : Option Value) (hs : s.exec (callWithin n) n m = some (o, m₁))
    (ho : o.any Value.isAbrupt = false) :
    outcomeOf n before (s :: rest) m = outcomeOf n o rest m₁ := by
  refine (bind_of_eq hs).trans ?_
  split
  · cases ho
  · cases ho
  · rfl

lemma valuesOf_of_abrupt {s : Stmt} {rest : List Stmt}
    (hs : s.exec (callWithin n) n m = some (some v, m')) (hv : v.isAbrupt = true) :
    valuesOf n (s :: rest) m = some ([v.unwrap], m') := by
  refine (bind_of_eq hs).trans ?_
  cases v with
  | returned | error => rfl
  | _ => cases hv

lemma stops_of_execAll {prior : Option Value} {ss : List Stmt}
    (h : Stmt.execAll (callWithin n) n prior ss m = some (some v, m'))
    (hprior : prior.any Value.isAbrupt = false) (hv : v.isAbrupt = true) :
    (∀ before, outcomeOf n before ss m = some (some v.unwrap, m')) ∧
      ∃ values, (∀ w ∈ values, w.isAbrupt = false) ∧
        valuesOf n ss m = some (values ++ [v.unwrap], m') := by
  induction ss generalizing prior m with
  | nil =>
    cases h
    rw [Option.any_some, hv] at hprior
    cases hprior
  | cons s rest ih =>
    rw [Stmt.execAll, bind_apply, Option.bind_eq_some_iff] at h
    obtain ⟨⟨first, m₁⟩, hs, h⟩ := h
    dsimp only at h
    split at h
    · cases h
      exact ⟨fun before => outcomeOf_of_abrupt before hs hv, [], List.forall_mem_nil _,
        valuesOf_of_abrupt hs hv⟩
    · next hfirst =>
      rw [Bool.not_eq_true] at hfirst
      obtain ⟨houtcome, values, hvalues, hrun⟩ := ih h hfirst
      refine ⟨fun before => (outcomeOf_of_normal before hs hfirst).trans (houtcome first),
        first.toList ++ values, ?_, ?_⟩
      · intro w hw
        rcases List.mem_append.1 hw with hw | hw
        · rw [Option.mem_toList] at hw
          simpa [hw] using hfirst
        · exact hvalues w hw
      · rw [valuesOf_cons hs hfirst, hrun, List.append_assoc]
        rfl

lemma stopsWith_of_gives {p : Program} (h : (Phrase.stmts p.statements).Gives m (some v) m')
    (hv : v.isAbrupt = true) : p.StopsWith m v.unwrap m' := by
  obtain ⟨n, hn⟩ := h
  obtain ⟨houtcome, hvalues⟩ := stops_of_execAll hn rfl hv
  exact ⟨n, houtcome none, hvalues⟩

end Program

namespace Phrase

open Relation

/-- An error, or what a `return` carries, is the outcome of every phrase whose evaluation has come
to the part that gives it, with nothing changed later but that the scope and the depth of calls are
again those of the phrase. A call or a program around it gives it without the wrapper of the
`return`, and an error goes on through all calls to the end of the program. -/
theorem abrupt_rises {t : Phrase} {m₁ m₂ : Machine} {v : Value} (h : t.Gives m₁ (some v) m₂)
    (hv : v.isAbrupt = true) :
    (∀ u m, ReflTransGen Reaches (u, m) (t, m₁) →
      ∀ o m', u.Gives m o m' ↔ o = some v ∧ m' = m.resume m₂) ∧
    (∀ u m body m₀, Enters (u, m) (body, m₀) → ReflTransGen Reaches (body, m₀) (t, m₁) →
      u.Gives m (some v.unwrap) (m.resume m₂)) ∧
    (∀ p m, ReflTransGen Reaches (stmts (Program.statements p), m) (t, m₁) →
      p.StopsWith m v.unwrap (m.resume m₂)) ∧
    (v.isError = true → ∀ u m,
      ReflTransGen (fun T U => Reaches T U ∨ Enters T U) (u, m) (t, m₁) →
        u.Gives m (some v) (m.resume m₂) ∧
          ∀ p, u = stmts (Program.statements p) → p.StopsWith m v (m.resume m₂)) := by
  refine ⟨fun u m hpath o m' => ?_, fun u m body m₀ henters hpath => ?_, fun p m hpath => ?_,
    fun herror u m hpath => ?_⟩
  · have hgives := Reaches.gives_of_path hpath h hv
    constructor
    · exact fun hother => hother.unique hgives
    · rintro ⟨rfl, rfl⟩
      exact hgives
  · have hbody := Reaches.gives_of_path hpath h hv
    rw [← Machine.resume_resume _ m₀]
    exact henters.gives hbody
  · exact Program.stopsWith_of_gives (Reaches.gives_of_path hpath h hv) hv
  · have hgives := gives_of_path_of_isError hpath h herror
    have hunwrap : v.unwrap = v := by
      cases v <;> cases herror
      rfl
    refine ⟨hgives, ?_⟩
    rintro p rfl
    have hstops := Program.stopsWith_of_gives hgives hv
    rwa [hunwrap] at hstops

def quotient : Expr := .infixed "/" .divide (.integer "1" 1) (.integer "0" 0)

def faultyProcedure : Expr :=
  .procedure ⟨"procedure", "p", []⟩ (.mk ⟨.beginWord, "begin"⟩ [.expression "1" quotient])

def faultyAssignment : Stmt :=
  .assign "x" (.infixed "+" .add (.integer "2" 2) (.call "(" faultyProcedure []))

def faultyProgram : Program :=
  ⟨[.declare "var" false "x" .integer (.integer "1" 1), faultyAssignment, faultyAssignment]⟩

theorem abrupt_rises_faultyProgram :
    ∃ m₁ m₂, (expr quotient).Gives m₁ (some (.ofError .divisionByZero)) m₂ ∧
      ReflTransGen (fun T U => Reaches T U ∨ Enters T U)
        (stmts faultyProgram.statements, .initial) (expr quotient, m₁) ∧
      faultyProgram.StopsWith .initial (.ofError .divisionByZero)
        (Machine.initial.resume m₂) ∧
      (m₂.store.get? 0 "x").map Value.text = some "1" := by
  have hsteps : ∃ m p m₀ m₂,
      (stmt (.declare "var" false "x" .integer (.integer "1" 1))).Gives .initial none m ∧
      (expr (.integer "2" 2)).Gives m (some (.integer 2)) m ∧
      (expr faultyProcedure).Gives m (some (.procedure p)) m₀ ∧
      m₀.depth < maxCallDepth ∧ [].length = p.arity ∧
      p.body.statements = [.expression "1" quotient] ∧
      (expr quotient).Gives (m₀.entered p []) (some (.ofError .divisionByZero)) m₂ ∧
      (m₂.store.get? 0 "x").map Value.text = some "1" :=
    ⟨_, _, _, _, ⟨1, rfl⟩, ⟨1, rfl⟩, ⟨1, rfl⟩, by decide, rfl, rfl, ⟨1, rfl⟩, by decide +kernel⟩
  obtain ⟨m, p, m₀, m₂, hdeclare, hleft, hcallee, hdepth, harity, hbody, hname, hx⟩ := hsteps
  have hpath : ReflTransGen (fun T U => Reaches T U ∨ Enters T U)
      (stmts faultyProgram.statements, .initial) (expr quotient, m₀.entered p []) := by
    have hassign : Reaches (stmts faultyProgram.statements, .initial) (stmt faultyAssignment, m) :=
      @Reaches.statement [_] _ [faultyAssignment] _ _ _ (.cons hdeclare rfl .nil)
    have hcall : Enters (expr (.call "(" faultyProcedure []), m)
        (stmts p.body.statements, m₀.entered p []) :=
      @Enters.body _ _ [] _ _ _ [] _ hcallee .nil hdepth harity
    have hstatement : Reaches (stmts p.body.statements, m₀.entered p [])
        (stmt (.expression "1" quotient), m₀.entered p []) := by
      rw [hbody]
      exact @Reaches.statement [] _ [] _ _ _ .nil
    exact .head (.inl hassign) (.head (.inl .assigned) (.head (.inl (.right hleft rfl))
      (.head (.inr hcall) (.head (.inl hstatement) (.single (.inl .expression))))))
  have hstops := ((abrupt_rises hname rfl).2.2.2 rfl _ _ hpath).2 faultyProgram rfl
  exact ⟨_, m₂, hname, hpath, hstops, hx⟩

end Phrase

end MiniPascal
