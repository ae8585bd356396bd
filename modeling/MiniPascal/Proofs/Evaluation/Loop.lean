import MiniPascal.Proofs.Evaluation.Growth
import MiniPascal.Proofs.Evaluation.Propagation

namespace MiniPascal

lemma Value.type_eq_integer {v : Value} : v.type = .integer ↔ ∃ n, v = .integer n := by
  cases v <;> simp [Value.type]

namespace Store

variable {s : Store} {c : ScopeId} {name : String} {v : Value}

lemma chain_push_size (h : c < s.size) :
    (s.push (some c)).chain s.size = s.size :: (s.push (some c)).chain c := by
  rw [chain, scopes_push_size]
  exact if_pos h

lemma exists_chain_eq_cons (h : c < s.size) : ∃ outer, s.chain c = c :: outer := by
  rw [chain, Array.getElem?_eq_getElem h]
  dsimp only
  split
  · exact ⟨[], rfl⟩
  · split
    · exact ⟨_, rfl⟩
    · exact ⟨[], rfl⟩

-- A variable just defined in a scope is what its name means in a new scope inside.
lemma get?_push_define (h : c < s.size) :
    ((s.define c name v).push (some c)).get? (s.define c name v).size name = some v := by
  have hsize : c < (s.define c name v).size := h.trans_eq size_put.symm
  have hbinding : (s.define c name v).bindingAt? c name = some ⟨v, false⟩ := by
    rw [define, bindingAt?_put, if_pos ⟨rfl, rfl, h⟩]
  have hnew : (s.define c name v).bindingAt? (s.define c name v).size name = none :=
    bindingAt?_of_size_le (Nat.le_refl _)
  obtain ⟨outer, houter⟩ : ∃ outer, ((s.define c name v).push (some c)).chain c = c :: outer :=
    exists_chain_eq_cons (hsize.trans (size_lt_push _ _))
  simp [get?, find?, chain_push_size hsize, houter, hbinding, hnew]

end Store

def Machine.passing (m : Machine) (counter : String) (n : Int64) : Machine :=
  ((m.define counter (.integer n)).openScope m.current).2

namespace Run

variable {α : Type} {m : Machine} {outcome : Value → α} {x : Run Value} {f : Value → Run α}
  {r : α × Machine}

lemma onValue_eq_some (h : onValue outcome x f m = some r) :
    ∃ v m₁, x m = some (v, m₁) ∧
      (v.isAbrupt = true ∧ r = (outcome v, m₁) ∨ v.isAbrupt = false ∧ f v m₁ = some r) := by
  rw [onValue, bind_apply, Option.bind_eq_some_iff] at h
  obtain ⟨⟨v, m₁⟩, hx, h⟩ := h
  refine ⟨v, m₁, hx, ?_⟩
  dsimp only at h
  split at h
  · next hv =>
    cases h
    exact .inl ⟨hv, rfl⟩
  · next hv => exact .inr ⟨by simpa using hv, h⟩

end Run

namespace Phrase

open Run Filter

inductive Passes (counter : String) (body : Block) (count : ℕ) (a : Int64) (m : Machine) :
    Option Value → Machine → Prop
  | all {n m'} : Counted counter body count a m n m' → Passes counter body count a m none m'
  | stopped {k n m₁ v m'} : k < count → Counted counter body k a m n m₁ →
    (block body).Gives (m₁.define counter (.integer n)) (some v) m' → v.isAbrupt = true →
    Passes counter body count a m (some v) m'

inductive Loops (counter : String) (first last : Expr) (body : Block) (m : Machine) :
    Option Value → Machine → Prop
  | first {v m₁} : (expr first).Gives m (some v) m₁ → v.isAbrupt = true →
    Loops counter first last body m (some v) m₁
  | last {v m₁ w m₂} : (expr first).Gives m (some v) m₁ → v.isAbrupt = false →
    (expr last).Gives m₁ (some w) m₂ → w.isAbrupt = true →
    Loops counter first last body m (some w) m₂
  | notInteger {v m₁ w m₂} : (expr first).Gives m (some v) m₁ → v.isAbrupt = false →
    (expr last).Gives m₁ (some w) m₂ → w.isAbrupt = false →
    (v.type ≠ .integer ∨ w.type ≠ .integer) →
    Loops counter first last body m
      (some (.ofError (.nonIntegerBound (if v.type = .integer then w.type else v.type)))) m₂
  | passes {a m₁ b m₂ o m'} : (expr first).Gives m (some (.integer a)) m₁ →
    (expr last).Gives m₁ (some (.integer b)) m₂ →
    Passes counter body (b.toInt - a.toInt + 1).toNat a (m₂.openScope m.current).2 o m' →
    Loops counter first last body m o { m' with current := m.current }

variable {counter : String} {first last : Expr} {body : Block} {count k : ℕ} {a b n : Int64}
  {m m₁ m₂ m₃ m' : Machine} {o : Option Value} {v w : Value}

namespace Passes

lemma cons (hbody : (block body).Gives (m.define counter (.integer a)) o m₁)
    (ho : o.any Value.isAbrupt = false) {o' : Option Value}
    (h : Passes counter body count (a + 1) m₁ o' m') :
    Passes counter body (count + 1) a m o' m' := by
  cases h with
  | all hcounted => exact .all (.pass hbody ho hcounted)
  | stopped hk hcounted hlast hv =>
    exact .stopped (Nat.succ_lt_succ hk) (.pass hbody ho hcounted) hlast hv

lemma of_repeatFor {bound : ℕ}
    (h : repeatFor counter (body.exec (callWithin bound) bound) count a m = some (o, m')) :
    Passes counter body count a m o m' := by
  induction count generalizing a m with
  | zero =>
    cases h
    exact .all .start
  | succ count ih =>
    rw [repeatFor_succ_apply, bind_apply, Option.bind_eq_some_iff] at h
    obtain ⟨⟨o₁, m₁⟩, hbody, h⟩ := h
    dsimp only at h
    split at h
    · next hv =>
      cases h
      obtain ⟨v, rfl, hv⟩ := (Option.any_eq_true _ _).1 hv
      exact .stopped (Nat.succ_pos count) .start ⟨bound, hbody⟩ hv
    · next ho => exact cons ⟨bound, hbody⟩ (by simpa using ho) (ih h)

lemma eventually (h : Passes counter body count a m o m') :
    ∀ᶠ bound in atTop,
      repeatFor counter (body.exec (callWithin bound) bound) count a m = some (o, m') := by
  cases h with
  | all hcounted =>
    filter_upwards [hcounted.eventually] with bound hrest
    have hrun := hrest 0
    rwa [Nat.zero_add] at hrun
  | stopped hk hcounted hlast hv => exact hcounted.eventually_of_abrupt hk hlast hv

end Passes

-- The body of a pass runs in a new scope inside that of the counter.
lemma gives_passing_iff :
    (block body).Gives (m.define counter (.integer n)) o m' ↔
      ∃ inside, (stmts body.statements).Gives (m.passing counter n) o inside ∧
        m' = { inside with current := m.current } := by
  obtain ⟨opener, ss⟩ := body
  constructor
  · rintro ⟨bound, h⟩
    obtain ⟨⟨o₁, inside⟩, hss, hr⟩ :=
      Option.map_eq_some_iff.1 ((inScope_apply _ _ _).symm.trans h)
    cases hr
    exact ⟨inside, ⟨bound, hss⟩, rfl⟩
  · rintro ⟨inside, ⟨bound, hss⟩, rfl⟩
    exact ⟨bound, inScope_of_eq hss⟩

lemma Gives.size_le {t : Phrase} (h : t.Gives m o m') : m.store.size ≤ m'.store.size := by
  have hready : Discipline.growth.Ready m.current m := ⟨rfl, trivial, trivial⟩
  exact (Discipline.change_of_evaluates hready h.evaluates).rel.size

namespace Counted

lemma size_le (h : Counted counter body k a m n m') : m.store.size ≤ m'.store.size := by
  induction h with
  | start => exact Nat.le_refl _
  | pass hbody _ _ ih =>
    refine Nat.le_trans ?_ (hbody.size_le.trans ih)
    exact Store.size_put.ge

-- As long as it does not pass the last bound, the counter does not overflow.
lemma toInt_eq (h : Counted counter body k a m n m') (hle : a.toInt + k ≤ b.toInt) :
    n.toInt = a.toInt + k := by
  induction h with
  | start => exact (add_zero _).symm
  | @pass k a _ _ _ _ _ _ _ _ ih =>
    have hnext : (a + 1).toInt = a.toInt + 1 := by
      have hlow := a.le_toInt
      have hhigh := b.toInt_lt
      rw [Int64.toInt_add]
      apply Int.bmod_eq_of_le
      · simp
        omega
      · simp
        omega
    rw [ih (by omega), hnext]
    omega

-- Whatever the passes before have done, the counter has been set anew.
lemma get?_passing {outer : ScopeId} (h : Counted counter body k a (m.openScope outer).2 n m') :
    (m'.passing counter n).store.get? (m'.passing counter n).current counter =
      some (.integer n) := by
  apply Store.get?_push_define
  have hsize := h.size_le
  rw [h.back.current]
  exact (Store.size_lt_push _ _).trans_le hsize

end Counted

namespace Loops

variable {lexeme : String}

lemma of_gives (h : (stmt (.forLoop lexeme counter first last body)).Gives m o m') :
    Loops counter first last body m o m' := by
  obtain ⟨bound, h⟩ := h
  obtain ⟨v, m₁, hfirst, ⟨hv, hr⟩ | ⟨hv, h⟩⟩ := onValue_eq_some h
  · cases hr
    exact .first ⟨bound, run_expr_eq_some.2 hfirst⟩ hv
  replace hfirst : (expr first).Gives m (some v) m₁ := ⟨bound, run_expr_eq_some.2 hfirst⟩
  obtain ⟨w, m₂, hlast, ⟨hw, hr⟩ | ⟨hw, h⟩⟩ := onValue_eq_some h
  · cases hr
    exact .last hfirst hv ⟨bound, run_expr_eq_some.2 hlast⟩ hw
  replace hlast : (expr last).Gives m₁ (some w) m₂ := ⟨bound, run_expr_eq_some.2 hlast⟩
  rw [countedLoop.eq_def] at h
  split at h
  · have hcurrent : m₂.current = m.current := hlast.back.current.trans hfirst.back.current
    obtain ⟨⟨o, m₃⟩, hpasses, hr⟩ := Option.map_eq_some_iff.1 ((inScope_apply _ _ _).symm.trans h)
    cases hr
    rw [hcurrent] at hpasses ⊢
    exact .passes hfirst hlast (.of_repeatFor hpasses)
  · next hw' =>
    cases h
    refine .notInteger hfirst hv hlast hw (.inr fun htype => ?_)
    obtain ⟨b, rfl⟩ := Value.type_eq_integer.1 htype
    exact hw' b rfl
  · next hv' =>
    cases h
    have htype : v.type ≠ .integer := fun htype => by
      obtain ⟨a, rfl⟩ := Value.type_eq_integer.1 htype
      cases w <;> simp_all
    rw [← if_neg (e := v.type) (t := w.type) htype]
    exact .notInteger hfirst hv hlast hw (.inl htype)

lemma gives (h : Loops counter first last body m o m') :
    (stmt (.forLoop lexeme counter first last body)).Gives m o m' := by
  apply Gives.of_eventually
  cases h with
  | first hfirst hv =>
    filter_upwards [hfirst.eval] with bound hf
    exact onValue_of_abrupt hf hv
  | last hfirst hv hlast hw =>
    filter_upwards [hfirst.eval, hlast.eval] with bound hf hl
    exact (onValue_of_normal hf hv).trans (onValue_of_abrupt hl hw)
  | @notInteger v _ w _ hfirst hv hlast hw htype =>
    filter_upwards [hfirst.eval, hlast.eval] with bound hf hl
    refine (onValue_of_normal hf hv).trans ((onValue_of_normal hl hw).trans ?_)
    cases v with
    | integer a =>
      cases w with
      | integer b => simp [Value.type] at htype
      | _ => rfl
    | _ => rfl
  | passes hfirst hlast hpasses =>
    have hcurrent := hlast.back.current.trans hfirst.back.current
    filter_upwards [hfirst.eval, hlast.eval, hpasses.eventually] with bound hf hl hrun
    refine (onValue_of_normal hf rfl).trans ((onValue_of_normal hl rfl).trans ?_)
    rw [← hcurrent] at hrun ⊢
    exact inScope_of_eq hrun

end Loops

/-- A `for` evaluates its bounds once, one after the other in the scope around it. If both give
integers, `a` and `b`, it makes `b - a + 1` passes, none if that is negative, unless one of them
does not end normally; if one of the bounds gives a value that is no integer, no pass is made. As
long as the counter does not pass the last bound, it has the value `a + k` in the scope of the body
when `k` passes have been made, whatever these have assigned to it. -/
theorem forLoop_passes (lexeme counter : String) (first last : Expr) (body : Block) (m : Machine) :
    (∀ o m', (stmt (.forLoop lexeme counter first last body)).Gives m o m' ↔
      Loops counter first last body m o m') ∧
    (∀ v m₁, (expr first).Gives m (some v) m₁ → m₁.current = m.current) ∧
    ∀ a m₁ b m₂ k n m₃, (expr first).Gives m (some (.integer a)) m₁ →
      (expr last).Gives m₁ (some (.integer b)) m₂ →
      Counted counter body k a (m₂.openScope m.current).2 n m₃ → a.toInt + k ≤ b.toInt →
      n.toInt = a.toInt + k ∧
        (∀ o m', (block body).Gives (m₃.define counter (.integer n)) o m' ↔
          ∃ inside, (stmts body.statements).Gives (m₃.passing counter n) o inside ∧
            m' = { inside with current := m₃.current }) ∧
        (m₃.passing counter n).store.get? (m₃.passing counter n).current counter =
          some (.integer n) := by
  refine ⟨fun o m' => ⟨Loops.of_gives, Loops.gives⟩, fun v m₁ hfirst => hfirst.back.current, ?_⟩
  intro a m₁ b m₂ k n m₃ _ _ hcounted hle
  exact ⟨hcounted.toInt_eq hle, fun o m' => gives_passing_iff, hcounted.get?_passing⟩

-- Each pass changes the counter, itself and through a procedure that it makes.
def meddling : Block :=
  .mk ⟨.doWord, "do"⟩
    [.assign "i" (.infixed "-" .subtract (.named "i") (.integer "5" 5)),
      .expression "procedure" (.call "("
        (.procedure ⟨"procedure", "p", []⟩
          (.mk ⟨.beginWord, "begin"⟩ [.assign "i" (.integer "0" 0)])) [])]

def nextToLast : Expr := .integer "9223372036854775806" 9223372036854775806

def largest : Expr := .integer "9223372036854775807" 9223372036854775807

-- The second of two passes, at the largest number there is.
theorem forLoop_passes_meddling :
    ∃ m₁ m', Counted "i" meddling 1 9223372036854775806 (Machine.initial.openScope 0).2
        9223372036854775807 m₁ ∧
      (m₁.store.get? m₁.current "i").map Value.text = some "0" ∧
      (m₁.passing "i" 9223372036854775807).store.get? (m₁.passing "i" 9223372036854775807).current
        "i" = some (.integer 9223372036854775807) ∧
      Loops "i" nextToLast largest meddling .initial none m' := by
  have hpass : (meddling.exec (callWithin 1) 1
      ((Machine.initial.openScope 0).2.define "i" (.integer 9223372036854775806))).any (fun r =>
        !r.1.any Value.isAbrupt && (r.2.store.get? r.2.current "i").map Value.text == some "0") =
      true := by
    decide +kernel
  have hloop : ((stmt (.forLoop "for" "i" nextToLast largest meddling)).run 1 .initial).any
      (·.1.isNone) = true := by
    decide +kernel
  obtain ⟨⟨o, m₁⟩, hbody, hcounter⟩ := (Option.any_eq_true _ _).1 hpass
  obtain ⟨⟨o', m'⟩, hrun, hnone⟩ := (Option.any_eq_true _ _).1 hloop
  obtain rfl := Option.isNone_iff_eq_none.1 hnone
  simp only [Bool.and_eq_true, Bool.not_eq_true', beq_iff_eq] at hcounter
  have hcounted : Counted "i" meddling 1 9223372036854775806 (Machine.initial.openScope 0).2
      9223372036854775807 m₁ := .pass ⟨1, hbody⟩ hcounter.1 .start
  obtain ⟨hloops, -, hcounter'⟩ :=
    forLoop_passes "for" "i" nextToLast largest meddling .initial
  exact ⟨m₁, m', hcounted, hcounter.2,
    (hcounter' _ _ _ _ 1 _ m₁ ⟨1, rfl⟩ ⟨1, rfl⟩ hcounted (by decide)).2.2,
    (hloops none m').1 ⟨1, hrun⟩⟩

end Phrase

end MiniPascal
