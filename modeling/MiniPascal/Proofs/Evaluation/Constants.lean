import MiniPascal.Proofs.Evaluation.Evaluates

namespace MiniPascal

namespace Store

variable {s t u : Store} {c d i : ScopeId} {name : String} {v : Value}

def IsConstant (s : Store) (i : ScopeId) (name : String) : Prop :=
  ∃ v, s.bindingAt? i name = some ⟨v, true⟩

/-- The constants of `s` are constants of `t` with the same values, and only the scope `c` among
those of `s` may have gained others. -/
structure KeepsConstants (c : ScopeId) (s t : Store) : Prop where
  size : s.size ≤ t.size
  kept {i : ScopeId} {name : String} {v : Value} :
    s.bindingAt? i name = some ⟨v, true⟩ → t.bindingAt? i name = some ⟨v, true⟩
  old {i : ScopeId} {name : String} : i < s.size → i ≠ c → t.IsConstant i name → s.IsConstant i name

structure Variable (s : Store) (i : ScopeId) : Prop where
  lt : i < s.size
  not_constant (name : String) : ¬ s.IsConstant i name

namespace KeepsConstants

lemma refl : KeepsConstants c s s := ⟨Nat.le_refl _, id, fun _ _ => id⟩

lemma trans (h : KeepsConstants c s t) (h' : KeepsConstants c t u) : KeepsConstants c s u where
  size := h.size.trans h'.size
  kept hs := h'.kept (h.kept hs)
  old hi hc hu := h.old hi hc (h'.old (hi.trans_le h.size) hc hu)

lemma leave (h : KeepsConstants s.size (s.push (some d)) t) : KeepsConstants c s t where
  size := (size_lt_push s _).le.trans h.size
  kept hs := h.kept (by rwa [bindingAt?_push])
  old := by
    rintro i name hi - ht
    obtain ⟨v, hv⟩ := h.old (hi.trans (size_lt_push s _)) hi.ne ht
    rw [bindingAt?_push] at hv
    exact ⟨v, hv⟩

lemma put {constant : Bool} (h : ¬ s.IsConstant i name) (hown : constant = true → i = c) :
    KeepsConstants c s (s.put i name ⟨v, constant⟩) where
  size := size_put.ge
  kept {j other w} hs := by
    rw [bindingAt?_put, if_neg]
    · exact hs
    · rintro ⟨rfl, rfl, -⟩
      exact h ⟨w, hs⟩
  old := by
    rintro j other - hj ⟨w, hw⟩
    rw [bindingAt?_put] at hw
    split at hw
    · next hput =>
      cases hw
      exact absurd (hput.1.trans (hown rfl)) hj
    · exact ⟨w, hw⟩

lemma declare (constant : Bool) : KeepsConstants c s (s.declare c name v constant).2 := by
  rcases declare_cases s c name v constant with h | ⟨hany, h⟩
  · rw [h]
    exact refl
  · rw [h]
    refine put ?_ fun _ => rfl
    rintro ⟨w, hw⟩
    rw [hw] at hany
    cases hany

lemma assign : KeepsConstants c s (s.assign d name v).2 := by
  rcases assign_cases s d name v with h | ⟨holder, _, b, hb, hconstant, h⟩
  · rw [h]
    exact refl
  · rw [h]
    refine put ?_ nofun
    rintro ⟨w, hw⟩
    cases hb.symm.trans hw
    cases hconstant

end KeepsConstants

namespace Variable

lemma mono (h : s.Variable i) (hst : ∀ d, KeepsConstants d s t) : t.Variable i where
  lt := h.lt.trans_le (hst 0).size
  not_constant name ht := h.not_constant name ((hst (i + 1)).old h.lt (Nat.succ_ne_self i).symm ht)

lemma define (h : s.Variable i) : (s.define i name v).Variable i where
  lt := by
    rw [Store.define, size_put]
    exact h.lt
  not_constant := by
    rintro other ⟨w, hw⟩
    rw [Store.define, bindingAt?_put] at hw
    split at hw
    · cases hw
    · exact h.not_constant other ⟨w, hw⟩

lemma push (parent : Option ScopeId) : (s.push parent).Variable s.size where
  lt := size_lt_push s parent
  not_constant := by
    rintro other ⟨w, hw⟩
    rw [bindingAt?_push, bindingAt?_of_size_le (Nat.le_refl _)] at hw
    cases hw

end Variable

end Store

open Store (KeepsConstants Variable)

-- The counter of a loop and the parameters of a call are bound without regard to constants, but
-- always in a scope that has none.
def Discipline.constants : Discipline where
  fresh := Variable
  rel := KeepsConstants
  refl := .refl
  trans := .trans
  fresh_mono hst h := h.mono hst
  declare _ constant _ _ _ := ⟨trivial, .declare constant⟩
  assign _ _ _ _ := ⟨trivial, .assign⟩
  define name _ _ h _ := ⟨trivial, .put (h.not_constant name) nofun, h.define⟩
  scope _ _ := ⟨trivial, trivial, .push _⟩
  leave := .leave

namespace Machine

lemma Evaluates.keepsConstants {m m' : Machine} (h : m.Evaluates m') :
    KeepsConstants m.current m.store m'.store :=
  (Discipline.change_of_evaluates (D := .constants) ⟨rfl, trivial, trivial⟩ h).rel

/-- A constant of a scope is a constant of it with the same value after all later evaluations. -/
theorem constant_kept {m m' : Machine} (h : Relation.ReflTransGen Evaluates m m') {i : ScopeId}
    {name : String} {v : Value} (hv : m.store.bindingAt? i name = some ⟨v, true⟩) :
    m'.store.bindingAt? i name = some ⟨v, true⟩ := by
  induction h with
  | refl => exact hv
  | tail _ hstep ih => exact hstep.keepsConstants.kept ih

def withConstant : Machine := ⟨⟨#[⟨[("x", ⟨.integer 1, true⟩)], none⟩]⟩, 0, 0, 0, []⟩

def rebinding : Program :=
  ⟨[.forLoop "for" "x" (.integer "2" 2) (.integer "3" 3)
      (.mk ⟨.doWord, "do"⟩ [.assign "x" (.integer "4" 4)]),
    .assign "x" (.integer "5" 5)]⟩

def redeclaration : Stmt := .declare "const" true "x" .integer (.integer "6" 6)

theorem constant_kept_withConstant :
    ∃ values m₁ outcome m₂,
      rebinding.execEach 1 withConstant = some (values, m₁) ∧
      values.map Value.text = ["[ERROR]: cannot assign to constant: x"] ∧
      redeclaration.exec (callWithin 1) 1 m₁ = some (outcome, m₂) ∧
      outcome.map Value.text = some "[ERROR]: cannot redeclare constant: x" ∧
      withConstant.store.bindingAt? 0 "x" = some ⟨.integer 1, true⟩ ∧
      m₂.store.bindingAt? 0 "x" = some ⟨.integer 1, true⟩ := by
  have hsteps : (rebinding.execEach 1 withConstant).any (fun r =>
      r.1.map Value.text == ["[ERROR]: cannot assign to constant: x"] &&
        (redeclaration.exec (callWithin 1) 1 r.2).any fun r' =>
          r'.1.map Value.text == some "[ERROR]: cannot redeclare constant: x") = true := by
    decide +kernel
  obtain ⟨⟨values, m₁⟩, hfirst, hsteps⟩ := (Option.any_eq_true _ _).1 hsteps
  obtain ⟨hvalues, hsecond⟩ := (Bool.and_eq_true_iff ..).1 hsteps
  obtain ⟨⟨outcome, m₂⟩, hsecond, houtcome⟩ := (Option.any_eq_true _ _).1 hsecond
  have hpath : Relation.ReflTransGen Evaluates withConstant m₂ :=
    .tail (.single (.each rebinding hfirst)) (.statement redeclaration hsecond)
  exact ⟨values, m₁, outcome, m₂, hfirst, by simpa using hvalues, hsecond, by simpa using houtcome,
    rfl, constant_kept hpath rfl⟩

end Machine

end MiniPascal
