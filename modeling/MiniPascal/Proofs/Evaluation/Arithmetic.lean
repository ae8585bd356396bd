import MiniPascal.Proofs.Evaluation.Positions

namespace MiniPascal

def InfixOperator.exact? : InfixOperator → Option (ℤ → ℤ → ℤ)
  | add => some (· + ·)
  | subtract => some (· - ·)
  | multiply => some (· * ·)
  | _ => none

/-- Integers and names of integers, with signs and ring operations; `z` is what the expression
comes to if there are no limits. -/
inductive Expr.Exact (m : Machine) : Expr → ℤ → Prop
  | integer {lexeme} (n : Int64) : Exact m (.integer lexeme n) n.toInt
  | named {name n} : m.store.get? m.current name = some (.integer n) →
    Exact m (.named name) n.toInt
  | negated {lexeme e z} : Exact m e z → Exact m (.prefixed lexeme .negate e) (-z)
  | infixed {lexeme f l r a b} (operator : InfixOperator) : operator.exact? = some f →
    Exact m l a → Exact m r b → Exact m (.infixed lexeme operator l r) (f a b)

namespace Value

lemma integerInfix_of_exact {operator : InfixOperator} {f : ℤ → ℤ → ℤ}
    (h : operator.exact? = some f) (a b : ℤ) :
    integerInfix operator (.ofInt a) (.ofInt b) = integer (.ofInt (f a b)) := by
  cases operator <;> cases h
  · exact congrArg integer (Int64.ofInt_add a b).symm
  · exact congrArg integer (Int64.ofInt_sub a b).symm
  · exact congrArg integer (Int64.ofInt_mul a b).symm

structure IsQuotient (a b : Int64) (v : Value) : Prop where
  isError_iff : v.isError = true ↔ b = 0
  division_by_zero : b = 0 → v = .ofError .divisionByZero
  limit : a = Int64.minValue → b = -1 → v = integer Int64.minValue
  truncated : b ≠ 0 → ¬ (a = Int64.minValue ∧ b = -1) →
    ∃ (q : Int64) (r : ℤ), v = integer q ∧ a.toInt = q.toInt * b.toInt + r ∧
      |r| < |b.toInt| ∧ (r = 0 ∨ r.sign = a.toInt.sign)

lemma toInt_div_of_not_limit {a b : Int64} (h : ¬ (a = Int64.minValue ∧ b = -1)) :
    (a / b).toInt = a.toInt.tdiv b.toInt := by
  rw [not_and_or] at h
  rcases h with ha | hb
  · exact Int64.toInt_div_of_ne_left a b ha
  · exact Int64.toInt_div_of_ne_right a b hb

lemma isQuotient_divide (a b : Int64) : IsQuotient a b (integerInfix .divide a b) := by
  have hzero (hb : b = 0) : integerInfix .divide a b = .ofError .divisionByZero := if_pos hb
  have hquotient (hb : b ≠ 0) : integerInfix .divide a b = integer (a / b) := if_neg hb
  refine ⟨⟨fun h => ?_, fun hb => ?_⟩, hzero, ?_, ?_⟩
  · by_contra hb
    rw [hquotient hb] at h
    cases h
  · rw [hzero hb]
    rfl
  · rintro rfl rfl
    rfl
  · intro hb hlimit
    refine ⟨a / b, a.toInt.tmod b.toInt, hquotient hb, ?_, ?_, ?_⟩
    · rw [toInt_div_of_not_limit hlimit, Int.mul_comm]
      exact (Int.mul_tdiv_add_tmod _ _).symm
    · have hb' : b.toInt.natAbs ≠ 0 := fun h => hb (Int64.toInt_inj.1 (Int.natAbs_eq_zero.1 h))
      rw [Int.abs_eq_natAbs, Int.abs_eq_natAbs, Int.natAbs_tmod]
      exact_mod_cast Nat.mod_lt _ (Nat.pos_of_ne_zero hb')
    · rw [Int.sign_tmod]
      split
      · next h => exact .inl (Int.tmod_eq_zero_of_dvd h)
      · exact .inr rfl

end Value

namespace Expr

open Run

variable {m : Machine} {call : Caller} {passes : ℕ}

lemma Exact.eval {e : Expr} {z : ℤ} (h : e.Exact m z) :
    e.eval call passes m = some (.integer (.ofInt z), m) := by
  induction h with
  | integer n =>
    rw [Int64.ofInt_toInt]
    rfl
  | named hget =>
    rw [Int64.ofInt_toInt, Expr.eval, lookup, hget]
    rfl
  | negated _ ih =>
    rw [Int64.ofInt_neg]
    exact onValue_of_normal ih rfl
  | infixed _ hoperator _ _ ihl ihr =>
    rw [← Value.integerInfix_of_exact hoperator]
    exact (onValue_of_normal ihl rfl).trans (onValue_of_normal ihr rfl)

/-- Whatever overflows on the way, the result of such an expression is the one integer in range that
is congruent to its exact value, and nothing else is changed; and the quotient of two of them is an
error just for the divisor 0. -/
theorem eval_exact (m : Machine) (call : Caller) (passes : ℕ) :
    (∀ e z, Exact m e z → ∃ n : Int64, e.eval call passes m = some (.integer n, m) ∧
      n.toInt ≡ z [ZMOD 2 ^ 64] ∧ -2 ^ 63 ≤ n.toInt ∧ n.toInt < 2 ^ 63) ∧
    ∀ lexeme l r a b, Exact m l a → Exact m r b →
      ∃ v, (infixed lexeme .divide l r).eval call passes m = some (v, m) ∧
        v.IsQuotient (.ofInt a) (.ofInt b) := by
  constructor
  · intro e z h
    refine ⟨.ofInt z, h.eval, ?_, Int64.le_toInt _, Int64.toInt_lt _⟩
    rw [Int64.toInt_ofInt]
    exact Int.bmod_emod
  · intro lexeme l r a b hl hr
    refine ⟨_, (onValue_of_normal hl.eval rfl).trans (onValue_of_normal hr.eval rfl), ?_⟩
    exact Value.isQuotient_divide _ _

def atLimit : Machine := ⟨⟨#[⟨[("x", ⟨.integer Int64.maxValue, false⟩)], none⟩]⟩, 0, 0, 0, []⟩

def pastLimit : Expr := .infixed "+" .add (.named "x") (.integer "1" 1)

def backInRange : Expr :=
  .infixed "-" .subtract (.infixed "*" .multiply pastLimit (.integer "3" 3)) (.named "x")

lemma exact_limit : Exact atLimit (.named "x") (2 ^ 63 - 1) := by
  have hx : atLimit.store.get? atLimit.current "x" = some (.integer Int64.maxValue) := by cbv
  exact .named hx

lemma exact_pastLimit : Exact atLimit pastLimit (2 ^ 63 - 1 + 1) :=
  .infixed .add rfl exact_limit (.integer 1)

theorem eval_exact_pastLimit :
    Exact atLimit backInRange (2 ^ 63 * 3 - (2 ^ 63 - 1)) ∧
      backInRange.eval (callWithin 0) 0 atLimit = some (.integer 1, atLimit) ∧
      Exact atLimit pastLimit (2 ^ 63) ∧
      (infixed "/" .divide pastLimit (.integer "1" (-1))).eval (callWithin 0) 0 atLimit =
        some (.integer Int64.minValue, atLimit) := by
  have htripled : Exact atLimit (.infixed "*" .multiply pastLimit (.integer "3" 3)) (2 ^ 63 * 3) :=
    .infixed .multiply rfl exact_pastLimit (.integer 3)
  have hback : Exact atLimit backInRange (2 ^ 63 * 3 - (2 ^ 63 - 1)) :=
    .infixed .subtract rfl htripled exact_limit
  obtain ⟨hring, hquotient⟩ := eval_exact atLimit (callWithin 0) 0
  obtain ⟨n, heval, hmod, hlow, hhigh⟩ := hring _ _ hback
  obtain ⟨v, hdivide, hv⟩ :=
    hquotient "/" pastLimit (.integer "1" (-1)) _ _ exact_pastLimit (.integer (-1))
  refine ⟨hback, ?_, exact_pastLimit, ?_⟩
  · obtain rfl : n = 1 := by
      rw [← Int64.toInt_inj]
      rw [Int.ModEq] at hmod
      have hone : (1 : Int64).toInt = 1 := rfl
      omega
    exact heval
  · rw [hdivide, hv.limit rfl rfl]

end Expr

end MiniPascal
