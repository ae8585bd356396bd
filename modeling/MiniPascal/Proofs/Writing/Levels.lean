import MiniPascal.Proofs.Writing.Style
import MiniPascal.Proofs.Reading.Success
/-! How strongly expressions hold together. -/

namespace MiniPascal

namespace Precedence

lemma not_lt {p q : Precedence} : ¬ p < q ↔ q ≤ p := Nat.not_lt

lemma le_of_lt {p q : Precedence} (h : p < q) : p ≤ q := Nat.le_of_lt h

lemma lt_of_lt_of_le {p q r : Precedence} (h : p < q) (h' : q ≤ r) : p < r :=
  Nat.lt_of_lt_of_le h h'

lemma le_refl (p : Precedence) : p ≤ p := Nat.le_refl p.rank

lemma lowest_le (p : Precedence) : lowest ≤ p := Nat.zero_le p.rank

lemma le_call (p : Precedence) : p ≤ call := by cases p <;> decide

end Precedence

namespace InfixOperator

variable (operator : InfixOperator)

lemma ofKind?_kind : ofKind? operator.kind = some operator := by cases operator <;> rfl

lemma ofKind_kind : Precedence.ofKind operator.kind = operator.precedence := by
  cases operator <;> rfl

lemma kind_ne_else : operator.kind ≠ .elseWord := by cases operator <;> decide

lemma precedence_lt_prefixOp : operator.precedence < .prefixOp := by cases operator <;> decide

lemma precedence_lt_call : operator.precedence < .call := by cases operator <;> decide

end InfixOperator

lemma PrefixOperator.ofKind?_kind (operator : PrefixOperator) :
    ofKind? operator.kind = some operator := by
  cases operator <;> rfl

namespace Expr

def level : Expr → Precedence
  | .infixed _ operator _ _ => operator.precedence
  | .prefixed _ _ _ => .prefixOp
  | _ => .call

def BindsAbove (min : Precedence) : Expr → Prop
  | .infixed _ operator _ _ => min < operator.precedence
  | _ => min < .call

def Legible : Expr → Prop
  | .integer lexeme value => Decimal.integer? lexeme = some value
  | .real lexeme value => Decimal.real? lexeme = some value
  | _ => True

lemma bindsAbove_of_lt {min p : Precedence} {e : Expr} (hmin : min < p) (h : p ≤ e.level) :
    e.BindsAbove min := by
  have hlt := Precedence.lt_of_lt_of_le hmin h
  cases e with
  | infixed _ operator _ _ => exact hlt
  | _ => exact Precedence.lt_of_lt_of_le hlt (Precedence.le_call _)

lemma bindsAbove_lowest (e : Expr) : e.BindsAbove .lowest := by
  cases e with
  | infixed _ operator _ _ => exact operator.lowest_lt_precedence
  | _ => exact (by decide : Precedence.lowest < Precedence.call)

end Expr

namespace Position

variable {operator : InfixOperator} {e : Expr}

lemma leftOf_le (h : (leftOf operator).needsParentheses e = false) :
    operator.precedence ≤ e.level := by
  cases e with
  | infixed _ inner _ _ =>
    simp only [needsParentheses, decide_eq_false_iff_not] at h
    exact Precedence.not_lt.1 h
  | prefixed _ _ _ => exact Precedence.le_of_lt operator.precedence_lt_prefixOp
  | _ => exact Precedence.le_call _

lemma rightOf_bindsAbove (h : (rightOf operator).needsParentheses e = false) :
    e.BindsAbove operator.precedence := by
  cases e with
  | infixed _ inner _ _ =>
    simp only [needsParentheses, decide_eq_false_iff_not] at h
    exact Nat.lt_of_not_le h
  | _ => exact operator.precedence_lt_call

lemma rightOf_le (h : (rightOf operator).needsParentheses e = false) :
    operator.precedence ≤ e.level := by
  cases e with
  | infixed _ inner _ _ => exact Precedence.le_of_lt (rightOf_bindsAbove h)
  | prefixed _ _ _ => exact Precedence.le_of_lt operator.precedence_lt_prefixOp
  | _ => exact Precedence.le_call _

lemma behindPrefix_bindsAbove (h : behindPrefix.needsParentheses e = false) :
    e.BindsAbove .prefixOp := by
  cases e with
  | infixed _ inner _ _ => cases h
  | _ => exact (by decide : Precedence.prefixOp < Precedence.call)

lemma behindPrefix_le (h : behindPrefix.needsParentheses e = false) : .prefixOp ≤ e.level := by
  cases e with
  | infixed _ inner _ _ => cases h
  | prefixed _ _ _ => exact Precedence.le_refl _
  | _ => exact Precedence.le_call _

lemma callee_le (h : callee.needsParentheses e = false) : .call ≤ e.level := by
  cases e with
  | infixed _ inner _ _ => cases h
  | prefixed _ _ _ => cases h
  | _ => exact Precedence.le_refl _

end Position

end MiniPascal
