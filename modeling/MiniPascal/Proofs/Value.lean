import MiniPascal.Value.Operation

namespace MiniPascal.Value

def IsPlain : Value → Prop
  | procedure _ => False
  | returned _ => False
  | _ => True

theorem isAbrupt_eq_false {v : Value} (hreturned : ∀ w, v ≠ returned w)
    (herror : ∀ message, v ≠ error message) : v.isAbrupt = false := by
  cases v with
  | returned w => exact absurd rfl (hreturned w)
  | error message => exact absurd rfl (herror message)
  | _ => rfl

theorem isPlain_ofError (e : EvalError) : (ofError e).IsPlain := trivial

theorem isPlain_applyPrefix (operator : PrefixOperator) (v : Value) :
    (v.applyPrefix operator).IsPlain := by
  cases operator <;> cases v <;> trivial

theorem isPlain_integerInfix (operator : InfixOperator) (a b : Int64) :
    (integerInfix operator a b).IsPlain := by
  cases operator <;> rw [integerInfix] <;> try trivial
  split <;> trivial

theorem isPlain_realInfix (operator : InfixOperator) (a b : Float) :
    (realInfix operator a b).IsPlain := by
  cases operator <;> rw [realInfix] <;> try trivial
  split <;> trivial

theorem isPlain_otherInfix (operator : InfixOperator) (a b : Value) :
    (otherInfix operator a b).IsPlain := by
  rw [otherInfix.eq_def]
  split
  · exact isPlain_ofError _
  · cases operator <;> trivial

theorem isPlain_applyInfix (operator : InfixOperator) (a b : Value) :
    (applyInfix operator a b).IsPlain := by
  rw [applyInfix.eq_def]
  split
  · exact isPlain_integerInfix _ _ _
  · exact isPlain_realInfix _ _ _
  · exact isPlain_realInfix _ _ _
  · exact isPlain_realInfix _ _ _
  · trivial
  · exact isPlain_otherInfix _ _ _

end MiniPascal.Value
