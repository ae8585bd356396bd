import MiniPascal.Value
/-! Operators on values: integers wrap around, a real operand makes an operation real. -/

namespace MiniPascal.Value

def same : Value → Value → Bool
  | integer a, integer b => a == b
  | real a, real b => a == b
  | boolean a, boolean b => a == b
  | string a, string b => a == b
  | null, null => true
  | returned a, returned b => same a b
  | error a, error b => a == b
  | procedure p, procedure q => p.identity == q.identity
  | _, _ => false

def applyPrefix (operator : PrefixOperator) (v : Value) : Value :=
  match operator, v with
  | .logicalNot, v => boolean !v.isTruthy
  | .negate, integer n => integer (-n)
  | .negate, real x => real (-x)
  | .negate, v => ofError (.unknownPrefix .negate v.type)

/-- The quotient is cut off toward zero. -/
def integerInfix (operator : InfixOperator) (a b : Int64) : Value :=
  match operator with
  | .add => integer (a + b)
  | .subtract => integer (a - b)
  | .multiply => integer (a * b)
  | .divide => if b = 0 then ofError .divisionByZero else integer (a / b)
  | .equalTo => boolean (a == b)
  | .notEqualTo => boolean (a != b)
  | .greaterThan => boolean (a > b)
  | .greaterEq => boolean (a ≥ b)
  | .lessThan => boolean (a < b)
  | .lessEq => boolean (a ≤ b)

def realInfix (operator : InfixOperator) (a b : Float) : Value :=
  match operator with
  | .add => real (a + b)
  | .subtract => real (a - b)
  | .multiply => real (a * b)
  | .divide => if b == 0 then ofError .divisionByZero else real (a / b)
  | .equalTo => boolean (a == b)
  | .notEqualTo => boolean (a != b)
  | .greaterThan => boolean (a > b)
  | .greaterEq => boolean (a ≥ b)
  | .lessThan => boolean (a < b)
  | .lessEq => boolean (a ≤ b)

def nearest (n : Int64) : Float := Float.ofInt n.toInt

def otherInfix (operator : InfixOperator) (a b : Value) : Value :=
  if a.type ≠ b.type then ofError (.typeMismatch a.type operator b.type)
  else
    match operator with
    | .equalTo => boolean (same a b)
    | .notEqualTo => boolean !(same a b)
    | _ => ofError (.unknownInfix a.type operator b.type)

def applyInfix (operator : InfixOperator) (a b : Value) : Value :=
  match a, b, operator with
  | integer a, integer b, operator => integerInfix operator a b
  | integer a, real b, operator => realInfix operator (nearest a) b
  | real a, integer b, operator => realInfix operator a (nearest b)
  | real a, real b, operator => realInfix operator a b
  | string a, string b, .add => string (a ++ b)
  | a, b, operator => otherInfix operator a b

end MiniPascal.Value
