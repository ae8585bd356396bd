import MiniPascal.Decimal.Text
import MiniPascal.Program.Printer

namespace MiniPascal

abbrev ScopeId := Nat

/-- A procedure with the scope it was made in. Every evaluation of a procedure literal gives it an
`identity` of its own. -/
structure Procedure where
  identity : Nat
  header : Header
  body : Block
  closure : ScopeId

/-- A value, or what takes its place: the value a `return` is carrying out of a procedure, or an
error on its way out of the program. -/
inductive Value where
  | integer (n : Int64)
  | real (x : Float)
  | boolean (b : Bool)
  | string (s : String)
  | null
  | returned (value : Value)
  | error (message : String)
  | procedure (p : Procedure)

inductive ValueType where
  | integer | real | boolean | string | null | returned | error | procedure
  deriving DecidableEq, Repr

def ValueType.name : ValueType → String
  | integer => "INTEGER"
  | real => "REAL"
  | boolean => "BOOLEAN"
  | string => "STRING"
  | null => "NULL"
  | returned => "RETURN_VALUE"
  | error => "ERROR"
  | procedure => "PROCEDURE"

inductive EvalError where
  | unknownPrefix (operator : PrefixOperator) (operand : ValueType)
  | unknownInfix (left : ValueType) (operator : InfixOperator) (right : ValueType)
  | typeMismatch (left : ValueType) (operator : InfixOperator) (right : ValueType)
  | divisionByZero
  | notFound (name : String)
  | constantAssignment (name : String)
  | constantRedeclaration (name : String)
  | notAProcedure (found : ValueType)
  | wrongArity (want got : Nat)
  | nonIntegerBound (found : ValueType)
  | callDepthExceeded (limit : Nat)
  deriving DecidableEq, Repr

def EvalError.message : EvalError → String
  | unknownPrefix operator operand => "unknown operator: " ++ operator.symbol ++ operand.name
  | unknownInfix left operator right =>
    "unknown operator: " ++ left.name ++ " " ++ operator.symbol ++ " " ++ right.name
  | typeMismatch left operator right =>
    "type mismatch: " ++ left.name ++ " " ++ operator.symbol ++ " " ++ right.name
  | divisionByZero => "division by zero"
  | notFound name => "identifier not found: " ++ name
  | constantAssignment name => "cannot assign to constant: " ++ name
  | constantRedeclaration name => "cannot redeclare constant: " ++ name
  | notAProcedure found => "not a procedure: " ++ found.name
  | wrongArity want got =>
    "wrong number of arguments: want=" ++ toString want ++ ", got=" ++ toString got
  | nonIntegerBound found => "for loop bounds must be INTEGER, got " ++ found.name
  | callDepthExceeded limit => "maximum call depth of " ++ toString limit ++ " exceeded"

def Procedure.arity (p : Procedure) : Nat := p.header.parameters.length

namespace Value

def ofError (e : EvalError) : Value := error e.message

def type : Value → ValueType
  | integer _ => .integer
  | real _ => .real
  | boolean _ => .boolean
  | string _ => .string
  | null => .null
  | returned _ => .returned
  | error _ => .error
  | procedure _ => .procedure

def text : Value → String
  | integer n => toString n.toInt
  | real x => Decimal.realText x
  | boolean b => if b then "TRUE" else "FALSE"
  | string s => s
  | null => "NULL"
  | returned value => value.text
  | error message => "[ERROR]: " ++ message
  | procedure p => p.header.text

def isTruthy : Value → Bool
  | null => false
  | boolean b => b
  | _ => true

def isError : Value → Bool
  | error _ => true
  | _ => false

def isReturned : Value → Bool
  | returned _ => true
  | _ => false

def isAbrupt (v : Value) : Bool := v.isError || v.isReturned

def unwrap : Value → Value
  | returned value => value
  | value => value

end Value

end MiniPascal
