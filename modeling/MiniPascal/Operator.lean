import MiniPascal.Token

namespace MiniPascal

inductive Precedence where
  | lowest | equality | comparison | addition | multiplication | prefixOp | call
  deriving DecidableEq, Repr

inductive PrefixOperator where
  | negate | logicalNot
  deriving DecidableEq, Repr

inductive InfixOperator where
  | add | subtract | multiply | divide
  | equalTo | notEqualTo | greaterThan | greaterEq | lessThan | lessEq
  deriving DecidableEq, Repr

namespace PrefixOperator

def ofKind? : TokenKind → Option PrefixOperator
  | .minus => some .negate
  | .notWord => some .logicalNot
  | _ => none

def symbol : PrefixOperator → String
  | .negate => "-"
  | .logicalNot => "not"

end PrefixOperator

namespace InfixOperator

def ofKind? : TokenKind → Option InfixOperator
  | .plus => some .add
  | .minus => some .subtract
  | .asterisk => some .multiply
  | .slash => some .divide
  | .equal => some .equalTo
  | .notEqual => some .notEqualTo
  | .greater => some .greaterThan
  | .greaterEq => some .greaterEq
  | .less => some .lessThan
  | .lessEq => some .lessEq
  | _ => none

def symbol : InfixOperator → String
  | add => "+"
  | subtract => "-"
  | multiply => "*"
  | divide => "/"
  | equalTo => "=="
  | notEqualTo => "<>"
  | greaterThan => ">"
  | greaterEq => ">="
  | lessThan => "<"
  | lessEq => "<="

def precedence : InfixOperator → Precedence
  | add | subtract => .addition
  | multiply | divide => .multiplication
  | equalTo | notEqualTo => .equality
  | greaterThan | greaterEq | lessThan | lessEq => .comparison

end InfixOperator

namespace Precedence

def rank : Precedence → Nat
  | lowest => 0
  | equality => 1
  | comparison => 2
  | addition => 3
  | multiplication => 4
  | prefixOp => 5
  | call => 6

instance : LT Precedence := ⟨fun a b => a.rank < b.rank⟩
instance : LE Precedence := ⟨fun a b => a.rank ≤ b.rank⟩
instance (a b : Precedence) : Decidable (a < b) := inferInstanceAs (Decidable (a.rank < b.rank))
instance (a b : Precedence) : Decidable (a ≤ b) := inferInstanceAs (Decidable (a.rank ≤ b.rank))

def ofKind : TokenKind → Precedence
  | .leftParen => .call
  | kind => ((InfixOperator.ofKind? kind).map InfixOperator.precedence).getD .lowest

end Precedence

end MiniPascal
