import MiniPascal.Operator
/-! Programs as trees. A node keeps the literal of its first token where the rest of it does not
determine that. -/

namespace MiniPascal

inductive NumericType where
  | integer | real
  deriving DecidableEq, Repr

structure Parameter where
  name : String
  type : NumericType
  deriving DecidableEq, Repr

structure Header where
  lexeme : String
  name : String
  parameters : List Parameter
  deriving DecidableEq, Repr

mutual
inductive Expr where
  | named (name : String)
  | integer (lexeme : String) (value : Int64)
  | real (lexeme : String) (value : Float)
  | boolean (lexeme : String) (value : Bool)
  | string (value : String)
  | prefixed (lexeme : String) (operator : PrefixOperator) (right : Expr)
  | infixed (lexeme : String) (operator : InfixOperator) (left right : Expr)
  | conditional (lexeme : String) (condition : Expr) (consequence : Block)
      (alternative : Option Block)
  | procedure (header : Header) (body : Block)
  | call (lexeme : String) (callee : Expr) (arguments : List Expr)

inductive Stmt where
  | declare (lexeme : String) (constant : Bool) (name : String) (type : NumericType) (value : Expr)
  | assign (name : String) (value : Expr)
  | giveBack (lexeme : String) (value : Expr)
  | expression (lexeme : String) (value : Expr)
  | block (body : Block)
  | whileLoop (lexeme : String) (condition : Expr) (body : Block)
  | forLoop (lexeme : String) (counter : String) (first last : Expr) (body : Block)

inductive Block where
  | mk (opener : Token) (statements : List Stmt)
end

namespace Block

def opener : Block → Token
  | mk opener _ => opener

def statements : Block → List Stmt
  | mk _ statements => statements

end Block

structure Program where
  statements : List Stmt

def Expr.lexeme : Expr → String
  | .named name => name
  | .string value => value
  | .procedure header _ => header.lexeme
  | .integer lexeme _ | .real lexeme _ | .boolean lexeme _ | .prefixed lexeme _ _
  | .infixed lexeme _ _ _ | .conditional lexeme _ _ _ | .call lexeme _ _ => lexeme

def Stmt.lexeme : Stmt → String
  | .assign name _ => name
  | .block body => body.opener.literal
  | .declare lexeme _ _ _ _ | .giveBack lexeme _ | .expression lexeme _ | .whileLoop lexeme _ _
  | .forLoop lexeme _ _ _ _ => lexeme

def Program.lexeme (p : Program) : String := (p.statements.head?.map Stmt.lexeme).getD ""

end MiniPascal
