import MiniPascal.Program

namespace MiniPascal

def NumericType.keyword : NumericType → String
  | .integer => "integer"
  | .real => "real"

def Parameter.text (p : Parameter) : String := p.name ++ ": " ++ p.type.keyword

def Header.text (h : Header) : String :=
  h.lexeme ++ " " ++ h.name ++ "(" ++ ", ".intercalate (h.parameters.map Parameter.text) ++ ")"

mutual
def Expr.text : Expr → String
  | .named name => name
  | .integer lexeme _ => lexeme
  | .real lexeme _ => lexeme
  | .boolean _ value => if value then "true" else "false"
  | .string value => "\"" ++ value ++ "\""
  | .prefixed _ .negate right => "(-" ++ right.text ++ ")"
  | .prefixed _ .logicalNot right => "(not " ++ right.text ++ ")"
  | .infixed _ operator left right =>
    "(" ++ left.text ++ " " ++ operator.symbol ++ " " ++ right.text ++ ")"
  | .conditional _ condition consequence alternative =>
    "if " ++ condition.text ++ " then " ++ consequence.bodyText ++
      match alternative with
      | none => ""
      | some block => " else " ++ block.bodyText
  | .procedure header body => header.text ++ " begin " ++ body.bodyText
  | .call _ callee arguments => callee.text ++ "(" ++ Expr.listText arguments ++ ")"

def Expr.listText : List Expr → String
  | [] => ""
  | [e] => e.text
  | e :: rest => e.text ++ ", " ++ Expr.listText rest

def Stmt.text : Stmt → String
  | .declare lexeme _ name type value =>
    lexeme ++ " " ++ name ++ ": " ++ type.keyword ++ " := " ++ value.text ++ ";"
  | .assign name value => name ++ " := " ++ value.text ++ ";"
  | .giveBack lexeme value => lexeme ++ " " ++ value.text ++ ";"
  | .expression _ value => value.text
  | .block body => "begin " ++ body.bodyText
  | .whileLoop _ condition body => "while " ++ condition.text ++ " do " ++ body.bodyText
  | .forLoop _ counter first last body =>
    "for " ++ counter ++ " := " ++ first.text ++ " to " ++ last.text ++ " do " ++ body.bodyText

def Stmt.listText : List Stmt → String
  | [] => ""
  | s :: rest => s.text ++ " " ++ Stmt.listText rest

def Block.bodyText : Block → String
  | .mk _ statements => Stmt.listText statements ++ "end"
end

def Block.text (b : Block) : String := " ".intercalate (b.statements.map Stmt.text)

def Program.text (p : Program) : String := String.join (p.statements.map Stmt.text)

end MiniPascal
