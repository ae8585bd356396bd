import Mathlib
import MiniPascal.Program
/-! Trees without what evaluation does not look at. -/

namespace MiniPascal

def Parameter.bare (p : Parameter) : Parameter := { p with type := .integer }

def Header.bare (h : Header) : Header := ⟨"", h.name, h.parameters.map Parameter.bare⟩

-- All types are made one type, and all literals the empty one.
mutual
def Expr.bare : Expr → Expr
  | .named name => .named name
  | .integer _ value => .integer "" value
  | .real _ value => .real "" value
  | .boolean _ value => .boolean "" value
  | .string value => .string value
  | .prefixed _ operator right => .prefixed "" operator right.bare
  | .infixed _ operator left right => .infixed "" operator left.bare right.bare
  | .conditional _ condition consequence none =>
    .conditional "" condition.bare consequence.bare none
  | .conditional _ condition consequence (some alternative) =>
    .conditional "" condition.bare consequence.bare (some alternative.bare)
  | .procedure header body => .procedure header.bare body.bare
  | .call _ callee arguments => .call "" callee.bare (Expr.listBare arguments)

def Expr.listBare : List Expr → List Expr
  | [] => []
  | e :: rest => e.bare :: Expr.listBare rest

def Stmt.bare : Stmt → Stmt
  | .declare _ constant name _ value => .declare "" constant name .integer value.bare
  | .assign name value => .assign name value.bare
  | .giveBack _ value => .giveBack "" value.bare
  | .expression _ value => .expression "" value.bare
  | .block body => .block body.bare
  | .whileLoop _ condition body => .whileLoop "" condition.bare body.bare
  | .forLoop _ counter first last body => .forLoop "" counter first.bare last.bare body.bare

def Stmt.listBare : List Stmt → List Stmt
  | [] => []
  | s :: rest => s.bare :: Stmt.listBare rest

def Block.bare : Block → Block
  | .mk _ statements => .mk Token.endOfInput (Stmt.listBare statements)
end

def Program.bare (p : Program) : Program := ⟨Stmt.listBare p.statements⟩

@[simp]
lemma Block.statements_bare (b : Block) : b.bare.statements = Stmt.listBare b.statements := by
  obtain ⟨opener, statements⟩ := b
  rfl

end MiniPascal
