import MiniPascal.Proofs.Tree
/-! Trees written as tokens. Styles differ in parentheses and in semicolons. -/

namespace MiniPascal

inductive Position where
  | whole
  | leftOf (operator : InfixOperator)
  | rightOf (operator : InfixOperator)
  | behindPrefix
  | callee

structure Style where
  parentheses : Position → Expr → Bool
  semicolon : Stmt → Bool

def Parameter.tokens (p : Parameter) : List Token :=
  [⟨.identifier, p.name⟩, TokenKind.colon.written, p.type.kind.written]

namespace Style

def enclose (ts : List Token) : Bool → List Token
  | false => ts
  | true => TokenKind.leftParen.written :: (ts ++ [TokenKind.rightParen.written])

def others : List (List Token) → List Token
  | [] => [TokenKind.rightParen.written]
  | ts :: rest => TokenKind.comma.written :: (ts ++ others rest)

def listed : List (List Token) → List Token
  | [] => [TokenKind.rightParen.written]
  | ts :: rest => ts ++ others rest

def ending : Bool → List Token
  | false => []
  | true => [TokenKind.semicolon.written]

variable (st : Style)

-- An expression without parentheses around it, a statement without its semicolon, and a block
-- behind the word that opens it.
mutual
def core : Expr → List Token
  | .named name => [⟨.identifier, name⟩]
  | .integer lexeme _ => [⟨.integer, lexeme⟩]
  | .real lexeme _ => [⟨.real, lexeme⟩]
  | .boolean _ value => [(booleanWord value).written]
  | .string value => [⟨.text, value⟩]
  | .prefixed _ operator right =>
    operator.kind.written :: enclose (core right) (st.parentheses .behindPrefix right)
  | .infixed _ operator left right =>
    enclose (core left) (st.parentheses (.leftOf operator) left) ++ operator.kind.written ::
      enclose (core right) (st.parentheses (.rightOf operator) right)
  | .conditional _ condition consequence none =>
    TokenKind.ifWord.written :: enclose (core condition) (st.parentheses .whole condition) ++
      TokenKind.thenWord.written :: body consequence
  | .conditional _ condition consequence (some alternative) =>
    TokenKind.ifWord.written :: enclose (core condition) (st.parentheses .whole condition) ++
      TokenKind.thenWord.written :: body consequence ++
      TokenKind.elseWord.written :: body alternative
  | .procedure header block =>
    TokenKind.procedureWord.written :: ⟨.identifier, header.name⟩ ::
      TokenKind.leftParen.written :: listed (header.parameters.map Parameter.tokens) ++
      TokenKind.beginWord.written :: body block
  | .call _ callee args =>
    enclose (core callee) (st.parentheses .callee callee) ++
      TokenKind.leftParen.written :: listed (arguments args)

def arguments : List Expr → List (List Token)
  | [] => []
  | e :: rest => enclose (core e) (st.parentheses .whole e) :: arguments rest

def clause : Stmt → List Token
  | .declare _ constant name type value =>
    (declarationWord constant).written :: ⟨.identifier, name⟩ :: TokenKind.colon.written ::
      type.kind.written :: TokenKind.assign.written ::
      enclose (core value) (st.parentheses .whole value)
  | .assign name value =>
    ⟨.identifier, name⟩ :: TokenKind.assign.written ::
      enclose (core value) (st.parentheses .whole value)
  | .giveBack _ value =>
    TokenKind.returnWord.written :: enclose (core value) (st.parentheses .whole value)
  | .expression _ value => enclose (core value) (st.parentheses .whole value)
  | .block block => TokenKind.beginWord.written :: body block
  | .whileLoop _ condition block =>
    TokenKind.whileWord.written :: enclose (core condition) (st.parentheses .whole condition) ++
      TokenKind.doWord.written :: body block
  | .forLoop _ counter first last block =>
    TokenKind.forWord.written :: ⟨.identifier, counter⟩ :: TokenKind.assign.written ::
      enclose (core first) (st.parentheses .whole first) ++
      TokenKind.toWord.written :: enclose (core last) (st.parentheses .whole last) ++
      TokenKind.doWord.written :: body block

def statements : List Stmt → List Token
  | [] => []
  | s :: rest => clause s ++ ending (st.semicolon s) ++ statements rest

def body : Block → List Token
  | .mk _ block => statements block ++ [TokenKind.endWord.written]
end

attribute [simp] core arguments clause statements body

def expr (position : Position) (e : Expr) : List Token :=
  enclose (st.core e) (st.parentheses position e)

end Style

/-- The expressions that would fall apart here without parentheses. -/
def Position.needsParentheses : Position → Expr → Bool
  | .leftOf operator, .infixed _ inner _ _ => inner.precedence < operator.precedence
  | .rightOf operator, .infixed _ inner _ _ => inner.precedence ≤ operator.precedence
  | .behindPrefix, .infixed _ _ _ _ => true
  | .callee, .infixed _ _ _ _ => true
  | .callee, .prefixed _ _ _ => true
  | _, _ => false

end MiniPascal
