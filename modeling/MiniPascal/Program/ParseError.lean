import MiniPascal.Token
import MiniPascal.Text.Quoted

namespace MiniPascal

inductive ParseError where
  | unexpected (expected got : TokenKind)
  | expectedType (got : TokenKind)
  | noOperand (got : TokenKind)
  | badInteger (literal : String)
  | badReal (literal : String)
  | illegalToken (literal : String)
  deriving DecidableEq, Repr

namespace ParseError

def notAnOperand (t : Token) : ParseError :=
  if t.kind = .illegal then .illegalToken t.literal else .noOperand t.kind

def message : ParseError → String
  | unexpected expected got =>
    "expected next token to be " ++ expected.name ++ ", got " ++ got.name ++ " instead"
  | expectedType got =>
    "expected next token to be a type (integer or real), got " ++ got.name ++ " instead"
  | noOperand got => "no prefix parse function for " ++ got.name ++ " found"
  | badInteger literal => "could not parse " ++ Text.quoted literal ++ " as integer"
  | badReal literal => "could not parse " ++ Text.quoted literal ++ " as real"
  | illegalToken literal => "illegal token " ++ Text.quoted literal

end ParseError

end MiniPascal
