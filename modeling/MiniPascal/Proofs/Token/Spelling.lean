import Mathlib
import MiniPascal.Program

namespace MiniPascal

def TokenKind.spelling : TokenKind → String
  | .endOfInput | .illegal | .identifier | .integer | .real | .text => ""
  | .varWord => "var"
  | .constWord => "const"
  | .integerWord => "integer"
  | .realWord => "real"
  | .programWord => "program"
  | .procedureWord => "procedure"
  | .beginWord => "begin"
  | .doWord => "do"
  | .endWord => "end"
  | .forWord => "for"
  | .toWord => "to"
  | .whileWord => "while"
  | .ifWord => "if"
  | .thenWord => "then"
  | .elseWord => "else"
  | .returnWord => "return"
  | .trueWord => "true"
  | .falseWord => "false"
  | .notWord => "not"
  | .assign => ":="
  | .plus => "+"
  | .minus => "-"
  | .slash => "/"
  | .asterisk => "*"
  | .less => "<"
  | .greater => ">"
  | .lessEq => "<="
  | .greaterEq => ">="
  | .equal => "=="
  | .notEqual => "<>"
  | .comma => ","
  | .colon => ":"
  | .semicolon => ";"
  | .leftParen => "("
  | .rightParen => ")"

def TokenKind.written (kind : TokenKind) : Token := ⟨kind, kind.spelling⟩

def NumericType.kind : NumericType → TokenKind
  | .integer => .integerWord
  | .real => .realWord

def declarationWord (constant : Bool) : TokenKind := if constant then .constWord else .varWord

def booleanWord (value : Bool) : TokenKind := if value then .trueWord else .falseWord

def PrefixOperator.kind : PrefixOperator → TokenKind
  | .negate => .minus
  | .logicalNot => .notWord

def InfixOperator.kind : InfixOperator → TokenKind
  | .add => .plus
  | .subtract => .minus
  | .multiply => .asterisk
  | .divide => .slash
  | .equalTo => .equal
  | .notEqualTo => .notEqual
  | .greaterThan => .greater
  | .greaterEq => .greaterEq
  | .lessThan => .less
  | .lessEq => .lessEq

end MiniPascal
