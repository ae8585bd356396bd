namespace MiniPascal

inductive TokenKind where
  | endOfInput | illegal
  | identifier | integer | real | text
  | varWord | constWord | integerWord | realWord | programWord | procedureWord
  | beginWord | doWord | endWord | forWord | toWord | whileWord
  | ifWord | thenWord | elseWord | returnWord | trueWord | falseWord | notWord
  | assign | plus | minus | slash | asterisk
  | less | greater | lessEq | greaterEq | equal | notEqual
  | comma | colon | semicolon | leftParen | rightParen
  deriving DecidableEq, Repr

structure Token where
  kind : TokenKind
  literal : String
  deriving DecidableEq, Repr

namespace TokenKind

def names : List (TokenKind × String) :=
  [(.endOfInput, "EOF"), (.illegal, "ILLEGAL"),
   (.identifier, "IDENTIFIER"), (.integer, "INTEGER"), (.real, "REAL"), (.text, "STRING"),
   (.varWord, "VAR"), (.constWord, "CONST"), (.integerWord, "INTEGER_KEYWORD"),
   (.realWord, "REAL_KEYWORD"), (.programWord, "PROGRAM"), (.procedureWord, "PROCEDURE"),
   (.beginWord, "BEGIN"), (.doWord, "DO"), (.endWord, "END"), (.forWord, "FOR"), (.toWord, "TO"),
   (.whileWord, "WHILE"), (.ifWord, "IF"), (.thenWord, "THEN"), (.elseWord, "ELSE"),
   (.returnWord, "RETURN"), (.trueWord, "TRUE"), (.falseWord, "FALSE"), (.notWord, "NOT"),
   (.assign, ":="), (.plus, "+"), (.minus, "-"), (.slash, "/"), (.asterisk, "*"),
   (.less, "<"), (.greater, ">"), (.lessEq, "<="), (.greaterEq, ">="), (.equal, "=="),
   (.notEqual, "<>"), (.comma, ","), (.colon, ":"), (.semicolon, ";"), (.leftParen, "("),
   (.rightParen, ")")]

def name (kind : TokenKind) : String := (names.lookup kind).getD ""

def keywords : List (String × TokenKind) :=
  [("var", .varWord), ("const", .constWord), ("integer", .integerWord), ("real", .realWord),
   ("program", .programWord), ("procedure", .procedureWord), ("begin", .beginWord),
   ("do", .doWord), ("end", .endWord), ("for", .forWord), ("to", .toWord),
   ("while", .whileWord), ("if", .ifWord), ("then", .thenWord), ("else", .elseWord),
   ("return", .returnWord), ("true", .trueWord), ("false", .falseWord), ("not", .notWord)]

def ofWord (word : String) : TokenKind := (keywords.lookup word).getD .identifier

end TokenKind

namespace Token

def endOfInput : Token := ⟨.endOfInput, ""⟩

def headKind : List Token → TokenKind
  | [] => .endOfInput
  | t :: _ => t.kind

end Token

end MiniPascal
