import MiniPascal.Program.Reading
import MiniPascal.Decimal.Numeral
/-! Reading programs, one token ahead. What a function leaves at most is part of its type, which
is why the recursion ends. -/

namespace MiniPascal.Within

def parameter (last : TokenKind) (ts : List Token) : AttemptWithin ts.length Parameter :=
  (expect .identifier last ts).onSuccess (Nat.le_refl _) fun name p _ =>
  (expect .colon p.last p.unread).onSuccess (by omega) fun _ p _ =>
  (expectType p.last p.unread).onSuccess (by omega) fun type p _ =>
  done ⟨name.literal, type⟩ p (by omega)

def someParameters (last : TokenKind) (ts : List Token) :
    AttemptWithin ts.length (List Parameter) :=
  (parameter last ts).onSuccess (Nat.le_refl _) fun first p _ =>
    match hp : p.unread with
    | [] => fail (.unexpected .rightParen .endOfInput) p (by omega)
    | t :: rest =>
      have hlt : rest.length < p.unread.length := by simp [hp]
      if t.kind = .comma then
        (someParameters .comma rest).onSuccess (by omega) fun others p _ =>
        done (first :: others) p (by omega)
      else if t.kind = .rightParen then done [first] ⟨.rightParen, rest⟩ (by simp; omega)
      else fail (.unexpected .rightParen t.kind) p (by omega)
termination_by ts.length

def parameters (ts : List Token) : AttemptWithin ts.length (List Parameter) :=
  match ts with
  | [] => someParameters .leftParen []
  | t :: rest =>
    if t.kind = .rightParen then done [] ⟨.rightParen, rest⟩ (Nat.le_succ _)
    else someParameters .leftParen (t :: rest)

def finish {n : Nat} (s : Stmt) (p : Place) (h : p.unread.length ≤ n) : AttemptWithin n Stmt :=
  done s p.skipSemicolon (Nat.le_trans p.length_skipSemicolon_le h)

def isLast (inBlock : Bool) (kind : TokenKind) : Bool :=
  kind == .endOfInput || inBlock && kind == .endWord

mutual
def statement (t : Token) (ts : List Token) : AttemptWithin ts.length Stmt :=
  match t.kind with
  | .varWord => declaration t false ts
  | .constWord => declaration t true ts
  | .beginWord => (block t ts).andThen fun body p h => finish (.block body) p h
  | .returnWord =>
    (expression .lowest ts).onSuccess (by omega) fun value p _ =>
    finish (.giveBack t.literal value) p (by omega)
  | .whileWord =>
    (expression .lowest ts).onSuccess (by omega) fun condition p _ =>
    (expect .doWord p.last p.unread).onSuccess (by omega) fun opener p _ =>
    (block opener p.unread).andThen fun body p _ =>
    finish (.whileLoop t.literal condition body) p (by omega)
  | .forWord =>
    (expect .identifier t.kind ts).onSuccess (by omega) fun counter p _ =>
    (expect .assign p.last p.unread).onSuccess (by omega) fun _ p _ =>
    (expression .lowest p.unread).onSuccess (by omega) fun first p _ =>
    (expect .toWord p.last p.unread).onSuccess (by omega) fun _ p _ =>
    (expression .lowest p.unread).onSuccess (by omega) fun last p _ =>
    (expect .doWord p.last p.unread).onSuccess (by omega) fun opener p _ =>
    (block opener p.unread).andThen fun body p _ =>
    finish (.forLoop t.literal counter.literal first last body) p (by omega)
  | .identifier =>
    if Token.headKind ts = .assign then
      have htail : ts.tail.length ≤ ts.length := by simp
      (expression .lowest ts.tail).onSuccess (by omega) fun value p _ =>
      finish (.assign t.literal value) p (by omega)
    else expressionStatement t ts
  | _ => expressionStatement t ts
termination_by 7 * ts.length + 9

def declaration (t : Token) (constant : Bool) (ts : List Token) : AttemptWithin ts.length Stmt :=
  (expect .identifier t.kind ts).onSuccess (by omega) fun name p _ =>
  (expect .colon p.last p.unread).onSuccess (by omega) fun _ p _ =>
  (expectType p.last p.unread).onSuccess (by omega) fun type p _ =>
  (expect .assign p.last p.unread).onSuccess (by omega) fun _ p _ =>
  (expression .lowest p.unread).onSuccess (by omega) fun value p _ =>
  (expect .semicolon p.last p.unread).onSuccess (by omega) fun _ p _ =>
  done (.declare t.literal constant name.literal type value) p (by omega)
termination_by 7 * ts.length + 8

def expressionStatement (t : Token) (ts : List Token) : AttemptWithin ts.length Stmt :=
  (expression .lowest (t :: ts)).onSuccess (Nat.le_refl _) fun value p h =>
  finish (.expression t.literal value) p h
termination_by 7 * ts.length + 8

def statements (inBlock : Bool) (ts : List Token) : Within ts.length (List Stmt) :=
  match ts with
  | [] => pass [] ⟨.endOfInput, []⟩ (Nat.le_refl _)
  | t :: rest =>
    if isLast inBlock t.kind then pass [] ⟨t.kind, rest⟩ (Nat.le_succ _)
    else
      (statement t rest).andThen fun result p _ =>
        match result with
        | .ok s => ((statements inBlock p.unread).map (s :: ·)).weaken (by simp; omega)
        | .error e =>
          have := p.length_recover_le
          ((statements inBlock p.recover).record ⟨e, p⟩).weaken (by simp; omega)
termination_by 7 * ts.length + 3

def block (opener : Token) (ts : List Token) : Within ts.length Block :=
  (statements true ts).map (.mk opener)
termination_by 7 * ts.length + 4

/-- An expression whose operators bind more strongly than `min`. -/
def expression (min : Precedence) (ts : List Token) : AttemptWithin (ts.length - 1) Expr :=
  match ts with
  | [] => fail (.noOperand .endOfInput) ⟨.endOfInput, []⟩ (Nat.le_refl _)
  | t :: rest =>
    (operand t rest).onSuccess (Nat.le_refl _) fun left p _ =>
    (operators min left p.last p.unread).weaken (by simp; omega)
termination_by 7 * ts.length

def operand (t : Token) (ts : List Token) : AttemptWithin ts.length Expr :=
  let here : Place := ⟨t.kind, ts⟩
  have hhere : here.unread.length ≤ ts.length := Nat.le_refl _
  match t.kind with
  | .identifier => done (.named t.literal) here hhere
  | .integer =>
    match Decimal.integer? t.literal with
    | some value => done (.integer t.literal value) here hhere
    | none => fail (.badInteger t.literal) here hhere
  | .real =>
    match Decimal.real? t.literal with
    | some value => done (.real t.literal value) here hhere
    | none => fail (.badReal t.literal) here hhere
  | .text => done (.string t.literal) here hhere
  | .trueWord => done (.boolean t.literal true) here hhere
  | .falseWord => done (.boolean t.literal false) here hhere
  | .minus => prefixed t .negate ts
  | .notWord => prefixed t .logicalNot ts
  | .leftParen =>
    (expression .lowest ts).onSuccess (by omega) fun inner p _ =>
    (expect .rightParen p.last p.unread).onSuccess (by omega) fun _ p _ =>
    done inner p (by omega)
  | .ifWord =>
    (expression .lowest ts).onSuccess (by omega) fun condition p _ =>
    (expect .thenWord p.last p.unread).onSuccess (by omega) fun opener p _ =>
    (block opener p.unread).andThen fun consequence p _ =>
    (alternative p.last p.unread).andThen fun other p _ =>
    done (.conditional t.literal condition consequence other) p (by omega)
  | .procedureWord =>
    (expect .identifier t.kind ts).onSuccess (by omega) fun name p _ =>
    (expect .leftParen p.last p.unread).onSuccess (by omega) fun _ p _ =>
    (parameters p.unread).onSuccess (by omega) fun params p _ =>
    (expect .beginWord p.last p.unread).onSuccess (by omega) fun opener p _ =>
    (block opener p.unread).andThen fun body p _ =>
    done (.procedure ⟨t.literal, name.literal, params⟩ body) p (by omega)
  | _ => fail (.notAnOperand t) here hhere
termination_by 7 * ts.length + 6

def alternative (last : TokenKind) (ts : List Token) : Within ts.length (Option Block) :=
  match ts with
  | [] => pass none ⟨last, []⟩ (Nat.le_refl _)
  | t :: rest =>
    if t.kind = .elseWord then ((block t rest).map some).weaken (Nat.le_succ _)
    else pass none ⟨last, t :: rest⟩ (Nat.le_refl _)
termination_by 7 * ts.length

def prefixed (t : Token) (operator : PrefixOperator) (ts : List Token) :
    AttemptWithin ts.length Expr :=
  (expression .prefixOp ts).onSuccess (by omega) fun right p _ =>
  done (.prefixed t.literal operator right) p (by omega)
termination_by 7 * ts.length + 5

def operators (min : Precedence) (left : Expr) (last : TokenKind) (ts : List Token) :
    AttemptWithin ts.length Expr :=
  match ts with
  | [] => done left ⟨last, []⟩ (Nat.le_refl _)
  | t :: rest =>
    if min < Precedence.ofKind t.kind then
      match InfixOperator.ofKind? t.kind with
      | some operator =>
        (expression operator.precedence rest).onSuccess (by simp; omega) fun right p _ =>
        (operators min (.infixed t.literal operator left right) p.last p.unread).weaken
          (by simp; omega)
      | none =>
        (arguments rest).onSuccess (by simp) fun args p _ =>
        (operators min (.call t.literal left args) p.last p.unread).weaken (by simp; omega)
    else done left ⟨last, t :: rest⟩ (Nat.le_refl _)
termination_by 7 * ts.length

def arguments (ts : List Token) : AttemptWithin ts.length (List Expr) :=
  match ts with
  | [] => someArguments []
  | t :: rest =>
    if t.kind = .rightParen then done [] ⟨.rightParen, rest⟩ (Nat.le_succ _)
    else someArguments (t :: rest)
termination_by 7 * ts.length + 2

def someArguments (ts : List Token) : AttemptWithin ts.length (List Expr) :=
  (expression .lowest ts).onSuccess (by omega) fun first p _ =>
    match hp : p.unread with
    | [] => fail (.unexpected .rightParen .endOfInput) p (by omega)
    | t :: rest =>
      have hlt : rest.length < p.unread.length := by simp [hp]
      if t.kind = .comma then
        (someArguments rest).onSuccess (by omega) fun others p _ =>
        done (first :: others) p (by omega)
      else if t.kind = .rightParen then done [first] ⟨.rightParen, rest⟩ (by simp; omega)
      else fail (.unexpected .rightParen t.kind) p (by omega)
termination_by 7 * ts.length + 1
end

end MiniPascal.Within
