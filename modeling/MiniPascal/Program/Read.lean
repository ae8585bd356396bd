import MiniPascal.Program.Parse
/-! The functions of `Within` without their bounds, and the equations between them. -/

namespace MiniPascal

open Within (reading_andThen reading_onSuccess)

namespace Parameter

def read (last : TokenKind) (ts : List Token) : Attempt Parameter :=
  (Within.parameter last ts).reading

def readSome (last : TokenKind) (ts : List Token) : Attempt (List Parameter) :=
  (Within.someParameters last ts).reading

def readList (ts : List Token) : Attempt (List Parameter) := (Within.parameters ts).reading

end Parameter

namespace Block

def read (opener : Token) (ts : List Token) : Reading Block := (Within.block opener ts).reading

def readAlternative (last : TokenKind) (ts : List Token) : Reading (Option Block) :=
  (Within.alternative last ts).reading

end Block

namespace Expr

def read (min : Precedence) (ts : List Token) : Attempt Expr := (Within.expression min ts).reading

def readOperand (t : Token) (ts : List Token) : Attempt Expr := (Within.operand t ts).reading

def readOperators (min : Precedence) (left : Expr) (p : Place) : Attempt Expr :=
  (Within.operators min left p.last p.unread).reading

def readArguments (ts : List Token) : Attempt (List Expr) := (Within.arguments ts).reading

def readSomeArguments (ts : List Token) : Attempt (List Expr) := (Within.someArguments ts).reading

end Expr

namespace Stmt

def read (t : Token) (ts : List Token) : Attempt Stmt := (Within.statement t ts).reading

def readDeclaration (t : Token) (constant : Bool) (ts : List Token) : Attempt Stmt :=
  (Within.declaration t constant ts).reading

def readExpression (t : Token) (ts : List Token) : Attempt Stmt :=
  (Within.expressionStatement t ts).reading

def readMany (inBlock : Bool) (ts : List Token) : Reading (List Stmt) :=
  (Within.statements inBlock ts).reading

def finish (s : Stmt) (p : Place) : Attempt Stmt := .done s p.skipSemicolon

end Stmt

namespace Parameter

theorem read_eq (last : TokenKind) (ts : List Token) :
    read last ts =
      (Reading.expect .identifier last ts).onSuccess fun name p =>
      (Reading.expect .colon p.last p.unread).onSuccess fun _ p =>
      (Reading.expectType p.last p.unread).onSuccess fun type p =>
      .done ⟨name.literal, type⟩ p := by
  refine reading_onSuccess _ _ _ _ fun name p _ => ?_
  refine reading_onSuccess _ _ _ _ fun _ p _ => ?_
  exact reading_onSuccess _ _ _ _ fun type p _ => rfl

theorem readSome_eq (last : TokenKind) (ts : List Token) :
    readSome last ts =
      (read last ts).onSuccess fun first p =>
        match p.unread with
        | [] => .fail (.unexpected .rightParen .endOfInput) p
        | t :: rest =>
          if t.kind = .comma then
            (readSome .comma rest).onSuccess fun others p => .done (first :: others) p
          else if t.kind = .rightParen then .done [first] ⟨.rightParen, rest⟩
          else .fail (.unexpected .rightParen t.kind) p := by
  rw [readSome, Within.someParameters]
  refine reading_onSuccess _ _ _ _ fun first p _ => ?_
  obtain ⟨k, _ | ⟨t, rest⟩⟩ := p
  · rfl
  · dsimp only
    split
    · exact reading_onSuccess _ _ _ _ fun others p _ => rfl
    split <;> rfl

theorem readList_nil : readList [] = readSome .leftParen [] := rfl

theorem readList_cons (t : Token) (rest : List Token) :
    readList (t :: rest) =
      if t.kind = .rightParen then .done [] ⟨.rightParen, rest⟩
      else readSome .leftParen (t :: rest) := by
  rw [readList, Within.parameters]
  split <;> rfl

end Parameter

namespace Block

theorem read_eq (opener : Token) (ts : List Token) :
    read opener ts =
      (Stmt.readMany true ts).andThen fun statements p => ⟨.mk opener statements, p, []⟩ := by
  rw [read, Within.block]
  simp [Within.map, Stmt.readMany, Reading.andThen]

theorem readAlternative_nil (last : TokenKind) :
    readAlternative last [] = ⟨none, ⟨last, []⟩, []⟩ := by
  rw [readAlternative, Within.alternative]
  rfl

theorem readAlternative_else (last : TokenKind) (word : String) (rest : List Token) :
    readAlternative last (⟨.elseWord, word⟩ :: rest) =
      (read ⟨.elseWord, word⟩ rest).andThen fun block p => ⟨some block, p, []⟩ := by
  rw [readAlternative, Within.alternative]
  simp [Within.map, Within.weaken, read, Reading.andThen]

theorem readAlternative_none (last : TokenKind) (t : Token) (rest : List Token)
    (h : t.kind ≠ .elseWord) :
    readAlternative last (t :: rest) = ⟨none, ⟨last, t :: rest⟩, []⟩ := by
  rw [readAlternative, Within.alternative, if_neg h]
  rfl

end Block

namespace Expr

theorem read_nil (min : Precedence) :
    read min [] = .fail (.noOperand .endOfInput) ⟨.endOfInput, []⟩ := by
  rw [read, Within.expression]
  rfl

theorem read_cons (min : Precedence) (t : Token) (rest : List Token) :
    read min (t :: rest) =
      (readOperand t rest).onSuccess fun left p => readOperators min left p := by
  rw [read, Within.expression]
  exact reading_onSuccess _ _ _ _ fun left p _ => rfl

theorem readOperators_nil (min : Precedence) (left : Expr) (last : TokenKind) :
    readOperators min left ⟨last, []⟩ = .done left ⟨last, []⟩ := by
  rw [readOperators, Within.operators]
  rfl

theorem readOperators_infix (min : Precedence) (left : Expr) (last : TokenKind) (t : Token)
    (rest : List Token) (operator : InfixOperator)
    (ht : InfixOperator.ofKind? t.kind = some operator) (hmin : min < operator.precedence) :
    readOperators min left ⟨last, t :: rest⟩ =
      (read operator.precedence rest).onSuccess fun right p =>
      readOperators min (.infixed t.literal operator left right) p := by
  have hkind : Precedence.ofKind t.kind = operator.precedence := by
    obtain ⟨kind, literal⟩ := t
    cases kind <;> cases ht <;> rfl
  rw [readOperators, Within.operators, hkind, if_pos hmin]
  split
  · next found hfound =>
    obtain rfl : found = operator := Option.some.inj (hfound.symm.trans ht)
    exact reading_onSuccess _ _ _ _ fun right p _ => rfl
  · next hfound =>
    rw [hfound] at ht
    cases ht

theorem readOperators_call (min : Precedence) (left : Expr) (last : TokenKind) (literal : String)
    (rest : List Token) (hmin : min < .call) :
    readOperators min left ⟨last, ⟨.leftParen, literal⟩ :: rest⟩ =
      (readArguments rest).onSuccess fun args p =>
      readOperators min (.call literal left args) p := by
  rw [readOperators, Within.operators]
  refine (congrArg Within.reading (if_pos hmin)).trans ?_
  exact reading_onSuccess _ _ _ _ fun args p _ => rfl

theorem readOperators_stop (min : Precedence) (left : Expr) (last : TokenKind) (t : Token)
    (rest : List Token) (hmin : ¬ min < Precedence.ofKind t.kind) :
    readOperators min left ⟨last, t :: rest⟩ = .done left ⟨last, t :: rest⟩ := by
  rw [readOperators, Within.operators, if_neg hmin]
  rfl

theorem readArguments_nil : readArguments [] = readSomeArguments [] := by
  rw [readArguments, Within.arguments]
  rfl

theorem readArguments_cons (t : Token) (rest : List Token) :
    readArguments (t :: rest) =
      if t.kind = .rightParen then .done [] ⟨.rightParen, rest⟩
      else readSomeArguments (t :: rest) := by
  rw [readArguments, Within.arguments]
  split <;> rfl

theorem readSomeArguments_eq (ts : List Token) :
    readSomeArguments ts =
      (read .lowest ts).onSuccess fun first p =>
        match p.unread with
        | [] => .fail (.unexpected .rightParen .endOfInput) p
        | t :: rest =>
          if t.kind = .comma then
            (readSomeArguments rest).onSuccess fun others p => .done (first :: others) p
          else if t.kind = .rightParen then .done [first] ⟨.rightParen, rest⟩
          else .fail (.unexpected .rightParen t.kind) p := by
  rw [readSomeArguments, Within.someArguments]
  refine reading_onSuccess _ _ _ _ fun first p _ => ?_
  obtain ⟨k, _ | ⟨t, rest⟩⟩ := p
  · rfl
  · dsimp only
    split
    · exact reading_onSuccess _ _ _ _ fun others p _ => rfl
    split <;> rfl

variable (literal : String) (ts : List Token)

theorem readOperand_identifier :
    readOperand ⟨.identifier, literal⟩ ts = .done (.named literal) ⟨.identifier, ts⟩ := by
  rw [readOperand, Within.operand]
  rfl

theorem readOperand_integer :
    readOperand ⟨.integer, literal⟩ ts =
      match Decimal.integer? literal with
      | some value => .done (.integer literal value) ⟨.integer, ts⟩
      | none => .fail (.badInteger literal) ⟨.integer, ts⟩ := by
  rw [readOperand, Within.operand]
  dsimp only
  cases Decimal.integer? literal <;> rfl

theorem readOperand_real :
    readOperand ⟨.real, literal⟩ ts =
      match Decimal.real? literal with
      | some value => .done (.real literal value) ⟨.real, ts⟩
      | none => .fail (.badReal literal) ⟨.real, ts⟩ := by
  rw [readOperand, Within.operand]
  dsimp only
  cases Decimal.real? literal <;> rfl

theorem readOperand_text :
    readOperand ⟨.text, literal⟩ ts = .done (.string literal) ⟨.text, ts⟩ := by
  rw [readOperand, Within.operand]
  rfl

theorem readOperand_trueWord :
    readOperand ⟨.trueWord, literal⟩ ts = .done (.boolean literal true) ⟨.trueWord, ts⟩ := by
  rw [readOperand, Within.operand]
  rfl

theorem readOperand_falseWord :
    readOperand ⟨.falseWord, literal⟩ ts = .done (.boolean literal false) ⟨.falseWord, ts⟩ := by
  rw [readOperand, Within.operand]
  rfl

theorem readOperand_minus :
    readOperand ⟨.minus, literal⟩ ts =
      (read .prefixOp ts).onSuccess fun right p =>
      .done (.prefixed literal .negate right) p := by
  rw [readOperand, Within.operand]
  dsimp only
  rw [Within.prefixed]
  exact reading_onSuccess _ _ _ _ fun right p _ => rfl

theorem readOperand_notWord :
    readOperand ⟨.notWord, literal⟩ ts =
      (read .prefixOp ts).onSuccess fun right p =>
      .done (.prefixed literal .logicalNot right) p := by
  rw [readOperand, Within.operand]
  dsimp only
  rw [Within.prefixed]
  exact reading_onSuccess _ _ _ _ fun right p _ => rfl

theorem readOperand_leftParen :
    readOperand ⟨.leftParen, literal⟩ ts =
      (read .lowest ts).onSuccess fun inner p =>
      (Reading.expect .rightParen p.last p.unread).onSuccess fun _ p => .done inner p := by
  rw [readOperand, Within.operand]
  refine reading_onSuccess _ _ _ _ fun inner p _ => ?_
  exact reading_onSuccess _ _ _ _ fun _ p _ => rfl

theorem readOperand_ifWord :
    readOperand ⟨.ifWord, literal⟩ ts =
      (read .lowest ts).onSuccess fun condition p =>
      (Reading.expect .thenWord p.last p.unread).onSuccess fun opener p =>
      (Block.read opener p.unread).andThen fun consequence p =>
      (Block.readAlternative p.last p.unread).andThen fun alternative p =>
      .done (.conditional literal condition consequence alternative) p := by
  rw [readOperand, Within.operand]
  refine reading_onSuccess _ _ _ _ fun condition p _ => ?_
  refine reading_onSuccess _ _ _ _ fun opener p _ => ?_
  refine reading_andThen _ _ _ fun consequence p _ => ?_
  exact reading_andThen _ _ _ fun alternative p _ => rfl

theorem readOperand_procedureWord :
    readOperand ⟨.procedureWord, literal⟩ ts =
      (Reading.expect .identifier .procedureWord ts).onSuccess fun name p =>
      (Reading.expect .leftParen p.last p.unread).onSuccess fun _ p =>
      (Parameter.readList p.unread).onSuccess fun params p =>
      (Reading.expect .beginWord p.last p.unread).onSuccess fun opener p =>
      (Block.read opener p.unread).andThen fun body p =>
      .done (.procedure ⟨literal, name.literal, params⟩ body) p := by
  rw [readOperand, Within.operand]
  refine reading_onSuccess _ _ _ _ fun name p _ => ?_
  refine reading_onSuccess _ _ _ _ fun _ p _ => ?_
  refine reading_onSuccess _ _ _ _ fun params p _ => ?_
  refine reading_onSuccess _ _ _ _ fun opener p _ => ?_
  exact reading_andThen _ _ _ fun body p _ => rfl

def operandKinds : List TokenKind :=
  [.identifier, .integer, .real, .text, .trueWord, .falseWord, .minus, .notWord, .leftParen,
   .ifWord, .procedureWord]

theorem readOperand_other (t : Token) (h : t.kind ∉ operandKinds) :
    readOperand t ts = .fail (.notAnOperand t) ⟨t.kind, ts⟩ := by
  obtain ⟨kind, literal⟩ := t
  rw [readOperand, Within.operand]
  dsimp only
  split <;> simp_all [operandKinds, Within.fail]

end Expr

namespace Stmt

variable (literal : String) (ts : List Token)

theorem readDeclaration_eq (t : Token) (constant : Bool) :
    readDeclaration t constant ts =
      (Reading.expect .identifier t.kind ts).onSuccess fun name p =>
      (Reading.expect .colon p.last p.unread).onSuccess fun _ p =>
      (Reading.expectType p.last p.unread).onSuccess fun type p =>
      (Reading.expect .assign p.last p.unread).onSuccess fun _ p =>
      (Expr.read .lowest p.unread).onSuccess fun value p =>
      (Reading.expect .semicolon p.last p.unread).onSuccess fun _ p =>
      .done (.declare t.literal constant name.literal type value) p := by
  rw [readDeclaration, Within.declaration]
  refine reading_onSuccess _ _ _ _ fun name p _ => ?_
  refine reading_onSuccess _ _ _ _ fun _ p _ => ?_
  refine reading_onSuccess _ _ _ _ fun type p _ => ?_
  refine reading_onSuccess _ _ _ _ fun _ p _ => ?_
  refine reading_onSuccess _ _ _ _ fun value p _ => ?_
  exact reading_onSuccess _ _ _ _ fun _ p _ => rfl

theorem readExpression_eq (t : Token) :
    readExpression t ts =
      (Expr.read .lowest (t :: ts)).onSuccess fun value p =>
      finish (.expression t.literal value) p := by
  rw [readExpression, Within.expressionStatement]
  exact reading_onSuccess _ _ _ _ fun value p _ => rfl

theorem read_varWord :
    read ⟨.varWord, literal⟩ ts = readDeclaration ⟨.varWord, literal⟩ false ts := by
  rw [read, Within.statement]
  rfl

theorem read_constWord :
    read ⟨.constWord, literal⟩ ts = readDeclaration ⟨.constWord, literal⟩ true ts := by
  rw [read, Within.statement]
  rfl

theorem read_beginWord :
    read ⟨.beginWord, literal⟩ ts =
      (Block.read ⟨.beginWord, literal⟩ ts).andThen fun body p => finish (.block body) p := by
  rw [read, Within.statement]
  exact reading_andThen _ _ _ fun body p _ => rfl

theorem read_returnWord :
    read ⟨.returnWord, literal⟩ ts =
      (Expr.read .lowest ts).onSuccess fun value p => finish (.giveBack literal value) p := by
  rw [read, Within.statement]
  exact reading_onSuccess _ _ _ _ fun value p _ => rfl

theorem read_whileWord :
    read ⟨.whileWord, literal⟩ ts =
      (Expr.read .lowest ts).onSuccess fun condition p =>
      (Reading.expect .doWord p.last p.unread).onSuccess fun opener p =>
      (Block.read opener p.unread).andThen fun body p =>
      finish (.whileLoop literal condition body) p := by
  rw [read, Within.statement]
  refine reading_onSuccess _ _ _ _ fun condition p _ => ?_
  refine reading_onSuccess _ _ _ _ fun opener p _ => ?_
  exact reading_andThen _ _ _ fun body p _ => rfl

theorem read_forWord :
    read ⟨.forWord, literal⟩ ts =
      (Reading.expect .identifier .forWord ts).onSuccess fun counter p =>
      (Reading.expect .assign p.last p.unread).onSuccess fun _ p =>
      (Expr.read .lowest p.unread).onSuccess fun first p =>
      (Reading.expect .toWord p.last p.unread).onSuccess fun _ p =>
      (Expr.read .lowest p.unread).onSuccess fun last p =>
      (Reading.expect .doWord p.last p.unread).onSuccess fun opener p =>
      (Block.read opener p.unread).andThen fun body p =>
      finish (.forLoop literal counter.literal first last body) p := by
  rw [read, Within.statement]
  refine reading_onSuccess _ _ _ _ fun counter p _ => ?_
  refine reading_onSuccess _ _ _ _ fun _ p _ => ?_
  refine reading_onSuccess _ _ _ _ fun first p _ => ?_
  refine reading_onSuccess _ _ _ _ fun _ p _ => ?_
  refine reading_onSuccess _ _ _ _ fun last p _ => ?_
  refine reading_onSuccess _ _ _ _ fun opener p _ => ?_
  exact reading_andThen _ _ _ fun body p _ => rfl

theorem read_assignment (sign : String) (rest : List Token) :
    read ⟨.identifier, literal⟩ (⟨.assign, sign⟩ :: rest) =
      (Expr.read .lowest rest).onSuccess fun value p => finish (.assign literal value) p := by
  rw [read, Within.statement]
  refine (congrArg Within.reading (if_pos rfl)).trans ?_
  exact reading_onSuccess _ _ _ _ fun value p _ => rfl

def wordKinds : List TokenKind :=
  [.varWord, .constWord, .beginWord, .returnWord, .whileWord, .forWord]

theorem read_expression (t : Token) (h : t.kind ∉ wordKinds)
    (hassign : t.kind = .identifier → Token.headKind ts ≠ .assign) :
    read t ts = readExpression t ts := by
  obtain ⟨kind, literal⟩ := t
  rw [read, Within.statement]
  dsimp only
  split <;> simp_all [wordKinds, readExpression]

theorem readMany_nil (inBlock : Bool) : readMany inBlock [] = ⟨[], ⟨.endOfInput, []⟩, []⟩ := by
  rw [readMany, Within.statements]
  rfl

theorem readMany_last (inBlock : Bool) (t : Token) (rest : List Token)
    (h : Within.isLast inBlock t.kind = true) :
    readMany inBlock (t :: rest) = ⟨[], ⟨t.kind, rest⟩, []⟩ := by
  rw [readMany, Within.statements, if_pos h]
  rfl

theorem readMany_cons (inBlock : Bool) (t : Token) (rest : List Token)
    (h : Within.isLast inBlock t.kind = false) :
    readMany inBlock (t :: rest) =
      (read t rest).andThen fun result p =>
        match result with
        | .ok s =>
          let others := readMany inBlock p.unread
          ⟨s :: others.value, others.place, others.failures⟩
        | .error e =>
          let others := readMany inBlock p.recover
          ⟨others.value, others.place, ⟨e, p⟩ :: others.failures⟩ := by
  rw [readMany, Within.statements, if_neg (by simp [h])]
  refine reading_andThen _ _ _ fun result p _ => ?_
  cases result <;> rfl

end Stmt

end MiniPascal
