import MiniPascal.Proofs.Reading.Success
/-! The grammar of programs: a judgement relates the tokens from the start of a phrase on, its
tree, and the tokens behind it. -/

namespace MiniPascal.Grammar

inductive IsSomeParameters : List Token → List Parameter → List Token → Prop
  | last {name s₁ s₂ s₃ rest} (type : NumericType) :
    IsSomeParameters
      (⟨.identifier, name⟩ :: ⟨.colon, s₁⟩ :: ⟨type.kind, s₂⟩ :: ⟨.rightParen, s₃⟩ :: rest)
      [⟨name, type⟩] rest
  | cons {name s₁ s₂ s₃ ts ps rest} (type : NumericType) : IsSomeParameters ts ps rest →
    IsSomeParameters
      (⟨.identifier, name⟩ :: ⟨.colon, s₁⟩ :: ⟨type.kind, s₂⟩ :: ⟨.comma, s₃⟩ :: ts)
      (⟨name, type⟩ :: ps) rest

inductive IsParameters : List Token → List Parameter → List Token → Prop
  | none {s rest} : IsParameters (⟨.rightParen, s⟩ :: rest) [] rest
  | some {ts ps rest} : IsSomeParameters ts ps rest → IsParameters ts ps rest

inductive IsSemicolon : List Token → List Token → Prop
  | none {rest} : IsSemicolon rest rest
  | some {s rest} : IsSemicolon (⟨.semicolon, s⟩ :: rest) rest

mutual
inductive IsExpr : List Token → Expr → List Token → Prop
  | named {name rest} : IsExpr (⟨.identifier, name⟩ :: rest) (.named name) rest
  | integer {lexeme value rest} : Decimal.integer? lexeme = some value →
    IsExpr (⟨.integer, lexeme⟩ :: rest) (.integer lexeme value) rest
  | real {lexeme value rest} : Decimal.real? lexeme = some value →
    IsExpr (⟨.real, lexeme⟩ :: rest) (.real lexeme value) rest
  | string {value rest} : IsExpr (⟨.text, value⟩ :: rest) (.string value) rest
  | trueWord {s rest} : IsExpr (⟨.trueWord, s⟩ :: rest) (.boolean s true) rest
  | falseWord {s rest} : IsExpr (⟨.falseWord, s⟩ :: rest) (.boolean s false) rest
  | prefixed {t operator ts right rest} : PrefixOperator.ofKind? t.kind = some operator →
    IsExpr ts right rest → IsExpr (t :: ts) (.prefixed t.literal operator right) rest
  | infixed {ts left t operator mid right rest} : IsExpr ts left (t :: mid) →
    InfixOperator.ofKind? t.kind = some operator → IsExpr mid right rest →
    IsExpr ts (.infixed t.literal operator left right) rest
  | call {ts callee s mid args rest} : IsExpr ts callee (⟨.leftParen, s⟩ :: mid) →
    IsArguments mid args rest → IsExpr ts (.call s callee args) rest
  | grouped {s₁ ts e s₂ rest} : IsExpr ts e (⟨.rightParen, s₂⟩ :: rest) →
    IsExpr (⟨.leftParen, s₁⟩ :: ts) e rest
  | conditional {s ts condition word mid body rest} :
    IsExpr ts condition (⟨.thenWord, word⟩ :: mid) → IsBody mid body rest →
    IsExpr (⟨.ifWord, s⟩ :: ts) (.conditional s condition (.mk ⟨.thenWord, word⟩ body) none) rest
  | alternative {s ts condition word₁ mid₁ body₁ word₂ mid₂ body₂ rest} :
    IsExpr ts condition (⟨.thenWord, word₁⟩ :: mid₁) →
    IsBody mid₁ body₁ (⟨.elseWord, word₂⟩ :: mid₂) → IsBody mid₂ body₂ rest →
    IsExpr (⟨.ifWord, s⟩ :: ts)
      (.conditional s condition (.mk ⟨.thenWord, word₁⟩ body₁)
        (some (.mk ⟨.elseWord, word₂⟩ body₂))) rest
  | procedure {s name s' ts params word mid body rest} :
    IsParameters ts params (⟨.beginWord, word⟩ :: mid) → IsBody mid body rest →
    IsExpr (⟨.procedureWord, s⟩ :: ⟨.identifier, name⟩ :: ⟨.leftParen, s'⟩ :: ts)
      (.procedure ⟨s, name, params⟩ (.mk ⟨.beginWord, word⟩ body)) rest

inductive IsArguments : List Token → List Expr → List Token → Prop
  | none {s rest} : IsArguments (⟨.rightParen, s⟩ :: rest) [] rest
  | some {ts args rest} : IsSomeArguments ts args rest → IsArguments ts args rest

inductive IsSomeArguments : List Token → List Expr → List Token → Prop
  | last {ts e s rest} : IsExpr ts e (⟨.rightParen, s⟩ :: rest) → IsSomeArguments ts [e] rest
  | cons {ts e s mid args rest} : IsExpr ts e (⟨.comma, s⟩ :: mid) →
    IsSomeArguments mid args rest → IsSomeArguments ts (e :: args) rest

inductive IsStmt : List Token → Stmt → List Token → Prop
  | declare {s name s₁ s₂ s₃ ts value s₄ rest} (constant : Bool) (type : NumericType) :
    IsExpr ts value (⟨.semicolon, s₄⟩ :: rest) →
    IsStmt
      (⟨declarationWord constant, s⟩ :: ⟨.identifier, name⟩ :: ⟨.colon, s₁⟩ :: ⟨type.kind, s₂⟩ ::
        ⟨.assign, s₃⟩ :: ts)
      (.declare s constant name type value) rest
  | block {s ts body mid rest} : IsBody ts body mid → IsSemicolon mid rest →
    IsStmt (⟨.beginWord, s⟩ :: ts) (.block (.mk ⟨.beginWord, s⟩ body)) rest
  | giveBack {s ts value mid rest} : IsExpr ts value mid → IsSemicolon mid rest →
    IsStmt (⟨.returnWord, s⟩ :: ts) (.giveBack s value) rest
  | whileLoop {s ts condition word mid₁ body mid₂ rest} :
    IsExpr ts condition (⟨.doWord, word⟩ :: mid₁) → IsBody mid₁ body mid₂ →
    IsSemicolon mid₂ rest →
    IsStmt (⟨.whileWord, s⟩ :: ts) (.whileLoop s condition (.mk ⟨.doWord, word⟩ body)) rest
  | forLoop {s counter s₁ ts first s₂ mid₁ last word mid₂ body mid₃ rest} :
    IsExpr ts first (⟨.toWord, s₂⟩ :: mid₁) → IsExpr mid₁ last (⟨.doWord, word⟩ :: mid₂) →
    IsBody mid₂ body mid₃ → IsSemicolon mid₃ rest →
    IsStmt (⟨.forWord, s⟩ :: ⟨.identifier, counter⟩ :: ⟨.assign, s₁⟩ :: ts)
      (.forLoop s counter first last (.mk ⟨.doWord, word⟩ body)) rest
  | assign {name s ts value mid rest} : IsExpr ts value mid → IsSemicolon mid rest →
    IsStmt (⟨.identifier, name⟩ :: ⟨.assign, s⟩ :: ts) (.assign name value) rest
  | expression {t ts value mid rest} : IsExpr (t :: ts) value mid → IsSemicolon mid rest →
    IsStmt (t :: ts) (.expression t.literal value) rest

inductive IsStmts : List Token → List Stmt → List Token → Prop
  | nil {rest} : IsStmts rest [] rest
  | cons {ts s mid others rest} : IsStmt ts s mid → IsStmts mid others rest →
    IsStmts ts (s :: others) rest

inductive IsBody : List Token → List Stmt → List Token → Prop
  | closed {ts body s rest} : IsStmts ts body (⟨.endWord, s⟩ :: rest) → IsBody ts body rest
  | atEnd {ts body} : IsStmts ts body [] → IsBody ts body []
end

def IsProgram (ts : List Token) (p : Program) : Prop := IsStmts ts p.statements []

def Consumes (ts rest : List Token) : Prop :=
  ∃ used, ts = used ++ rest ∧ ∀ t ∈ used, t.kind ≠ .illegal ∧ t.kind ≠ .programWord

namespace Consumes

lemma refl (ts : List Token) : Consumes ts ts := ⟨[], rfl, by simp⟩

lemma cons {t : Token} {ts rest : List Token} (ht : t.kind ≠ .illegal ∧ t.kind ≠ .programWord)
    (h : Consumes ts rest) : Consumes (t :: ts) rest := by
  obtain ⟨used, rfl, hused⟩ := h
  refine ⟨t :: used, rfl, ?_⟩
  simpa using ⟨ht, hused⟩

lemma trans {ts mid rest : List Token} (h : Consumes ts mid) (h' : Consumes mid rest) :
    Consumes ts rest := by
  obtain ⟨used, rfl, hused⟩ := h
  obtain ⟨used', rfl, hused'⟩ := h'
  refine ⟨used ++ used', by simp, ?_⟩
  intro t ht
  rcases List.mem_append.1 ht with ht | ht
  · exact hused t ht
  · exact hused' t ht

lemma tail {t : Token} {ts rest : List Token} (h : Consumes ts (t :: rest))
    (ht : t.kind ≠ .illegal ∧ t.kind ≠ .programWord) : Consumes ts rest :=
  h.trans (cons ht (refl rest))

lemma suffix {ts rest : List Token} (h : Consumes ts rest) : rest <:+ ts := by
  obtain ⟨used, rfl, _⟩ := h
  exact List.suffix_append used rest

end Consumes

lemma IsSemicolon.consumes {ts rest : List Token} (h : IsSemicolon ts rest) :
    Consumes ts rest := by
  cases h with
  | none => exact .refl _
  | some => exact .cons ⟨nofun, nofun⟩ (.refl _)

lemma type_kind_used (type : NumericType) :
    type.kind ≠ .illegal ∧ type.kind ≠ .programWord := by
  cases type <;> exact ⟨nofun, nofun⟩

lemma declarationWord_used (constant : Bool) :
    declarationWord constant ≠ .illegal ∧ declarationWord constant ≠ .programWord := by
  cases constant <;> exact ⟨nofun, nofun⟩

lemma prefix_kind_used {kind : TokenKind} {operator : PrefixOperator}
    (h : PrefixOperator.ofKind? kind = some operator) :
    kind ≠ .illegal ∧ kind ≠ .programWord := by
  constructor <;> rintro rfl <;> cases h

lemma infix_kind_used {kind : TokenKind} {operator : InfixOperator}
    (h : InfixOperator.ofKind? kind = some operator) :
    kind ≠ .illegal ∧ kind ≠ .programWord := by
  constructor <;> rintro rfl <;> cases h

lemma IsSomeParameters.consumes {ts : List Token} {ps : List Parameter} {rest : List Token}
    (h : IsSomeParameters ts ps rest) : Consumes ts rest := by
  induction h with
  | last type =>
    refine .cons ⟨nofun, nofun⟩ ?_
    refine .cons ⟨nofun, nofun⟩ ?_
    refine .cons (type_kind_used type) ?_
    exact .cons ⟨nofun, nofun⟩ (.refl _)
  | cons type _ ih =>
    refine .cons ⟨nofun, nofun⟩ ?_
    refine .cons ⟨nofun, nofun⟩ ?_
    refine .cons (type_kind_used type) ?_
    exact .cons ⟨nofun, nofun⟩ ih

lemma IsParameters.consumes {ts : List Token} {ps : List Parameter} {rest : List Token}
    (h : IsParameters ts ps rest) : Consumes ts rest := by
  cases h with
  | none => exact .cons ⟨nofun, nofun⟩ (.refl _)
  | some h => exact h.consumes

mutual
lemma IsExpr.consumes {ts e rest} : IsExpr ts e rest → Consumes ts rest
  | .named => .cons ⟨nofun, nofun⟩ (.refl _)
  | .integer _ => .cons ⟨nofun, nofun⟩ (.refl _)
  | .real _ => .cons ⟨nofun, nofun⟩ (.refl _)
  | .string => .cons ⟨nofun, nofun⟩ (.refl _)
  | .trueWord => .cons ⟨nofun, nofun⟩ (.refl _)
  | .falseWord => .cons ⟨nofun, nofun⟩ (.refl _)
  | .prefixed ht h => .cons (prefix_kind_used ht) h.consumes
  | .infixed hl ht hr => (hl.consumes.tail (infix_kind_used ht)).trans hr.consumes
  | .call hf hargs => (hf.consumes.tail ⟨nofun, nofun⟩).trans hargs.consumes
  | .grouped h => .cons ⟨nofun, nofun⟩ (h.consumes.tail ⟨nofun, nofun⟩)
  | .conditional hc hb => by
    refine .cons ⟨nofun, nofun⟩ ?_
    exact (hc.consumes.tail ⟨nofun, nofun⟩).trans hb.consumes
  | .alternative hc hb hb' => by
    have hbody := (hc.consumes.tail ⟨nofun, nofun⟩).trans hb.consumes
    refine .cons ⟨nofun, nofun⟩ ?_
    exact (hbody.tail ⟨nofun, nofun⟩).trans hb'.consumes
  | .procedure hp hb => by
    refine .cons ⟨nofun, nofun⟩ ?_
    refine .cons ⟨nofun, nofun⟩ ?_
    refine .cons ⟨nofun, nofun⟩ ?_
    exact (hp.consumes.tail ⟨nofun, nofun⟩).trans hb.consumes

lemma IsArguments.consumes {ts args rest} : IsArguments ts args rest → Consumes ts rest
  | .none => .cons ⟨nofun, nofun⟩ (.refl _)
  | .some h => h.consumes

lemma IsSomeArguments.consumes {ts args rest} : IsSomeArguments ts args rest → Consumes ts rest
  | .last h => h.consumes.tail ⟨nofun, nofun⟩
  | .cons h hs => (h.consumes.tail ⟨nofun, nofun⟩).trans hs.consumes

lemma IsStmt.consumes {ts s rest} : IsStmt ts s rest → Consumes ts rest
  | .declare constant type h => by
    refine .cons (declarationWord_used constant) ?_
    refine .cons ⟨nofun, nofun⟩ ?_
    refine .cons ⟨nofun, nofun⟩ ?_
    refine .cons (type_kind_used type) ?_
    exact .cons ⟨nofun, nofun⟩ (h.consumes.tail ⟨nofun, nofun⟩)
  | .block hb hs => .cons ⟨nofun, nofun⟩ (hb.consumes.trans hs.consumes)
  | .giveBack h hs => .cons ⟨nofun, nofun⟩ (h.consumes.trans hs.consumes)
  | .whileLoop hc hb hs => by
    have hbody := (hc.consumes.tail ⟨nofun, nofun⟩).trans hb.consumes
    exact .cons ⟨nofun, nofun⟩ (hbody.trans hs.consumes)
  | .forLoop hf hl hb hs => by
    have hlast := (hf.consumes.tail ⟨nofun, nofun⟩).trans hl.consumes
    have hbody := (hlast.tail ⟨nofun, nofun⟩).trans hb.consumes
    refine .cons ⟨nofun, nofun⟩ ?_
    refine .cons ⟨nofun, nofun⟩ ?_
    exact .cons ⟨nofun, nofun⟩ (hbody.trans hs.consumes)
  | .assign h hs => by
    refine .cons ⟨nofun, nofun⟩ ?_
    exact .cons ⟨nofun, nofun⟩ (h.consumes.trans hs.consumes)
  | .expression h hs => h.consumes.trans hs.consumes

lemma IsStmts.consumes {ts ss rest} : IsStmts ts ss rest → Consumes ts rest
  | .nil => .refl _
  | .cons h hs => h.consumes.trans hs.consumes

lemma IsBody.consumes {ts ss rest} : IsBody ts ss rest → Consumes ts rest
  | .closed h => h.consumes.tail ⟨nofun, nofun⟩
  | .atEnd h => h.consumes
end

end MiniPascal.Grammar
