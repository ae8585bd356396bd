import MiniPascal.Proofs.Grammar

namespace MiniPascal.Grammar

open Reading

def Endless (ts : List Token) : Prop := ∀ t ∈ ts, t.kind ≠ .endOfInput

lemma Endless.tail {t : Token} {ts : List Token} (h : Endless (t :: ts)) : Endless ts :=
  fun u hu => h u (List.mem_cons_of_mem t hu)

lemma Endless.of_consumes {ts rest : List Token} (h : Endless ts) (hc : Consumes ts rest) :
    Endless rest :=
  fun t ht => h t (hc.suffix.subset ht)

lemma isSomeParameters_of_read {last : TokenKind} {ts : List Token} {ps : List Parameter}
    {p : Place} (h : Parameter.readSome last ts = done ps p) :
    IsSomeParameters ts ps p.unread := by
  induction hn : ts.length using Nat.strongRecOn generalizing last ts ps p with
  | ind n ih =>
    rw [Parameter.readSome_eq, onSuccess_eq_done_iff] at h
    obtain ⟨first, q, hr, h⟩ := h
    obtain ⟨s₁, s₂, ts', rfl, rfl⟩ := Parameter.read_eq_done_iff.1 hr
    cases ts' with
    | nil => exact absurd h fail_ne_done
    | cons t rest =>
      obtain ⟨kind, s⟩ := t
      dsimp only at h
      split at h
      · next hk =>
        cases hk
        rw [onSuccess_eq_done_iff] at h
        obtain ⟨others, q, hothers, h⟩ := h
        obtain ⟨rfl, rfl⟩ := done_inj.1 h
        simp only [List.length_cons] at hn
        exact .cons first.type (ih rest.length (by omega) hothers rfl)
      split at h
      · next hk =>
        cases hk
        obtain ⟨rfl, rfl⟩ := done_inj.1 h
        exact .last first.type
      · exact absurd h fail_ne_done

lemma isParameters_of_read {ts : List Token} {ps : List Parameter} {p : Place}
    (h : Parameter.readList ts = done ps p) : IsParameters ts ps p.unread := by
  cases ts with
  | nil => exact .some (isSomeParameters_of_read h)
  | cons t rest =>
    obtain ⟨kind, s⟩ := t
    rw [Parameter.readList_cons] at h
    split at h
    · next hk =>
      cases hk
      obtain ⟨rfl, rfl⟩ := done_inj.1 h
      exact .none
    · exact .some (isSomeParameters_of_read h)

lemma isSemicolon_skip (p : Place) : IsSemicolon p.unread p.skipSemicolon.unread := by
  obtain ⟨k, _ | ⟨⟨kind, s⟩, rest⟩⟩ := p
  · exact .none
  · by_cases hk : kind = .semicolon
    · subst hk
      exact .some
    · rw [Place.skipSemicolon]
      simp only [hk, if_false]
      exact .none

lemma isSemicolon_of_finish {s s' : Stmt} {p q : Place} (h : Stmt.finish s p = done s' q) :
    s = s' ∧ IsSemicolon p.unread q.unread := by
  obtain ⟨rfl, rfl⟩ := done_inj.1 h
  exact ⟨rfl, isSemicolon_skip p⟩

def EndsAt (inBlock : Bool) (rest : List Token) (p : Place) : Prop :=
  rest = [] ∧ p.unread = [] ∨ inBlock = true ∧ ∃ s, rest = ⟨.endWord, s⟩ :: p.unread

structure Sound (n : Nat) : Prop where
  expr : ∀ {min ts e p}, ts.length < n → Endless ts → Expr.read min ts = done e p →
    IsExpr ts e p.unread
  stmts : ∀ {inBlock ts ss p}, ts.length < n → Endless ts →
    Stmt.readMany inBlock ts = ⟨ss, p, []⟩ → ∃ rest, IsStmts ts ss rest ∧ EndsAt inBlock rest p

namespace Sound

variable {n : Nat} (ih : Sound n) {ts : List Token} {p : Place}

include ih

lemma body {opener : Token} {b : Block} (hn : ts.length < n) (hts : Endless ts)
    (h : Block.read opener ts = ⟨b, p, []⟩) :
    ∃ body, b = .mk opener body ∧ IsBody ts body p.unread := by
  rw [Block.read_eq, andThen_eq_iff] at h
  obtain ⟨body, q, hr, h⟩ := h
  cases h
  obtain ⟨rest, hstmts, hend⟩ := ih.stmts hn hts hr
  refine ⟨body, rfl, ?_⟩
  rcases hend with ⟨rfl, hq⟩ | ⟨_, s, rfl⟩
  · rw [hq]
    exact .atEnd hstmts
  · exact .closed hstmts

lemma someArguments {args : List Expr} (hn : ts.length < n) (hts : Endless ts)
    (h : Expr.readSomeArguments ts = done args p) : IsSomeArguments ts args p.unread := by
  induction hm : ts.length using Nat.strongRecOn generalizing ts args p with
  | ind m ihm =>
    rw [Expr.readSomeArguments_eq, onSuccess_eq_done_iff] at h
    obtain ⟨first, ⟨k, ts'⟩, hr, h⟩ := h
    have hfirst := ih.expr hn hts hr
    have hts' := hts.of_consumes hfirst.consumes
    have hle := hfirst.consumes.suffix.length_le
    cases ts' with
    | nil => exact absurd h fail_ne_done
    | cons t rest =>
      obtain ⟨kind, s⟩ := t
      simp only [List.length_cons] at hle
      dsimp only at h
      split at h
      · next hk =>
        cases hk
        rw [onSuccess_eq_done_iff] at h
        obtain ⟨others, q, hothers, h⟩ := h
        obtain ⟨rfl, rfl⟩ := done_inj.1 h
        exact .cons hfirst (ihm rest.length (by omega) (by omega) hts'.tail hothers rfl)
      split at h
      · next hk =>
        cases hk
        obtain ⟨rfl, rfl⟩ := done_inj.1 h
        exact .last hfirst
      · exact absurd h fail_ne_done

lemma arguments {args : List Expr} (hn : ts.length < n) (hts : Endless ts)
    (h : Expr.readArguments ts = done args p) : IsArguments ts args p.unread := by
  cases ts with
  | nil =>
    rw [Expr.readArguments_nil] at h
    exact .some (ih.someArguments hn hts h)
  | cons t rest =>
    obtain ⟨kind, s⟩ := t
    rw [Expr.readArguments_cons] at h
    split at h
    · next hk =>
      cases hk
      obtain ⟨rfl, rfl⟩ := done_inj.1 h
      exact .none
    · exact .some (ih.someArguments hn hts h)

lemma prefixed {t : Token} {operator : PrefixOperator} {e : Expr} (hn : ts.length < n)
    (hts : Endless ts) (ht : PrefixOperator.ofKind? t.kind = some operator)
    (h : ((Expr.read .prefixOp ts).onSuccess fun right p =>
      done (.prefixed t.literal operator right) p) = done e p) :
    IsExpr (t :: ts) e p.unread := by
  rw [onSuccess_eq_done_iff] at h
  obtain ⟨right, q, hr, h⟩ := h
  obtain ⟨rfl, rfl⟩ := done_inj.1 h
  exact .prefixed ht (ih.expr hn hts hr)

lemma grouped {literal : String} {e : Expr} (hn : ts.length < n) (hts : Endless ts)
    (h : Expr.readOperand ⟨.leftParen, literal⟩ ts = done e p) :
    IsExpr (⟨.leftParen, literal⟩ :: ts) e p.unread := by
  rw [Expr.readOperand_leftParen, onSuccess_eq_done_iff] at h
  obtain ⟨inner, q, hr, h⟩ := h
  have hinner := ih.expr hn hts hr
  rw [onSuccess_eq_done_iff] at h
  obtain ⟨close, q', hclose, h⟩ := h
  obtain ⟨s, rest, rfl, hunread, rfl⟩ := expect_eq_done_iff.1 hclose
  obtain ⟨rfl, rfl⟩ := done_inj.1 h
  rw [hunread] at hinner
  exact .grouped hinner

lemma conditional {literal : String} {e : Expr} (hn : ts.length < n) (hts : Endless ts)
    (h : Expr.readOperand ⟨.ifWord, literal⟩ ts = done e p) :
    IsExpr (⟨.ifWord, literal⟩ :: ts) e p.unread := by
  rw [Expr.readOperand_ifWord, onSuccess_eq_done_iff] at h
  obtain ⟨condition, q₁, hr, h⟩ := h
  have hcondition := ih.expr hn hts hr
  rw [onSuccess_eq_done_iff] at h
  obtain ⟨opener, q₂, hopener, h⟩ := h
  obtain ⟨word, mid, rfl, hunread, rfl⟩ := expect_eq_done_iff.1 hopener
  rw [hunread] at hcondition
  have hmid := (hts.of_consumes hcondition.consumes).tail
  have hle := hcondition.consumes.suffix.length_le
  simp only [List.length_cons] at hle
  rw [Reading.done, andThen_eq_iff] at h
  obtain ⟨b, ⟨k, ts'⟩, hr, h⟩ := h
  obtain ⟨body, rfl, hbody⟩ := ih.body (by omega) hmid hr
  rw [andThen_eq_iff] at h
  obtain ⟨other, q₃, hother, h⟩ := h
  obtain ⟨rfl, rfl⟩ := done_inj.1 h
  cases ts' with
  | nil =>
    rw [Block.readAlternative_nil] at hother
    cases hother
    exact .conditional hcondition hbody
  | cons t rest =>
    obtain ⟨kind, s⟩ := t
    by_cases hk : kind = .elseWord
    · subst hk
      rw [Block.readAlternative_else, andThen_eq_iff] at hother
      obtain ⟨b', q₄, hr, hother⟩ := hother
      cases hother
      have hrest := (hmid.of_consumes hbody.consumes).tail
      have hle' := hbody.consumes.suffix.length_le
      simp only [List.length_cons] at hle'
      obtain ⟨body', rfl, hbody'⟩ := ih.body (by omega) hrest hr
      exact .alternative hcondition hbody hbody'
    · rw [Block.readAlternative_none k ⟨kind, s⟩ rest hk] at hother
      cases hother
      exact .conditional hcondition hbody

lemma procedure {literal : String} {e : Expr} (hn : ts.length < n) (hts : Endless ts)
    (h : Expr.readOperand ⟨.procedureWord, literal⟩ ts = done e p) :
    IsExpr (⟨.procedureWord, literal⟩ :: ts) e p.unread := by
  rw [Expr.readOperand_procedureWord, onSuccess_eq_done_iff] at h
  obtain ⟨name, q₁, hname, h⟩ := h
  obtain ⟨s₁, ts₁, rfl, rfl, rfl⟩ := expect_eq_done_iff.1 hname
  rw [onSuccess_eq_done_iff] at h
  obtain ⟨paren, q₂, hparen, h⟩ := h
  obtain ⟨s₂, ts₂, rfl, rfl, rfl⟩ := expect_eq_done_iff.1 hparen
  rw [onSuccess_eq_done_iff] at h
  obtain ⟨params, q₃, hr, h⟩ := h
  have hparams := isParameters_of_read hr
  rw [onSuccess_eq_done_iff] at h
  obtain ⟨opener, q₄, hopener, h⟩ := h
  obtain ⟨word, mid, rfl, hunread, rfl⟩ := expect_eq_done_iff.1 hopener
  rw [hunread] at hparams
  have hmid := (hts.tail.tail.of_consumes hparams.consumes).tail
  have hle := hparams.consumes.suffix.length_le
  simp only [List.length_cons] at hle hn
  rw [Reading.done, andThen_eq_iff] at h
  obtain ⟨b, q₅, hr, h⟩ := h
  obtain ⟨body, rfl, hbody⟩ := ih.body (by omega) hmid hr
  obtain ⟨rfl, rfl⟩ := done_inj.1 h
  exact .procedure hparams hbody

lemma operand {t : Token} {e : Expr} (hn : ts.length < n) (hts : Endless ts)
    (h : Expr.readOperand t ts = done e p) : IsExpr (t :: ts) e p.unread := by
  obtain ⟨kind, literal⟩ := t
  by_cases hkind : kind ∈ Expr.operandKinds
  · simp only [Expr.operandKinds, List.mem_cons, List.not_mem_nil, or_false] at hkind
    rcases hkind with rfl | rfl | rfl | rfl | rfl | rfl | rfl | rfl | rfl | rfl | rfl
    · rw [Expr.readOperand_identifier] at h
      obtain ⟨rfl, rfl⟩ := done_inj.1 h
      exact .named
    · rw [Expr.readOperand_integer] at h
      cases hvalue : Decimal.integer? literal with
      | none => simp [hvalue, fail_ne_done] at h
      | some value =>
        rw [hvalue] at h
        obtain ⟨rfl, rfl⟩ := done_inj.1 h
        exact .integer hvalue
    · rw [Expr.readOperand_real] at h
      cases hvalue : Decimal.real? literal with
      | none => simp [hvalue, fail_ne_done] at h
      | some value =>
        rw [hvalue] at h
        obtain ⟨rfl, rfl⟩ := done_inj.1 h
        exact .real hvalue
    · rw [Expr.readOperand_text] at h
      obtain ⟨rfl, rfl⟩ := done_inj.1 h
      exact .string
    · rw [Expr.readOperand_trueWord] at h
      obtain ⟨rfl, rfl⟩ := done_inj.1 h
      exact .trueWord
    · rw [Expr.readOperand_falseWord] at h
      obtain ⟨rfl, rfl⟩ := done_inj.1 h
      exact .falseWord
    · rw [Expr.readOperand_minus] at h
      exact ih.prefixed (t := ⟨.minus, literal⟩) hn hts rfl h
    · rw [Expr.readOperand_notWord] at h
      exact ih.prefixed (t := ⟨.notWord, literal⟩) hn hts rfl h
    · exact ih.grouped hn hts h
    · exact ih.conditional hn hts h
    · exact ih.procedure hn hts h
  · rw [Expr.readOperand_other ts ⟨kind, literal⟩ hkind] at h
    exact absurd h fail_ne_done

lemma operators {min : Precedence} {start : List Token} {left e : Expr} {q : Place}
    (hn : q.unread.length < n) (hq : Endless q.unread) (hleft : IsExpr start left q.unread)
    (h : Expr.readOperators min left q = done e p) : IsExpr start e p.unread := by
  induction hm : q.unread.length using Nat.strongRecOn generalizing left q with
  | ind m ihm =>
    obtain ⟨k, _ | ⟨t, rest⟩⟩ := q
    · rw [Expr.readOperators_nil] at h
      obtain ⟨rfl, rfl⟩ := done_inj.1 h
      exact hleft
    simp only [List.length_cons] at hm hn
    by_cases hmin : min < Precedence.ofKind t.kind
    · cases hoperator : InfixOperator.ofKind? t.kind with
      | some operator =>
        rw [Precedence.ofKind_infix hoperator] at hmin
        rw [Expr.readOperators_infix min left k t rest operator hoperator hmin,
          onSuccess_eq_done_iff] at h
        obtain ⟨right, q, hr, h⟩ := h
        have hright := ih.expr (by omega) hq.tail hr
        have hle := hright.consumes.suffix.length_le
        exact ihm q.unread.length (by omega) (by omega) (hq.tail.of_consumes hright.consumes)
          (.infixed hleft hoperator hright) h rfl
      | none =>
        obtain ⟨literal, rfl⟩ := Precedence.eq_leftParen hmin hoperator
        rw [Expr.readOperators_call min left k literal rest hmin, onSuccess_eq_done_iff] at h
        obtain ⟨args, q, hr, h⟩ := h
        have hargs := ih.arguments (by omega) hq.tail hr
        have hle := hargs.consumes.suffix.length_le
        exact ihm q.unread.length (by omega) (by omega) (hq.tail.of_consumes hargs.consumes)
          (.call hleft hargs) h rfl
    · rw [Expr.readOperators_stop min left k t rest hmin] at h
      obtain ⟨rfl, rfl⟩ := done_inj.1 h
      exact hleft

lemma expr_succ {min : Precedence} {e : Expr} (hn : ts.length ≤ n) (hts : Endless ts)
    (h : Expr.read min ts = done e p) : IsExpr ts e p.unread := by
  cases ts with
  | nil =>
    rw [Expr.read_nil] at h
    exact absurd h fail_ne_done
  | cons t rest =>
    simp only [List.length_cons] at hn
    rw [Expr.read_cons, onSuccess_eq_done_iff] at h
    obtain ⟨left, q, hr, h⟩ := h
    have hleft := ih.operand (by omega) hts.tail hr
    have hle := Expr.length_readOperand_le t rest
    rw [hr] at hle
    exact ih.operators (Nat.lt_of_le_of_lt hle (by omega)) (hts.of_consumes hleft.consumes)
      hleft h

lemma declaration {literal : String} (constant : Bool) {s : Stmt} (hn : ts.length < n)
    (hts : Endless ts)
    (h : Stmt.readDeclaration ⟨declarationWord constant, literal⟩ constant ts = done s p) :
    IsStmt (⟨declarationWord constant, literal⟩ :: ts) s p.unread := by
  rw [Stmt.readDeclaration_eq, onSuccess_eq_done_iff] at h
  obtain ⟨name, q₁, hname, h⟩ := h
  obtain ⟨s₁, ts₁, rfl, rfl, rfl⟩ := expect_eq_done_iff.1 hname
  rw [onSuccess_eq_done_iff] at h
  obtain ⟨colon, q₂, hcolon, h⟩ := h
  obtain ⟨s₂, ts₂, rfl, rfl, rfl⟩ := expect_eq_done_iff.1 hcolon
  rw [onSuccess_eq_done_iff] at h
  obtain ⟨type, q₃, htype, h⟩ := h
  obtain ⟨s₃, ts₃, rfl, rfl⟩ := expectType_eq_done_iff.1 htype
  rw [onSuccess_eq_done_iff] at h
  obtain ⟨sign, q₄, hsign, h⟩ := h
  obtain ⟨s₄, ts₄, rfl, rfl, rfl⟩ := expect_eq_done_iff.1 hsign
  rw [onSuccess_eq_done_iff] at h
  obtain ⟨value, q₅, hr, h⟩ := h
  simp only [List.length_cons] at hn
  have hvalue := ih.expr (by omega) hts.tail.tail.tail.tail hr
  rw [onSuccess_eq_done_iff] at h
  obtain ⟨semicolon, q₆, hsemicolon, h⟩ := h
  obtain ⟨s₅, ts₅, rfl, hunread, rfl⟩ := expect_eq_done_iff.1 hsemicolon
  rw [hunread] at hvalue
  obtain ⟨rfl, rfl⟩ := done_inj.1 h
  exact .declare constant type hvalue

lemma whileLoop {literal : String} {s : Stmt} (hn : ts.length < n) (hts : Endless ts)
    (h : Stmt.read ⟨.whileWord, literal⟩ ts = done s p) :
    IsStmt (⟨.whileWord, literal⟩ :: ts) s p.unread := by
  rw [Stmt.read_whileWord, onSuccess_eq_done_iff] at h
  obtain ⟨condition, q₁, hr, h⟩ := h
  have hcondition := ih.expr hn hts hr
  rw [onSuccess_eq_done_iff] at h
  obtain ⟨opener, q₂, hopener, h⟩ := h
  obtain ⟨word, mid, rfl, hunread, rfl⟩ := expect_eq_done_iff.1 hopener
  rw [hunread] at hcondition
  have hmid := (hts.of_consumes hcondition.consumes).tail
  have hle := hcondition.consumes.suffix.length_le
  simp only [List.length_cons] at hle
  rw [Reading.done, andThen_eq_iff] at h
  obtain ⟨b, q₃, hr, h⟩ := h
  obtain ⟨body, rfl, hbody⟩ := ih.body (by omega) hmid hr
  obtain ⟨rfl, hs⟩ := isSemicolon_of_finish h
  exact .whileLoop hcondition hbody hs

lemma forLoop {literal : String} {s : Stmt} (hn : ts.length < n) (hts : Endless ts)
    (h : Stmt.read ⟨.forWord, literal⟩ ts = done s p) :
    IsStmt (⟨.forWord, literal⟩ :: ts) s p.unread := by
  rw [Stmt.read_forWord, onSuccess_eq_done_iff] at h
  obtain ⟨counter, q₁, hcounter, h⟩ := h
  obtain ⟨s₁, ts₁, rfl, rfl, rfl⟩ := expect_eq_done_iff.1 hcounter
  rw [onSuccess_eq_done_iff] at h
  obtain ⟨sign, q₂, hsign, h⟩ := h
  obtain ⟨s₂, ts₂, rfl, rfl, rfl⟩ := expect_eq_done_iff.1 hsign
  rw [onSuccess_eq_done_iff] at h
  obtain ⟨first, q₃, hr, h⟩ := h
  simp only [List.length_cons] at hn
  have hfirst := ih.expr (by omega) hts.tail.tail hr
  rw [onSuccess_eq_done_iff] at h
  obtain ⟨toWord, q₄, hto, h⟩ := h
  obtain ⟨s₃, mid₁, rfl, hunread₁, rfl⟩ := expect_eq_done_iff.1 hto
  rw [hunread₁] at hfirst
  have hmid₁ := (hts.tail.tail.of_consumes hfirst.consumes).tail
  have hle₁ := hfirst.consumes.suffix.length_le
  simp only [List.length_cons] at hle₁
  rw [onSuccess_eq_done_iff] at h
  obtain ⟨last, q₅, hr, h⟩ := h
  have hlast := ih.expr (by omega) hmid₁ hr
  rw [onSuccess_eq_done_iff] at h
  obtain ⟨opener, q₆, hopener, h⟩ := h
  obtain ⟨word, mid₂, rfl, hunread₂, rfl⟩ := expect_eq_done_iff.1 hopener
  rw [hunread₂] at hlast
  have hmid₂ := (hmid₁.of_consumes hlast.consumes).tail
  have hle₂ := hlast.consumes.suffix.length_le
  simp only [List.length_cons] at hle₂
  rw [Reading.done, andThen_eq_iff] at h
  obtain ⟨b, q₇, hr, h⟩ := h
  obtain ⟨body, rfl, hbody⟩ := ih.body (by omega) hmid₂ hr
  obtain ⟨rfl, hs⟩ := isSemicolon_of_finish h
  exact .forLoop hfirst hlast hbody hs

lemma stmt {t : Token} {s : Stmt} (hn : ts.length < n) (hts : Endless (t :: ts))
    (h : Stmt.read t ts = done s p) : IsStmt (t :: ts) s p.unread := by
  obtain ⟨kind, literal⟩ := t
  by_cases hword : kind ∈ Stmt.wordKinds
  · simp only [Stmt.wordKinds, List.mem_cons, List.not_mem_nil, or_false] at hword
    rcases hword with rfl | rfl | rfl | rfl | rfl | rfl
    · rw [Stmt.read_varWord] at h
      exact ih.declaration false hn hts.tail h
    · rw [Stmt.read_constWord] at h
      exact ih.declaration true hn hts.tail h
    · rw [Stmt.read_beginWord, Reading.done, andThen_eq_iff] at h
      obtain ⟨b, q, hr, h⟩ := h
      obtain ⟨body, rfl, hbody⟩ := ih.body hn hts.tail hr
      obtain ⟨rfl, hs⟩ := isSemicolon_of_finish h
      exact .block hbody hs
    · rw [Stmt.read_returnWord, onSuccess_eq_done_iff] at h
      obtain ⟨value, q, hr, h⟩ := h
      have hvalue := ih.expr hn hts.tail hr
      obtain ⟨rfl, hs⟩ := isSemicolon_of_finish h
      exact .giveBack hvalue hs
    · exact ih.whileLoop hn hts.tail h
    · exact ih.forLoop hn hts.tail h
  by_cases hassign : kind = .identifier ∧ Token.headKind ts = .assign
  · obtain ⟨rfl, hhead⟩ := hassign
    obtain ⟨sign, rest, rfl⟩ := Token.exists_cons_of_headKind hhead (by decide)
    rw [Stmt.read_assignment, onSuccess_eq_done_iff] at h
    obtain ⟨value, q, hr, h⟩ := h
    have hvalue := ih.expr (Nat.lt_of_succ_lt hn) hts.tail.tail hr
    obtain ⟨rfl, hs⟩ := isSemicolon_of_finish h
    exact .assign hvalue hs
  · rw [Stmt.read_expression ts ⟨kind, literal⟩ hword fun hk hh => hassign ⟨hk, hh⟩,
      Stmt.readExpression_eq, onSuccess_eq_done_iff] at h
    obtain ⟨value, q, hr, h⟩ := h
    have hlength : (Token.mk kind literal :: ts).length ≤ n := Nat.succ_le_of_lt hn
    have hvalue := ih.expr_succ hlength hts hr
    obtain ⟨rfl, hs⟩ := isSemicolon_of_finish h
    exact .expression hvalue hs

lemma stmts_succ {inBlock : Bool} {ss : List Stmt} (hn : ts.length ≤ n) (hts : Endless ts)
    (h : Stmt.readMany inBlock ts = ⟨ss, p, []⟩) :
    ∃ rest, IsStmts ts ss rest ∧ EndsAt inBlock rest p := by
  cases ts with
  | nil =>
    rw [Stmt.readMany_nil] at h
    cases h
    exact ⟨[], .nil, .inl ⟨rfl, rfl⟩⟩
  | cons t rest =>
    simp only [List.length_cons] at hn
    cases hlast : Within.isLast inBlock t.kind with
    | true =>
      rw [Stmt.readMany_last inBlock t rest hlast] at h
      cases h
      obtain ⟨kind, s⟩ := t
      have hkind : kind ≠ .endOfInput := hts ⟨kind, s⟩ (by simp)
      simp only [Within.isLast, Bool.or_eq_true, beq_iff_eq, hkind, false_or,
        Bool.and_eq_true] at hlast
      obtain ⟨hblock, rfl⟩ := hlast
      exact ⟨_, .nil, .inr ⟨hblock, s, rfl⟩⟩
    | false =>
      obtain ⟨first, q, others, hr, hr', rfl⟩ := (Stmt.readMany_cons_eq_iff hlast).1 h
      have hfirst := ih.stmt hn hts hr
      have hle := Stmt.length_read_le t rest
      rw [hr] at hle
      obtain ⟨rest', hothers, hend⟩ :=
        ih.stmts (Nat.lt_of_le_of_lt hle hn) (hts.of_consumes hfirst.consumes) hr'
      exact ⟨rest', .cons hfirst hothers, hend⟩

end Sound

lemma sound (n : Nat) : Sound n := by
  induction n with
  | zero => exact ⟨nofun, nofun⟩
  | succ n ih =>
    exact ⟨fun hn => ih.expr_succ (Nat.le_of_lt_succ hn),
      fun hn => ih.stmts_succ (Nat.le_of_lt_succ hn)⟩

lemma isExpr_of_read {min : Precedence} {ts : List Token} {e : Expr} {p : Place}
    (hts : Endless ts) (h : Expr.read min ts = done e p) : IsExpr ts e p.unread :=
  (sound (ts.length + 1)).expr (Nat.lt_succ_self _) hts h

lemma isProgram_of_read {ts : List Token} {ss : List Stmt} {p : Place} (hts : Endless ts)
    (h : Stmt.readMany false ts = ⟨ss, p, []⟩) : IsStmts ts ss [] := by
  obtain ⟨rest, hstmts, hend⟩ := (sound (ts.length + 1)).stmts (Nat.lt_succ_self _) hts h
  rcases hend with ⟨rfl, _⟩ | ⟨hblock, _⟩
  · exact hstmts
  · cases hblock

end MiniPascal.Grammar
