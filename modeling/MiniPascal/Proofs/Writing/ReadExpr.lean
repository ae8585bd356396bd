import MiniPascal.Proofs.Writing.Levels
import MiniPascal.Proofs.Grammar.Completeness
/-! Expressions are read back where the operators before them bind less than their own, and those
after them no more. -/

namespace MiniPascal

open Reading

@[simp]
lemma TokenKind.written_kind (kind : TokenKind) : kind.written.kind = kind := rfl

@[simp]
lemma Reading.expect_written (kind last : TokenKind) (rest : List Token) :
    expect kind last (kind.written :: rest) = done kind.written ⟨kind, rest⟩ :=
  expect_cons kind last kind.spelling rest

@[simp]
lemma Reading.expectType_written (last : TokenKind) (type : NumericType) (rest : List Token) :
    expectType last (type.kind.written :: rest) = done type ⟨type.kind, rest⟩ :=
  expectType_cons last type type.kind.spelling rest

def Ends (k : List Token) : Prop := Grammar.Lowest k ∧ Token.headKind k ≠ .elseWord

lemma Ends.written {kind : TokenKind} {k : List Token}
    (h : Precedence.ofKind kind = .lowest ∧ kind ≠ .elseWord) :
    Ends (kind.written :: k) :=
  h

lemma Grammar.isSomeParameters_tokens (p : Parameter) (ps : List Parameter) (k : List Token) :
    IsSomeParameters (p.tokens ++ Style.others (ps.map Parameter.tokens) ++ k) (p :: ps) k := by
  induction ps generalizing p with
  | nil => exact .last p.type
  | cons q ps ih =>
    have hts : p.tokens ++ Style.others ((q :: ps).map Parameter.tokens) ++ k =
        p.tokens ++ TokenKind.comma.written ::
          (q.tokens ++ Style.others (ps.map Parameter.tokens) ++ k) := by
      simp [Style.others]
    rw [hts]
    exact .cons p.type (ih q)

lemma Parameter.readList_listed (ps : List Parameter) (k : List Token) :
    readList (Style.listed (ps.map tokens) ++ k) = done ps ⟨.rightParen, k⟩ := by
  cases ps with
  | nil => exact (Grammar.IsParameters.none).readList
  | cons p ps => exact (Grammar.IsParameters.some (Grammar.isSomeParameters_tokens p ps k)).readList

lemma Token.headKind_append {ts : List Token} (h : ts ≠ []) (k : List Token) :
    headKind (ts ++ k) = headKind ts := by
  cases ts with
  | nil => exact absurd rfl h
  | cons t ts => rfl

def Stmt.endsOpen : Stmt → Bool
  | .assign _ _ | .giveBack _ _ | .expression _ _ => true
  | _ => false

namespace Style

variable (st : Style)

structure Faithful : Prop where
  parentheses {position : Position} {e : Expr} :
    position.needsParentheses e = true → st.parentheses position e = true
  declaration {lexeme : String} {constant : Bool} {name : String} {type : NumericType}
    {value : Expr} : st.semicolon (.declare lexeme constant name type value) = true

/-- A statement that ends in an expression and has no semicolon is followed by one that cannot go
on with that expression. -/
def Apart (ss : List Stmt) : Prop :=
  ∀ before s next after, ss = before ++ s :: next :: after → s.endsOpen = true →
    st.semicolon s = true ∨ Grammar.Lowest (st.clause next)

def Fits : Node → Prop
  | .expr e => e.Legible
  | .body ss => st.Apart ss

def Reads (e : Expr) : Prop :=
  ∀ min k, e.BindsAbove min → Precedence.ofKind (Token.headKind k) ≤ e.level →
    Token.headKind k ≠ .elseWord →
    ∃ e' last, Expr.Opens min (st.core e ++ k) e' ⟨last, k⟩ ∧ e'.canonical = e.canonical

def ReadsBlock (b : Block) : Prop :=
  ∀ opener k, ∃ b' last, Block.read opener (st.body b ++ k) = ⟨b', ⟨last, k⟩, []⟩ ∧
    ∀ kind, b'.canonical kind = b.canonical kind

def ReadsStmt (s : Stmt) : Prop :=
  ∀ k, Token.headKind k ∈ Grammar.followKinds →
    (s.endsOpen = true → st.semicolon s = true ∨ Grammar.Lowest k) →
    ∃ t ts s' last, st.clause s ++ (ending (st.semicolon s) ++ k) = t :: ts ∧
      t.kind ∈ Expr.operandKinds ++ Stmt.wordKinds ∧ Stmt.read t ts = done s' ⟨last, k⟩ ∧
      s'.canonical = s.canonical

def ReadsStmts (ss : List Stmt) : Prop :=
  ∀ k, Token.headKind (st.statements ss ++ TokenKind.endWord.written :: k) ∈
      Grammar.followKinds ∧
    ∃ ss', Stmt.readMany true (st.statements ss ++ TokenKind.endWord.written :: k) =
        ⟨ss', ⟨.endWord, k⟩, []⟩ ∧ Stmt.listCanonical ss' = Stmt.listCanonical ss

variable {st} {e : Expr} {min : Precedence} {k : List Token}

lemma Apart.tail {s : Stmt} {ss : List Stmt} (h : st.Apart (s :: ss)) : st.Apart ss := by
  intro before s' next after hss
  subst hss
  exact h (s :: before) s' next after rfl

namespace Reads

lemma enclosed (h : st.Reads e) (min : Precedence) (k : List Token) :
    ∃ e' last, Expr.Opens min (enclose (st.core e) true ++ k) e' ⟨last, k⟩ ∧
      e'.canonical = e.canonical := by
  have hends : Ends (TokenKind.rightParen.written :: k) := .written ⟨rfl, nofun⟩
  obtain ⟨e', last, hopens, he⟩ := h .lowest _ e.bindsAbove_lowest
    (hends.1.symm ▸ Precedence.lowest_le _) hends.2
  have hread := hopens.read_eq (hends.1.symm ▸ by decide)
  refine ⟨e', .rightParen, ?_, he⟩
  have hts : enclose (st.core e) true ++ k =
      TokenKind.leftParen.written :: (st.core e ++ TokenKind.rightParen.written :: k) := by
    simp [enclose]
  rw [hts]
  refine .operand ((Expr.readOperand_leftParen _ _).trans ?_)
  rw [hread, onSuccess_done, expect_written, onSuccess_done]

lemma expr (h : st.Reads e) (hst : st.Faithful) (position : Position) (min : Precedence)
    (habove : position.needsParentheses e = false → e.BindsAbove min)
    (hlevel : position.needsParentheses e = false →
      Precedence.ofKind (Token.headKind k) ≤ e.level)
    (helse : Token.headKind k ≠ .elseWord) :
    ∃ e' last, Expr.Opens min (st.expr position e ++ k) e' ⟨last, k⟩ ∧
      e'.canonical = e.canonical := by
  rw [Style.expr]
  cases hparens : st.parentheses position e with
  | true => exact h.enclosed min k
  | false =>
    have hneeds : position.needsParentheses e = false := by
      cases hneeds : position.needsParentheses e with
      | false => rfl
      | true => rw [hst.parentheses hneeds] at hparens; cases hparens
    exact h min k (habove hneeds) (hlevel hneeds) helse

lemma whole (h : st.Reads e) (hst : st.Faithful) (hk : Ends k) :
    ∃ e' last, Expr.read .lowest (st.expr .whole e ++ k) = done e' ⟨last, k⟩ ∧
      e'.canonical = e.canonical := by
  obtain ⟨hlowest, helse⟩ := hk
  obtain ⟨e', last, hopens, he⟩ := h.expr hst .whole .lowest
    (fun _ => e.bindsAbove_lowest) (fun _ => hlowest.symm ▸ Precedence.lowest_le _) helse
  exact ⟨e', last, hopens.read_eq (hlowest.symm ▸ by decide), he⟩

lemma leaf {t : Token} {e' : Expr} (hcore : st.core e = [t])
    (hread : ∀ k, Expr.readOperand t k = done e' ⟨t.kind, k⟩)
    (he : e'.canonical = e.canonical) : st.Reads e := by
  intro min k _ _ _
  refine ⟨e', t.kind, ?_, he⟩
  rw [hcore]
  exact .operand (hread k)

lemma prefixed {lexeme : String} {operator : PrefixOperator} {right : Expr} (hst : st.Faithful)
    (h : st.Reads right) : st.Reads (.prefixed lexeme operator right) := by
  intro min k _ hlevel helse
  obtain ⟨right', last, hopens, he⟩ := h.expr hst .behindPrefix .prefixOp
    Position.behindPrefix_bindsAbove
    (fun hneeds => Nat.le_trans hlevel (Position.behindPrefix_le hneeds)) helse
  have hread := hopens.read_eq (Precedence.not_lt.2 hlevel)
  refine ⟨.prefixed operator.kind.spelling operator right', last, ?_, ?_⟩
  · exact .operand (Expr.readOperand_prefix operator.ofKind?_kind hread)
  · rw [Expr.canonical, Expr.canonical, he]

lemma infixed {lexeme : String} {operator : InfixOperator} {left right : Expr}
    (hst : st.Faithful) (hl : st.Reads left) (hr : st.Reads right) :
    st.Reads (.infixed lexeme operator left right) := by
  intro min k habove hlevel helse
  obtain ⟨right', last, hopens, her⟩ := hr.expr hst (.rightOf operator) operator.precedence
    Position.rightOf_bindsAbove
    (fun hneeds => Nat.le_trans hlevel (Position.rightOf_le hneeds)) helse
  have hread := hopens.read_eq (Precedence.not_lt.2 hlevel)
  obtain ⟨left', last', hopens', hel⟩ := hl.expr hst (.leftOf operator) min
    (k := operator.kind.written :: (st.expr (.rightOf operator) right ++ k))
    (fun hneeds => Expr.bindsAbove_of_lt habove (Position.leftOf_le hneeds))
    (fun hneeds => by
      rw [Token.headKind, TokenKind.written, operator.ofKind_kind]
      exact Position.leftOf_le hneeds)
    operator.kind_ne_else
  refine ⟨.infixed operator.kind.spelling operator left' right', last, ?_, ?_⟩
  · have hts : st.core (.infixed lexeme operator left right) ++ k =
        st.expr (.leftOf operator) left ++
          operator.kind.written :: (st.expr (.rightOf operator) right ++ k) := by
      simp [Style.core, Style.expr]
    rw [hts]
    exact hopens'.infixed operator.ofKind?_kind habove hread
  · rw [Expr.canonical, Expr.canonical, hel, her]

lemma conditional {lexeme : String} {condition : Expr} {consequence : Block} (hst : st.Faithful)
    (hc : st.Reads condition) (hb : st.ReadsBlock consequence) :
    st.Reads (.conditional lexeme condition consequence none) := by
  intro min k _ _ helse
  obtain ⟨b', last', hblock, heb⟩ := hb TokenKind.thenWord.written k
  obtain ⟨c', last, hread, hec⟩ := hc.whole hst
    (k := TokenKind.thenWord.written :: (st.body consequence ++ k)) (.written ⟨rfl, nofun⟩)
  have hother : Block.readAlternative last' k = ⟨none, ⟨last', k⟩, []⟩ := by
    cases k with
    | nil => exact Block.readAlternative_nil last'
    | cons t k => exact Block.readAlternative_none last' t k helse
  refine ⟨.conditional TokenKind.ifWord.spelling c' b' none, last', ?_, ?_⟩
  · have hts : st.core (.conditional lexeme condition consequence none) ++ k =
        TokenKind.ifWord.written :: (st.expr .whole condition ++
          TokenKind.thenWord.written :: (st.body consequence ++ k)) := by
      simp [Style.core, Style.expr]
    rw [hts]
    refine .operand ((Expr.readOperand_ifWord _ _).trans ?_)
    rw [hread, onSuccess_done, expect_written, onSuccess_done, hblock, andThen_clean, hother,
      andThen_clean]
  · rw [Expr.canonical, Expr.canonical, hec, heb]

lemma alternative {lexeme : String} {condition : Expr} {consequence other : Block}
    (hst : st.Faithful) (hc : st.Reads condition) (hb : st.ReadsBlock consequence)
    (ho : st.ReadsBlock other) :
    st.Reads (.conditional lexeme condition consequence (some other)) := by
  intro min k _ _ _
  obtain ⟨o', last, hother, heo⟩ := ho TokenKind.elseWord.written k
  obtain ⟨b', last', hblock, heb⟩ := hb TokenKind.thenWord.written
    (TokenKind.elseWord.written :: (st.body other ++ k))
  obtain ⟨c', _, hread, hec⟩ := hc.whole hst (k := TokenKind.thenWord.written ::
    (st.body consequence ++ TokenKind.elseWord.written :: (st.body other ++ k)))
    (.written ⟨rfl, nofun⟩)
  have helse := Block.readAlternative_else last' TokenKind.elseWord.spelling (st.body other ++ k)
  refine ⟨.conditional TokenKind.ifWord.spelling c' b' (some o'), last, ?_, ?_⟩
  · have hts : st.core (.conditional lexeme condition consequence (some other)) ++ k =
        TokenKind.ifWord.written :: (st.expr .whole condition ++ TokenKind.thenWord.written ::
          (st.body consequence ++ TokenKind.elseWord.written :: (st.body other ++ k))) := by
      simp [Style.core, Style.expr]
    rw [hts]
    refine .operand ((Expr.readOperand_ifWord _ _).trans ?_)
    rw [hread, onSuccess_done, expect_written, onSuccess_done, hblock, andThen_clean]
    rw [← TokenKind.written, hother, andThen_clean] at helse
    rw [helse, andThen_clean]
  · rw [Expr.canonical, Expr.canonical, hec, heb, heo]

lemma procedure {header : Header} {block : Block} (hb : st.ReadsBlock block) :
    st.Reads (.procedure header block) := by
  intro min k _ _ _
  obtain ⟨b', last, hblock, heb⟩ := hb TokenKind.beginWord.written k
  refine ⟨.procedure ⟨TokenKind.procedureWord.spelling, header.name, header.parameters⟩ b', last,
    ?_, ?_⟩
  · have hts : st.core (.procedure header block) ++ k =
        TokenKind.procedureWord.written :: ⟨.identifier, header.name⟩ ::
          TokenKind.leftParen.written :: (listed (header.parameters.map Parameter.tokens) ++
            TokenKind.beginWord.written :: (st.body block ++ k)) := by
      simp [Style.core]
    rw [hts]
    refine .operand ((Expr.readOperand_procedureWord _ _).trans ?_)
    rw [expect_cons, onSuccess_done, expect_written, onSuccess_done, Parameter.readList_listed,
      onSuccess_done, expect_written, onSuccess_done, hblock, andThen_clean]
  · rw [Expr.canonical, Expr.canonical, heb]

lemma readSomeArguments (hst : st.Faithful) (e : Expr) (es : List Expr)
    (h : ∀ x ∈ e :: es, st.Reads x) (k : List Token) :
    ∃ args, Expr.readSomeArguments (st.expr .whole e ++ (others (st.arguments es) ++ k)) =
        done args ⟨.rightParen, k⟩ ∧ Expr.listCanonical args = Expr.listCanonical (e :: es) := by
  induction es generalizing e with
  | nil =>
    obtain ⟨e', last, hread, he⟩ := (h e (by simp)).whole hst
      (k := TokenKind.rightParen.written :: k) (.written ⟨rfl, nofun⟩)
    refine ⟨[e'], ?_, ?_⟩
    · rw [Style.arguments, others, List.singleton_append, Expr.readSomeArguments_eq, hread,
        onSuccess_done]
      rfl
    · simp [Expr.listCanonical, he]
  | cons x es ih =>
    obtain ⟨args, hreads, hargs⟩ := ih x (fun y hy => h y (List.mem_cons_of_mem e hy))
    obtain ⟨e', last, hread, he⟩ := (h e (by simp)).whole hst (k := TokenKind.comma.written ::
      (st.expr .whole x ++ (others (st.arguments es) ++ k))) (.written ⟨rfl, nofun⟩)
    refine ⟨e' :: args, ?_, ?_⟩
    · have hts : others (st.arguments (x :: es)) ++ k = TokenKind.comma.written ::
          (st.expr .whole x ++ (others (st.arguments es) ++ k)) := by
        simp [Style.arguments, others, Style.expr]
      rw [hts, Expr.readSomeArguments_eq, hread, onSuccess_done]
      dsimp only
      rw [TokenKind.written_kind, if_pos rfl, hreads, onSuccess_done]
    · rw [Expr.listCanonical, he, hargs, ← Expr.listCanonical]

lemma readArguments (hst : st.Faithful) {es : List Expr} (h : ∀ x ∈ es, st.Reads x)
    (k : List Token) :
    ∃ args, Expr.readArguments (listed (st.arguments es) ++ k) = done args ⟨.rightParen, k⟩ ∧
      Expr.listCanonical args = Expr.listCanonical es := by
  cases es with
  | nil =>
    refine ⟨[], ?_, rfl⟩
    rw [Style.arguments, listed, List.singleton_append, Expr.readArguments_cons,
      TokenKind.written_kind, if_pos rfl]
  | cons e es =>
    obtain ⟨args, hread, hargs⟩ := readSomeArguments hst e es h k
    refine ⟨args, ?_, hargs⟩
    rw [Style.arguments, listed, List.append_assoc]
    exact Expr.readArguments_of_some hread

lemma call {lexeme : String} {callee : Expr} {es : List Expr} (hst : st.Faithful)
    (hf : st.Reads callee) (hes : ∀ x ∈ es, st.Reads x) : st.Reads (.call lexeme callee es) := by
  intro min k hmin _ _
  obtain ⟨args, hread, hargs⟩ := readArguments hst hes k
  obtain ⟨f', _, hopens, hef⟩ := hf.expr hst .callee min
    (k := TokenKind.leftParen.written :: (listed (st.arguments es) ++ k))
    (fun hneeds => Expr.bindsAbove_of_lt hmin (Position.callee_le hneeds))
    (fun hneeds => Position.callee_le hneeds) (by simp [Token.headKind])
  refine ⟨.call TokenKind.leftParen.spelling f' args, .rightParen, ?_, ?_⟩
  · have hts : st.core (.call lexeme callee es) ++ k = st.expr .callee callee ++
        TokenKind.leftParen.written :: (listed (st.arguments es) ++ k) := by
      simp [Style.core, Style.expr]
    rw [hts]
    exact hopens.call hmin hread
  · rw [Expr.canonical, Expr.canonical, hef, hargs]

end Reads

end Style

end MiniPascal
