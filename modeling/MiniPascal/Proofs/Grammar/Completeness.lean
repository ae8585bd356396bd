import MiniPascal.Proofs.Grammar
/-! The grammar leaves open where a phrase ends, and reading takes the longest. So phrases are
first brought into the form in which they are read. -/

namespace MiniPascal.Grammar

open Reading

inductive IsOperand : List Token → List Token → Prop
  | plain {t ts e p} : PrefixOperator.ofKind? t.kind = none → Expr.readOperand t ts = done e p →
    IsOperand (t :: ts) p.unread
  | prefixed {t operator ts rest} : PrefixOperator.ofKind? t.kind = some operator →
    IsOperand ts rest → IsOperand (t :: ts) rest

inductive IsTail : List Token → List Token → Prop
  | nil {ts} : IsTail ts ts
  | infixed {t operator ts mid rest} : InfixOperator.ofKind? t.kind = some operator →
    IsOperand ts mid → IsTail mid rest → IsTail (t :: ts) rest
  | call {s ts args p rest} : Expr.readArguments ts = done args p → IsTail p.unread rest →
    IsTail (⟨.leftParen, s⟩ :: ts) rest

def IsChain (ts rest : List Token) : Prop := ∃ mid, IsOperand ts mid ∧ IsTail mid rest

lemma IsTail.trans {ts mid rest : List Token} (h : IsTail ts mid) (h' : IsTail mid rest) :
    IsTail ts rest := by
  induction h with
  | nil => exact h'
  | infixed ht hoperand _ ih => exact .infixed ht hoperand (ih h')
  | call hargs _ ih => exact .call hargs (ih h')

namespace IsChain

variable {ts mid rest : List Token} {t : Token}

lemma append (h : IsChain ts mid) (h' : IsTail mid rest) : IsChain ts rest := by
  obtain ⟨mid', hoperand, htail⟩ := h
  exact ⟨mid', hoperand, htail.trans h'⟩

lemma infixed {operator : InfixOperator} (h : IsChain ts (t :: mid))
    (ht : InfixOperator.ofKind? t.kind = some operator) (h' : IsChain mid rest) :
    IsChain ts rest := by
  obtain ⟨mid', hoperand, htail⟩ := h'
  exact h.append (.infixed ht hoperand htail)

lemma prefixed {operator : PrefixOperator} (ht : PrefixOperator.ofKind? t.kind = some operator)
    (h : IsChain ts rest) : IsChain (t :: ts) rest := by
  obtain ⟨mid, hoperand, htail⟩ := h
  exact ⟨mid, .prefixed ht hoperand, htail⟩

lemma call {s : String} {args : List Expr} {p : Place}
    (h : IsChain ts (⟨.leftParen, s⟩ :: mid)) (hargs : Expr.readArguments mid = done args p) :
    IsChain ts p.unread :=
  h.append (.call hargs .nil)

lemma plain {e : Expr} {p : Place} (ht : PrefixOperator.ofKind? t.kind = none)
    (h : Expr.readOperand t ts = done e p) : IsChain (t :: ts) p.unread :=
  ⟨p.unread, .plain ht h, .nil⟩

end IsChain

def Lowest (ts : List Token) : Prop := Precedence.ofKind (Token.headKind ts) = .lowest

lemma IsTail.eq_of_not_lt {ts rest : List Token} (h : IsTail ts rest)
    (hstop : ¬ .lowest < Precedence.ofKind (Token.headKind ts)) : ts = rest := by
  cases h with
  | nil => rfl
  | @infixed t operator _ _ _ ht _ _ =>
    rw [Token.headKind, Precedence.ofKind_infix ht] at hstop
    exact absurd (InfixOperator.lowest_lt_precedence operator) hstop
  | call _ _ => exact absurd (by decide : Precedence.lowest < .call) hstop

-- A chain up to a token that does not bind is read as far as the operators of the level go. What
-- is left of the chain is operators and calls again, so the loop goes on with it.
lemma exists_read_of_operand {n : Nat} {ts mid rest : List Token} (min : Precedence)
    (hn : ts.length ≤ n) (hoperand : IsOperand ts mid) (htail : IsTail mid rest)
    (hrest : Lowest rest) :
    ∃ e p, Expr.read min ts = done e p ∧ IsTail p.unread rest ∧
      ¬ min < Precedence.ofKind (Token.headKind p.unread) := by
  induction n generalizing ts mid min with
  | zero => cases hoperand <;> simp at hn
  | succ n ih =>
    -- The loop: with an operand read, it takes what binds more strongly than `min`.
    have loop : ∀ {p : Place} {e : Expr}, p.unread.length ≤ n → Expr.Opens min ts e p →
        IsTail p.unread rest → ∃ e p, Expr.read min ts = done e p ∧ IsTail p.unread rest ∧
          ¬ min < Precedence.ofKind (Token.headKind p.unread) := by
      intro p e hp hopens htail
      induction hm : p.unread.length using Nat.strongRecOn generalizing p e with
      | ind m ihm =>
        by_cases hmin : min < Precedence.ofKind (Token.headKind p.unread)
        · obtain ⟨k, unread⟩ := p
          dsimp only at hp hm htail hmin
          cases htail with
          | nil =>
            rw [hrest] at hmin
            exact absurd hmin (Nat.not_lt_zero _)
          | @infixed t operator ts' mid' _ ht hoperand' htail' =>
            simp only [List.length_cons] at hp hm
            rw [Token.headKind, Precedence.ofKind_infix ht] at hmin
            obtain ⟨r, q, hr, hq, _⟩ := ih operator.precedence (by omega) hoperand' htail'
            have hlt := Expr.read_eq_done_length hr
            exact ihm q.unread.length (by omega) (by omega) (hopens.infixed ht hmin hr) hq rfl
          | @call s ts' args q _ hargs htail' =>
            simp only [List.length_cons] at hp hm
            have hle := Expr.length_readArguments_le ts'
            rw [hargs] at hle
            have hlt : q.unread.length ≤ ts'.length := hle
            exact ihm q.unread.length (by omega) (by omega) (hopens.call hmin hargs) htail' rfl
        · exact ⟨e, p, hopens.read_eq hmin, htail, hmin⟩
    cases hoperand with
    | @plain t ts' e p _ hread =>
      have hle := Expr.length_readOperand_le t ts'
      rw [hread] at hle
      exact loop (Nat.le_trans hle (Nat.le_of_succ_le_succ hn)) (.operand hread) htail
    | @prefixed t operator ts' _ ht hoperand =>
      have hn' : ts'.length ≤ n := Nat.le_of_succ_le_succ hn
      obtain ⟨r, q, hr, hq, _⟩ := ih .prefixOp hn' hoperand htail
      have hlt := Expr.read_eq_done_length hr
      exact loop (by omega) (.operand (Expr.readOperand_prefix ht hr)) hq

lemma IsChain.join {ts mid rest : List Token} (h : IsChain ts mid) (h' : IsChain mid rest)
    (hmid : ¬ Lowest mid) : IsChain ts rest := by
  obtain ⟨mid', hoperand, htail⟩ := h'
  cases hoperand with
  | @plain t ts' e p hplain hread =>
    obtain ⟨kind, s⟩ := t
    rcases Expr.operandKinds_binding (Expr.mem_operandKinds_of_read hread) hmid with hk | hk
    · cases hk
      cases hplain
    · cases hk
      exact (h.call (Expr.readArguments_of_group hread)).append htail
  | @prefixed t operator ts' _ ht hoperand =>
    obtain ⟨kind, s⟩ := t
    cases kind <;> cases ht
    · exact absurd rfl hmid
    · exact h.infixed (t := ⟨.minus, s⟩) rfl ⟨mid', hoperand, htail⟩

lemma IsChain.headKind {ts rest : List Token} (h : IsChain ts rest) :
    Token.headKind ts ∈ Expr.operandKinds := by
  obtain ⟨mid, hoperand, -⟩ := h
  cases hoperand with
  | plain _ hread => exact Expr.mem_operandKinds_of_read hread
  | @prefixed t operator _ _ ht _ =>
    obtain ⟨kind, s⟩ := t
    cases kind <;> cases ht
    · exact (by decide : TokenKind.notWord ∈ Expr.operandKinds)
    · exact (by decide : TokenKind.minus ∈ Expr.operandKinds)

inductive Closes : List Token → List Token → Prop
  | semicolon {s rest} : Closes (⟨.semicolon, s⟩ :: rest) rest
  | nothing {rest} : Lowest rest → Token.headKind rest ≠ .semicolon →
    Token.headKind rest ≠ .assign → Closes rest rest

lemma Closes.lowest {ts rest : List Token} (h : Closes ts rest) : Lowest ts := by
  cases h with
  | semicolon => rfl
  | nothing hlowest _ _ => exact hlowest

lemma Closes.headKind_ne {ts rest : List Token} (h : Closes ts rest) :
    Token.headKind ts ≠ .assign := by
  cases h with
  | semicolon => nofun
  | nothing _ _ hne => exact hne

lemma Closes.skipSemicolon {k : TokenKind} {ts rest : List Token} (h : Closes ts rest) :
    (Place.mk k ts).skipSemicolon.unread = rest := by
  cases h with
  | semicolon => rfl
  | nothing _ hne _ =>
    cases ts with
    | nil => rfl
    | cons t ts' =>
      have hk : t.kind ≠ .semicolon := hne
      simp only [Place.skipSemicolon, hk, if_false]

lemma IsChain.exists_read {ts mid : List Token} (h : IsChain ts mid)
    (hlowest : Lowest mid) : ∃ e k, Expr.read .lowest ts = done e ⟨k, mid⟩ := by
  obtain ⟨mid', hoperand, htail⟩ := h
  obtain ⟨e, ⟨k, unread⟩, hread, hunread, hstop⟩ :=
    exists_read_of_operand .lowest (Nat.le_refl _) hoperand htail hlowest
  obtain rfl := hunread.eq_of_not_lt hstop
  exact ⟨e, k, hread⟩

/-- Statements as they are read: where an expression statement ends, nothing could go on with it,
and no other statement begins with a token that could go on with an expression. -/
inductive IsRun : List Token → List Token → Prop
  | nil {ts} : IsRun ts ts
  | expression {ts mid mid' rest} : IsChain ts mid → Closes mid mid' → IsRun mid' rest →
    IsRun ts rest
  | other {t ts s p rest} : t.kind ∈ Stmt.wordKinds ∨ t.kind = .identifier →
    Stmt.read t ts = done s p → IsRun p.unread rest → IsRun (t :: ts) rest

def Stops (rest : List Token) : Prop := rest = [] ∨ Token.headKind rest = .endWord

def followKinds : List TokenKind :=
  .endOfInput :: .endWord :: (Expr.operandKinds ++ Stmt.wordKinds)

lemma IsRun.headKind {ts rest : List Token} (h : IsRun ts rest) (hrest : Stops rest) :
    Token.headKind ts ∈ followKinds := by
  cases h with
  | nil =>
    rcases hrest with rfl | hrest
    · decide
    · rw [hrest]
      decide
  | expression hchain _ _ =>
    have hkind := hchain.headKind
    simp only [followKinds, List.mem_cons, List.mem_append]
    exact .inr (.inr (.inl hkind))
  | @other t _ _ _ _ ht _ _ =>
    simp only [followKinds, List.mem_cons, List.mem_append, Token.headKind]
    rcases ht with ht | ht
    · exact .inr (.inr (.inr ht))
    · rw [ht]
      decide

lemma ne_of_mem_followKinds {kind : TokenKind} (other : TokenKind) (h : kind ∈ followKinds)
    (hother : other ∉ followKinds) : kind ≠ other := by
  rintro rfl
  exact hother h

lemma IsRun.close {ts mid mid' rest : List Token} (hrun : IsRun mid' rest) (hrest : Stops rest)
    (h : IsChain ts mid) (hs : IsSemicolon mid mid') :
    ∃ c c', IsChain ts c ∧ Closes c c' ∧ IsRun c' rest := by
  cases hs with
  | some => exact ⟨_, _, h, .semicolon, hrun⟩
  | none =>
    have hkind := hrun.headKind hrest
    have hsemicolon := ne_of_mem_followKinds .semicolon hkind (by decide)
    have hassign := ne_of_mem_followKinds .assign hkind (by decide)
    by_cases hlowest : Lowest mid
    · exact ⟨mid, mid, h, .nothing hlowest hsemicolon hassign, hrun⟩
    cases hrun with
    | nil =>
      refine absurd ?_ hlowest
      rcases hrest with rfl | hrest
      · rfl
      · rw [Lowest, hrest]
        rfl
    | expression hchain hcloses hrun => exact ⟨_, _, h.join hchain hlowest, hcloses, hrun⟩
    | @other t _ _ _ _ ht _ _ =>
      refine absurd ?_ hlowest
      obtain ⟨kind, s⟩ := t
      rcases ht with ht | ht
      · simp only [Stmt.wordKinds, List.mem_cons, List.not_mem_nil, or_false] at ht
        rcases ht with rfl | rfl | rfl | rfl | rfl | rfl <;> rfl
      · cases ht
        rfl

lemma IsRun.skipSemicolon {k : TokenKind} {mid mid' rest : List Token} (hrun : IsRun mid' rest)
    (hrest : Stops rest) (hs : IsSemicolon mid mid') :
    (Place.mk k mid).skipSemicolon.unread = mid' := by
  cases hs with
  | some => rfl
  | none =>
    have hne := ne_of_mem_followKinds .semicolon (hrun.headKind hrest) (by decide)
    cases mid with
    | nil => rfl
    | cons t ts' =>
      have hk : t.kind ≠ .semicolon := hne
      simp only [Place.skipSemicolon, hk, if_false]

lemma IsRun.headKind_ne_else {mid mid' rest : List Token} (hrun : IsRun mid' rest)
    (hrest : Stops rest) (hs : IsSemicolon mid mid') : Token.headKind mid ≠ .elseWord := by
  cases hs with
  | some => nofun
  | none => exact ne_of_mem_followKinds .elseWord (hrun.headKind hrest) (by decide)

lemma isLast_eq_false {inBlock : Bool} {kind : TokenKind}
    (h : kind ∈ Expr.operandKinds ++ Stmt.wordKinds) : Within.isLast inBlock kind = false := by
  have hend : kind ≠ .endOfInput := by
    rintro rfl
    exact absurd h (by decide)
  have hend' : kind ≠ .endWord := by
    rintro rfl
    exact absurd h (by decide)
  simp [Within.isLast, hend, hend']

lemma IsChain.exists_readStmt {t : Token} {ts mid mid' : List Token} (h : IsChain (t :: ts) mid)
    (hcloses : Closes mid mid') : ∃ s k, Stmt.read t ts = done s ⟨k, mid'⟩ := by
  obtain ⟨e, k, hread⟩ := h.exists_read hcloses.lowest
  refine ⟨.expression t.literal e, (Place.mk k mid).skipSemicolon.last, ?_⟩
  rw [Stmt.read_of_expr hread hcloses.headKind_ne, Stmt.finish, ← hcloses.skipSemicolon]

lemma IsRun.exists_readMany {inBlock : Bool} {ts rest : List Token} {p : Place}
    (h : IsRun ts rest) (hrest : Stmt.readMany inBlock rest = ⟨[], p, []⟩) :
    ∃ ss, Stmt.readMany inBlock ts = ⟨ss, p, []⟩ := by
  induction h with
  | nil => exact ⟨[], hrest⟩
  | @expression ts mid mid' _ hchain hcloses _ ih =>
    obtain ⟨others, hothers⟩ := ih hrest
    have hkind := hchain.headKind
    cases ts with
    | nil => exact absurd hkind (by decide)
    | cons t ts =>
      obtain ⟨s, k, hread⟩ := hchain.exists_readStmt hcloses
      refine ⟨s :: others, (Stmt.readMany_cons_eq_iff ?_).2 ⟨s, _, others, hread, hothers, rfl⟩⟩
      exact isLast_eq_false (List.mem_append_left _ hkind)
  | @other t ts s q _ ht hread _ ih =>
    obtain ⟨others, hothers⟩ := ih hrest
    refine ⟨s :: others, (Stmt.readMany_cons_eq_iff ?_).2 ⟨s, q, others, hread, hothers, rfl⟩⟩
    rcases ht with ht | ht
    · exact isLast_eq_false (List.mem_append_right _ ht)
    · rw [ht]
      exact isLast_eq_false (by decide)

def ReadsBody (ts rest : List Token) : Prop :=
  ∀ opener, ∃ b k, Block.read opener ts = ⟨b, ⟨k, rest⟩, []⟩

lemma ReadsBody.closed {ts rest : List Token} {s : String}
    (h : IsRun ts (⟨.endWord, s⟩ :: rest)) : ReadsBody ts rest := by
  intro opener
  obtain ⟨ss, hread⟩ := h.exists_readMany (Stmt.readMany_last true ⟨.endWord, s⟩ rest rfl)
  refine ⟨.mk opener ss, .endWord, ?_⟩
  rw [Block.read_eq, hread, andThen_clean]

lemma ReadsBody.atEnd {ts : List Token} (h : IsRun ts []) : ReadsBody ts [] := by
  intro opener
  obtain ⟨ss, hread⟩ := h.exists_readMany (Stmt.readMany_nil true)
  refine ⟨.mk opener ss, .endOfInput, ?_⟩
  rw [Block.read_eq, hread, andThen_clean]

namespace IsChain

variable {ts mid rest : List Token}

lemma grouped {s₁ s₂ : String} (h : IsChain ts (⟨.rightParen, s₂⟩ :: rest)) :
    IsChain (⟨.leftParen, s₁⟩ :: ts) rest := by
  obtain ⟨e, k, hread⟩ := h.exists_read rfl
  refine plain (e := e) (p := ⟨.rightParen, rest⟩) rfl ?_
  rw [Expr.readOperand_leftParen, hread, onSuccess_done, expect_cons, onSuccess_done]

lemma conditional {s word : String} (hcondition : IsChain ts (⟨.thenWord, word⟩ :: mid))
    (hbody : ReadsBody mid rest) (hrest : Token.headKind rest ≠ .elseWord) :
    IsChain (⟨.ifWord, s⟩ :: ts) rest := by
  obtain ⟨c, k, hread⟩ := hcondition.exists_read rfl
  obtain ⟨b, k', hb⟩ := hbody ⟨.thenWord, word⟩
  have hother : Block.readAlternative k' rest = ⟨none, ⟨k', rest⟩, []⟩ := by
    cases rest with
    | nil => exact Block.readAlternative_nil k'
    | cons t rest => exact Block.readAlternative_none k' t rest hrest
  refine plain (e := .conditional s c b none) (p := ⟨k', rest⟩) rfl ?_
  rw [Expr.readOperand_ifWord, hread, onSuccess_done, expect_cons, onSuccess_done, hb,
    andThen_clean, hother, andThen_clean]

lemma alternative {s word₁ word₂ : String} {mid' : List Token}
    (hcondition : IsChain ts (⟨.thenWord, word₁⟩ :: mid))
    (hbody : ReadsBody mid (⟨.elseWord, word₂⟩ :: mid')) (hbody' : ReadsBody mid' rest) :
    IsChain (⟨.ifWord, s⟩ :: ts) rest := by
  obtain ⟨c, k, hread⟩ := hcondition.exists_read rfl
  obtain ⟨b, k₁, hb⟩ := hbody ⟨.thenWord, word₁⟩
  obtain ⟨b', k₂, hb'⟩ := hbody' ⟨.elseWord, word₂⟩
  refine plain (e := .conditional s c b (some b')) (p := ⟨k₂, rest⟩) rfl ?_
  rw [Expr.readOperand_ifWord, hread, onSuccess_done, expect_cons, onSuccess_done, hb,
    andThen_clean, Block.readAlternative_else, hb', andThen_clean, andThen_clean]

end IsChain

lemma IsSomeParameters.readSome {ts rest : List Token} {ps : List Parameter} (k : TokenKind)
    (h : IsSomeParameters ts ps rest) :
    Parameter.readSome k ts = done ps ⟨.rightParen, rest⟩ := by
  induction h generalizing k with
  | @last name s₁ s₂ s₃ rest type =>
    rw [Parameter.readSome_eq, Parameter.read_cons, onSuccess_done]
    rfl
  | @cons name s₁ s₂ s₃ ts ps rest type _ ih =>
    rw [Parameter.readSome_eq, Parameter.read_cons, onSuccess_done]
    dsimp only
    rw [if_pos rfl, ih, onSuccess_done]

lemma IsParameters.readList {ts rest : List Token} {ps : List Parameter}
    (h : IsParameters ts ps rest) : Parameter.readList ts = done ps ⟨.rightParen, rest⟩ := by
  cases h with
  | none => rfl
  | some h =>
    have hread := h.readSome .leftParen
    cases h with
    | last => exact hread
    | cons => exact hread

lemma IsChain.procedure {s name s' word : String} {ts mid rest : List Token}
    {params : List Parameter} (hparams : IsParameters ts params (⟨.beginWord, word⟩ :: mid))
    (hbody : ReadsBody mid rest) :
    IsChain (⟨.procedureWord, s⟩ :: ⟨.identifier, name⟩ :: ⟨.leftParen, s'⟩ :: ts) rest := by
  obtain ⟨b, k, hb⟩ := hbody ⟨.beginWord, word⟩
  refine plain (e := .procedure ⟨s, name, params⟩ b) (p := ⟨k, rest⟩) rfl ?_
  rw [Expr.readOperand_procedureWord, expect_cons, onSuccess_done, expect_cons, onSuccess_done,
    hparams.readList, onSuccess_done, expect_cons, onSuccess_done, hb, andThen_clean]

namespace IsRun

variable {ts mid mid' rest : List Token}

lemma word {kind : TokenKind} {literal : String} {s : Stmt} {p : Place}
    (hkind : kind ∈ Stmt.wordKinds) (hread : Stmt.read ⟨kind, literal⟩ ts = done s p)
    (hrun : IsRun p.unread rest) : IsRun (⟨kind, literal⟩ :: ts) rest :=
  .other (.inl hkind) hread hrun

lemma block {s : String} (hbody : ReadsBody ts mid) (hs : IsSemicolon mid mid')
    (hrun : IsRun mid' rest) (hrest : Stops rest) : IsRun (⟨.beginWord, s⟩ :: ts) rest := by
  obtain ⟨b, k, hb⟩ := hbody ⟨.beginWord, s⟩
  have hread : Stmt.read ⟨.beginWord, s⟩ ts =
      done (.block b) (Place.mk k mid).skipSemicolon := by
    rw [Stmt.read_beginWord, hb, andThen_clean, Stmt.finish]
  refine .word (by decide) hread ?_
  rw [hrun.skipSemicolon hrest hs]
  exact hrun

lemma giveBack {s : String} (hvalue : IsChain ts mid) (hs : IsSemicolon mid mid')
    (hrun : IsRun mid' rest) (hrest : Stops rest) : IsRun (⟨.returnWord, s⟩ :: ts) rest := by
  obtain ⟨c, c', hvalue, hcloses, hrun⟩ := hrun.close hrest hvalue hs
  obtain ⟨value, k, hv⟩ := hvalue.exists_read hcloses.lowest
  have hread : Stmt.read ⟨.returnWord, s⟩ ts =
      done (.giveBack s value) (Place.mk k c).skipSemicolon := by
    rw [Stmt.read_returnWord, hv, onSuccess_done, Stmt.finish]
  refine .word (by decide) hread ?_
  rw [hcloses.skipSemicolon]
  exact hrun

lemma assign {name s : String} (hvalue : IsChain ts mid) (hs : IsSemicolon mid mid')
    (hrun : IsRun mid' rest) (hrest : Stops rest) :
    IsRun (⟨.identifier, name⟩ :: ⟨.assign, s⟩ :: ts) rest := by
  obtain ⟨c, c', hvalue, hcloses, hrun⟩ := hrun.close hrest hvalue hs
  obtain ⟨value, k, hv⟩ := hvalue.exists_read hcloses.lowest
  have hread : Stmt.read ⟨.identifier, name⟩ (⟨.assign, s⟩ :: ts) =
      done (.assign name value) (Place.mk k c).skipSemicolon := by
    rw [Stmt.read_assignment, hv, onSuccess_done, Stmt.finish]
  refine .other (.inr rfl) hread ?_
  rw [hcloses.skipSemicolon]
  exact hrun

lemma whileLoop {s word : String} {mid₁ : List Token}
    (hcondition : IsChain ts (⟨.doWord, word⟩ :: mid₁)) (hbody : ReadsBody mid₁ mid)
    (hs : IsSemicolon mid mid') (hrun : IsRun mid' rest) (hrest : Stops rest) :
    IsRun (⟨.whileWord, s⟩ :: ts) rest := by
  obtain ⟨c, k, hc⟩ := hcondition.exists_read rfl
  obtain ⟨b, k', hb⟩ := hbody ⟨.doWord, word⟩
  have hread : Stmt.read ⟨.whileWord, s⟩ ts =
      done (.whileLoop s c b) (Place.mk k' mid).skipSemicolon := by
    rw [Stmt.read_whileWord, hc, onSuccess_done, expect_cons, onSuccess_done, hb,
      andThen_clean, Stmt.finish]
  refine .word (by decide) hread ?_
  rw [hrun.skipSemicolon hrest hs]
  exact hrun

lemma forLoop {s counter s₁ s₂ word : String} {mid₁ mid₂ : List Token}
    (hfirst : IsChain ts (⟨.toWord, s₂⟩ :: mid₁)) (hlast : IsChain mid₁ (⟨.doWord, word⟩ :: mid₂))
    (hbody : ReadsBody mid₂ mid) (hs : IsSemicolon mid mid') (hrun : IsRun mid' rest)
    (hrest : Stops rest) :
    IsRun (⟨.forWord, s⟩ :: ⟨.identifier, counter⟩ :: ⟨.assign, s₁⟩ :: ts) rest := by
  obtain ⟨first, k₁, hf⟩ := hfirst.exists_read rfl
  obtain ⟨last, k₂, hl⟩ := hlast.exists_read rfl
  obtain ⟨b, k₃, hb⟩ := hbody ⟨.doWord, word⟩
  have hread : Stmt.read ⟨.forWord, s⟩ (⟨.identifier, counter⟩ :: ⟨.assign, s₁⟩ :: ts) =
      done (.forLoop s counter first last b) (Place.mk k₃ mid).skipSemicolon := by
    rw [Stmt.read_forWord, expect_cons, onSuccess_done, expect_cons, onSuccess_done, hf,
      onSuccess_done, expect_cons, onSuccess_done, hl, onSuccess_done, expect_cons,
      onSuccess_done, hb, andThen_clean, Stmt.finish]
  refine .word (by decide) hread ?_
  rw [hrun.skipSemicolon hrest hs]
  exact hrun

lemma declare {s name s₁ s₂ s₃ s₄ : String} (constant : Bool) (type : NumericType)
    (hvalue : IsChain ts (⟨.semicolon, s₄⟩ :: mid)) (hrun : IsRun mid rest) :
    IsRun
      (⟨declarationWord constant, s⟩ :: ⟨.identifier, name⟩ :: ⟨.colon, s₁⟩ :: ⟨type.kind, s₂⟩ ::
        ⟨.assign, s₃⟩ :: ts) rest := by
  obtain ⟨value, k, hv⟩ := hvalue.exists_read rfl
  have hdeclaration : Stmt.readDeclaration ⟨declarationWord constant, s⟩ constant
      (⟨.identifier, name⟩ :: ⟨.colon, s₁⟩ :: ⟨type.kind, s₂⟩ :: ⟨.assign, s₃⟩ :: ts) =
        done (.declare s constant name type value) ⟨.semicolon, mid⟩ := by
    rw [Stmt.readDeclaration_eq, expect_cons, onSuccess_done, expect_cons, onSuccess_done,
      expectType_cons, onSuccess_done, expect_cons, onSuccess_done, hv, onSuccess_done,
      expect_cons, onSuccess_done]
  cases constant with
  | false =>
    exact .word (by decide) ((Stmt.read_varWord s _).trans hdeclaration) hrun
  | true =>
    exact .word (by decide) ((Stmt.read_constWord s _).trans hdeclaration) hrun

end IsRun

-- Induction on the derivation. An expression before `else` would be a branch that has ended.
mutual
lemma IsExpr.isChain {ts e rest} : IsExpr ts e rest → Token.headKind rest ≠ .elseWord →
    IsChain ts rest
  | .named, _ => .plain rfl (Expr.readOperand_identifier _ _)
  | .integer h, _ => .plain rfl (Expr.readOperand_integer_some _ h)
  | .real h, _ => .plain rfl (Expr.readOperand_real_some _ h)
  | .string, _ => .plain rfl (Expr.readOperand_text _ _)
  | .trueWord, _ => .plain rfl (Expr.readOperand_trueWord _ _)
  | .falseWord, _ => .plain rfl (Expr.readOperand_falseWord _ _)
  | .prefixed ht h, hrest => (h.isChain hrest).prefixed ht
  | .infixed hl ht hr, hrest =>
    (hl.isChain (by rintro hk; rw [Token.headKind] at hk; rw [hk] at ht; cases ht)).infixed ht
      (hr.isChain hrest)
  | .call hf hargs, _ => by
    obtain ⟨args, k, hread⟩ := hargs.exists_read
    exact (hf.isChain nofun).call hread
  | .grouped h, _ => (h.isChain nofun).grouped
  | .conditional hc hb, hrest => (hc.isChain nofun).conditional hb.readsBody hrest
  | .alternative hc hb hb', _ => (hc.isChain nofun).alternative hb.readsBody hb'.readsBody
  | .procedure hp hb, _ => .procedure hp hb.readsBody

lemma IsArguments.exists_read {ts args rest} : IsArguments ts args rest →
    ∃ es k, Expr.readArguments ts = done es ⟨k, rest⟩
  | .none => ⟨[], .rightParen, by rw [Expr.readArguments_cons]; rfl⟩
  | .some h => by
    obtain ⟨es, k, hread⟩ := h.exists_read
    exact ⟨es, k, Expr.readArguments_of_some hread⟩

lemma IsSomeArguments.exists_read {ts args rest} : IsSomeArguments ts args rest →
    ∃ es k, Expr.readSomeArguments ts = done es ⟨k, rest⟩
  | .last h => by
    obtain ⟨e, k, hread⟩ := (h.isChain nofun).exists_read rfl
    refine ⟨[e], .rightParen, ?_⟩
    rw [Expr.readSomeArguments_eq, hread, onSuccess_done]
    rfl
  | .cons h hs => by
    obtain ⟨e, k, hread⟩ := (h.isChain nofun).exists_read rfl
    obtain ⟨es, k', hreads⟩ := hs.exists_read
    refine ⟨e :: es, k', ?_⟩
    rw [Expr.readSomeArguments_eq, hread, onSuccess_done]
    dsimp only
    rw [if_pos rfl, hreads, onSuccess_done]

lemma IsStmt.isRun {ts s mid rest} : IsStmt ts s mid → IsRun mid rest → Stops rest →
    IsRun ts rest
  | .declare constant type h, hrun, _ => .declare constant type (h.isChain nofun) hrun
  | .block hb hs, hrun, hrest => .block hb.readsBody hs hrun hrest
  | .giveBack h hs, hrun, hrest =>
    .giveBack (h.isChain (hrun.headKind_ne_else hrest hs)) hs hrun hrest
  | .whileLoop hc hb hs, hrun, hrest => .whileLoop (hc.isChain nofun) hb.readsBody hs hrun hrest
  | .forLoop hf hl hb hs, hrun, hrest =>
    .forLoop (hf.isChain nofun) (hl.isChain nofun) hb.readsBody hs hrun hrest
  | .assign h hs, hrun, hrest =>
    .assign (h.isChain (hrun.headKind_ne_else hrest hs)) hs hrun hrest
  | .expression h hs, hrun, hrest => by
    have hchain := h.isChain (hrun.headKind_ne_else hrest hs)
    obtain ⟨c, c', hchain, hcloses, hrun⟩ := hrun.close hrest hchain hs
    exact .expression hchain hcloses hrun

lemma IsStmts.isRun {ts ss rest} : IsStmts ts ss rest → Stops rest → IsRun ts rest
  | .nil, _ => .nil
  | .cons h hs, hrest => h.isRun (hs.isRun hrest) hrest

lemma IsBody.readsBody {ts body rest} : IsBody ts body rest → ReadsBody ts rest
  | .closed h => .closed (h.isRun (.inr rfl))
  | .atEnd h => .atEnd (h.isRun (.inl rfl))
end

end MiniPascal.Grammar
