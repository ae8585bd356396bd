import MiniPascal.Program.Read
import MiniPascal.Proofs.Token.Spelling
/-! Readings without failures. -/

namespace MiniPascal

namespace Reading

variable {α β : Type}

lemma done_inj {a b : α} {p q : Place} : done a p = done b q ↔ a = b ∧ p = q := by
  simp [done]

lemma fail_ne_done {e : ParseError} {a : α} {p q : Place} : fail e p ≠ done a q := by
  simp [done, fail]

lemma andThen_eq_iff {x : Reading α} {f : α → Place → Reading β} {b : β} {q : Place} :
    x.andThen f = ⟨b, q, []⟩ ↔ ∃ a p, x = ⟨a, p, []⟩ ∧ f a p = ⟨b, q, []⟩ := by
  obtain ⟨a, p, failures⟩ := x
  constructor
  · intro h
    simp only [andThen, mk.injEq, List.append_eq_nil_iff] at h
    obtain ⟨hb, hq, rfl, hf⟩ := h
    refine ⟨a, p, rfl, ?_⟩
    rw [← hb, ← hq, ← hf]
  · rintro ⟨a', p', h, hf⟩
    cases h
    simp [andThen, hf]

lemma onSuccess_eq_done_iff {x : Attempt α} {f : α → Place → Attempt β} {b : β} {q : Place} :
    x.onSuccess f = done b q ↔ ∃ a p, x = done a p ∧ f a p = done b q := by
  rw [onSuccess, done, andThen_eq_iff]
  constructor
  · rintro ⟨result, p, hx, h⟩
    cases result with
    | error e => exact absurd h fail_ne_done
    | ok a => exact ⟨a, p, hx, h⟩
  · rintro ⟨a, p, hx, h⟩
    exact ⟨.ok a, p, hx, h⟩

@[simp]
lemma onSuccess_done {a : α} {p : Place} {f : α → Place → Attempt β} :
    (done a p).onSuccess f = f a p := by
  simp [done, onSuccess, andThen]

@[simp]
lemma andThen_clean {a : α} {p : Place} {f : α → Place → Reading β} :
    (Reading.mk a p []).andThen f = f a p := by
  simp [andThen]

lemma expect_eq_done_iff {kind last : TokenKind} {ts : List Token} {t : Token} {p : Place} :
    expect kind last ts = done t p ↔
      ∃ literal rest, t = ⟨kind, literal⟩ ∧ ts = ⟨kind, literal⟩ :: rest ∧ p = ⟨kind, rest⟩ := by
  constructor
  · intro h
    cases ts with
    | nil => exact absurd h fail_ne_done
    | cons u rest =>
      obtain ⟨k, literal⟩ := u
      by_cases hk : k = kind
      · subst hk
        rw [expect, if_pos rfl, done_inj] at h
        exact ⟨literal, rest, h.1.symm, rfl, h.2.symm⟩
      · rw [expect, if_neg hk] at h
        exact absurd h fail_ne_done
  · rintro ⟨literal, rest, rfl, rfl, rfl⟩
    exact if_pos rfl

@[simp]
lemma expect_cons (kind last : TokenKind) (literal : String) (rest : List Token) :
    expect kind last (⟨kind, literal⟩ :: rest) = done ⟨kind, literal⟩ ⟨kind, rest⟩ :=
  if_pos rfl

lemma expectType_eq_done_iff {last : TokenKind} {ts : List Token} {type : NumericType}
    {p : Place} :
    expectType last ts = done type p ↔
      ∃ literal rest, ts = ⟨type.kind, literal⟩ :: rest ∧ p = ⟨type.kind, rest⟩ := by
  constructor
  · intro h
    cases ts with
    | nil => exact absurd h fail_ne_done
    | cons u rest =>
      obtain ⟨k, literal⟩ := u
      rw [expectType] at h
      split at h
      · next hk =>
        obtain ⟨rfl, rfl⟩ := done_inj.1 h
        cases hk
        exact ⟨literal, rest, rfl, rfl⟩
      split at h
      · next hk =>
        obtain ⟨rfl, rfl⟩ := done_inj.1 h
        cases hk
        exact ⟨literal, rest, rfl, rfl⟩
      · exact absurd h fail_ne_done
  · rintro ⟨literal, rest, rfl, rfl⟩
    cases type <;> rfl

@[simp]
lemma expectType_cons (last : TokenKind) (type : NumericType) (literal : String)
    (rest : List Token) :
    expectType last (⟨type.kind, literal⟩ :: rest) = done type ⟨type.kind, rest⟩ := by
  cases type <;> rfl

end Reading

open Reading

lemma Parameter.read_cons (last : TokenKind) (name s₁ s₂ : String) (type : NumericType)
    (rest : List Token) :
    Parameter.read last (⟨.identifier, name⟩ :: ⟨.colon, s₁⟩ :: ⟨type.kind, s₂⟩ :: rest) =
      done ⟨name, type⟩ ⟨type.kind, rest⟩ := by
  rw [Parameter.read_eq, expect_cons, onSuccess_done, expect_cons, onSuccess_done,
    expectType_cons, onSuccess_done]

lemma Parameter.read_eq_done_iff {last : TokenKind} {ts : List Token} {q : Parameter}
    {p : Place} :
    Parameter.read last ts = done q p ↔
      ∃ s₁ s₂ rest, ts = ⟨.identifier, q.name⟩ :: ⟨.colon, s₁⟩ :: ⟨q.type.kind, s₂⟩ :: rest ∧
        p = ⟨q.type.kind, rest⟩ := by
  constructor
  · intro h
    rw [Parameter.read_eq, onSuccess_eq_done_iff] at h
    obtain ⟨name, p₁, hname, h⟩ := h
    obtain ⟨s₁, ts₁, rfl, rfl, rfl⟩ := expect_eq_done_iff.1 hname
    rw [onSuccess_eq_done_iff] at h
    obtain ⟨colon, p₂, hcolon, h⟩ := h
    obtain ⟨s₂, ts₂, rfl, rfl, rfl⟩ := expect_eq_done_iff.1 hcolon
    rw [onSuccess_eq_done_iff] at h
    obtain ⟨type, p₃, htype, h⟩ := h
    obtain ⟨s₃, ts₃, rfl, rfl⟩ := expectType_eq_done_iff.1 htype
    obtain ⟨rfl, rfl⟩ := done_inj.1 h
    exact ⟨s₂, s₃, ts₃, rfl, rfl⟩
  · rintro ⟨s₁, s₂, rest, rfl, rfl⟩
    exact Parameter.read_cons last q.name s₁ s₂ q.type rest

lemma InfixOperator.lowest_lt_precedence (operator : InfixOperator) :
    .lowest < operator.precedence := by
  cases operator <;> decide

namespace Precedence

lemma ofKind_infix {kind : TokenKind} {operator : InfixOperator}
    (h : InfixOperator.ofKind? kind = some operator) : ofKind kind = operator.precedence := by
  cases kind <;> cases h <;> rfl

lemma eq_leftParen {min : Precedence} {t : Token} (h : min < ofKind t.kind)
    (hnone : InfixOperator.ofKind? t.kind = none) : ∃ literal, t = ⟨.leftParen, literal⟩ := by
  obtain ⟨kind, literal⟩ := t
  by_cases hkind : kind = .leftParen
  · subst hkind
    exact ⟨literal, rfl⟩
  · have hlowest : ofKind kind = .lowest := by
      unfold ofKind
      split
      · contradiction
      · simp only [hnone, Option.map_none, Option.getD_none]
    rw [hlowest] at h
    exact absurd h (Nat.not_lt_zero _)

end Precedence

namespace Token

lemma exists_cons_of_headKind {kind : TokenKind} {ts : List Token} (h : headKind ts = kind)
    (hkind : kind ≠ .endOfInput) : ∃ literal rest, ts = ⟨kind, literal⟩ :: rest := by
  cases ts with
  | nil => exact absurd h.symm hkind
  | cons t rest =>
    obtain ⟨k, literal⟩ := t
    cases h
    exact ⟨literal, rest, rfl⟩

end Token

namespace Stmt

lemma length_read_le (t : Token) (ts : List Token) :
    (read t ts).place.unread.length ≤ ts.length :=
  (Within.statement t ts).bound

lemma readMany_cons_eq_iff {inBlock : Bool} {t : Token} {rest : List Token} {ss : List Stmt}
    {p : Place} (ht : Within.isLast inBlock t.kind = false) :
    readMany inBlock (t :: rest) = ⟨ss, p, []⟩ ↔
      ∃ s q others, read t rest = done s q ∧ readMany inBlock q.unread = ⟨others, p, []⟩ ∧
        ss = s :: others := by
  rw [readMany_cons inBlock t rest ht, andThen_eq_iff]
  constructor
  · rintro ⟨result, q, hread, h⟩
    cases result with
    | error e => simp at h
    | ok s =>
      obtain ⟨hss, hp, hclean⟩ := Reading.mk.inj h
      refine ⟨s, q, (readMany inBlock q.unread).value, hread, ?_, hss.symm⟩
      rw [← hp, ← hclean]
  · rintro ⟨s, q, others, hread, hothers, rfl⟩
    refine ⟨.ok s, q, hread, ?_⟩
    dsimp only
    rw [hothers]

end Stmt

namespace Expr

lemma length_read_le (min : Precedence) (ts : List Token) :
    (read min ts).place.unread.length ≤ ts.length - 1 :=
  (Within.expression min ts).bound

lemma length_readOperand_le (t : Token) (ts : List Token) :
    (readOperand t ts).place.unread.length ≤ ts.length :=
  (Within.operand t ts).bound

lemma length_readArguments_le (ts : List Token) :
    (readArguments ts).place.unread.length ≤ ts.length :=
  (Within.arguments ts).bound

lemma read_eq_done_length {min : Precedence} {ts : List Token} {e : Expr} {p : Place}
    (h : read min ts = done e p) : p.unread.length < ts.length := by
  have hle := length_read_le min ts
  rw [h] at hle
  cases ts with
  | nil => exact absurd ((read_nil min).symm.trans h) fail_ne_done
  | cons t rest => exact Nat.lt_succ_of_le hle

lemma readOperand_integer_some {literal : String} {value : Int64} (ts : List Token)
    (h : Decimal.integer? literal = some value) :
    readOperand ⟨.integer, literal⟩ ts = done (.integer literal value) ⟨.integer, ts⟩ := by
  rw [readOperand_integer, h]

lemma readOperand_real_some {literal : String} {value : Float} (ts : List Token)
    (h : Decimal.real? literal = some value) :
    readOperand ⟨.real, literal⟩ ts = done (.real literal value) ⟨.real, ts⟩ := by
  rw [readOperand_real, h]

lemma readOperand_prefix {t : Token} {ts : List Token} {operator : PrefixOperator} {r : Expr}
    {p : Place} (ht : PrefixOperator.ofKind? t.kind = some operator)
    (hr : read .prefixOp ts = done r p) :
    readOperand t ts = done (.prefixed t.literal operator r) p := by
  obtain ⟨kind, literal⟩ := t
  cases kind <;> cases ht
  · rw [readOperand_notWord, hr, onSuccess_done]
  · rw [readOperand_minus, hr, onSuccess_done]

lemma mem_operandKinds_of_read {t : Token} {ts : List Token} {e : Expr} {p : Place}
    (h : readOperand t ts = done e p) : t.kind ∈ operandKinds := by
  refine Decidable.byContradiction fun ht => ?_
  rw [readOperand_other ts t ht] at h
  exact fail_ne_done h

lemma headKind_of_read {t : Token} {ts : List Token} {min : Precedence} {e : Expr} {p : Place}
    (h : read min (t :: ts) = done e p) : t.kind ∈ operandKinds := by
  rw [read_cons, onSuccess_eq_done_iff] at h
  obtain ⟨left, q, hoperand, -⟩ := h
  exact mem_operandKinds_of_read hoperand

lemma not_mem_wordKinds {kind : TokenKind} (h : kind ∈ operandKinds) : kind ∉ Stmt.wordKinds := by
  revert h
  cases kind <;> decide

lemma headKind_ne_assign {t : Token} {ts : List Token} {min : Precedence} {e : Expr} {p : Place}
    (h : read min (t :: ts) = done e p) (hp : Token.headKind p.unread ≠ .assign)
    (ht : t.kind = .identifier) : Token.headKind ts ≠ .assign := by
  intro hts
  obtain ⟨sign, rest, rfl⟩ := Token.exists_cons_of_headKind hts (by decide)
  obtain ⟨kind, name⟩ := t
  cases ht
  rw [read_cons, readOperand_identifier, onSuccess_done,
    readOperators_stop _ _ _ _ _ (Nat.not_lt_zero _), done_inj] at h
  obtain ⟨-, rfl⟩ := h
  exact hp rfl

lemma operandKinds_binding {kind : TokenKind} (h : kind ∈ operandKinds)
    (hbinds : Precedence.ofKind kind ≠ .lowest) : kind = .minus ∨ kind = .leftParen := by
  simp only [operandKinds, List.mem_cons, List.not_mem_nil, or_false] at h
  rcases h with rfl | rfl | rfl | rfl | rfl | rfl | rfl | rfl | rfl | rfl | rfl
  all_goals first | exact absurd rfl hbinds | exact .inl rfl | exact .inr rfl

lemma readArguments_of_some {ts : List Token} {args : List Expr} {p : Place}
    (h : readSomeArguments ts = done args p) : readArguments ts = done args p := by
  cases ts with
  | nil => rw [readArguments_nil, h]
  | cons t ts =>
    have ht : t.kind ≠ .rightParen := by
      intro ht
      rw [readSomeArguments_eq, onSuccess_eq_done_iff] at h
      obtain ⟨first, q, hread, -⟩ := h
      rw [read_cons, readOperand_other ts t (by simp [ht, operandKinds])] at hread
      exact fail_ne_done hread
    rw [readArguments_cons, if_neg ht, h]

lemma readArguments_of_group {literal : String} {ts : List Token} {e : Expr} {p : Place}
    (h : readOperand ⟨.leftParen, literal⟩ ts = done e p) : readArguments ts = done [e] p := by
  rw [readOperand_leftParen, onSuccess_eq_done_iff] at h
  obtain ⟨inner, ⟨k, unread⟩, hinner, h⟩ := h
  rw [onSuccess_eq_done_iff] at h
  obtain ⟨close, q, hclose, h⟩ := h
  obtain ⟨s, rest, rfl, rfl, rfl⟩ := expect_eq_done_iff.1 hclose
  obtain ⟨rfl, rfl⟩ := done_inj.1 h
  refine readArguments_of_some ?_
  rw [readSomeArguments_eq, hinner, onSuccess_done]
  rfl

def Opens (min : Precedence) (ts : List Token) (e : Expr) (p : Place) : Prop :=
  read min ts = readOperators min e p

variable {min : Precedence} {ts mid : List Token} {e l r f : Expr} {p : Place}

lemma Opens.operand {t : Token} (h : readOperand t ts = done e p) : Opens min (t :: ts) e p := by
  rw [Opens, read_cons, h, onSuccess_done]

lemma Opens.infixed {k : TokenKind} {t : Token} {operator : InfixOperator}
    (hl : Opens min ts l ⟨k, t :: mid⟩) (ht : InfixOperator.ofKind? t.kind = some operator)
    (hmin : min < operator.precedence) (hr : read operator.precedence mid = done r p) :
    Opens min ts (.infixed t.literal operator l r) p := by
  rw [Opens, hl, readOperators_infix min l k t mid operator ht hmin, hr, onSuccess_done]

lemma Opens.call {k : TokenKind} {literal : String} {args : List Expr}
    (hf : Opens min ts f ⟨k, ⟨.leftParen, literal⟩ :: mid⟩) (hmin : min < .call)
    (hargs : readArguments mid = done args p) : Opens min ts (.call literal f args) p := by
  rw [Opens, hf, readOperators_call min f k literal mid hmin, hargs, onSuccess_done]

lemma Opens.read_eq (h : Opens min ts e p)
    (hstop : ¬ min < Precedence.ofKind (Token.headKind p.unread)) : read min ts = done e p := by
  obtain ⟨k, _ | ⟨t, rest⟩⟩ := p
  · rw [h, readOperators_nil]
  · rw [h, readOperators_stop min e k t rest hstop]

end Expr

lemma Stmt.read_of_expr {t : Token} {ts : List Token} {e : Expr} {p : Place}
    (h : Expr.read .lowest (t :: ts) = done e p) (hp : Token.headKind p.unread ≠ .assign) :
    read t ts = finish (.expression t.literal e) p := by
  have hword := Expr.not_mem_wordKinds (Expr.headKind_of_read h)
  rw [read_expression ts t hword (Expr.headKind_ne_assign h hp), readExpression_eq, h,
    onSuccess_done]

end MiniPascal
