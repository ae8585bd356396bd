import MiniPascal.Proofs.Reading.Composed

namespace MiniPascal

open Token

namespace Reading

variable {α β : Type} {final : Prop} {δ : ℤ} {n : ℕ}

def acceptKind (kind : TokenKind) (f : Token → Place → Attempt α) (t : Token) :
    Option (Place → Attempt α) :=
  if t.kind = kind then some (f t) else none

lemma acceptKind_eq_some {kind : TokenKind} {f : Token → Place → Attempt α} {t : Token}
    {g : Place → Attempt α} (h : acceptKind kind f t = some g) : t.kind = kind ∧ g = f t := by
  rw [acceptKind] at h
  split at h
  · next hkind => exact ⟨hkind, (Option.some.inj h).symm⟩
  · cases h

lemma peek_nil (accept : Token → Option (Place → Attempt α)) (leave : Place → Attempt α)
    (last : TokenKind) : peek accept leave ⟨last, []⟩ = leave ⟨last, []⟩ := rfl

lemma peek_some {accept : Token → Option (Place → Attempt α)} {leave f : Place → Attempt α}
    {t : Token} (h : accept t = some f) (last : TokenKind) (rest : List Token) :
    peek accept leave ⟨last, t :: rest⟩ = f ⟨t.kind, rest⟩ := by
  simp only [peek, h]

lemma peek_none {accept : Token → Option (Place → Attempt α)} {leave : Place → Attempt α}
    {t : Token} (h : accept t = none) (last : TokenKind) (rest : List Token) :
    peek accept leave ⟨last, t :: rest⟩ = leave ⟨last, t :: rest⟩ := by
  simp only [peek, h]

lemma expect_eq_peek (kind : TokenKind) (p : Place) : expect kind p.last p.unread =
    peek (acceptKind kind done) (refuse (.unexpected kind)) p := by
  obtain ⟨last, _ | ⟨t, rest⟩⟩ := p
  · rfl
  · simp only [expect, peek, acceptKind]
    split
    · next hkind => rw [hkind]
    · rfl

lemma onSuccess_expect_congr {kind last : TokenKind} {ts : List Token}
    {f g : Token → Place → Attempt α} (h : ∀ t rest, f t ⟨kind, rest⟩ = g t ⟨kind, rest⟩) :
    (expect kind last ts).onSuccess f = (expect kind last ts).onSuccess g := by
  cases ts with
  | nil => rfl
  | cons t rest =>
    rw [expect]
    split
    · rw [onSuccess_done, onSuccess_done, h]
    · rfl

lemma accepted_either {kind other : TokenKind} {f f' g : Place → Attempt α} {t : Token}
    (h : (if t.kind = kind then some f else if t.kind = other then some f' else none) = some g) :
    t.kind = kind ∧ g = f ∨ t.kind = other ∧ g = f' := by
  split at h
  · next hkind => exact .inl ⟨hkind, (Option.some.inj h).symm⟩
  split at h
  · next hkind => exact .inr ⟨hkind, (Option.some.inj h).symm⟩
  · cases h

def acceptType (t : Token) : Option (Place → Attempt NumericType) :=
  if t.kind = .integerWord then some fun p => .done .integer p
  else if t.kind = .realWord then some fun p => .done .real p
  else none

lemma acceptType_eq_some {t : Token} {g : Place → Attempt NumericType}
    (h : acceptType t = some g) :
    t.kind = .integerWord ∧ g = (fun p => .done .integer p) ∨
      t.kind = .realWord ∧ g = fun p => .done .real p :=
  accepted_either h

lemma expectType_eq_peek (p : Place) :
    expectType p.last p.unread = peek acceptType (refuse .expectedType) p := by
  obtain ⟨last, _ | ⟨t, rest⟩⟩ := p
  · rfl
  · simp only [expectType, peek, acceptType]
    split
    · rfl
    split <;> rfl

def acceptListed (more : Place → Attempt (List α)) (first : α) (t : Token) :
    Option (Place → Attempt (List α)) :=
  if t.kind = .comma then some fun p => (more p).onSuccess fun others p => .done (first :: others) p
  else if t.kind = .rightParen then some fun p => .done [first] p
  else none

lemma acceptListed_eq_some {more : Place → Attempt (List α)} {first : α} {t : Token}
    {g : Place → Attempt (List α)} (h : acceptListed more first t = some g) :
    t.kind = .comma ∧
        g = (fun p => (more p).onSuccess fun others p => .done (first :: others) p) ∨
      t.kind = .rightParen ∧ g = fun p => .done [first] p :=
  accepted_either h

lemma listed_eq_peek {read : List Token → Attempt (List α)} {more : Place → Attempt (List α)}
    {first : α} (hread : ∀ rest, read rest = more ⟨.comma, rest⟩) (p : Place) :
    (match p.unread with
      | [] => .fail (.unexpected .rightParen .endOfInput) p
      | t :: rest =>
        if t.kind = .comma then
          (read rest).onSuccess fun others p => .done (first :: others) p
        else if t.kind = .rightParen then .done [first] ⟨.rightParen, rest⟩
        else .fail (.unexpected .rightParen t.kind) p) =
      peek (acceptListed more first) (refuse (.unexpected .rightParen)) p := by
  obtain ⟨last, _ | ⟨t, rest⟩⟩ := p
  · rfl
  · simp only [peek, acceptListed]
    split
    · next hkind => rw [hread, hkind]
    split
    · next hkind => rw [hkind]
    · rfl

def IsSign (kind : TokenKind) : Prop := kind ∉ stops ∧ kind ∉ openers ∧ kind ≠ .semicolon

instance (kind : TokenKind) : Decidable (IsSign kind) := inferInstanceAs (Decidable (_ ∧ _))

lemma openings_of_not_mem {t : Token} (h : t.kind ∉ openers) : openings [t] = 0 := by
  simp [openings, h]

namespace Composed

variable {f : Token → Place → Attempt β}

lemma unexpected (kind : TokenKind) :
    Composed final δ n (Reading.refuse (α := α) (.unexpected kind)) :=
  .refuse _ (fun _ => rfl) (fun _ _ => rfl) nofun

lemma expect {kind : TokenKind} (hstops : kind ∉ stops) (hne : kind ≠ .semicolon)
    (hδ : ∀ s, (openings [⟨kind, s⟩] : ℤ) = δ) :
    Composed False δ n fun p => Reading.expect kind p.last p.unread := by
  refine congr (expect_eq_peek kind) (.peek ?_ ?_ ?_ (unexpected kind))
  · intro t f hf
    rwa [(acceptKind_eq_some hf).1]
  · intro t f hf hsemicolon
    exact absurd ((acceptKind_eq_some hf).1.symm.trans hsemicolon) hne
  · rintro m - ⟨kind', s⟩ f hf -
    obtain ⟨rfl, rfl⟩ := acceptKind_eq_some hf
    rw [hδ s, Int.sub_self]
    exact .done _

lemma sign {kind : TokenKind} (hkind : IsSign kind) (hf : ∀ t, Composed final 0 n (f t)) :
    Composed final 0 n fun p => (Reading.expect kind p.last p.unread).onSuccess f := by
  refine .next (expect hkind.1 hkind.2.2 fun s => ?_) hf
  exact_mod_cast openings_of_not_mem hkind.2.1

lemma opener {kind : TokenKind} (hkind : kind ∈ openers) (hf : ∀ t, Composed final (-1) n (f t)) :
    Composed final 0 n fun p => (Reading.expect kind p.last p.unread).onSuccess f := by
  have hsign : ∀ kind ∈ openers, kind ∉ stops ∧ kind ≠ .semicolon := by decide
  refine .onSuccess (expect (hsign kind hkind).1 (hsign kind hkind).2 fun s => ?_) hf
    (by decide) (Int.add_right_neg 1)
  exact_mod_cast openings_of_opener hkind

lemma semicolon {leave : Place → Attempt β} (b : β) (hleave : Composed True 0 n leave) :
    Composed True 0 n (Reading.peek (acceptKind .semicolon fun _ p => .done b p) leave) := by
  refine .peek ?_ ?_ ?_ hleave
  · intro t f hf
    rw [(acceptKind_eq_some hf).1]
    decide
  · intro t f hf _
    exact ⟨trivial, rfl, b, (acceptKind_eq_some hf).2⟩
  · intro m _ t f hf hne
    exact absurd (acceptKind_eq_some hf).1 hne

lemma peekSign {accept : Token → Option (Place → Attempt α)} {leave : Place → Attempt α}
    (hsign : ∀ t f, accept t = some f → IsSign t.kind)
    (haccept : ∀ m < n, ∀ t f, accept t = some f → Composed final δ m f)
    (hleave : Composed final δ n leave) : Composed final δ n (Reading.peek accept leave) := by
  refine .peek (fun t f hf => (hsign t f hf).1) (fun t f hf h => ?_) (fun m hm t f hf _ => ?_)
    hleave
  · exact absurd h (hsign t f hf).2.2
  · rw [openings_of_not_mem (hsign t f hf).2.1, Nat.cast_zero, Int.sub_zero]
    exact haccept m hm t f hf

lemma expectType : Composed False 0 n fun p => Reading.expectType p.last p.unread := by
  refine congr expectType_eq_peek (peekSign ?_ ?_ (.refuse _ (fun _ => rfl) (fun _ _ => rfl) nofun))
  · intro t f hf
    rcases acceptType_eq_some hf with ⟨h, -⟩ | ⟨h, -⟩ <;> rw [h] <;> decide
  · intro m _ t f hf
    rcases acceptType_eq_some hf with ⟨-, rfl⟩ | ⟨-, rfl⟩
    · exact .done _
    · exact .done _

lemma listed {read : List Token → Attempt (List α)} {more : Place → Attempt (List α)} {first : α}
    (hread : ∀ rest, read rest = more ⟨.comma, rest⟩)
    (hmore : ∀ m < n, Composed False 0 m more) :
    Composed False 0 n fun p =>
      match p.unread with
      | [] => .fail (.unexpected .rightParen .endOfInput) p
      | t :: rest =>
        if t.kind = .comma then
          (read rest).onSuccess fun others p => .done (first :: others) p
        else if t.kind = .rightParen then .done [first] ⟨.rightParen, rest⟩
        else .fail (.unexpected .rightParen t.kind) p := by
  refine congr (listed_eq_peek hread) (peekSign ?_ ?_ (unexpected .rightParen))
  · intro t f hf
    rcases acceptListed_eq_some hf with ⟨h, -⟩ | ⟨h, -⟩ <;> rw [h] <;> decide
  · intro m hm t f hf
    rcases acceptListed_eq_some hf with ⟨-, rfl⟩ | ⟨-, rfl⟩
    · exact (hmore m hm).next fun others => .done _
    · exact .done _

end Composed

end Reading

open Reading

namespace Parameter

variable {n : ℕ}

lemma composed_read : Composed False 0 n fun p => read p.last p.unread := by
  apply Composed.congr fun p => read_eq p.last p.unread
  refine .sign (by decide) fun name => ?_
  refine .sign (by decide) fun _ => ?_
  exact .next .expectType fun type => .done _

lemma composed_readSome : Composed False 0 n fun p => readSome p.last p.unread := by
  induction n using Nat.strongRecOn with
  | ind n ih =>
    apply Composed.congr fun p => readSome_eq p.last p.unread
    exact .next composed_read fun first => .listed (fun _ => rfl) ih

def reader : Place → Attempt (List Parameter) :=
  peek (acceptKind .rightParen fun _ => done []) fun p => readSome p.last p.unread

lemma readList_eq (rest : List Token) : readList rest = reader ⟨.leftParen, rest⟩ := by
  cases rest with
  | nil => exact readList_nil
  | cons t rest =>
    rw [readList_cons, reader]
    split
    · next h => rw [peek_some (if_pos h), h]
    · next h => rw [peek_none (if_neg h)]

lemma composed_reader : Composed False 0 n reader := by
  refine .peekSign ?_ ?_ composed_readSome
  · intro t f hf
    rw [(acceptKind_eq_some hf).1]
    decide
  · intro m _ t f hf
    rw [(acceptKind_eq_some hf).2]
    exact .done _

lemma composed_group {final : Prop} {α : Type} {f : List Parameter → Place → Attempt α}
    (hf : ∀ params, Composed final 0 n (f params)) :
    Composed final 0 n fun p => (expect .leftParen p.last p.unread).onSuccess fun _ p =>
      (readList p.unread).onSuccess f := by
  refine .congr (fun p => onSuccess_expect_congr fun t rest => ?_)
    (.sign (by decide) fun _ => .next composed_reader hf)
  rw [readList_eq]

end Parameter

namespace Stmt

variable {n : ℕ}

lemma composed_finish (s : Stmt) : Composed True 0 n (finish s) := by
  refine .congr (fun p => ?_) (.semicolon s (.done s))
  obtain ⟨last, _ | ⟨t, rest⟩⟩ := p
  · rfl
  · simp only [finish, Place.skipSemicolon, peek, acceptKind]
    split
    · next h => rw [h]
    · rfl

lemma composed_semicolon (s : Stmt) : Composed True 0 n fun p =>
    (Reading.expect .semicolon p.last p.unread).onSuccess fun _ p => .done s p := by
  refine .congr (fun p => ?_) (.semicolon s (.unexpected .semicolon))
  obtain ⟨last, _ | ⟨t, rest⟩⟩ := p
  · rfl
  · simp only [expect, peek, acceptKind]
    split
    · next h => rw [h, onSuccess_done]
    · rfl

end Stmt

structure Parts (n : ℕ) : Prop where
  expr : ∀ min, Composed False 0 n fun p => Expr.read min p.unread
  stmts : Composed False (-1) n stmts

namespace Parts

variable {n : ℕ} (ih : Parts n)

include ih

lemma mono {m : ℕ} (h : m ≤ n) : Parts m := ⟨fun min => (ih.expr min).mono h, ih.stmts.mono h⟩

lemma block (opener : Token) :
    Composed False (-1) n fun p => (Block.read opener p.unread).sure := by
  simp only [Block.read_eq]
  exact .map (Block.mk opener) ih.stmts

lemma alternative : Composed False 0 n fun p => (Block.readAlternative p.last p.unread).sure := by
  refine .congr (h := peek (acceptKind .elseWord fun t p =>
    ((Block.read t p.unread).andThen fun block p => ⟨some block, p, []⟩).sure) (done none))
    (fun p => ?_) (.peek ?_ ?_ ?_ (.done none))
  · obtain ⟨last, _ | ⟨⟨kind, s⟩, rest⟩⟩ := p
    · rw [Block.readAlternative_nil]
      rfl
    · by_cases hkind : kind = .elseWord
      · subst hkind
        rw [Block.readAlternative_else, peek_some (if_pos rfl)]
      · rw [Block.readAlternative_none last _ rest hkind, peek_none (if_neg hkind)]
        rfl
  · intro t f hf
    rw [(acceptKind_eq_some hf).1]
    decide
  · intro t f hf hsemicolon
    exact absurd ((acceptKind_eq_some hf).1.symm.trans hsemicolon) (by decide)
  · rintro m hm ⟨kind, s⟩ f hf -
    obtain ⟨rfl, rfl⟩ := acceptKind_eq_some hf
    rw [openings_of_opener (by decide)]
    exact .map some ((ih.mono hm.le).block _)

lemma someArguments : Composed False 0 n fun p => Expr.readSomeArguments p.unread := by
  induction n using Nat.strongRecOn with
  | ind n ihn =>
    apply Composed.congr fun p => Expr.readSomeArguments_eq p.unread
    have hmore : ∀ m < n, Composed False 0 m fun p => Expr.readSomeArguments p.unread :=
      fun m hm => ihn m hm (ih.mono hm.le)
    exact .next (ih.expr _) fun first => .listed (fun _ => rfl) hmore

lemma arguments : Composed False 0 n fun p => Expr.readArguments p.unread := by
  refine .congr (h := peek (acceptKind .rightParen fun _ => done [])
    fun p => Expr.readSomeArguments p.unread) (fun p => ?_) (.peekSign ?_ ?_ ih.someArguments)
  · obtain ⟨last, _ | ⟨t, rest⟩⟩ := p
    · exact Expr.readArguments_nil
    · dsimp only
      rw [Expr.readArguments_cons]
      split
      · next h => rw [peek_some (if_pos h), h]
      · next h => rw [peek_none (if_neg h)]
  · intro t f hf
    rw [(acceptKind_eq_some hf).1]
    decide
  · intro m _ t f hf
    rw [(acceptKind_eq_some hf).2]
    exact .done _

end Parts

namespace Expr

def acceptOperator (min : Precedence) (left : Expr) (t : Token) : Option (Place → Attempt Expr) :=
  if min < Precedence.ofKind t.kind then
    match InfixOperator.ofKind? t.kind with
    | some operator => some fun p =>
      (read operator.precedence p.unread).onSuccess fun right p =>
      readOperators min (.infixed t.literal operator left right) p
    | none => some fun p =>
      (readArguments p.unread).onSuccess fun args p =>
      readOperators min (.call t.literal left args) p
  else none

variable {min : Precedence} {left : Expr} {t : Token} {f : Place → Attempt Expr}

lemma acceptOperator_eq_some (h : acceptOperator min left t = some f) :
    (∃ operator, InfixOperator.ofKind? t.kind = some operator ∧ f = fun p =>
        (read operator.precedence p.unread).onSuccess fun right p =>
        readOperators min (.infixed t.literal operator left right) p) ∨
      t.kind = .leftParen ∧ f = fun p =>
        (readArguments p.unread).onSuccess fun args p =>
        readOperators min (.call t.literal left args) p := by
  rw [acceptOperator] at h
  split at h
  · next hmin =>
    cases hoperator : InfixOperator.ofKind? t.kind with
    | some operator =>
      rw [hoperator] at h
      exact .inl ⟨operator, rfl, (Option.some.inj h).symm⟩
    | none =>
      obtain ⟨literal, rfl⟩ := Precedence.eq_leftParen hmin hoperator
      exact .inr ⟨rfl, (Option.some.inj h).symm⟩
  · cases h

lemma readOperators_eq_peek (min : Precedence) (left : Expr) (p : Place) :
    readOperators min left p = peek (acceptOperator min left) (done left) p := by
  obtain ⟨last, _ | ⟨t, rest⟩⟩ := p
  · exact readOperators_nil min left last
  · by_cases hmin : min < Precedence.ofKind t.kind
    · cases hoperator : InfixOperator.ofKind? t.kind with
      | some operator =>
        have haccept : acceptOperator min left t = some fun p =>
            (read operator.precedence p.unread).onSuccess fun right p =>
            readOperators min (.infixed t.literal operator left right) p := by
          rw [acceptOperator, if_pos hmin, hoperator]
        rw [peek_some haccept]
        rw [Precedence.ofKind_infix hoperator] at hmin
        exact readOperators_infix min left last t rest operator hoperator hmin
      | none =>
        obtain ⟨literal, rfl⟩ := Precedence.eq_leftParen hmin hoperator
        rw [peek_some (if_pos hmin)]
        exact readOperators_call min left last literal rest hmin
    · rw [peek_none (if_neg hmin)]
      exact readOperators_stop min left last t rest hmin

end Expr

lemma InfixOperator.isSign_kind {kind : TokenKind} {operator : InfixOperator}
    (h : ofKind? kind = some operator) : IsSign kind := by
  cases kind <;> cases h <;> decide

namespace Parts

variable {n : ℕ} (ih : Parts n)

include ih

lemma operators (min : Precedence) (left : Expr) :
    Composed False 0 n (Expr.readOperators min left) := by
  induction n using Nat.strongRecOn generalizing left with
  | ind n ihn =>
    refine .congr (Expr.readOperators_eq_peek min left) (.peekSign ?_ ?_ (.done left))
    · intro t f hf
      rcases Expr.acceptOperator_eq_some hf with ⟨operator, hoperator, -⟩ | ⟨hkind, -⟩
      · exact InfixOperator.isSign_kind hoperator
      · rw [hkind]
        decide
    · intro m hm t f hf
      have hsmaller := ih.mono hm.le
      rcases Expr.acceptOperator_eq_some hf with ⟨operator, -, rfl⟩ | ⟨-, rfl⟩
      · exact .next (hsmaller.expr _) fun right => ihn m hm hsmaller _
      · exact .next hsmaller.arguments fun args => ihn m hm hsmaller _

lemma operand {t : Token} (ht : t.kind ∈ Expr.operandKinds) :
    ∃ g, Composed False 0 n g ∧ ∀ ts, Expr.readOperand t ts = g ⟨t.kind, ts⟩ := by
  obtain ⟨kind, literal⟩ := t
  simp only [Expr.operandKinds, List.mem_cons, List.not_mem_nil, or_false] at ht
  rcases ht with rfl | rfl | rfl | rfl | rfl | rfl | rfl | rfl | rfl | rfl | rfl
  · exact ⟨_, .done _, Expr.readOperand_identifier literal⟩
  · cases hvalue : Decimal.integer? literal with
    | none =>
      refine ⟨_, .fail (.badInteger literal) (by decide : TokenKind.integer ≠ _), fun ts => ?_⟩
      rw [Expr.readOperand_integer, hvalue]
    | some value => exact ⟨_, .done _, fun ts => Expr.readOperand_integer_some ts hvalue⟩
  · cases hvalue : Decimal.real? literal with
    | none =>
      refine ⟨_, .fail (.badReal literal) (by decide : TokenKind.real ≠ _), fun ts => ?_⟩
      rw [Expr.readOperand_real, hvalue]
    | some value => exact ⟨_, .done _, fun ts => Expr.readOperand_real_some ts hvalue⟩
  · exact ⟨_, .done _, Expr.readOperand_text literal⟩
  · exact ⟨_, .done _, Expr.readOperand_trueWord literal⟩
  · exact ⟨_, .done _, Expr.readOperand_falseWord literal⟩
  · exact ⟨_, .next (ih.expr _) fun right => .done _, Expr.readOperand_minus literal⟩
  · exact ⟨_, .next (ih.expr _) fun right => .done _, Expr.readOperand_notWord literal⟩
  · refine ⟨_, .next (ih.expr _) fun inner => ?_, Expr.readOperand_leftParen literal⟩
    exact .sign (by decide) fun _ => .done _
  · refine ⟨_, .next (ih.expr _) fun condition => ?_, Expr.readOperand_ifWord literal⟩
    refine .opener (by decide) fun opener => ?_
    refine .andThen (ih.block opener) fun consequence => ?_
    exact .andThen ih.alternative fun alternative => .done _
  · have hname : IsSign .identifier := by decide
    refine ⟨_, .sign hname fun name => ?_, Expr.readOperand_procedureWord literal⟩
    refine Parameter.composed_group fun params => ?_
    refine .opener (by decide) fun opener => ?_
    exact .andThen (ih.block opener) fun body => .done _

lemma declaration (constant : Bool) (t : Token) : ∃ g, Composed True 0 n g ∧
    ∀ ts, Stmt.readDeclaration t constant ts = g ⟨t.kind, ts⟩ := by
  have hname : IsSign .identifier := by decide
  refine ⟨_, .sign hname fun name => ?_, fun ts => Stmt.readDeclaration_eq ts t constant⟩
  refine .sign (by decide) fun _ => ?_
  refine .next .expectType fun type => ?_
  refine .sign (by decide) fun _ => ?_
  exact .next (ih.expr _) fun value => Stmt.composed_semicolon _

end Parts

instance : Nonempty (Attempt α) := ⟨.fail (.noOperand .illegal) ⟨.illegal, []⟩⟩

lemma Expr.isSign_operandKinds : ∀ kind ∈ operandKinds, IsSign kind := by decide

lemma ParseError.got_notAnOperand (t : Token) : (notAnOperand t).got = t.kind := by
  rw [notAnOperand]
  split
  · next h => exact h.symm
  · rfl

lemma Expr.read_eq_take {f : Token → Place → Attempt Expr}
    (hf : ∀ t, t.kind ∈ operandKinds → ∀ ts, readOperand t ts = f t ⟨t.kind, ts⟩)
    (min : Precedence) (p : Place) :
    read min p.unread = take (fun t p => (f t p).onSuccess (readOperators min)) p := by
  obtain ⟨last, _ | ⟨t, rest⟩⟩ := p
  · exact read_nil min
  · dsimp only [take]
    rw [read_cons]
    split
    · next ht => rw [hf t ht]
    · next ht => rw [readOperand_other rest t ht, fail, onSuccess_error]

lemma Stmt.read_refused {t : Token} (hword : t.kind ∉ wordKinds)
    (hoperand : t.kind ∉ Expr.operandKinds) (ts : List Token) :
    read t ts = .fail (.notAnOperand t) ⟨t.kind, ts⟩ := by
  have hname : t.kind = .identifier → headKind ts ≠ .assign := by
    intro h
    exact absurd (by rw [h]; decide) hoperand
  rw [read_expression ts t hword hname, readExpression_eq, Expr.read_cons,
    Expr.readOperand_other ts t hoperand]
  simp only [fail, onSuccess_error]

namespace Parts

variable {n : ℕ} {t : Token} (ih : Parts n)

include ih

lemma expr_succ (min : Precedence) : Composed False 0 (n + 1) fun p => Expr.read min p.unread := by
  choose! operand hcomposed hread using
    fun (t : Token) (ht : t.kind ∈ Expr.operandKinds) => ih.operand ht
  apply Composed.congr (Expr.read_eq_take hread min)
  refine .take fun m hm t ht => ?_
  exact ((hcomposed t ht).next fun left => ih.operators min left).mono (Nat.le_of_lt_succ hm)

lemma expression (ht : t.kind ∈ Expr.operandKinds) : ∃ g, Composed True 0 n g ∧
    ∀ ts, Stmt.readExpression t ts = g ⟨t.kind, ts⟩ := by
  obtain ⟨g, hg, hread⟩ := ih.operand ht
  have hvalue := (hg.next fun left => ih.operators .lowest left).next
    fun value => Stmt.composed_finish (.expression t.literal value)
  refine ⟨_, hvalue, fun ts => ?_⟩
  rw [Stmt.readExpression_eq, Expr.read_cons, hread]

lemma assignment (literal : String) : ∃ g, Composed True 0 n g ∧
    ∀ ts, Stmt.read ⟨.identifier, literal⟩ ts = g ⟨.identifier, ts⟩ := by
  have hoperand : TokenKind.identifier ∈ Expr.operandKinds := by decide
  have hword : TokenKind.identifier ∉ Stmt.wordKinds := by decide
  obtain ⟨g, hg, hread⟩ := ih.expression (t := ⟨.identifier, literal⟩) hoperand
  refine ⟨peek (acceptKind .assign fun _ p => (Expr.read .lowest p.unread).onSuccess
    fun value p => Stmt.finish (.assign literal value) p) g, .peekSign ?_ ?_ hg, fun ts => ?_⟩
  · intro u f hf
    rw [(acceptKind_eq_some hf).1]
    decide
  · intro m hm u f hf
    rw [(acceptKind_eq_some hf).2]
    exact .next ((ih.mono hm.le).expr .lowest) fun value => Stmt.composed_finish _
  · rcases ts with _ | ⟨⟨kind, sign⟩, rest⟩
    · rw [peek_nil, Stmt.read_expression [] ⟨.identifier, literal⟩ hword nofun, hread]
    · by_cases hkind : kind = .assign
      · subst hkind
        rw [peek_some (if_pos rfl), Stmt.read_assignment]
      · rw [peek_none (if_neg hkind), ← hread]
        exact Stmt.read_expression _ ⟨.identifier, literal⟩ hword fun _ => hkind

lemma word {kind : TokenKind} (hkind : kind ∈ Stmt.wordKinds) (literal : String) :
    ∃ g, Composed True (-openings [⟨kind, literal⟩]) n g ∧
      ∀ ts, Stmt.read ⟨kind, literal⟩ ts = g ⟨kind, ts⟩ := by
  have hclosed {kind : TokenKind} {g : Place → Attempt Stmt} (h : kind ∉ openers)
      (hg : Composed True 0 n g) : Composed True (-openings [⟨kind, literal⟩]) n g := by
    rwa [openings_of_not_mem h]
  simp only [Stmt.wordKinds, List.mem_cons, List.not_mem_nil, or_false] at hkind
  rcases hkind with rfl | rfl | rfl | rfl | rfl | rfl
  · obtain ⟨g, hg, hread⟩ := ih.declaration false ⟨.varWord, literal⟩
    exact ⟨g, hclosed (by decide) hg, fun ts => (Stmt.read_varWord literal ts).trans (hread ts)⟩
  · obtain ⟨g, hg, hread⟩ := ih.declaration true ⟨.constWord, literal⟩
    exact ⟨g, hclosed (by decide) hg, fun ts => (Stmt.read_constWord literal ts).trans (hread ts)⟩
  · have hbegin : (openings [⟨.beginWord, literal⟩] : ℤ) = 1 := rfl
    rw [hbegin]
    exact ⟨_, .andThen (ih.block _) fun body => Stmt.composed_finish _,
      Stmt.read_beginWord literal⟩
  · exact ⟨_, hclosed (by decide) (.next (ih.expr _) fun value => Stmt.composed_finish _),
      Stmt.read_returnWord literal⟩
  · refine ⟨_, hclosed (by decide) (.next (ih.expr _) fun condition => ?_),
      Stmt.read_whileWord literal⟩
    refine .opener (by decide) fun opener => ?_
    exact .andThen (ih.block opener) fun body => Stmt.composed_finish _
  · have hname : IsSign .identifier := by decide
    refine ⟨_, hclosed (by decide) (.sign hname fun counter => ?_), Stmt.read_forWord literal⟩
    refine .sign (by decide) fun _ => ?_
    refine .next (ih.expr _) fun first => ?_
    refine .sign (by decide) fun _ => ?_
    refine .next (ih.expr _) fun last => ?_
    refine .opener (by decide) fun opener => ?_
    exact .andThen (ih.block opener) fun body => Stmt.composed_finish _

lemma stmt (ht : t.kind ≠ .endOfInput) :
    ∃ g, Composed True (-openings [t]) n g ∧ ∀ ts, Stmt.read t ts = g ⟨t.kind, ts⟩ := by
  obtain ⟨kind, literal⟩ := t
  by_cases hword : kind ∈ Stmt.wordKinds
  · exact ih.word hword literal
  by_cases hname : kind = .identifier
  · subst hname
    exact ih.assignment literal
  by_cases hoperand : kind ∈ Expr.operandKinds
  · have hread := fun ts => Stmt.read_expression ts ⟨kind, literal⟩ hword fun h => absurd h hname
    simp only [hread]
    rw [openings_of_not_mem (Expr.isSign_operandKinds kind hoperand).2.1]
    exact ih.expression hoperand
  · have hgot : (ParseError.notAnOperand ⟨kind, literal⟩).got ≠ .endOfInput :=
      (ParseError.got_notAnOperand _).trans_ne ht
    exact ⟨_, .fail _ hgot, Stmt.read_refused hword hoperand⟩

lemma stmts_succ : Composed False (-1) (n + 1) Reading.stmts := by
  choose! read hcomposed hread using fun (t : Token) (ht : t.kind ≠ .endOfInput) => ih.stmt ht
  refine .stmts hread (fun m hm t ht => ?_) fun m hm => ?_
  · exact (hcomposed t ht).mono (Nat.le_of_lt_succ hm)
  · exact ih.stmts.mono (Nat.le_of_lt_succ hm)

end Parts

lemma parts (n : ℕ) : Parts n := by
  induction n with
  | zero =>
    refine ⟨fun min => ?_, ?_⟩
    · exact .congr (Expr.read_eq_take (f := fun t p => Expr.readOperand t p.unread)
        (fun _ _ _ => rfl) min) (.take fun m hm => absurd hm (Nat.not_lt_zero m))
    · exact .stmts (f := fun t p => Stmt.read t p.unread) (fun _ _ _ => rfl)
        (fun m hm => absurd hm (Nat.not_lt_zero m)) fun m hm => absurd hm (Nat.not_lt_zero m)
  | succ n ih => exact ⟨ih.expr_succ, ih.stmts_succ⟩

end MiniPascal
