import MiniPascal.Program.Source
import MiniPascal.Proofs.Tree
/-! Where the numerals of a program come from. -/

namespace MiniPascal

def Expr.TakenFrom (whole : List Token) : Expr → Prop
  | .integer lexeme value => ⟨.integer, lexeme⟩ ∈ whole ∧ Decimal.integer? lexeme = some value
  | .real lexeme value => ⟨.real, lexeme⟩ ∈ whole ∧ Decimal.real? lexeme = some value
  | _ => True

def Node.TakenFrom (whole : List Token) : Node → Prop
  | .expr e => e.TakenFrom whole
  | .body _ => True

def ParseError.TakenFrom (whole : List Token) : ParseError → Prop
  | badInteger literal => ⟨.integer, literal⟩ ∈ whole ∧ Decimal.integer? literal = none
  | badReal literal => ⟨.real, literal⟩ ∈ whole ∧ Decimal.real? literal = none
  | _ => True

namespace Reading

variable {α β : Type} {m n : ℕ} {whole ts : List Token} {P : α → Prop} {Q : β → Prop}

structure TakenFrom (whole : List Token) (P : α → Prop) (x : Reading α) : Prop where
  unread : x.place.unread ⊆ whole
  value : P x.value
  failures : ∀ f ∈ x.failures, f.error.TakenFrom whole

def Found (whole : List Token) (P : α → Prop) : Except ParseError α → Prop
  | .error e => e.TakenFrom whole
  | .ok a => P a

namespace TakenFrom

lemma pass {a : α} {p : Place} (hp : p.unread ⊆ whole) (ha : P a) :
    TakenFrom whole P ⟨a, p, []⟩ :=
  ⟨hp, ha, List.forall_mem_nil _⟩

lemma done {a : α} {p : Place} (hp : p.unread ⊆ whole) (ha : P a) :
    TakenFrom whole (Found whole P) (.done a p) :=
  pass hp ha

lemma fail {e : ParseError} {p : Place} (hp : p.unread ⊆ whole) (he : e.TakenFrom whole) :
    TakenFrom whole (Found whole P) (.fail e p) :=
  pass hp he

lemma andThen {x : Within m α} {f : α → (p : Place) → p.unread.length ≤ m → Within n β}
    (hx : TakenFrom whole P x.reading)
    (hf : ∀ a p hp, P a → p.unread ⊆ whole → TakenFrom whole Q (f a p hp).reading) :
    TakenFrom whole Q (x.andThen f).reading := by
  obtain ⟨hunread, hvalue, hfailures⟩ := hf _ _ x.bound hx.value hx.unread
  exact ⟨hunread, hvalue, List.forall_mem_append.2 ⟨hx.failures, hfailures⟩⟩

lemma onSuccess {x : AttemptWithin m α} {h : m ≤ n}
    {f : α → (p : Place) → p.unread.length ≤ m → AttemptWithin n β}
    (hx : TakenFrom whole (Found whole P) x.reading)
    (hf : ∀ a p hp, P a → p.unread ⊆ whole →
      TakenFrom whole (Found whole Q) (f a p hp).reading) :
    TakenFrom whole (Found whole Q) (x.onSuccess h f).reading := by
  refine andThen hx fun result p hp hresult hunread => ?_
  cases result with
  | error e => exact fail hunread hresult
  | ok a => exact hf a p hp hresult hunread

lemma map {x : Within n α} {f : α → β} (hx : TakenFrom whole P x.reading)
    (hf : ∀ a, P a → Q (f a)) : TakenFrom whole Q (x.map f).reading :=
  ⟨hx.unread, hf _ hx.value, hx.failures⟩

lemma expect (kind last : TokenKind) (hts : ts ⊆ whole) :
    TakenFrom whole (Found whole fun _ => True) (Within.expect kind last ts).reading := by
  change TakenFrom whole _ (Reading.expect kind last ts)
  cases ts with
  | nil => exact fail hts trivial
  | cons t rest =>
    rw [Reading.expect.eq_def]
    dsimp only
    split
    · exact done (List.subset_of_cons_subset hts) trivial
    · exact fail hts trivial

lemma expectType (last : TokenKind) (hts : ts ⊆ whole) :
    TakenFrom whole (Found whole fun _ => True) (Within.expectType last ts).reading := by
  change TakenFrom whole _ (Reading.expectType last ts)
  cases ts with
  | nil => exact fail hts trivial
  | cons t rest =>
    rw [Reading.expectType.eq_def]
    dsimp only
    split
    · exact done (List.subset_of_cons_subset hts) trivial
    split
    · exact done (List.subset_of_cons_subset hts) trivial
    · exact fail hts trivial

lemma skipSemicolon {p : Place} (hp : p.unread ⊆ whole) : p.skipSemicolon.unread ⊆ whole := by
  rw [Place.skipSemicolon]
  split
  · exact hp
  · next t rest h =>
    rw [h] at hp
    split
    · exact List.subset_of_cons_subset hp
    · rwa [h]

lemma skipStatement (hts : ts ⊆ whole) : Place.skipStatement ts ⊆ whole := by
  induction ts with
  | nil => exact hts
  | cons t rest ih =>
    rw [Place.skipStatement]
    split
    · exact hts
    split
    · exact List.subset_of_cons_subset hts
    · exact ih (List.subset_of_cons_subset hts)

lemma recover {p : Place} (hp : p.unread ⊆ whole) : p.recover ⊆ whole := by
  rw [Place.recover]
  split
  · exact hp
  · exact skipStatement hp

lemma finish {s : Stmt} {p : Place} {hn : p.unread.length ≤ n} (hp : p.unread ⊆ whole)
    (hs : ∀ node ∈ s.nodes, node.TakenFrom whole) :
    TakenFrom whole (Found whole fun s => ∀ node ∈ s.nodes, node.TakenFrom whole)
      (Within.finish s p hn).reading :=
  done (skipSemicolon hp) hs

lemma parameter (last : TokenKind) (hts : ts ⊆ whole) :
    TakenFrom whole (Found whole fun _ => True) (Within.parameter last ts).reading := by
  refine onSuccess (expect _ _ hts) fun name p _ _ hp => ?_
  refine onSuccess (expect _ _ hp) fun _ p _ _ hp => ?_
  refine onSuccess (expectType _ hp) fun type p _ _ hp => ?_
  exact done hp trivial

lemma someParameters (last : TokenKind) (hts : ts ⊆ whole) (h : ts.length < n) :
    TakenFrom whole (Found whole fun _ => True) (Within.someParameters last ts).reading := by
  induction n generalizing last ts with
  | zero => exact absurd h (Nat.not_lt_zero _)
  | succ n ih =>
    rw [Within.someParameters]
    refine onSuccess (parameter _ hts) fun first p hlength _ hp => ?_
    obtain ⟨last, _ | ⟨t, rest⟩⟩ := p
    · exact fail hp trivial
    · have hrest := List.subset_of_cons_subset hp
      dsimp only
      split
      · have hlt : rest.length < n := by
          rw [List.length_cons] at hlength
          omega
        exact onSuccess (ih .comma hrest hlt) fun others p _ _ hp => done hp trivial
      split
      · exact done hrest trivial
      · exact fail hp trivial

lemma parameters (hts : ts ⊆ whole) :
    TakenFrom whole (Found whole fun _ => True) (Within.parameters ts).reading := by
  rw [Within.parameters.eq_def]
  split
  · exact someParameters _ hts (Nat.lt_succ_self _)
  · split
    · exact done (List.subset_of_cons_subset hts) trivial
    · exact someParameters _ hts (Nat.lt_succ_self _)

end TakenFrom

end Reading

open Reading (TakenFrom Found)

structure Taken (whole : List Token) (n : ℕ) : Prop where
  expression {ts : List Token} : ts.length < n → ts ⊆ whole → ∀ min,
    TakenFrom whole (Found whole fun e => ∀ node ∈ e.nodes, node.TakenFrom whole)
      (Within.expression min ts).reading
  loop {ts : List Token} : ts.length < n → ts ⊆ whole → ∀ inBlock,
    TakenFrom whole (fun ss => ∀ node ∈ Stmt.listNodes ss, node.TakenFrom whole)
      (Stmt.readMany inBlock ts)

namespace Taken

open Reading.TakenFrom

variable {n : ℕ} {whole ts : List Token} (ih : Taken whole n)

include ih

lemma block (h : ts.length < n) (hts : ts ⊆ whole) (opener : Token) :
    TakenFrom whole (fun b => ∀ node ∈ b.nodes, node.TakenFrom whole)
      (Within.block opener ts).reading := by
  rw [Within.block]
  refine map (ih.loop h hts true) fun ss hss => ?_
  rw [Block.nodes]
  exact List.forall_mem_cons.2 ⟨trivial, hss⟩

lemma someArguments {k : ℕ} (hk : k ≤ n) (h : ts.length < k) (hts : ts ⊆ whole) :
    TakenFrom whole (Found whole fun es => ∀ node ∈ Expr.listNodes es, node.TakenFrom whole)
      (Within.someArguments ts).reading := by
  induction k generalizing ts with
  | zero => exact absurd h (Nat.not_lt_zero _)
  | succ k ihk =>
    rw [Within.someArguments]
    refine onSuccess (ih.expression (h.trans_le hk) hts _) fun first p hlength hfirst hp => ?_
    obtain ⟨last, _ | ⟨t, rest⟩⟩ := p
    · exact fail hp trivial
    · have hrest := List.subset_of_cons_subset hp
      dsimp only
      split
      · have hlt : rest.length < k := by
          rw [List.length_cons] at hlength
          omega
        refine onSuccess (ihk (Nat.le_of_succ_le hk) hlt hrest) fun others p _ hothers hp => ?_
        refine done hp ?_
        rw [Expr.listNodes]
        exact List.forall_mem_append.2 ⟨hfirst, hothers⟩
      split
      · exact done hrest (by simpa using hfirst)
      · exact fail hp trivial

lemma arguments (h : ts.length < n) (hts : ts ⊆ whole) :
    TakenFrom whole (Found whole fun es => ∀ node ∈ Expr.listNodes es, node.TakenFrom whole)
      (Within.arguments ts).reading := by
  have hsome := ih.someArguments (Nat.le_refl n) h hts
  cases ts with
  | nil =>
    rw [Within.arguments]
    exact hsome
  | cons t rest =>
    rw [Within.arguments]
    split
    · exact done (List.subset_of_cons_subset hts) (by simp)
    · exact hsome

lemma alternative (last : TokenKind) (h : ts.length < n) (hts : ts ⊆ whole) :
    TakenFrom whole (fun b => ∀ block ∈ b, ∀ node ∈ Block.nodes block, node.TakenFrom whole)
      (Within.alternative last ts).reading := by
  cases ts with
  | nil =>
    rw [Within.alternative]
    exact pass hts (by simp)
  | cons t rest =>
    rw [Within.alternative]
    split
    · refine map (ih.block (Nat.lt_of_succ_lt h) (List.subset_of_cons_subset hts) t) ?_
      rintro block hblock _ ⟨⟩
      exact hblock
    · exact pass hts (by simp)

lemma operators (min : Precedence) {left : Expr} (last : TokenKind) {k : ℕ} (hk : k ≤ n)
    (h : ts.length < k) (hts : ts ⊆ whole) (hleft : ∀ node ∈ left.nodes, node.TakenFrom whole) :
    TakenFrom whole (Found whole fun e => ∀ node ∈ e.nodes, node.TakenFrom whole)
      (Within.operators min left last ts).reading := by
  induction k generalizing left last ts with
  | zero => exact absurd h (Nat.not_lt_zero _)
  | succ k ihk =>
    cases ts with
    | nil =>
      rw [Within.operators]
      exact done hts hleft
    | cons t rest =>
      have hlt : rest.length < k := Nat.lt_of_succ_lt_succ h
      have hk' : k ≤ n := Nat.le_of_succ_le hk
      have hrest := List.subset_of_cons_subset hts
      rw [Within.operators]
      split
      · cases InfixOperator.ofKind? t.kind with
        | some operator =>
          refine onSuccess (ih.expression (hlt.trans_le hk') hrest _)
            fun right p _ hright hp => ?_
          refine ihk p.last hk' (by omega) hp ?_
          rw [Expr.nodes]
          exact List.forall_mem_cons.2 ⟨trivial, List.forall_mem_append.2 ⟨hleft, hright⟩⟩
        | none =>
          refine onSuccess (ih.arguments (hlt.trans_le hk') hrest) fun args p _ hargs hp => ?_
          refine ihk p.last hk' (by omega) hp ?_
          rw [Expr.nodes]
          exact List.forall_mem_cons.2 ⟨trivial, List.forall_mem_append.2 ⟨hleft, hargs⟩⟩
      · exact done hts hleft

lemma operand (t : Token) (h : ts.length < n) (ht : t ∈ whole) (hts : ts ⊆ whole) :
    TakenFrom whole (Found whole fun e => ∀ node ∈ e.nodes, node.TakenFrom whole)
      (Within.operand t ts).reading := by
  obtain ⟨kind, literal⟩ := t
  rw [Within.operand]
  cases kind with
  | identifier | text | trueWord | falseWord =>
    exact done hts (List.forall_mem_singleton.2 trivial)
  | integer =>
    dsimp only
    split
    · next value hvalue => exact done hts (List.forall_mem_singleton.2 ⟨ht, hvalue⟩)
    · next hvalue => exact fail hts ⟨ht, hvalue⟩
  | real =>
    dsimp only
    split
    · next value hvalue => exact done hts (List.forall_mem_singleton.2 ⟨ht, hvalue⟩)
    · next hvalue => exact fail hts ⟨ht, hvalue⟩
  | minus | notWord =>
    dsimp only
    rw [Within.prefixed]
    refine onSuccess (ih.expression h hts _) fun right p _ hright hp => done hp ?_
    rw [Expr.nodes]
    exact List.forall_mem_cons.2 ⟨trivial, hright⟩
  | leftParen =>
    refine onSuccess (ih.expression h hts _) fun inner p _ hinner hp => ?_
    refine onSuccess (expect _ _ hp) fun _ p _ _ hp => ?_
    exact done hp hinner
  | ifWord =>
    refine onSuccess (ih.expression h hts _) fun condition p _ hcondition hp => ?_
    refine onSuccess (expect _ _ hp) fun opener p _ _ hp => ?_
    refine andThen (ih.block (by omega) hp opener) fun consequence p _ hconsequence hp => ?_
    refine andThen (ih.alternative p.last (by omega) hp) fun other p _ hother hp => ?_
    refine done hp ?_
    cases other with
    | none =>
      simp only [Expr.nodes, List.forall_mem_cons, List.forall_mem_append]
      exact ⟨trivial, hcondition, hconsequence⟩
    | some block =>
      simp only [Expr.nodes, List.forall_mem_cons, List.forall_mem_append]
      exact ⟨trivial, ⟨hcondition, hconsequence⟩, hother block rfl⟩
  | procedureWord =>
    refine onSuccess (expect _ _ hts) fun name p _ _ hp => ?_
    refine onSuccess (expect _ _ hp) fun _ p _ _ hp => ?_
    refine onSuccess (parameters hp) fun params p _ _ hp => ?_
    refine onSuccess (expect _ _ hp) fun opener p _ _ hp => ?_
    refine andThen (ih.block (by omega) hp opener) fun body p _ hbody hp => ?_
    refine done hp ?_
    rw [Expr.nodes]
    exact List.forall_mem_cons.2 ⟨trivial, hbody⟩
  | _ => exact fail hts trivial

lemma expression_succ (h : ts.length < n + 1) (hts : ts ⊆ whole) (min : Precedence) :
    TakenFrom whole (Found whole fun e => ∀ node ∈ e.nodes, node.TakenFrom whole)
      (Within.expression min ts).reading := by
  cases ts with
  | nil =>
    rw [Within.expression]
    exact fail hts trivial
  | cons t rest =>
    have hlt : rest.length < n := Nat.lt_of_succ_lt_succ h
    obtain ⟨ht, hrest⟩ := List.cons_subset.1 hts
    rw [Within.expression]
    refine onSuccess (ih.operand t hlt ht hrest) fun left p hlength hleft hp => ?_
    exact ih.operators min p.last (Nat.le_refl n) (by omega) hp hleft

lemma expressionStatement (t : Token) (h : ts.length < n) (hts : t :: ts ⊆ whole) :
    TakenFrom whole (Found whole fun s => ∀ node ∈ s.nodes, node.TakenFrom whole)
      (Within.expressionStatement t ts).reading := by
  have hlt : (t :: ts).length < n + 1 := Nat.succ_lt_succ h
  rw [Within.expressionStatement]
  refine onSuccess (ih.expression_succ hlt hts _) fun value p _ hvalue hp => ?_
  exact finish hp hvalue

lemma statement (t : Token) (h : ts.length < n) (hts : t :: ts ⊆ whole) :
    TakenFrom whole (Found whole fun s => ∀ node ∈ s.nodes, node.TakenFrom whole)
      (Within.statement t ts).reading := by
  have hrest := List.subset_of_cons_subset hts
  obtain ⟨kind, literal⟩ := t
  rw [Within.statement]
  cases kind with
  | varWord | constWord =>
    dsimp only
    rw [Within.declaration]
    refine onSuccess (expect _ _ hrest) fun name p _ _ hp => ?_
    refine onSuccess (expect _ _ hp) fun _ p _ _ hp => ?_
    refine onSuccess (expectType _ hp) fun type p _ _ hp => ?_
    refine onSuccess (expect _ _ hp) fun _ p _ _ hp => ?_
    refine onSuccess (ih.expression (by omega) hp _) fun value p _ hvalue hp => ?_
    refine onSuccess (expect _ _ hp) fun _ p _ _ hp => ?_
    exact done hp hvalue
  | beginWord =>
    refine andThen (ih.block h hrest _) fun body p _ hbody hp => ?_
    exact finish hp hbody
  | returnWord =>
    refine onSuccess (ih.expression h hrest _) fun value p _ hvalue hp => ?_
    exact finish hp hvalue
  | whileWord =>
    refine onSuccess (ih.expression h hrest _) fun condition p _ hcondition hp => ?_
    refine onSuccess (expect _ _ hp) fun opener p _ _ hp => ?_
    refine andThen (ih.block (by omega) hp opener) fun body p _ hbody hp => ?_
    exact finish hp (List.forall_mem_append.2 ⟨hcondition, hbody⟩)
  | forWord =>
    refine onSuccess (expect _ _ hrest) fun counter p _ _ hp => ?_
    refine onSuccess (expect _ _ hp) fun _ p _ _ hp => ?_
    refine onSuccess (ih.expression (by omega) hp _) fun first p _ hfirst hp => ?_
    refine onSuccess (expect _ _ hp) fun _ p _ _ hp => ?_
    refine onSuccess (ih.expression (by omega) hp _) fun last p _ hlast hp => ?_
    refine onSuccess (expect _ _ hp) fun opener p _ _ hp => ?_
    refine andThen (ih.block (by omega) hp opener) fun body p _ hbody hp => ?_
    exact finish hp (List.forall_mem_append.2 ⟨List.forall_mem_append.2 ⟨hfirst, hlast⟩, hbody⟩)
  | identifier =>
    dsimp only
    split
    · have htail : ts.tail.length < n := by
        rw [List.length_tail]
        omega
      have hafter : ts.tail ⊆ whole := List.Subset.trans (List.tail_subset ts) hrest
      refine onSuccess (ih.expression htail hafter _) fun value p _ hvalue hp => ?_
      exact finish hp hvalue
    · exact ih.expressionStatement _ h hts
  | _ => exact ih.expressionStatement _ h hts

lemma loop_succ (h : ts.length < n + 1) (hts : ts ⊆ whole) (inBlock : Bool) :
    TakenFrom whole (fun ss => ∀ node ∈ Stmt.listNodes ss, node.TakenFrom whole)
      (Stmt.readMany inBlock ts) := by
  cases ts with
  | nil =>
    rw [Stmt.readMany_nil]
    exact pass hts (by simp)
  | cons t rest =>
    have hlt : rest.length < n := Nat.lt_of_succ_lt_succ h
    rw [Stmt.readMany, Within.statements]
    split
    · exact pass (List.subset_of_cons_subset hts) (by simp)
    · refine andThen (ih.statement t hlt hts) fun result p hlength hresult hp => ?_
      cases result with
      | ok s =>
        refine map (ih.loop (hlength.trans_lt hlt) hp inBlock) fun ss hss => ?_
        rw [Stmt.listNodes]
        exact List.forall_mem_append.2 ⟨hresult, hss⟩
      | error e =>
        have hle := p.length_recover_le.trans hlength
        obtain ⟨hunread, hvalue, hfailures⟩ := ih.loop (hle.trans_lt hlt) (recover hp) inBlock
        exact ⟨hunread, hvalue, List.forall_mem_cons.2 ⟨hresult, hfailures⟩⟩

end Taken

lemma taken (whole : List Token) (n : ℕ) : Taken whole n := by
  induction n with
  | zero => exact ⟨fun h => absurd h (Nat.not_lt_zero _), fun h => absurd h (Nat.not_lt_zero _)⟩
  | succ n ih => exact ⟨ih.expression_succ, ih.loop_succ⟩

lemma Program.takenFrom_ofTokens (ts : List Token) :
    TakenFrom ts (fun p => ∀ node ∈ p.nodes, node.TakenFrom ts) (ofTokens ts) := by
  have hloop := (taken ts (ts.length + 1)).loop (Nat.lt_succ_self _) (List.Subset.refl ts) false
  exact ⟨hloop.unread, hloop.value, hloop.failures⟩

end MiniPascal
