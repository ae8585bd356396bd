import MiniPascal.Program.Source
import MiniPascal.Proofs.Reading.Accounts

namespace MiniPascal

variable {n : ℕ} {ts : List Token}

structure Accounted (n : ℕ) : Prop where
  expr {ts : List Token} : ts.length < n → ∀ d min,
    Accounts d [] ts.tail (found (Expr.inner true)) (Within.expression min ts).reading
      (Turns.expression d min ts)
  loop {ts : List Token} : ts.length < n → ∀ d inBlock,
    Accounts d [] ts (Stmt.listInner true) (Stmt.readMany inBlock ts)
      (Turns.statements d inBlock ts)

namespace Accounted

open Accounts

variable (ih : Accounted n)

include ih

lemma expression (h : ts.length < n) (d : ℕ) (min : Precedence) :
    Accounts d [] ts (found (Expr.inner true)) (Within.expression min ts).reading
      (Turns.expression d min ts) :=
  (ih.expr h d min).mono (List.tail_suffix _)

lemma block (h : ts.length < n) (d : ℕ) (opener : Token) :
    Accounts d [] ts (Block.inner true) (Within.block opener ts).reading
      (Turns.statements d true ts) := by
  rw [Within.block]
  exact (ih.loop h d true).map fun _ => rfl

lemma someArguments {k : ℕ} (hk : k ≤ n) (h : ts.length < k) (d : ℕ) :
    Accounts d [] ts (found (Expr.listInner true)) (Within.someArguments ts).reading
      (Turns.someArguments d ts) := by
  induction k generalizing ts with
  | zero => exact absurd h (Nat.not_lt_zero _)
  | succ k ihk =>
    rw [Within.someArguments, Turns.someArguments]
    refine onSuccess (ih.expression (h.trans_le hk) d _) fun first p hp => ?_
    obtain ⟨last, _ | ⟨t, rest⟩⟩ := p
    · exact fail (List.suffix_refl _)
    · dsimp only
      split
      · have hrest : rest.length < k := by
          rw [List.length_cons] at hp
          omega
        refine mono (onSuccess_last (ihk (Nat.le_of_succ_le hk) hrest) fun others p _ => ?_)
          (List.suffix_cons _ _)
        exact done (List.suffix_refl _) (by simp)
      split
      · exact done (List.suffix_cons _ _) (by simp)
      · exact fail (List.suffix_refl _)

lemma arguments (h : ts.length < n) (d : ℕ) :
    Accounts d [] ts (found (Expr.listInner true)) (Within.arguments ts).reading
      (Turns.arguments d ts) := by
  have hsome := ih.someArguments (Nat.le_refl n) h d
  cases ts with
  | nil =>
    rw [Within.arguments, Turns.arguments]
    exact hsome
  | cons t rest =>
    rw [Within.arguments, Turns.arguments]
    split
    · exact done (List.suffix_cons _ _) (List.nil_sublist _)
    · exact hsome

lemma alternative (last : TokenKind) (h : ts.length < n) (d : ℕ) :
    Accounts d [] ts (fun b => (b.map (Block.inner true)).getD [])
      (Within.alternative last ts).reading (Turns.alternative d ts) := by
  cases ts with
  | nil =>
    rw [Within.alternative, Turns.alternative]
    exact none (List.suffix_refl _) (List.nil_sublist _)
  | cons t rest =>
    rw [Within.alternative, Turns.alternative]
    split
    · have hblock := ih.block (Nat.lt_of_succ_lt h) d t
      have hsome : Accounts d [] rest (fun b => (b.map (Block.inner true)).getD [])
          ((Within.block t rest).map some).reading (Turns.statements d true rest) :=
        hblock.map fun _ => rfl
      exact hsome.mono (List.suffix_cons _ _)
    · exact none (List.suffix_refl _) (List.nil_sublist _)

lemma operators (min : Precedence) (left : Expr) (last : TokenKind) {k : ℕ} (hk : k ≤ n)
    (h : ts.length < k) (d : ℕ) :
    Accounts d (left.inner true) ts (found (Expr.inner true))
      (Within.operators min left last ts).reading (Turns.operators d min ts) := by
  induction k generalizing left last ts with
  | zero => exact absurd h (Nat.not_lt_zero _)
  | succ k ihk =>
    cases ts with
    | nil =>
      rw [Within.operators, Turns.operators]
      exact done (List.suffix_refl _) (List.Sublist.refl _)
    | cons t rest =>
      have hrest : rest.length < k := Nat.lt_of_succ_lt_succ h
      have hk' : k ≤ n := Nat.le_of_succ_le hk
      have hrest' : rest.length < n := hrest.trans_le hk'
      rw [Within.operators, Turns.operators]
      split
      · cases InfixOperator.ofKind? t.kind with
        | some operator =>
          have hright := ih.expression hrest' d operator.precedence
          refine mono (onSuccess hright fun right p hp => ?_) (List.suffix_cons _ _)
          exact ihk (.infixed t.literal operator left right) p.last hk' (by omega)
        | none =>
          refine mono (onSuccess (ih.arguments hrest' d) fun args p hp => ?_) (List.suffix_cons _ _)
          exact ihk (.call t.literal left args) p.last hk' (by omega)
      · exact done (List.suffix_refl _) (List.Sublist.refl _)

lemma operand (t : Token) (h : ts.length < n) (d : ℕ) :
    Accounts d [] ts (found (Expr.inner true)) (Within.operand t ts).reading
      (Turns.operand d t ts) := by
  obtain ⟨kind, literal⟩ := t
  rw [Within.operand, Turns.operand]
  cases kind with
  | identifier | text | trueWord | falseWord =>
    exact done (List.suffix_refl _) (List.nil_sublist _)
  | integer =>
    dsimp only
    cases Decimal.integer? literal with
    | none => exact fail (List.suffix_refl _)
    | some value => exact done (List.suffix_refl _) (List.nil_sublist _)
  | real =>
    dsimp only
    cases Decimal.real? literal with
    | none => exact fail (List.suffix_refl _)
    | some value => exact done (List.suffix_refl _) (List.nil_sublist _)
  | minus | notWord =>
    dsimp only
    rw [Within.prefixed]
    refine onSuccess_last (ih.expression h d _) fun right p _ => ?_
    exact done (List.suffix_refl _) (List.Sublist.refl _)
  | leftParen =>
    refine onSuccess_last (ih.expression h d _) fun inner p _ => ?_
    refine onSuccess_last (expect _ _ _) fun _ p _ => ?_
    exact done (List.suffix_refl _) (by simp)
  | ifWord =>
    refine onSuccess (ih.expression h d _) fun condition p _ => ?_
    refine onSuccess_plain (expect _ _ _) fun opener p _ => ?_
    refine afterwards (ih.block (by omega) d opener) fun consequence p _ => ?_
    refine andThen_last (ih.alternative p.last (by omega) d) fun other p _ => ?_
    refine done (List.suffix_refl _) ?_
    cases other <;> simp
  | procedureWord =>
    refine onSuccess_plain (expect _ _ _) fun name p _ => ?_
    refine onSuccess_plain (expect _ _ _) fun _ p _ => ?_
    refine onSuccess_plain (parameters _) fun params p _ => ?_
    refine onSuccess_plain (expect _ _ _) fun opener p _ => ?_
    refine andThen_last (ih.block (by omega) d opener) fun body p _ => ?_
    exact done (List.suffix_refl _) (List.Sublist.refl _)
  | _ => exact fail (List.suffix_refl _)

lemma expr_succ (h : ts.length < n + 1) (d : ℕ) (min : Precedence) :
    Accounts d [] ts.tail (found (Expr.inner true)) (Within.expression min ts).reading
      (Turns.expression d min ts) := by
  cases ts with
  | nil =>
    rw [Within.expression, Turns.expression]
    exact fail (List.suffix_refl _)
  | cons t rest =>
    have hrest : rest.length < n := Nat.lt_of_succ_lt_succ h
    rw [Within.expression, Turns.expression]
    refine onSuccess (ih.operand t hrest d) fun left p hp => ?_
    exact ih.operators min left p.last (Nat.le_refl n) (by omega) d

lemma expressionStatement (t : Token) (h : ts.length < n) (d : ℕ) :
    Accounts d [] ts (found (Stmt.inner true)) (Within.expressionStatement t ts).reading
      (Turns.expression d .lowest (t :: ts)) := by
  have hlt : (t :: ts).length < n + 1 := Nat.succ_lt_succ h
  rw [Within.expressionStatement]
  refine onSuccess_last (ih.expr_succ hlt d .lowest) fun value p _ => ?_
  exact finish (List.Sublist.refl _)

lemma statement (t : Token) (h : ts.length < n) (d : ℕ) :
    Accounts d [] ts (found (Stmt.inner true)) (Within.statement t ts).reading
      (Turns.statement d t ts) := by
  obtain ⟨kind, literal⟩ := t
  rw [Within.statement, Turns.statement]
  cases kind with
  | varWord | constWord =>
    dsimp only
    rw [Within.declaration]
    refine onSuccess_plain (expect _ _ _) fun name p _ => ?_
    refine onSuccess_plain (expect _ _ _) fun _ p _ => ?_
    refine onSuccess_plain (expectType _ _) fun type p _ => ?_
    refine onSuccess_plain (expect _ _ _) fun _ p _ => ?_
    refine onSuccess_last (ih.expression (by omega) d _) fun value p _ => ?_
    refine onSuccess_last (expect _ _ _) fun _ p _ => ?_
    exact done (List.suffix_refl _) (by simp)
  | beginWord =>
    refine andThen_last (ih.block h d _) fun body p _ => ?_
    exact finish (List.Sublist.refl _)
  | returnWord =>
    refine onSuccess_last (ih.expression h d _) fun value p _ => ?_
    exact finish (List.Sublist.refl _)
  | whileWord =>
    refine onSuccess (ih.expression h d _) fun condition p _ => ?_
    refine onSuccess_plain (expect _ _ _) fun opener p _ => ?_
    refine andThen_last (ih.block (by omega) d opener) fun body p _ => ?_
    exact finish (List.Sublist.refl _)
  | forWord =>
    refine onSuccess_plain (expect _ _ _) fun counter p _ => ?_
    refine onSuccess_plain (expect _ _ _) fun _ p _ => ?_
    refine onSuccess (ih.expression (by omega) d _) fun first p _ => ?_
    refine onSuccess_plain (expect _ _ _) fun _ p _ => ?_
    refine onSuccess (ih.expression (by omega) d _) fun last p _ => ?_
    refine onSuccess_plain (expect _ _ _) fun opener p _ => ?_
    refine andThen_last (ih.block (by omega) d opener) fun body p _ => ?_
    exact finish (by simp)
  | identifier =>
    dsimp only
    split
    · have htail : ts.tail.length < n := by
        rw [List.length_tail]
        omega
      refine mono (onSuccess_last (ih.expression htail d _) fun value p _ => ?_)
        (List.tail_suffix _)
      exact finish (List.Sublist.refl _)
    · exact ih.expressionStatement _ h d
  | _ => exact ih.expressionStatement _ h d

lemma loop_succ (h : ts.length < n + 1) (d : ℕ) (inBlock : Bool) :
    Accounts d [] ts (Stmt.listInner true) (Stmt.readMany inBlock ts)
      (Turns.statements d inBlock ts) := by
  cases ts with
  | nil =>
    rw [Stmt.readMany_nil, Turns.statements]
    exact none (List.suffix_refl _) (List.nil_sublist _)
  | cons t rest =>
    have hrest : rest.length < n := Nat.lt_of_succ_lt_succ h
    cases ht : Within.isLast inBlock t.kind with
    | true =>
      rw [Stmt.readMany_last _ _ _ ht, Turns.statements_last ht]
      exact none (List.suffix_cons _ _) (List.nil_sublist _)
    | false =>
      have hturn : Accounts d [] rest (found (Stmt.inner true)) (Stmt.read t rest)
          (Turns.statement (d + 1) t rest) :=
        (ih.statement t hrest (d + 1)).shallow (Nat.le_succ d)
      have hnext := (Within.statement t rest).length_nextTurn_le.trans_lt hrest
      have hloop := (ih.loop hnext d inBlock).mono (Reading.nextTurn_suffix t rest)
      have hresult : (Turn.mk d t rest).result = (Stmt.read t rest).value := rfl
      rw [Turns.statements_cons ht, Reading.readMany_turn ht]
      refine cons (hturn.andThen (hloop.behind (found (Stmt.inner true) _))) rfl ?_ ?_
      · rw [Turn.error?, hresult]
        simp only [Reading.recorded, Reading.andThen, Reading.after]
        cases (Stmt.read t rest).value <;> simp [List.perm_middle]
      · rw [Turn.statement?, hresult]
        cases (Stmt.read t rest).value <;>
          simp [found, Reading.andThen, Reading.after, Except.toOption]

end Accounted

lemma accounted (n : ℕ) : Accounted n := by
  induction n with
  | zero => exact ⟨fun h => absurd h (Nat.not_lt_zero _), fun h => absurd h (Nat.not_lt_zero _)⟩
  | succ n ih => exact ⟨ih.expr_succ, ih.loop_succ⟩

namespace Turns

/-- The turns of the loop itself, not those in the blocks that are read in its turns. -/
def own (d : ℕ) (turns : List Turn) : List Turn := turns.filter (·.depth = d)

lemma own_statement (d : ℕ) (t : Token) (ts : List Token) :
    own d (statement (d + 1) t ts) = [] := by
  have hdeep := ((accounted (ts.length + 1)).statement t (Nat.lt_succ_self _) (d + 1)).deep
  refine List.filter_eq_nil_iff.2 fun r hr => ?_
  have hlt : d < r.depth := hdeep r hr
  simpa using hlt.ne'

lemma own_cons {d : ℕ} {inBlock : Bool} {t : Token} {rest : List Token}
    (ht : Within.isLast inBlock t.kind = false) :
    own d (statements d inBlock (t :: rest)) =
      ⟨d, t, rest⟩ :: own d (statements d inBlock (Within.statement t rest).nextTurn) := by
  have hinner := own_statement d t rest
  rw [own] at hinner
  simp [own, statements_cons ht, hinner]

lemma value_readMany (d : ℕ) (inBlock : Bool) (h : ts.length < n) :
    (Stmt.readMany inBlock ts).value =
      (own d (statements d inBlock ts)).filterMap Turn.statement? := by
  induction n generalizing ts with
  | zero => exact absurd h (Nat.not_lt_zero _)
  | succ n ih =>
    cases ts with
    | nil =>
      rw [Stmt.readMany_nil, statements]
      rfl
    | cons t rest =>
      cases ht : Within.isLast inBlock t.kind with
      | true =>
        rw [Stmt.readMany_last _ _ _ ht, statements_last ht]
        rfl
      | false =>
        have hnext := (Within.statement t rest).length_nextTurn_le.trans_lt
          (Nat.lt_of_succ_lt_succ h)
        rw [own_cons ht, Turn.filterMap_cons, ← ih hnext, Reading.readMany_turn ht]
        rfl

end Turns

/-- In a loop over statements, of a program or of a block, and in those of the blocks inside, every
turn starts on a token of its own, behind those on which earlier turns start. It gives either one
statement, to its loop, or one error, which is recorded, and there are no others. So a program has
at most as many errors and statements, at all depths, as there are tokens. -/
theorem turns_progress (ts : List Token) :
    (∀ d inBlock,
      (∀ r ∈ Turns.statements d inBlock ts, r.start <:+ ts ∧
        (r.statement?.isSome = true ↔ r.error? = none)) ∧
      (Turns.statements d inBlock ts).Pairwise (fun r r' => r'.start.length < r.start.length) ∧
      (Stmt.readMany inBlock ts).value =
        (Turns.own d (Turns.statements d inBlock ts)).filterMap Turn.statement? ∧
      ((Stmt.readMany inBlock ts).failures.map Failure.error).Perm
        ((Turns.statements d inBlock ts).filterMap Turn.error?) ∧
      (Stmt.listInner true (Stmt.readMany inBlock ts).value).Sublist
        ((Turns.statements d inBlock ts).filterMap Turn.statement?) ∧
      (Turns.statements d inBlock ts).length ≤ ts.length) ∧
    (Program.ofTokens ts).failures.length +
      (Stmt.listInner true (Program.ofTokens ts).value.statements).length ≤ ts.length := by
  have hloop (d : ℕ) (inBlock : Bool) : Accounts d [] ts (Stmt.listInner true)
      (Stmt.readMany inBlock ts) (Turns.statements d inBlock ts) :=
    (accounted (ts.length + 1)).loop (Nat.lt_succ_self _) d inBlock
  have hlength (d : ℕ) (inBlock : Bool) : (Turns.statements d inBlock ts).length ≤ ts.length := by
    refine (hloop d inBlock).falls.length_add_le (Nat.zero_le _) fun r hr => ?_
    exact ⟨Nat.succ_pos _, ((hloop d inBlock).starts r hr).1.length_le⟩
  refine ⟨fun d inBlock => ?_, ?_⟩
  · refine ⟨fun r hr => ⟨((hloop d inBlock).starts r hr).1, ?_⟩, (hloop d inBlock).falls,
      Turns.value_readMany d inBlock (Nat.lt_succ_self _), (hloop d inBlock).errors,
      (hloop d inBlock).statements, hlength d inBlock⟩
    rw [Turn.statement?, Turn.error?]
    cases r.result <;> simp [Except.toOption]
  · have herrors := (hloop 0 false).errors.length_eq
    have hstatements := (hloop 0 false).statements.length_le
    rw [List.length_map] at herrors
    rw [List.nil_append] at hstatements
    calc (Stmt.readMany false ts).failures.length +
          (Stmt.listInner true (Stmt.readMany false ts).value).length
        ≤ ((Turns.statements 0 false ts).filterMap Turn.error?).length +
          ((Turns.statements 0 false ts).filterMap Turn.statement?).length :=
        Nat.add_le_add herrors.le hstatements
      _ = (Turns.statements 0 false ts).length := Turn.length_filterMap _
      _ ≤ ts.length := hlength 0 false

-- The sum has no right side, so its turn fails; the input ends inside two blocks, and then goes on.
def garbage : List Token :=
  [⟨.beginWord, "begin"⟩, ⟨.beginWord, "begin"⟩, ⟨.integer, "1"⟩, ⟨.plus, "+"⟩, ⟨.endWord, "end"⟩,
    ⟨.identifier, "x"⟩, ⟨.endOfInput, ""⟩, ⟨.rightParen, ")"⟩, ⟨.semicolon, ";"⟩]

theorem turns_progress_garbage :
    (Turns.statements 0 false garbage).map (fun r => (r.depth, r.start.length)) =
        [(0, 9), (1, 8), (2, 7), (1, 2)] ∧
      (∃ r ∈ Turns.statements 0 false garbage, r.depth = 1 ∧ r.start.length = 2 ∧
        r.start <:+ garbage ∧ (r.statement?.isSome = true ↔ r.error? = none)) ∧
      (Program.ofTokens garbage).failures.length +
        (Stmt.listInner true (Program.ofTokens garbage).value.statements).length ≤ 9 := by
  have hturns : (Turns.statements 0 false garbage).map (fun r => (r.depth, r.start.length)) =
      [(0, 9), (1, 8), (2, 7), (1, 2)] := by
    cbv
  have hmem : (1, 2) ∈ (Turns.statements 0 false garbage).map
      fun r => (r.depth, r.start.length) := by
    rw [hturns]
    decide
  obtain ⟨hloops, hcount⟩ := turns_progress garbage
  obtain ⟨r, hr, hpair⟩ := List.mem_map.1 hmem
  obtain ⟨hdepth, hlength⟩ := Prod.mk.inj hpair
  obtain ⟨hstart, hone⟩ := (hloops 0 false).1 r hr
  exact ⟨hturns, ⟨r, hr, hdepth, hlength, hstart, hone⟩, hcount⟩

end MiniPascal
