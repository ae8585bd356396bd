import MiniPascal.Proofs.Grammar.Sources
import MiniPascal.Proofs.Writing.Full
import MiniPascal.Proofs.Writing.ReadBack

namespace MiniPascal

open Reading

lemma Program.sourced_nodes {source : String} {p : Program} (h : parse source = .ok p) :
    ∀ n ∈ p.nodes, n.Sourced := by
  exact (Grammar.IsStmts.sourced (isProgram_of_parse h) (occurs_of_parse h)).2

namespace Style

lemma full_faithful : full.Faithful where
  parentheses {position e} h := by
    cases e with
    | prefixed _ _ _ => rfl
    | infixed _ _ _ _ => rfl
    | _ => cases position <;> cases h
  declaration := rfl

lemma core_eq_expr {e : Expr} (h : e.isOperation = false) : full.expr .whole e = full.core e := by
  rw [Style.expr, full_parentheses, h]
  rfl

lemma lowest_or_leftParen : ∀ e : Expr,
    Grammar.Lowest (full.expr .whole e) ∨ e.text.toList.head? = some '('
  | .named _ => .inl rfl
  | .integer _ _ => .inl rfl
  | .real _ _ => .inl rfl
  | .boolean _ value => .inl (by cases value <;> rfl)
  | .string _ => .inl rfl
  | .prefixed _ .negate _ => .inr (by simp [Expr.text])
  | .prefixed _ .logicalNot _ => .inr (by simp [Expr.text])
  | .infixed _ _ _ _ => .inr (by simp [Expr.text])
  | .conditional _ _ _ none => .inl rfl
  | .conditional _ _ _ (some _) => .inl rfl
  | .procedure _ _ => .inl rfl
  | .call lexeme callee args => by
    rcases lowest_or_leftParen callee with h | h
    · left
      have hne : full.expr .whole callee ≠ [] := enclose_ne_nil (core_ne_nil full callee) _
      rw [core_eq_expr rfl, core, Grammar.Lowest]
      exact (congrArg Precedence.ofKind (Token.headKind_append hne _)).trans h
    · right
      rw [Expr.text, String.toList_append, String.toList_append, String.toList_append,
        List.append_assoc, List.append_assoc, List.head?_append, h]
      rfl

lemma lowest_clause {s : Stmt} (h : s.text.toList.head? ≠ some '(') :
    Grammar.Lowest (full.clause s) := by
  cases s with
  | expression _ value => exact (lowest_or_leftParen value).resolve_right h
  | declare _ constant _ _ _ => cases constant <;> rfl
  | _ => rfl

lemma full_fits {n : Node} (h : n.Sourced)
    (hapart : ∀ ss, n = .body ss → ∀ before lexeme value next after,
      ss = before ++ .expression lexeme value :: next :: after →
        next.text.toList.head? ≠ some '(') : full.Fits n := by
  cases n with
  | expr e =>
    cases e with
    | integer _ _ => exact h.2
    | real _ _ => exact h.2
    | _ => trivial
  | body ss =>
    intro before s next after hss hopen
    cases s with
    | expression lexeme value =>
      exact .inr (lowest_clause (hapart ss rfl before lexeme value next after hss))
    | assign _ _ => exact .inl rfl
    | giveBack _ _ => exact .inl rfl
    | _ => cases hopen

end Style

/-- Wherever an expression stands in a program, its text reads as the same expression, unless
statements in it run into each other: an expression and a statement that begins with a
parenthesis. -/
theorem Expr.read_text {source : String} {p : Program} {e : Expr}
    (hp : Program.parse source = .ok p) (he : .expr e ∈ p.nodes)
    (hapart : ∀ ss, .body ss ∈ e.nodes → ∀ before lexeme value next after,
      ss = before ++ .expression lexeme value :: next :: after →
        next.text.toList.head? ≠ some '(') :
    ∃ e' last, read .lowest (Token.scan e.text) = done e' ⟨last, []⟩ ∧
      e'.canonical = e.canonical ∧ e'.text = e.text := by
  have hsourced : ∀ n ∈ e.nodes, n.Sourced := by
    intro n hn
    exact Program.sourced_nodes hp n (Stmt.closed_listNodes p.statements e he n hn)
  have hscan := Style.scan_text hsourced
  have hfits : ∀ n ∈ e.nodes, Style.full.Fits n := by
    intro n hn
    refine Style.full_fits (hsourced n hn) ?_
    rintro ss rfl
    exact hapart ss hn
  have hends : Ends [] := ⟨rfl, nofun⟩
  obtain ⟨e', last, hread, hsame⟩ :=
    (Style.reads Style.full_faithful e hfits).whole Style.full_faithful hends
  rw [List.append_nil, ← hscan] at hread
  have hsplits := Token.splits_scan e.text
  have hderived := Grammar.isExpr_of_read hsplits.endless hread
  have hlegal : ∀ t ∈ Token.scan e.text, t.kind ≠ .illegal := by
    obtain ⟨used, hused, hkinds⟩ := hderived.consumes
    rw [List.append_nil] at hused
    rw [hused]
    exact fun t ht => (hkinds t ht).1
  have hsourced' := hderived.sourced (Lexical.occurs_of_splits hsplits hlegal)
  refine ⟨e', last, hread, hsame, ?_⟩
  rw [← e'.text_canonical hsourced', hsame, e.text_canonical hsourced]

def openConditional : Expr :=
  .conditional "if" (.prefixed "!" .logicalNot (.named "a"))
    (.mk ⟨.thenWord, "then"⟩
      [.expression "b" (.named "b"), .assign "c" (.integer "1" 1)])
    (some (.mk ⟨.elseWord, "else"⟩
      [.giveBack "return"
        (.infixed "*" .multiply (.prefixed "-" .negate (.integer "1" 1)) (.integer "2" 2))]))

theorem read_text_openConditional :
    Program.parse "if !a then b c := 1 end else return -1 * 2" =
        .ok ⟨[.expression "if" openConditional]⟩ ∧
      openConditional.text = "if (not a) then b c := 1; end else return ((-1) * 2); end" ∧
      ∃ e' last, Expr.read .lowest (Token.scan openConditional.text) = done e' ⟨last, []⟩ ∧
        e'.canonical = openConditional.canonical ∧ e'.text = openConditional.text := by
  have hp : Program.parse "if !a then b c := 1 end else return -1 * 2" =
      .ok ⟨[.expression "if" openConditional]⟩ := by
    cbv
  have he : .expr openConditional ∈ Program.nodes ⟨[.expression "if" openConditional]⟩ := by
    simp [Program.nodes, Stmt.listNodes, Stmt.nodes, openConditional, Expr.nodes]
  refine ⟨hp, by decide, Expr.read_text hp he ?_⟩
  intro ss hss before lexeme value next after hbefore
  simp only [openConditional, Expr.nodes, Block.nodes, Stmt.listNodes, Stmt.nodes, List.mem_cons,
    List.mem_append, List.not_mem_nil, reduceCtorEq, Node.body.injEq, false_or, or_false] at hss
  rcases hss with rfl | rfl
  · rcases before with _ | ⟨_, _ | ⟨_, _⟩⟩
    · simp only [List.nil_append, List.cons.injEq] at hbefore
      rw [← hbefore.2.1]
      decide
    · simp at hbefore
    · simp at hbefore
  · rcases before with _ | ⟨_, _⟩ <;> simp at hbefore

end MiniPascal
