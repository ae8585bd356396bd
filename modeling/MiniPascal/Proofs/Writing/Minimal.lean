import MiniPascal.Proofs.Writing.ReadBack

namespace MiniPascal

open Reading

def Style.minimal : Style := ⟨Position.needsParentheses, fun _ => true⟩

namespace Style

lemma minimal_faithful : minimal.Faithful where
  parentheses h := h
  declaration := rfl

lemma minimal_fits {nodes : List Node} (h : ∀ x, .expr x ∈ nodes → x.Legible) :
    ∀ n ∈ nodes, minimal.Fits n := by
  intro n hn
  cases n with
  | expr x => exact h x hn
  | body ss => exact fun _ _ _ _ _ _ => .inl rfl

end Style

/-- Written with the fewest parentheses, an expression is read back up to the tokens that its nodes
keep, and what follows it is left unread. -/
theorem Expr.read_minimal (e : Expr) (k : List Token)
    (hliterals : ∀ x, .expr x ∈ e.nodes → x.Legible)
    (hk : ∀ t ∈ k.head?, Precedence.ofKind t.kind = .lowest ∧ t.kind ≠ .elseWord) :
    ∃ e' last, read .lowest (Style.minimal.expr .whole e ++ k) = done e' ⟨last, k⟩ ∧
      e'.canonical = e.canonical := by
  have hends : Ends k := by
    cases k with
    | nil => exact ⟨rfl, nofun⟩
    | cons t k => exact hk t rfl
  have hreads := Style.reads Style.minimal_faithful e (Style.minimal_fits hliterals)
  exact hreads.whole Style.minimal_faithful hends

def crowded : Expr :=
  let a := .named "a"
  let b := .named "b"
  let branch := .conditional "if" a (.mk ⟨.thenWord, "then"⟩ [.expression "b" b]) none
  .infixed "==" .equalTo
    (.infixed "*" .multiply
      (.infixed "-" .subtract a (.infixed "-" .subtract (.integer "1" 1) b))
      (.call "(" (.prefixed "-" .negate (.call "(" (.named "f") [a])) [branch]))
    (.prefixed "-" .negate (.infixed "+" .add a b))

theorem read_crowded :
    (∀ x, .expr x ∈ crowded.nodes → x.Legible) ∧
      ∃ e' last, Expr.read .lowest
          (Style.minimal.expr .whole crowded ++ [TokenKind.doWord.written, ⟨.identifier, "c"⟩]) =
        done e' ⟨last, [TokenKind.doWord.written, ⟨.identifier, "c"⟩]⟩ ∧
      e'.canonical = crowded.canonical := by
  have hliterals : ∀ x, .expr x ∈ crowded.nodes → x.Legible := by
    simp [crowded, Expr.nodes, Expr.listNodes, Block.nodes, Stmt.listNodes, Stmt.nodes,
      Expr.Legible]
    decide
  exact ⟨hliterals, Expr.read_minimal crowded _ hliterals (by simp; decide)⟩

example : String.join ((Style.minimal.expr .whole crowded).map Token.literal) =
    "(a-(1-b))*(-f(a))(ifathenb;end)==-(a+b)" := by
  decide

end MiniPascal
