import MiniPascal.Proofs.Lexical.Scan

namespace MiniPascal

namespace Lexical

structure Piece where
  token : Token
  text : List Char
  gap : List Char

def join (lead : List Char) : List Piece → List Char
  | [] => lead
  | p :: rest => lead ++ (p.text ++ join p.gap rest)

/-- In the source that the pieces make up, each has all the characters that belong to its token, and
there are only blanks and comments between them. -/
def Laid (lead : List Char) : List Piece → Prop
  | [] => IsBlanks lead
  | p :: rest => IsBlanks lead ∧ IsToken p.token p.text (join p.gap rest) ∧ Laid p.gap rest

variable {cs lead : List Char} {ts : List Token} {ps : List Piece}

lemma Laid.splits (h : Laid lead ps) : Splits (join lead ps) (ps.map Piece.token) := by
  induction ps generalizing lead with
  | nil => exact .nil h
  | cons p rest ih =>
    obtain ⟨hlead, htoken, hrest⟩ := h
    exact .cons hlead htoken (ih hrest)

lemma Splits.exists_laid (h : Splits cs ts) :
    ∃ lead ps, cs = join lead ps ∧ Laid lead ps ∧ ps.map Piece.token = ts := by
  induction h with
  | @nil lead hlead => exact ⟨lead, [], rfl, hlead, rfl⟩
  | @cons lead w _ t _ hlead htoken _ ih =>
    obtain ⟨gap, ps, rfl, hps, rfl⟩ := ih
    exact ⟨lead, ⟨t, w, gap⟩ :: ps, rfl, ⟨hlead, htoken, hps⟩, rfl⟩

lemma IsBlanks.nextTokens_eq {c : Cursor} (h : IsBlanks c.after) (n : ℕ) :
    c.nextTokens n = List.replicate n Token.endOfInput := by
  induction n generalizing c with
  | zero => rfl
  | succ n ih =>
    obtain ⟨d, hd, hnext⟩ := h.nextToken_eq rfl
    have hrest : IsBlanks d.after := by
      rw [hd]
      exact .nil
    rw [Cursor.nextTokens, hnext, ih hrest, List.replicate_succ]

lemma Splits.nextTokens_eq (h : Splits cs ts) {c : Cursor} (hc : c.after = cs) (n : ℕ) :
    c.nextTokens (ts.length + n) = ts ++ List.replicate n Token.endOfInput := by
  induction h generalizing c with
  | nil hblanks =>
    subst hc
    rw [List.length_nil, Nat.zero_add, List.nil_append]
    exact hblanks.nextTokens_eq n
  | cons hblanks htoken _ ih =>
    obtain ⟨hfirst, hrest⟩ := htoken.nextToken_eq hblanks hc
    rw [List.length_cons, Nat.add_right_comm, Cursor.nextTokens, hfirst, ih hrest, List.cons_append]

end Lexical

/-- Every source is made up of its tokens, all as long as they can be, and of blanks and closed
comments; behind the last token there is only the end of the input, however often one asks. -/
theorem Token.scan_lossless (source : String) :
    (∃ lead ps, source.toList = Lexical.join lead ps ∧ Lexical.Laid lead ps ∧
      ps.map Lexical.Piece.token = scan source) ∧
    ∀ n, (Cursor.ofString source).nextTokens ((scan source).length + n) =
      scan source ++ List.replicate n endOfInput := by
  have hsplits : Lexical.Splits source.toList (scan source) := Lexical.splits_iff_scan.2 rfl
  exact ⟨hsplits.exists_laid, hsplits.nextTokens_eq rfl⟩

end MiniPascal
