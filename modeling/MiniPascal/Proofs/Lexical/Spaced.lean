import MiniPascal.Proofs.Lexical.Spacing

namespace MiniPascal

namespace Token

def spaced (ts : List Token) : String :=
  " ".intercalate (ts.map fun t => .ofList t.characters)

lemma spaced_nil : (spaced []).toList = [] := by simp [spaced]

lemma spaced_singleton (t : Token) : (spaced [t]).toList = t.characters := by simp [spaced]

lemma spaced_cons_cons (t u : Token) (ts : List Token) :
    (spaced (t :: u :: ts)).toList = t.characters ++ ' ' :: (spaced (u :: ts)).toList := by
  simp [spaced]

end Token

namespace Lexical

variable {a w rest : List Char} {t : Token} {ts : List Token}

namespace IsToken

lemma characters_of_closed (h : IsToken t w rest) (ht : ¬ t.IsUnclosed) : w = t.characters := by
  have hsigns : TokenKind.illegal ∉ TokenKind.signKinds := by decide
  by_cases hkind : t.kind = .illegal
  · cases h with
    | unknown _ _ => simp [Token.characters]
    | openText _ => exact absurd ⟨rfl, '"', by simp, by simp⟩ ht
    | openComment _ => exact absurd ⟨rfl, '{', by simp, by simp⟩ ht
    | text _ => cases hkind
    | integer _ _ _ _ => cases hkind
    | real _ _ _ _ _ => cases hkind
    | word _ _ _ => exact absurd hkind (ofWord_ne _ (by decide) (by decide))
    | doubleSign h => exact absurd (hkind ▸ kind_mem_signKinds' h) hsigns
    | sign h _ => exact absurd (hkind ▸ kind_mem_signKinds h) hsigns
  · exact h.characters_eq hkind

lemma alone (h : IsToken t w rest) (ht : ¬ t.IsUnclosed) : IsToken t t.characters [] := by
  rw [← h.characters_of_closed ht]
  exact h.of_append (b := rest)

lemma before_space (h : IsToken t w rest) (ht : ¬ t.IsUnclosed) (b : List Char) :
    IsToken t t.characters (' ' :: b) := by
  have hspace : Separated [] (' ' :: b) := by
    left
    rintro y ⟨⟩
    decide
  exact (h.alone ht).append ht hspace

end IsToken

lemma Splits.spaced (h : Splits a ts) (hts : ∀ t ∈ ts, ¬ t.IsUnclosed) :
    Splits (Token.spaced ts).toList ts := by
  induction h with
  | nil _ =>
    rw [Token.spaced_nil]
    exact .nil .nil
  | @cons _ _ _ t ts _ htoken _ ih =>
    obtain ⟨ht, hts⟩ := List.forall_mem_cons.1 hts
    cases ts with
    | nil =>
      rw [Token.spaced_singleton, ← List.append_nil t.characters]
      exact .cons (u := []) .nil (htoken.alone ht) (.nil .nil)
    | cons u us =>
      rw [Token.spaced_cons_cons]
      exact .cons (u := []) .nil (htoken.before_space ht _) (ih hts).space

end Lexical

/-- No token of a source is read otherwise when it stands between spaces, and none goes on into
another. -/
theorem Token.scan_spaced (source : String) (h : ∀ t ∈ scan source, ¬ t.IsUnclosed) :
    scan (spaced (scan source)) = scan source :=
  Lexical.splits_iff_scan.1 (Lexical.Splits.spaced (Lexical.splits_iff_scan.2 rfl) h)

theorem Token.scan_spaced_crowded :
    (∀ t ∈ scan "x:=1.5.2!: =é\"a \x7bb\x7d\n\"not", ¬ t.IsUnclosed) ∧
      spaced (scan "x:=1.5.2!: =é\"a \x7bb\x7d\n\"not") =
        "x := 1.5 . 2 ! : = é \"a \x7bb\x7d\n\" not" ∧
      scan "x := 1.5 . 2 ! : = é \"a \x7bb\x7d\n\" not" =
        scan "x:=1.5.2!: =é\"a \x7bb\x7d\n\"not" := by
  have hscan : scan "x:=1.5.2!: =é\"a \x7bb\x7d\n\"not" =
      [⟨.identifier, "x"⟩, ⟨.assign, ":="⟩, ⟨.real, "1.5"⟩, ⟨.illegal, "."⟩, ⟨.integer, "2"⟩,
        ⟨.notWord, "!"⟩, ⟨.colon, ":"⟩, ⟨.illegal, "="⟩, ⟨.illegal, "é"⟩, ⟨.text, "a \x7bb\x7d\n"⟩,
        ⟨.notWord, "not"⟩] := by
    cbv
  have hclosed : ∀ t ∈ scan "x:=1.5.2!: =é\"a \x7bb\x7d\n\"not", ¬ t.IsUnclosed := by
    rw [hscan]
    simp [IsUnclosed]
  have hspaced : spaced (scan "x:=1.5.2!: =é\"a \x7bb\x7d\n\"not") =
      "x := 1.5 . 2 ! : = é \"a \x7bb\x7d\n\" not" := by
    rw [hscan]
    decide
  refine ⟨hclosed, hspaced, ?_⟩
  rw [← hspaced]
  exact scan_spaced _ hclosed

end MiniPascal
