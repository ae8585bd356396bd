import MiniPascal.Proofs.Grammar.Acceptance
import MiniPascal.Proofs.Lexical.Spelling

namespace MiniPascal

namespace Lexical

open Grammar (Endless)

variable {cs : List Char} {ts : List Token}

lemma Splits.occurs {t : Token} (h : Splits cs ts) (ht : t ∈ ts) (hkind : t.kind ≠ .illegal) :
    Occurs t := by
  induction h with
  | nil _ => cases ht
  | cons _ htoken _ ih =>
    rcases List.mem_cons.1 ht with rfl | ht
    · exact ⟨hkind, _, _, htoken⟩
    · exact ih ht

lemma occurs_of_splits (h : Splits cs ts) (hts : ∀ t ∈ ts, t.kind ≠ .illegal) :
    ∀ t ∈ ts, Occurs t :=
  fun t ht => h.occurs ht (hts t ht)

lemma Splits.endless (h : Splits cs ts) : Endless ts := by
  induction h with
  | nil _ => exact nofun
  | cons _ htoken _ ih => exact List.forall_mem_cons.2 ⟨htoken.kind_ne, ih⟩

end Lexical

lemma Token.splits_scan (source : String) : Lexical.Splits source.toList (scan source) :=
  Lexical.splits_iff_scan.2 rfl

lemma Token.endless_scan (source : String) : Grammar.Endless (scan source) :=
  (splits_scan source).endless

namespace Program

variable {source : String} {p : Program}

lemma isProgram_of_parse (h : parse source = .ok p) : Grammar.IsProgram (Token.scan source) p :=
  Grammar.isProgram_of_accepted (Token.endless_scan source) h

lemma legal_of_parse (h : parse source = .ok p) : ∀ t ∈ Token.scan source, t.kind ≠ .illegal :=
  fun t ht => ((isProgram_of_parse h).kinds t ht).1

lemma occurs_of_parse (h : parse source = .ok p) : ∀ t ∈ Token.scan source, Lexical.Occurs t :=
  Lexical.occurs_of_splits (Token.splits_scan source) (legal_of_parse h)

end Program

end MiniPascal
