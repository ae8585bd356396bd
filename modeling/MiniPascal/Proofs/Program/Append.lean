import MiniPascal.Proofs.Grammar.Sources
import MiniPascal.Proofs.Lexical.Append
import MiniPascal.Proofs.Reading.Append
/-! If the first of two sources is complete, each is parsed as if it stood alone. -/

namespace MiniPascal

open Reading (join)

structure Token.Complete (ts : List Token) : Prop where
  semicolon : ∀ t ∈ ts.getLast?, t.kind = .semicolon
  balanced : closings ts = openings ts

namespace Token.Complete

variable {ts : List Token}

lemma depth_eq_zero (h : Complete ts) : depth ts = 0 := by
  rw [depth, h.balanced, Int.sub_self]

lemma nil_or_terminated (h : Complete ts) (hts : Grammar.Endless ts) : ts = [] ∨ Terminated ts := by
  cases hlast : ts.getLast? with
  | none => exact .inl (List.getLast?_eq_none_iff.1 hlast)
  | some t => exact .inr ⟨⟨t, hlast, h.semicolon t hlast⟩, hts⟩

end Token.Complete

namespace Program

variable {a b : String} {p q : Program}

lemma closed_of_parse (h : parse a = .ok p) : ∀ t ∈ Token.scan a, ¬ t.IsUnclosed :=
  fun t ht hopen => legal_of_parse h t ht hopen.1

theorem parse_append (hcomplete : Token.Complete (Token.scan a))
    (hab : Lexical.Separated a.toList b.toList) (ha : parse a = .ok p) (hb : parse b = .ok q) :
    parse (a ++ b) = .ok ⟨p.statements ++ q.statements⟩ := by
  have hscan := Token.scan_append (closed_of_parse ha) hab
  have hendless := Token.endless_scan a
  obtain ⟨place, hreada⟩ := accepted_ofTokens_iff.1 ha
  obtain ⟨place', hreadb⟩ := accepted_ofTokens_iff.1 hb
  have hsettled : Stmt.Settled false (Token.scan a) :=
    .inr ⟨by rw [hreada], hcomplete.depth_eq_zero⟩
  have hread : Stmt.readMany false (Token.scan a ++ Token.scan b) =
      join (Token.scan b) (Stmt.readMany false (Token.scan a))
        (Stmt.readMany false (Token.scan b)) :=
    Stmt.readMany_append (hcomplete.nil_or_terminated hendless)
      (fun t ht => Within.isLast_eq_false (hendless t ht) nofun) hsettled
  rw [parse, ofSource, hscan, accepted_ofTokens_iff, hread, hreada, hreadb]
  exact ⟨place', rfl⟩

end Program

end MiniPascal
