import MiniPascal.Evaluation
import MiniPascal.Proofs.Decimal.Numeral
import MiniPascal.Proofs.Grammar.Acceptance
import MiniPascal.Proofs.Grammar.Sources
import MiniPascal.Proofs.Reading.Numerals

namespace MiniPascal

open Decimal (IsNumeral valueOf)

namespace Lexical

variable {w rest : List Char} {t : Token}

namespace IsToken

lemma isNumeral (h : IsToken t w rest) (hkind : t.kind = .integer) :
    IsNumeral t.literal.toList := by
  have hsigns : TokenKind.integer ∉ TokenKind.signKinds := by decide
  cases h with
  | integer hne hw _ _ =>
    rw [String.toList_ofList]
    exact ⟨hne, hw⟩
  | word _ _ _ => exact absurd hkind (ofWord_ne _ nofun (by decide))
  | doubleSign h => exact absurd (hkind ▸ kind_mem_signKinds' h) hsigns
  | sign h _ => exact absurd (hkind ▸ kind_mem_signKinds h) hsigns
  | _ => nomatch hkind

lemma exists_fraction (h : IsToken t w rest) (hkind : t.kind = .real) :
    ∃ whole fraction, IsNumeral whole ∧ IsNumeral fraction ∧
      t.literal = .ofList (whole ++ '.' :: fraction) := by
  have hsigns : TokenKind.real ∉ TokenKind.signKinds := by decide
  cases h with
  | real hne hw hne' hf _ => exact ⟨_, _, ⟨hne, hw⟩, ⟨hne', hf⟩, rfl⟩
  | word _ _ _ => exact absurd hkind (ofWord_ne _ nofun (by decide))
  | doubleSign h => exact absurd (hkind ▸ kind_mem_signKinds' h) hsigns
  | sign h _ => exact absurd (hkind ▸ kind_mem_signKinds h) hsigns
  | _ => nomatch hkind

end IsToken

lemma splits_repr (k : ℕ) : Splits k.repr.toList [⟨.integer, k.repr⟩] := by
  obtain ⟨hne, hdigits⟩ := Decimal.isNumeral_repr k
  have htoken : IsToken _ k.repr.toList [] := .integer hne hdigits nofun nofun
  have hsplits := Splits.cons .nil htoken (.nil .nil)
  rwa [List.nil_append, List.append_nil, String.ofList_toList] at hsplits

end Lexical

namespace Program

variable {source literal : String} {n : Int64}

lemma isNumeral_of_mem (h : ⟨.integer, literal⟩ ∈ Token.scan source) :
    IsNumeral literal.toList := by
  obtain ⟨_, w, rest, htoken⟩ := (Token.splits_scan source).occurs h (by simp)
  exact htoken.isNumeral rfl

lemma real?_of_mem (h : ⟨.real, literal⟩ ∈ Token.scan source) :
    (Decimal.real? literal).isSome = true := by
  obtain ⟨_, w, rest, htoken⟩ := (Token.splits_scan source).occurs h (by simp)
  obtain ⟨whole, fraction, hwhole, hfraction, rfl⟩ := htoken.exists_fraction rfl
  exact hwhole.real? hfraction

lemma parse_of_read {e : Expr} {last : TokenKind}
    (h : Expr.read .lowest (Token.scan source) = .done e ⟨last, []⟩) :
    ∃ lexeme, parse source = .ok ⟨[.expression lexeme e]⟩ := by
  cases hscan : Token.scan source with
  | nil =>
    rw [hscan, Expr.read_nil] at h
    cases h
  | cons t ts =>
    rw [hscan] at h
    have hkind := Expr.headKind_of_read h
    have hlast : Within.isLast false t.kind = false :=
      Grammar.isLast_eq_false (List.mem_append_left _ hkind)
    have hstmt : Stmt.read t ts = .done (.expression t.literal e) ⟨last, []⟩ :=
      Stmt.read_of_expr h nofun
    refine ⟨t.literal, ?_⟩
    rw [parse, ofSource, hscan, accepted_ofTokens_iff]
    exact ⟨_, (Stmt.readMany_cons_eq_iff hlast).2 ⟨_, _, _, hstmt, Stmt.readMany_nil false, rfl⟩⟩

end Program

namespace Expr

variable {min : Precedence} {e : Expr} {k : ℕ} {n : Int64}

lemma read_alone {t : Token} {last : TokenKind}
    (h : readOperand t [] = .done e ⟨last, []⟩) : read min [t] = .done e ⟨last, []⟩ := by
  rw [read_cons, h, Reading.onSuccess_done, readOperators_nil]

lemma read_natural (hk : k < 2 ^ 63) : read min [⟨.integer, k.repr⟩] =
    .done (.integer k.repr (.ofNat k)) ⟨.integer, []⟩ :=
  read_alone (readOperand_integer_some [] (Decimal.integer?_repr hk))

lemma read_negative (hk : k < 2 ^ 63) : read .lowest [⟨.minus, "-"⟩, ⟨.integer, k.repr⟩] =
    .done (.prefixed "-" .negate (.integer k.repr (.ofNat k))) ⟨.integer, []⟩ := by
  rw [read_cons, readOperand_minus, read_natural hk, Reading.onSuccess_done, Reading.onSuccess_done,
    readOperators_nil]

lemma exists_read_integer (hn : n ≠ Int64.minValue) :
    ∃ e, read .lowest (Token.scan (Value.integer n).text) = .done e ⟨.integer, []⟩ ∧
      ∀ call passes m, e.eval call passes m = some (.integer n, m) := by
  cases hz : n.toInt with
  | ofNat k =>
    have hk : k < 2 ^ 63 := by
      have hlt := n.toInt_lt
      rw [hz, Int.ofNat_eq_natCast] at hlt
      omega
    have htext : (Value.integer n).text = k.repr := by
      rw [Value.text, hz]
      rfl
    have hvalue : Int64.ofNat k = n := by
      rw [← Int64.ofInt_toInt n, hz]
      exact Int64.ofInt_eq_ofNat.symm
    rw [htext, Lexical.splits_iff_scan.1 (Lexical.splits_repr k), read_natural hk, hvalue]
    exact ⟨_, rfl, fun call passes m => rfl⟩
  | negSucc k =>
    have hk : k + 1 < 2 ^ 63 := by
      have hle := n.le_toInt
      have hne : n.toInt ≠ -2 ^ 63 := by
        rwa [← Int64.toInt_minValue, ne_eq, Int64.toInt_inj]
      rw [hz] at hle hne
      omega
    have htext : (Value.integer n).text.toList = '-' :: (k + 1).repr.toList := by
      rw [Value.text, hz]
      exact String.toList_append
    have hscan : Token.scan (Value.integer n).text = [⟨.minus, "-"⟩, ⟨.integer, (k + 1).repr⟩] := by
      rw [← Lexical.splits_iff_scan, htext]
      exact (Lexical.splits_repr (k + 1)).sign rfl (by decide)
    have hvalue : -Int64.ofNat (k + 1) = n := by
      rw [← Int64.ofInt_toInt n, hz, Int.negSucc_eq, Int64.ofInt_neg]
      exact congrArg _ Int64.ofInt_eq_ofNat.symm
    rw [hscan, read_negative hk]
    refine ⟨_, rfl, fun call passes m => ?_⟩
    rw [← hvalue]
    rfl

end Expr

/-- In every source, a real numeral is read, and an integer numeral unless it is `2 ^ 63` or more;
those in the program are tokens of the source and have the values of their digits. What is written
for an integer is an expression with that value, if the integer is not the least. -/
theorem numerals_exact :
    (∀ source : String,
      (∀ f ∈ (Program.ofSource source).failures,
        (∀ literal, f.error ≠ .badReal literal) ∧
        ∀ literal, f.error = .badInteger literal →
          IsNumeral literal.toList ∧ 2 ^ 63 ≤ Nat.ofDigitChars 10 literal.toList 0) ∧
      ∀ (lexeme : String) (value : Int64),
        .expr (.integer lexeme value) ∈ (Program.ofSource source).value.nodes →
        ⟨.integer, lexeme⟩ ∈ Token.scan source ∧ IsNumeral lexeme.toList ∧
          value.toInt = Nat.ofDigitChars 10 lexeme.toList 0 ∧
          Nat.ofDigitChars 10 lexeme.toList 0 < 2 ^ 63) ∧
    ∀ n : Int64, n ≠ Int64.minValue →
      ∃ e, Expr.read .lowest (Token.scan (Value.integer n).text) = .done e ⟨.integer, []⟩ ∧
        (∃ lexeme, Program.parse (Value.integer n).text = .ok ⟨[.expression lexeme e]⟩) ∧
        ∀ call passes m, e.eval call passes m = some (.integer n, m) := by
  refine ⟨fun source => ?_, fun n hn => ?_⟩
  · have htaken := Program.takenFrom_ofTokens (Token.scan source)
    refine ⟨fun f hf => ⟨fun literal hreal => ?_, fun literal hinteger => ?_⟩,
      fun lexeme value hnode => ?_⟩
    · have herror := htaken.failures f hf
      rw [hreal] at herror
      obtain ⟨hmem, hnone⟩ := herror
      have hsome := Program.real?_of_mem hmem
      rw [hnone] at hsome
      cases hsome
    · have herror := htaken.failures f hf
      rw [hinteger] at herror
      obtain ⟨hmem, hnone⟩ := herror
      have hnumeral := Program.isNumeral_of_mem hmem
      rw [← String.ofList_toList (s := literal)] at hnone
      exact ⟨hnumeral, hnumeral.le_valueOf hnone⟩
    · obtain ⟨hmem, hsome⟩ := htaken.value _ hnode
      have hnumeral := Program.isNumeral_of_mem hmem
      rw [← String.ofList_toList (s := lexeme)] at hsome
      exact ⟨hmem, hnumeral, hnumeral.toInt_eq hsome⟩
  · obtain ⟨e, hread, heval⟩ := Expr.exists_read_integer hn
    exact ⟨e, hread, Program.parse_of_read hread, heval⟩

-- The failure is inside a block, which is read on.
def numeralSource : String := "y := 0042; begin 9223372036854775808; z := y end"

def numeralTokens : List Token :=
  [⟨.identifier, "y"⟩, ⟨.assign, ":="⟩, ⟨.integer, "0042"⟩, ⟨.semicolon, ";"⟩,
    ⟨.beginWord, "begin"⟩, ⟨.integer, "9223372036854775808"⟩, ⟨.semicolon, ";"⟩,
    ⟨.identifier, "z"⟩, ⟨.assign, ":="⟩, ⟨.identifier, "y"⟩, ⟨.endWord, "end"⟩]

lemma scan_numeralSource : Token.scan numeralSource = numeralTokens := by cbv

theorem numerals_exact_numeralSource :
    (∃ f ∈ (Program.ofSource numeralSource).failures, f.error = .badInteger "9223372036854775808" ∧
      2 ^ 63 ≤ Nat.ofDigitChars 10 "9223372036854775808".toList 0) ∧
    (.expr (.integer "0042" 42) ∈ (Program.ofSource numeralSource).value.nodes ∧
      (42 : Int64).toInt = Nat.ofDigitChars 10 "0042".toList 0) ∧
    (-7 : Int64) ≠ Int64.minValue ∧
      ∃ e, Expr.read .lowest (Token.scan (Value.integer (-7)).text) = .done e ⟨.integer, []⟩ := by
  have herrors : (Program.ofTokens numeralTokens).failures.map Failure.error =
      [.badInteger "9223372036854775808"] := by
    cbv
  have hfirst : (Program.ofTokens numeralTokens).value.statements.take 1 =
      [.assign "y" (.integer "0042" 42)] := by
    cbv
  obtain ⟨herrors', hnodes⟩ := numerals_exact.1 numeralSource
  rw [Program.ofSource, scan_numeralSource] at herrors' hnodes ⊢
  obtain ⟨f, hf, herror⟩ : ∃ f ∈ (Program.ofTokens numeralTokens).failures,
      f.error = .badInteger "9223372036854775808" := by
    rw [← List.mem_map, herrors]
    exact List.mem_singleton_self _
  have hnode : .expr (.integer "0042" 42) ∈ (Program.ofTokens numeralTokens).value.nodes := by
    rw [Program.nodes, ← List.take_append_drop 1 (Program.ofTokens _).value.statements, hfirst]
    exact List.mem_cons_self
  obtain ⟨e, hread, -⟩ := numerals_exact.2 (-7) (by decide)
  exact ⟨⟨f, hf, herror, ((herrors' f hf).2 _ herror).2⟩,
    ⟨hnode, (hnodes _ _ hnode).2.2.1⟩, by decide, e, hread⟩

end MiniPascal
