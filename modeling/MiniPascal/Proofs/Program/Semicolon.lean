import MiniPascal.Program.Source
import MiniPascal.Proofs.Reading.Stop

namespace MiniPascal

open Token Reading

namespace Reading

variable {x y : Reading (List Stmt)} (k : List Token)

lemma errors_extend (fs : List Failure) :
    (fs.map (Failure.extend k)).map Failure.error = fs.map Failure.error := by
  rw [List.map_map]
  rfl

lemma errors_join :
    (join k x y).failures.map Failure.error =
      x.failures.map Failure.error ++ y.failures.map Failure.error := by
  rw [join, List.map_append, errors_extend]

end Reading

namespace Program

variable {ts : List Token}

lemma settled_of_parts
    (h : (∀ t ∈ ts, t.kind ∉ openers) ∨
      (ofTokens ts).failures = [] ∧ closings ts = openings ts) : Stmt.Settled false ts := by
  rcases h with hopen | ⟨hfailures, hbalanced⟩
  · exact .inl (openings_eq_zero_iff.2 hopen)
  · refine .inr ⟨hfailures, ?_⟩
    rw [depth, hbalanced, Int.sub_self]

lemma readMany_block (hts : Terminated ts) (hplain : ∀ t ∈ ts, IsPlain t.kind)
    (rest : List Token) :
    Stmt.readMany true (ts ++ rest) =
      join rest (Stmt.readMany false ts) (Stmt.readMany true rest) := by
  have hlast : ∀ t ∈ ts, Within.isLast true t.kind = false := fun t ht =>
    Within.isLast_eq_false (hts.endless t ht) fun _ => (hplain t ht).2
  rw [← Stmt.readMany_inside hlast]
  apply Stmt.readMany_append (.inr hts) hlast
  · exact .inl (openings_eq_zero_iff.2 fun t ht => (hplain t ht).1)

/-- What ends in a semicolon is read, and its errors are recorded, as if nothing stood behind it,
and what stands behind it as if nothing stood before it; in a block that is still open, too. -/
theorem semicolon_parts (hts : Terminated ts) :
    (((∀ t ∈ ts, t.kind ∉ openers) ∨
        (ofTokens ts).failures = [] ∧ closings ts = openings ts) →
      ∀ rest,
        (ofTokens (ts ++ rest)).value.statements =
          (ofTokens ts).value.statements ++ (ofTokens rest).value.statements ∧
        (ofTokens (ts ++ rest)).failures.map Failure.error =
          (ofTokens ts).failures.map Failure.error ++
            (ofTokens rest).failures.map Failure.error) ∧
    ((∀ t ∈ ts, t.kind ∉ openers ∧ t.kind ≠ .endWord) →
      ∀ opener rest,
        (Block.read opener (ts ++ rest)).value =
          .mk opener ((ofTokens ts).value.statements ++
            (Block.read opener rest).value.statements) ∧
        (Block.read opener (ts ++ rest)).failures.map Failure.error =
          (ofTokens ts).failures.map Failure.error ++
            (Block.read opener rest).failures.map Failure.error ∧
        (Block.read opener (ts ++ rest)).place = (Block.read opener rest).place) := by
  constructor
  · intro hparts rest
    have hread : Stmt.readMany false (ts ++ rest) =
        join rest (Stmt.readMany false ts) (Stmt.readMany false rest) := by
      apply Stmt.readMany_append (.inr hts) _ (settled_of_parts hparts)
      exact fun t ht => Within.isLast_eq_false (hts.endless t ht) nofun
    simp only [ofTokens, hread]
    exact ⟨rfl, errors_join rest⟩
  · intro hplain opener rest
    simp only [Block.read_eq, readMany_block hts hplain, andThen, List.append_nil]
    exact ⟨rfl, errors_join rest, rfl⟩

def faultyTokens : List Token :=
  [⟨.varWord, "var"⟩, ⟨.identifier, "x"⟩, ⟨.colon, ":"⟩, ⟨.integerWord, "integer"⟩,
    ⟨.assign, ":="⟩, ⟨.semicolon, ";"⟩, ⟨.integer, "1"⟩, ⟨.rightParen, ")"⟩, ⟨.semicolon, ";"⟩,
    ⟨.integer, "2"⟩, ⟨.semicolon, ";"⟩]

lemma terminated_faultyTokens : Terminated faultyTokens :=
  ⟨⟨⟨.semicolon, ";"⟩, rfl, rfl⟩, by decide⟩

lemma ofTokens_faultyTokens :
    (ofTokens faultyTokens).value.statements =
        [.expression "1" (.integer "1" 1), .expression "2" (.integer "2" 2)] ∧
      (ofTokens faultyTokens).failures.map Failure.error =
        [.noOperand .semicolon, .noOperand .rightParen] := by
  constructor <;> cbv

def closedTokens : List Token :=
  [⟨.beginWord, "begin"⟩, ⟨.integer, "3"⟩, ⟨.endWord, "end"⟩, ⟨.semicolon, ";"⟩]

lemma terminated_closedTokens : Terminated closedTokens :=
  ⟨⟨⟨.semicolon, ";"⟩, rfl, rfl⟩, by decide⟩

lemma ofTokens_closedTokens :
    (ofTokens closedTokens).value.statements =
        [.block (.mk ⟨.beginWord, "begin"⟩ [.expression "3" (.integer "3" 3)])] ∧
      (ofTokens closedTokens).failures = [] := by
  constructor <;> cbv

theorem semicolon_parts_tokens :
    Terminated faultyTokens ∧ Terminated closedTokens ∧
      (ofTokens (faultyTokens ++ [⟨.beginWord, "begin"⟩, ⟨.assign, ":="⟩])).failures.map
          Failure.error =
        [.noOperand .semicolon, .noOperand .rightParen, .noOperand .assign] ∧
      (ofTokens (closedTokens ++ faultyTokens)).value.statements =
        [.block (.mk ⟨.beginWord, "begin"⟩ [.expression "3" (.integer "3" 3)]),
          .expression "1" (.integer "1" 1), .expression "2" (.integer "2" 2)] ∧
      (Block.read ⟨.doWord, "do"⟩ (faultyTokens ++ [⟨.endWord, "end"⟩])).value =
        .mk ⟨.doWord, "do"⟩
          [.expression "1" (.integer "1" 1), .expression "2" (.integer "2" 2)] := by
  have hplain : ∀ t ∈ faultyTokens, t.kind ∉ openers ∧ t.kind ≠ .endWord := by decide
  obtain ⟨hprogram, hblock⟩ := semicolon_parts terminated_faultyTokens
  obtain ⟨hbehind, _⟩ := semicolon_parts terminated_closedTokens
  obtain ⟨hstatements, herrors⟩ := ofTokens_faultyTokens
  obtain ⟨hclosed, hnone⟩ := ofTokens_closedTokens
  have hopen : (ofTokens [⟨.beginWord, "begin"⟩, ⟨.assign, ":="⟩]).failures.map Failure.error =
      [.noOperand .assign] := by cbv
  have hend : (Block.read ⟨.doWord, "do"⟩ [⟨.endWord, "end"⟩]).value.statements = [] := by cbv
  refine ⟨terminated_faultyTokens, terminated_closedTokens, ?_, ?_, ?_⟩
  · rw [(hprogram (.inl fun t ht => (hplain t ht).1) _).2, herrors, hopen]
    rfl
  · rw [(hbehind (.inr ⟨hnone, by decide⟩) _).1, hclosed, hstatements]
    rfl
  · rw [(hblock hplain _ _).1, hstatements, hend]
    rfl

end Program

end MiniPascal
