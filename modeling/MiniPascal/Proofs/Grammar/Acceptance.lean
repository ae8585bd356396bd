import MiniPascal.Program.Source
import MiniPascal.Proofs.Grammar.Completeness
import MiniPascal.Proofs.Grammar.Soundness

namespace MiniPascal

namespace Program

lemma accepted_eq_ok_iff {x : Reading Program} {p : Program} :
    accepted x = .ok p ↔ x.value = p ∧ x.failures = [] := by
  rw [accepted]
  split
  · next h => simp [List.isEmpty_iff.1 h]
  · next h => simp_all

lemma accepted_ofTokens_iff {ts : List Token} {p : Program} :
    accepted (ofTokens ts) = .ok p ↔
      ∃ place, Stmt.readMany false ts = ⟨p.statements, place, []⟩ := by
  rw [accepted_eq_ok_iff]
  constructor
  · rintro ⟨rfl, hclean⟩
    exact ⟨(Stmt.readMany false ts).place, by rw [← hclean]; rfl⟩
  · rintro ⟨place, h⟩
    simp [ofTokens, h]

end Program

namespace Grammar

lemma isProgram_of_accepted {ts : List Token} {p : Program} (hts : Endless ts)
    (h : Program.accepted (Program.ofTokens ts) = .ok p) : IsProgram ts p := by
  obtain ⟨place, hread⟩ := Program.accepted_ofTokens_iff.1 h
  exact isProgram_of_read hts hread

lemma exists_accepted_of_isProgram {ts : List Token} {p : Program} (h : IsProgram ts p) :
    ∃ q, Program.accepted (Program.ofTokens ts) = .ok q := by
  have hrun := IsStmts.isRun h (.inl rfl)
  obtain ⟨ss, hread⟩ := hrun.exists_readMany (Stmt.readMany_nil false)
  exact ⟨⟨ss⟩, Program.accepted_ofTokens_iff.2 ⟨_, hread⟩⟩

lemma IsProgram.kinds {ts : List Token} {p : Program} (h : IsProgram ts p) :
    ∀ t ∈ ts, t.kind ≠ .illegal ∧ t.kind ≠ .programWord := by
  obtain ⟨used, rfl, hused⟩ := IsStmts.consumes h
  simpa using hused

/-- Reading accepts the sentences of the grammar and nothing else, and what it gives is the tree of
a derivation of all the tokens. -/
theorem accepted_iff_sentence {ts : List Token} (hts : Endless ts) :
    ((∃ p, Program.accepted (Program.ofTokens ts) = .ok p) ↔ ∃ p, IsProgram ts p) ∧
      ∀ p, Program.accepted (Program.ofTokens ts) = .ok p →
        IsProgram ts p ∧ ∀ t ∈ ts, t.kind ≠ .illegal ∧ t.kind ≠ .programWord := by
  refine ⟨⟨?_, ?_⟩, ?_⟩
  · rintro ⟨p, h⟩
    exact ⟨p, isProgram_of_accepted hts h⟩
  · rintro ⟨p, h⟩
    exact exists_accepted_of_isProgram h
  · intro p h
    have hprogram := isProgram_of_accepted hts h
    exact ⟨hprogram, hprogram.kinds⟩

def openBranch : List Token :=
  [⟨.identifier, "f"⟩, ⟨.leftParen, "("⟩, ⟨.text, "x"⟩, ⟨.rightParen, ")"⟩, ⟨.ifWord, "if"⟩,
    ⟨.trueWord, "true"⟩, ⟨.thenWord, "then"⟩, ⟨.identifier, "f"⟩]

lemma isProgram_openBranch :
    IsProgram openBranch
      ⟨[.expression "f" (.call "(" (.named "f") [.string "x"]),
        .expression "if" (.conditional "if" (.boolean "true" true)
          (.mk ⟨.thenWord, "then"⟩ [.expression "f" (.named "f")]) none)]⟩ :=
  .cons (.expression (.call .named (.some (.last .string))) .none)
    (.cons (.expression
      (.conditional .trueWord (.atEnd (.cons (.expression .named .none) .nil))) .none) .nil)

theorem openBranch_accepted :
    Endless openBranch ∧ (∃ p, IsProgram openBranch p) ∧
      ∃ p, Program.accepted (Program.ofTokens openBranch) = .ok p := by
  have hts : Endless openBranch := by simp [Endless, openBranch]
  have hprogram : ∃ p, IsProgram openBranch p := ⟨_, isProgram_openBranch⟩
  exact ⟨hts, hprogram, (accepted_iff_sentence hts).1.2 hprogram⟩

end Grammar

end MiniPascal
