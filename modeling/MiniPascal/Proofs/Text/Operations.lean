import MiniPascal.Proofs.Lexical.Slices

namespace MiniPascal

namespace Cursor

inductive Operation where
  | peek
  | peekNext
  | take
  | takeIf (target : Char)
  | takeWhile (p : Char → Bool)
  | takeUntil (p : Char → Bool)
  | offset
  | sliceFrom (start : ℕ)
  | save
  | restore (copy : ℕ)

inductive Answer where
  | nothing
  | character (found : Option (ℕ × Char))
  | taken (found : Bool)
  | offset (bytes : ℕ)
  | text (found : Option String)
  deriving DecidableEq

structure Session where
  cursor : Cursor
  copies : List Cursor

namespace Session

def start (source : String) : Session := ⟨.ofString source, []⟩

def step (s : Session) : Operation → Answer × Session
  | .peek => (.character s.cursor.peek?, s)
  | .peekNext => (.character s.cursor.peekNext?, s)
  | .take => (.character s.cursor.peek?, { s with cursor := s.cursor.advance })
  | .takeIf target =>
    match s.cursor.takeIf? target with
    | some c => (.taken true, { s with cursor := c })
    | none => (.taken false, s)
  | .takeWhile p => (.nothing, { s with cursor := s.cursor.takeWhile p })
  | .takeUntil p => (.nothing, { s with cursor := s.cursor.takeUntil p })
  | .offset => (.offset s.cursor.offset, s)
  | .sliceFrom start => (.text (s.cursor.sliceFrom? start), s)
  | .save => (.nothing, { s with copies := s.copies ++ [s.cursor] })
  | .restore copy => (.nothing, { s with cursor := s.copies.getD copy s.cursor })

def run (s : Session) (operations : List Operation) : Session :=
  operations.foldl (fun s operation => (s.step operation).2) s

variable {source : String} {s : Session}

structure Over (source : String) (s : Session) : Prop where
  cursor : s.cursor.Over source
  copies : ∀ c ∈ s.copies, c.Over source

lemma exists_passes (s : Session) {operation : Operation}
    (h : ∀ copy, operation ≠ .restore copy) :
    ∃ w, Passes s.cursor w (s.step operation).2.cursor := by
  cases operation with
  | take => exact passes_advance s.cursor
  | takeIf target =>
    rw [step]
    cases htake : s.cursor.takeIf? target with
    | none => exact ⟨[], .refl _⟩
    | some c => exact ⟨[target], passes_takeIf? htake⟩
  | takeWhile p => exact ⟨_, passes_takeWhile _ p⟩
  | takeUntil p => exact ⟨_, passes_takeWhile _ _⟩
  | restore copy => exact absurd rfl (h copy)
  | _ => exact ⟨[], .refl _⟩

lemma copies_step (s : Session) {operation : Operation} (h : operation ≠ .save) :
    (s.step operation).2.copies = s.copies := by
  cases operation with
  | takeIf target =>
    rw [step]
    split <;> rfl
  | save => exact absurd rfl h
  | _ => rfl

lemma Over.step (h : s.Over source) (operation : Operation) :
    (s.step operation).2.Over source where
  cursor := by
    by_cases hrestore : ∃ copy, operation = .restore copy
    · obtain ⟨copy, rfl⟩ := hrestore
      change (s.copies.getD copy s.cursor).Over source
      rw [List.getD_eq_getElem?_getD]
      cases hcopy : s.copies[copy]? with
      | none => exact h.cursor
      | some c => exact h.copies c (List.mem_of_getElem? hcopy)
    · obtain ⟨w, hpasses⟩ := s.exists_passes (not_exists.1 hrestore)
      exact hpasses.over h.cursor
  copies := by
    by_cases hsave : operation = .save
    · subst hsave
      intro c hc
      rcases List.mem_append.1 hc with hc | hc
      · exact h.copies c hc
      · rw [List.mem_singleton.1 hc]
        exact h.cursor
    · rw [s.copies_step hsave]
      exact h.copies

lemma Over.run (h : s.Over source) (operations : List Operation) :
    (s.run operations).Over source := by
  induction operations generalizing s with
  | nil => exact h
  | cons operation operations ih => exact ih (h.step operation)

lemma over_start (source : String) : (start source).Over source :=
  ⟨.start source, List.forall_mem_nil _⟩

end Session

/-- After any operations, the cursor has passed a beginning of its source and has the rest before
it. It knows the length in bytes of what it has passed; looking leaves it where it is, and it moves
back only to where a copy was put aside. It gives the part of the source from `k` on exactly if `k`
is a boundary that it has passed, so scanning never asks for a part that is not there. -/
theorem session_exact (source : String) :
    (∀ operations : List Operation, ∀ s, s = (Session.start source).run operations →
      s.cursor.passed ++ s.cursor.rest = source ∧
      (s.step .offset).1 = .offset s.cursor.passed.utf8ByteSize ∧
      (∀ k, (s.step (.sliceFrom k)).1 =
        .text (Text.slice? source k s.cursor.passed.utf8ByteSize)) ∧
      (∀ k, (Text.slice? source k s.cursor.passed.utf8ByteSize).isSome = true ↔
        k ≤ s.cursor.passed.utf8ByteSize ∧ String.Pos.Raw.IsValid source ⟨k⟩) ∧
      (∀ k text, Text.slice? source k s.cursor.passed.utf8ByteSize = some text →
        ∃ u, s.cursor.passed = u ++ text ∧ u.utf8ByteSize = k) ∧
      (s.step .peek).2 = s ∧ (s.step .peekNext).2 = s ∧ (s.step .offset).2 = s ∧
      (∀ k, (s.step (.sliceFrom k)).2 = s) ∧
      ∀ operation, (∀ copy, operation ≠ .restore copy) →
        ∃ w, (s.step operation).2.cursor.passed = s.cursor.passed ++ w) ∧
    ∀ n, nextTokens? n (.ofString source) = some (nextTokens n (.ofString source)) := by
  refine ⟨?_, fun n => nextTokens?_eq n _⟩
  rintro operations s rfl
  have hover := ((Session.over_start source).run operations).cursor
  have hslice (k : ℕ) := hover.sliceFrom? k
  rw [hover.offset] at hslice
  refine ⟨hover.text, congrArg Answer.offset hover.offset, fun k => congrArg Answer.text (hslice k),
    fun k => ?_, fun k text htext => ?_, rfl, rfl, rfl, fun _ => rfl, fun operation hop => ?_⟩
  · rw [← hslice, hover.isSome_sliceFrom?_iff, hover.offset]
  · rw [← hslice] at htext
    exact hover.exists_of_sliceFrom? htext
  · obtain ⟨w, hpasses⟩ := Session.exists_passes _ hop
    exact ⟨_, hpasses.passed⟩

def accented : String := "é\"ß\"x"

-- To the end, back behind the first character, and over the quoted part.
def rereading : List Operation :=
  [.take, .save, .takeUntil (· == 'x'), .take, .peekNext, .restore 0, .takeIf '"',
    .takeUntil (· == '"'), .takeIf '"']

def reread : Session := (Session.start accented).run rereading

theorem session_exact_reread :
    (reread.step .offset).1 = .offset 6 ∧
      (reread.step (.sliceFrom 2)).1 = .text (some "\"ß\"") ∧
      (reread.step (.sliceFrom 1)).1 = .text none ∧
      (∃ u, reread.cursor.passed = u ++ "\"ß\"" ∧ u.utf8ByteSize = 2) ∧
      (∃ w, (reread.step .take).2.cursor.passed = reread.cursor.passed ++ w) ∧
      nextTokens? 3 (.ofString accented) = some (nextTokens 3 (.ofString accented)) := by
  obtain ⟨hoperations, htokens⟩ := session_exact accented
  obtain ⟨-, hoffset, hslice, -, hpart, -, -, -, -, hforward⟩ := hoperations rereading reread rfl
  have hpassed : reread.cursor.passed = "é\"ß\"" := by decide +kernel
  have hquoted : Text.slice? accented 2 reread.cursor.passed.utf8ByteSize = some "\"ß\"" := by
    decide +kernel
  have hinside : Text.slice? accented 1 reread.cursor.passed.utf8ByteSize = none := by
    decide +kernel
  refine ⟨?_, ?_, ?_, hpart 2 _ hquoted, hforward .take nofun, htokens 3⟩
  · rw [hoffset, hpassed]
    rfl
  · rw [hslice, hquoted]
  · rw [hslice, hinside]

end Cursor

end MiniPascal
