import MiniPascal.Program.Source
import MiniPascal.Proofs.Reading.Stop

namespace MiniPascal

open Token Reading

namespace Token

/-- The tokens that a source of tokens delivers before the first end of input, or before it first
has none. -/
def beforeEnd (source : List (Option Token)) : List Token :=
  (delivered source).takeWhile (·.kind ≠ .endOfInput)

variable {ts : List Token} {source : List (Option Token)}

lemma delivered_map_some (ts : List Token) : delivered (ts.map some) = ts := by
  induction ts with
  | nil => rfl
  | cons t ts ih => exact congrArg (t :: ·) ih

lemma endless_beforeEnd : ∀ u ∈ beforeEnd source, u.kind ≠ .endOfInput := by
  intro u hu
  simpa using List.mem_takeWhile_imp hu

lemma delivered_eq (source : List (Option Token)) :
    delivered source = beforeEnd source ∨
      ∃ t k, t.kind = .endOfInput ∧ delivered source = beforeEnd source ++ t :: k := by
  have hsplit := List.takeWhile_append_dropWhile (p := fun t : Token => t.kind ≠ .endOfInput)
    (l := delivered source)
  cases hrest : (delivered source).dropWhile fun t => t.kind ≠ .endOfInput with
  | nil =>
    rw [hrest, List.append_nil] at hsplit
    exact .inl hsplit.symm
  | cons t k =>
    rw [hrest] at hsplit
    have hhead :=
      List.head?_dropWhile_not (fun t : Token => t.kind ≠ .endOfInput) (delivered source)
    rw [hrest] at hhead
    exact .inr ⟨t, k, by simpa using hhead, hsplit.symm⟩

lemma beforeEnd_some (hts : ∀ u ∈ ts, u.kind ≠ .endOfInput) :
    beforeEnd (ts.map some) = ts := by
  rw [beforeEnd, delivered_map_some, List.takeWhile_eq_self_iff]
  simpa using hts

lemma beforeEnd_stop (hts : ∀ u ∈ ts, u.kind ≠ .endOfInput) (k : List Token) :
    beforeEnd ((ts ++ endOfInput :: k).map some) = ts := by
  rw [beforeEnd, delivered_map_some, List.takeWhile_append_of_pos]
  · simp [endOfInput]
  · simpa using hts

end Token

namespace Stmt

variable {ts : List Token}

lemma isLast_outside {t : Token} (ht : t.kind ≠ .endOfInput) : Within.isLast false t.kind = false :=
  Within.isLast_eq_false ht nofun

lemma illegals_lt (hts : ∀ u ∈ ts, u.kind ≠ .endOfInput) (h : ¬ Turns.LeaveEnd false ts) :
    illegals (readMany false ts).failures <
      illegals (readMany false (ts ++ [endOfInput, stray])).failures := by
  have hend : endOfInput.kind = .endOfInput := rfl
  refine turn_induction (motive := fun ts => ¬ Turns.LeaveEnd false ts →
    illegals (readMany false ts).failures <
      illegals (readMany false (ts ++ [endOfInput, stray])).failures)
    (.inr hend) [stray] ?_ ?_ (fun u hu => isLast_outside (hts u hu)) h
  · exact fun hnot => absurd Turns.leaveEnd_nil hnot
  · intro u rest hu hmeets ih hnot
    cases hmeets with
    | apart used _ hlast hy =>
      have hnext := ih fun hleave => hnot ((Turns.leaveEnd_cons hu).2 ⟨hlast, hleave⟩)
      rw [List.cons_append, readMany_turn_before (.inr hend) hu hy, readMany_turn hu]
      simp only [andThen, after, List.append_nil, illegals_append, Meets.illegals_before hend]
      exact Nat.add_lt_add_left hnext _
    | used hplace _ hstrays =>
      exact (readMany_strays (hstrays hend rfl) (congrArg Place.unread hplace) hu).2.2

end Stmt

namespace Program

variable {source : List (Option Token)}

def errors (ts : List Token) : List ParseError := (ofTokens ts).failures.map Failure.error

lemma ofTokens_beforeEnd (h : Turns.LeaveEnd false (beforeEnd source)) :
    (ofTokens (delivered source)).value = (ofTokens (beforeEnd source)).value ∧
      errors (delivered source) = errors (beforeEnd source) := by
  rcases delivered_eq source with hsource | ⟨t, k, ht, hsource⟩
  · rw [hsource]
    exact ⟨rfl, rfl⟩
  · have hread := Stmt.readMany_before (.inr ht) (by rw [ht]; rfl)
      (fun u hu => Stmt.isLast_outside (endless_beforeEnd u hu)) h k
    rw [hsource, errors, errors, ofTokens, ofTokens, hread]
    simp [Failure.before, ParseError.before_endOfInput ht, Function.comp_def]

/-- Two sources of tokens that agree up to the end of the input give the same program and the same
errors, whatever they deliver behind it, if and only if no statement of the program uses that
end. -/
theorem rest_unread_iff (source : List (Option Token)) :
    (∀ other, beforeEnd other = beforeEnd source →
      (ofTokens (delivered other)).value = (ofTokens (delivered source)).value ∧
      errors (delivered other) = errors (delivered source)) ↔
    Turns.LeaveEnd false (beforeEnd source) := by
  constructor
  · intro hsame
    by_contra hnot
    have hendless : ∀ u ∈ beforeEnd source, u.kind ≠ .endOfInput := endless_beforeEnd
    have halone := (hsame _ (beforeEnd_some hendless)).2
    have hstray := (hsame _ (beforeEnd_stop hendless [stray])).2
    rw [delivered_map_some] at halone hstray
    have hcount (fs : List Failure) :
        illegals fs = (fs.map Failure.error).countP (·.got = .illegal) := by
      rw [List.countP_map]
      rfl
    have hlt := Stmt.illegals_lt hendless hnot
    rw [hcount, hcount] at hlt
    exact absurd (congrArg _ (halone.trans hstray.symm)) hlt.ne
  · intro hleave other hother
    have hsource := ofTokens_beforeEnd hleave
    rw [← hother] at hleave
    have hother' := ofTokens_beforeEnd hleave
    rw [hother] at hother'
    exact ⟨hother'.1.trans hsource.1.symm, hother'.2.trans hsource.2.symm⟩

-- The block takes the end of the input for its own end, and the loop goes on behind that.
theorem rest_read_behind_block :
    let source := [some ⟨.beginWord, "begin"⟩, some endOfInput]
    let other := [some ⟨.beginWord, "begin"⟩, some endOfInput, some ⟨.identifier, "x"⟩]
    beforeEnd other = beforeEnd source ∧
      (ofTokens (delivered source)).value =
        ⟨[.block (.mk ⟨.beginWord, "begin"⟩ [])]⟩ ∧
      (ofTokens (delivered other)).value =
        ⟨[.block (.mk ⟨.beginWord, "begin"⟩ []), .expression "x" (.named "x")]⟩ := by
  refine ⟨?_, ?_, ?_⟩ <;> cbv

end Program

end MiniPascal
