import MiniPascal.Proofs.Program.Ending

namespace MiniPascal

open Token Reading

/-- The reading `z` gives what `x` and then what `y` gives, except that errors of `x` that speak of
the end of the input speak of `t` instead. -/
structure Reading.Joined (t : Token) (x y z : Reading (List Stmt)) : Prop where
  value : z.value = x.value ++ y.value
  place : z.place = y.place
  errors : z.failures.map Failure.error =
    x.failures.map (fun f => f.error.before t) ++ y.failures.map Failure.error

namespace Stmt

variable {ts : List Token}

lemma leaveEnd_iff (hts : ∀ u ∈ ts, Within.isLast true u.kind = false)
    (hopen : ∀ u ∈ ts, u.kind ∉ openers) :
    Turns.LeaveEnd true ts ↔
      ∀ f ∈ (readMany true ts).failures, f.error ≠ .noOperand .endOfInput := by
  refine turn_induction (motive := fun ts => (∀ u ∈ ts, u.kind ∉ openers) →
    (Turns.LeaveEnd true ts ↔
      ∀ f ∈ (readMany true ts).failures, f.error ≠ .noOperand .endOfInput))
    (t := endOfInput) (.inr rfl) [] ?_ ?_ hts hopen
  · intro _
    rw [readMany_nil]
    exact iff_of_true Turns.leaveEnd_nil (List.forall_mem_nil _)
  · intro u rest hu hmeets ih hopen
    have hnext := ih fun v hv => hopen v ((nextTurn_suffix_cons hmeets).mem hv)
    rw [Turns.leaveEnd_cons hu, readMany_turn hu]
    simp only [after, andThen, List.append_nil, List.forall_mem_append, hnext]
    refine and_congr_left fun _ => ?_
    cases hmeets with
    | apart used hts hlast _ _ hfailures hvalue =>
      refine iff_of_true hlast ?_
      have hused : openings used = 0 :=
        openings_eq_zero_iff.2 fun v hv => hopen v (hts ▸ List.mem_append_left _ hv)
      rw [recorded, hfailures (Int.le_refl 0) hused, List.nil_append]
      split
      · exact List.forall_mem_nil _
      · next e he =>
        exact List.forall_mem_singleton.2 fun h => hvalue (he.trans (congrArg Except.error h))
    | used hplace hplain _ =>
      obtain ⟨hx, _⟩ := hplain (Int.le_refl 0) (openings_eq_zero_iff.2 hopen)
      refine iff_of_false (fun h => h (congrArg Place.last hplace)) ?_
      rw [hx]
      intro h
      exact h _ List.mem_cons_self rfl

lemma readMany_lost (hts : ∀ u ∈ ts, Within.isLast true u.kind = false)
    (hopen : ∀ u ∈ ts, u.kind ∉ openers) (h : ¬ Turns.LeaveEnd true ts) (closer sign : String)
    (k : List Token) :
    Joined ⟨.endWord, closer⟩ (readMany true ts) (readMany true k)
      (readMany true (ts ++ ⟨.endWord, closer⟩ :: ⟨.semicolon, sign⟩ :: k)) := by
  have hstop : Place.IsStop (⟨.endWord, closer⟩ : Token).kind := .inl rfl
  refine turn_induction (motive := fun ts => (∀ u ∈ ts, u.kind ∉ openers) →
    ¬ Turns.LeaveEnd true ts → Joined ⟨.endWord, closer⟩ (readMany true ts) (readMany true k)
      (readMany true (ts ++ ⟨.endWord, closer⟩ :: ⟨.semicolon, sign⟩ :: k)))
    hstop (⟨.semicolon, sign⟩ :: k) ?_ ?_ hts hopen h
  · exact fun _ hnot => absurd Turns.leaveEnd_nil hnot
  · intro u rest hu hmeets ih hopen hnot
    have hnext := ih fun v hv => hopen v ((nextTurn_suffix_cons hmeets).mem hv)
    cases hmeets with
    | apart used hused hlast hy _ _ _ =>
      obtain ⟨hvalue, hplace, herrors⟩ :=
        hnext fun hleave => hnot ((Turns.leaveEnd_cons hu).2 ⟨hlast, hleave⟩)
      rw [List.cons_append, readMany_turn_before hstop hu hy, readMany_turn hu]
      refine ⟨?_, hplace, ?_⟩
      · simp [andThen, after, hvalue]
      · simp [andThen, after, herrors, Failure.before, Function.comp_def]
    | used hplace hplain _ =>
      obtain ⟨hx, hy⟩ := hplain (Int.le_refl 0) (openings_eq_zero_iff.2 hopen)
      have hgoes : (Within.statement u
          (rest ++ ⟨.endWord, closer⟩ :: ⟨.semicolon, sign⟩ :: k)).nextTurn = k :=
        Within.nextTurn_of_error hy
      rw [List.cons_append, readMany_turn hu, readMany_turn hu, hgoes,
        nextTurn_of_nil (congrArg Place.unread hplace), hx, hy, readMany_nil]
      refine ⟨rfl, rfl, ?_⟩
      simp [after, andThen, recorded, fail, ParseError.before, ParseError.onKind, ParseError.got]

end Stmt

namespace Program

def enclosed (opener closer sign : String) (body rest : List Token) : List Token :=
  ⟨.beginWord, opener⟩ :: (body ++ ⟨.endWord, closer⟩ :: ⟨.semicolon, sign⟩ :: rest)

lemma ofTokens_block (opener : String) (ts : List Token) :
    let x := Stmt.readMany true ts
    let y := ofTokens x.place.skipSemicolon.unread
    (ofTokens (⟨.beginWord, opener⟩ :: ts)).value.statements =
        .block (.mk ⟨.beginWord, opener⟩ x.value) :: y.value.statements ∧
      (ofTokens (⟨.beginWord, opener⟩ :: ts)).failures = x.failures ++ y.failures := by
  intro x y
  have hread : Stmt.read ⟨.beginWord, opener⟩ ts =
      ⟨.ok (.block (.mk ⟨.beginWord, opener⟩ x.value)), x.place.skipSemicolon, x.failures⟩ := by
    rw [Stmt.read_beginWord, Block.read_eq]
    simp [andThen, Stmt.finish, done, x]
  rw [ofTokens, Stmt.readMany_of_ok rfl hread]
  simp [andThen, after, y, ofTokens]

variable {body : List Token}

lemma isLast_body (hbody : ∀ u ∈ body, IsPlain u.kind ∧ u.kind ≠ .endOfInput) :
    ∀ u ∈ body, Within.isLast true u.kind = false :=
  fun u hu => Within.isLast_eq_false (hbody u hu).2 fun _ => (hbody u hu).1.2

lemma leaveEnd_body_iff (hbody : ∀ u ∈ body, IsPlain u.kind ∧ u.kind ≠ .endOfInput) :
    Turns.LeaveEnd true body ↔ ∀ e ∈ errors body, e ≠ .noOperand .endOfInput := by
  have hlast := isLast_body hbody
  rw [Stmt.leaveEnd_iff hlast fun u hu => (hbody u hu).1.1, Stmt.readMany_inside hlast, errors]
  simp [ofTokens]

theorem block_absorbs {opener closer sign : String}
    (hbody : ∀ u ∈ body, IsPlain u.kind ∧ u.kind ≠ .endOfInput)
    (h : .noOperand .endOfInput ∈ errors body) (rest : List Token) :
    let more := Stmt.readMany true rest
    (ofTokens (enclosed opener closer sign body rest)).value.statements =
      .block (.mk ⟨.beginWord, opener⟩ ((ofTokens body).value.statements ++ more.value)) ::
        (ofTokens more.place.skipSemicolon.unread).value.statements := by
  intro more
  have hlast := isLast_body hbody
  have hlost : ¬ Turns.LeaveEnd true body :=
    fun hleave => (leaveEnd_body_iff hbody).1 hleave _ h rfl
  obtain ⟨hvalue, hplace, -⟩ :=
    Stmt.readMany_lost hlast (fun u hu => (hbody u hu).1.1) hlost closer sign rest
  rw [enclosed, (ofTokens_block opener _).1, hvalue, hplace, Stmt.readMany_inside hlast]
  rfl

/-- The `end` behind the statements of a block closes it, so that what stands behind the block is
read as without it, if and only if no operand is missing right before that `end`. Then the
statements of the block are those of the body alone, and so are the errors in it, except that they
speak of `end` instead of the end of the input. -/
theorem block_closes_iff (hbody : ∀ u ∈ body, IsPlain u.kind ∧ u.kind ≠ .endOfInput)
    (opener closer sign : String) :
    ((∀ rest, ∃ block own,
        (ofTokens (enclosed opener closer sign body rest)).value.statements =
          .block block :: (ofTokens rest).value.statements ∧
        errors (enclosed opener closer sign body rest) = own ++ errors rest) ↔
      .noOperand .endOfInput ∉ errors body) ∧
    (.noOperand .endOfInput ∉ errors body → ∀ rest,
      (ofTokens (enclosed opener closer sign body rest)).value.statements =
        .block (.mk ⟨.beginWord, opener⟩ (ofTokens body).value.statements) ::
          (ofTokens rest).value.statements ∧
      errors (enclosed opener closer sign body rest) =
        (errors body).map (ParseError.before ⟨.endWord, closer⟩) ++ errors rest) := by
  have hlast := isLast_body hbody
  have hclosed : .noOperand .endOfInput ∉ errors body → ∀ rest,
      (ofTokens (enclosed opener closer sign body rest)).value.statements =
        .block (.mk ⟨.beginWord, opener⟩ (ofTokens body).value.statements) ::
          (ofTokens rest).value.statements ∧
      errors (enclosed opener closer sign body rest) =
        (errors body).map (ParseError.before ⟨.endWord, closer⟩) ++ errors rest := by
    intro hnot rest
    have hleave : Turns.LeaveEnd true body :=
      (leaveEnd_body_iff hbody).2 fun e he heq => hnot (heq ▸ he)
    have hread := Stmt.readMany_before (t := ⟨.endWord, closer⟩) (.inl rfl) rfl hlast hleave
      (⟨.semicolon, sign⟩ :: rest)
    obtain ⟨hstatements, hfailures⟩ := ofTokens_block opener
      (body ++ ⟨.endWord, closer⟩ :: ⟨.semicolon, sign⟩ :: rest)
    rw [hread, Stmt.readMany_inside hlast] at hstatements hfailures
    refine ⟨hstatements, ?_⟩
    rw [errors, enclosed, hfailures]
    simp [errors, ofTokens, Failure.before, Place.skipSemicolon, Function.comp_def]
  refine ⟨⟨fun h hmem => ?_, fun hnot rest => ?_⟩, hclosed⟩
  · obtain ⟨block, own, hstatements, -⟩ := h [⟨.trueWord, "true"⟩]
    have hone : (Stmt.readMany true [⟨.trueWord, "true"⟩]).place = .atEnd := by cbv
    have hmore : (ofTokens [⟨.trueWord, "true"⟩]).value.statements.length = 1 := by cbv
    rw [block_absorbs hbody hmem, hone] at hstatements
    have hnone : (ofTokens Place.atEnd.skipSemicolon.unread).value.statements = [] := by cbv
    have hlength := congrArg List.length hstatements
    rw [List.length_cons, List.length_cons, hmore, hnone] at hlength
    cases hlength
  · obtain ⟨hstatements, herrors⟩ := hclosed hnot rest
    exact ⟨_, _, hstatements, herrors⟩

-- A sign that begins nothing is left out before the `end`, a missing value only behind it.
theorem block_closes_tokens :
    (∀ u ∈ [⟨.rightParen, ")"⟩], IsPlain (Token.kind u) ∧ u.kind ≠ .endOfInput) ∧
      (∀ u ∈ [⟨.returnWord, "return"⟩], IsPlain (Token.kind u) ∧ u.kind ≠ .endOfInput) ∧
      (∀ rest,
        (ofTokens (enclosed "begin" "end" ";" [⟨.rightParen, ")"⟩] rest)).value.statements =
          .block (.mk ⟨.beginWord, "begin"⟩ []) :: (ofTokens rest).value.statements ∧
        errors (enclosed "begin" "end" ";" [⟨.rightParen, ")"⟩] rest) =
          .noOperand .rightParen :: errors rest) ∧
      ¬ ∀ rest, ∃ block own,
        (ofTokens (enclosed "begin" "end" ";" [⟨.returnWord, "return"⟩] rest)).value.statements =
          .block block :: (ofTokens rest).value.statements ∧
        errors (enclosed "begin" "end" ";" [⟨.returnWord, "return"⟩] rest) =
          own ++ errors rest := by
  have hsign : ∀ u ∈ [⟨.rightParen, ")"⟩], IsPlain (Token.kind u) ∧ u.kind ≠ .endOfInput := by
    decide
  have hreturn : ∀ u ∈ [⟨.returnWord, "return"⟩], IsPlain (Token.kind u) ∧
      u.kind ≠ .endOfInput := by
    decide
  have herrors : errors [⟨.rightParen, ")"⟩] = [.noOperand .rightParen] := by cbv
  have hbody : (ofTokens [⟨.rightParen, ")"⟩]).value.statements = [] := by cbv
  have hlost : errors [⟨.returnWord, "return"⟩] = [.noOperand .endOfInput] := by cbv
  refine ⟨hsign, hreturn, fun rest => ?_, fun h => ?_⟩
  · have hclosed := (block_closes_iff hsign "begin" "end" ";").2 (by rw [herrors]; decide) rest
    rw [hbody, herrors] at hclosed
    exact hclosed
  · have hnot := (block_closes_iff hreturn "begin" "end" ";").1.1 h
    rw [hlost] at hnot
    exact hnot List.mem_cons_self

theorem block_absorbs_name :
    errors [⟨.returnWord, "return"⟩] = [.noOperand .endOfInput] ∧
      (ofTokens [⟨.identifier, "x"⟩]).value.statements = [.expression "x" (.named "x")] ∧
      (ofTokens (enclosed "begin" "end" ";" [⟨.returnWord, "return"⟩]
          [⟨.identifier, "x"⟩])).value.statements =
        [.block (.mk ⟨.beginWord, "begin"⟩ [.expression "x" (.named "x")])] := by
  refine ⟨?_, ?_, ?_⟩ <;> cbv

end Program

end MiniPascal
