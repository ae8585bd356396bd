import MiniPascal.Proofs.Evaluation.Closed

namespace MiniPascal

open Run

/-- From `m` the statements run to their end, without an error or a `return`, and leave `m'`. -/
def Program.Completes (n : Nat) (p : Program) (m m' : Machine) : Prop :=
  ∃ outcome, p.execStatements n m = some (outcome, m') ∧ outcome.any Value.isAbrupt = false

namespace Program

variable {n : Nat} {m m' : Machine} {s : Stmt} {ss rest : List Stmt} {before outcome : Option Value}

lemma valuesOf_cons (hs : s.exec (callWithin n) n m = some (outcome, m'))
    (h : outcome.any Value.isAbrupt = false) :
    valuesOf n (s :: rest) m = (valuesOf n rest m').map fun r => (outcome.toList ++ r.1, r.2) := by
  rw [valuesOf, bind_apply, hs, Option.bind_some]
  cases outcome with
  | none => simp
  | some v =>
    have hvalue : (valuesOf n rest >>= fun values => pure (v :: values)) m' =
        (valuesOf n rest m').map fun r => (v :: r.1, r.2) := by
      rw [bind_apply]
      cases valuesOf n rest m' <;> rfl
    cases v with
    | returned v => cases h
    | error message => cases h
    | _ => exact hvalue

lemma execAll_cons (h : Stmt.execAll (callWithin n) n before (s :: rest) m = some (outcome, m'))
    (ho : outcome.any Value.isAbrupt = false) :
    ∃ first m₁, s.exec (callWithin n) n m = some (first, m₁) ∧ first.any Value.isAbrupt = false ∧
      Stmt.execAll (callWithin n) n first rest m₁ = some (outcome, m') := by
  rw [Stmt.execAll, bind_apply, Option.bind_eq_some_iff] at h
  obtain ⟨⟨first, m₁⟩, hs, h⟩ := h
  refine ⟨first, m₁, hs, ?_⟩
  dsimp only at h
  split at h
  · next hfirst =>
    cases h
    rw [hfirst] at ho
    cases ho
  · next hfirst => exact ⟨by simpa using hfirst, h⟩

lemma exists_valuesOf (h : Stmt.execAll (callWithin n) n before ss m = some (outcome, m'))
    (ho : outcome.any Value.isAbrupt = false) :
    ∃ values : List Value, (∀ v ∈ values, v.isAbrupt = false) ∧
      ∀ rest, valuesOf n (ss ++ rest) m =
        (valuesOf n rest m').map fun r => (values ++ r.1, r.2) := by
  induction ss generalizing before m with
  | nil =>
    cases h
    exact ⟨[], nofun, fun rest => by simp⟩
  | cons s ss ih =>
    obtain ⟨first, m₁, hs, hfirst, h⟩ := execAll_cons h ho
    obtain ⟨values, hvalues, hrest⟩ := ih h
    refine ⟨first.toList ++ values, ?_, fun rest => ?_⟩
    · intro v hv
      rcases List.mem_append.1 hv with hv | hv
      · rw [Option.mem_toList] at hv
        simpa [hv] using hfirst
      · exact hvalues v hv
    · rw [List.cons_append, valuesOf_cons hs hfirst, hrest, Option.map_map]
      congr 1
      funext r
      simp

lemma Completes.exists_values {p : Program} (h : p.Completes n m m') :
    ∃ values : List Value, (∀ v ∈ values, v.isAbrupt = false) ∧
      p.execEach n m = some (values, m') ∧
      ∀ q : Program, execEach n ⟨p.statements ++ q.statements⟩ m =
        (q.execEach n m').map fun r => (values ++ r.1, r.2) := by
  obtain ⟨outcome, hrun, ho⟩ := h
  obtain ⟨values, hvalues, hrest⟩ := exists_valuesOf hrun ho
  refine ⟨values, hvalues, ?_, fun q => hrest q.statements⟩
  have halone : valuesOf n (p.statements ++ []) m = some (values ++ [], m') := hrest []
  rwa [List.append_nil, List.append_nil] at halone

end Program

end MiniPascal
