import MiniPascal.Proofs.Evaluation.Propagation
import MiniPascal.Proofs.Evaluation.Returned

namespace MiniPascal

namespace Program

open Run

variable {n : ℕ}

/-- The statements are run one after the other, up to the first that gives an error or a `return`:
this is `stop`, and `os` is what the statements before have given. -/
inductive Executes (n : ℕ) :
    List Stmt → Machine → List (Option Value) → (stop : Option Value) → Machine → Prop
  | all {m} : Executes n [] m [] none m
  | stop {s rest m v m'} : s.exec (callWithin n) n m = some (some v, m') → v.isAbrupt = true →
    Executes n (s :: rest) m [] (some v) m'
  | next {s rest m o m₁ os stop m'} : s.exec (callWithin n) n m = some (o, m₁) →
    o.any Value.isAbrupt = false → Executes n rest m₁ os stop m' →
    Executes n (s :: rest) m (o :: os) stop m'

variable {m m' : Machine} {ss : List Stmt} {os : List (Option Value)} {stop o : Option Value}
  {values : List Value}

namespace Executes

lemma normal (h : Executes n ss m os stop m') : ∀ o ∈ os, o.any Value.isAbrupt = false := by
  induction h with
  | all | stop => exact List.forall_mem_nil _
  | next _ ho _ ih => exact List.forall_mem_cons.2 ⟨ho, ih⟩

lemma execAll (h : Executes n ss m os stop m') (before : Option Value) :
    Stmt.execAll (callWithin n) n before ss m = some (stop.or (os.getLast?.getD before), m') := by
  induction h generalizing before with
  | all => rfl
  | stop hs hv => exact next_of_abrupt hs hv
  | @next _ _ _ o _ _ _ _ hs ho _ ih =>
    rw [List.getLast?_cons]
    exact (next_of_normal hs ho).trans (ih o)

lemma outcomeOf (h : Executes n ss m os stop m') (before : Option Value) :
    outcomeOf n before ss m =
      some ((stop.map Value.unwrap).or (os.getLast?.getD before), m') := by
  induction h generalizing before with
  | all => rfl
  | stop hs hv => exact outcomeOf_of_abrupt before hs hv
  | @next _ _ _ o _ _ _ _ hs ho _ ih =>
    rw [List.getLast?_cons, outcomeOf_of_normal before hs ho, ih o]
    rfl

lemma valuesOf (h : Executes n ss m os stop m') :
    valuesOf n ss m = some (os.reduceOption ++ (stop.map Value.unwrap).toList, m') := by
  induction h with
  | all => rfl
  | stop hs hv => exact valuesOf_of_abrupt hs hv
  | @next _ _ _ o _ _ _ _ hs ho _ ih =>
    rw [valuesOf_cons hs ho, ih]
    cases o <;> rfl

lemma of_exec {s : Stmt} {rest : List Stmt} {m₁ : Machine}
    (hs : s.exec (callWithin n) n m = some (o, m₁))
    (hrest : o.any Value.isAbrupt = false → ∃ os stop, Executes n rest m₁ os stop m')
    (hstop : o.any Value.isAbrupt = true → m₁ = m') :
    ∃ os stop, Executes n (s :: rest) m os stop m' := by
  cases ho : o.any Value.isAbrupt with
  | false =>
    obtain ⟨os, stop, h⟩ := hrest ho
    exact ⟨_, _, .next hs ho h⟩
  | true =>
    obtain rfl := hstop ho
    obtain ⟨v, rfl, hv⟩ := (Option.any_eq_true _ _).1 ho
    exact ⟨_, _, .stop hs hv⟩

lemma of_execAll {before : Option Value}
    (h : Stmt.execAll (callWithin n) n before ss m = some (o, m')) :
    ∃ os stop, Executes n ss m os stop m' := by
  induction ss generalizing before m with
  | nil =>
    cases h
    exact ⟨_, _, .all⟩
  | cons s rest ih =>
    obtain ⟨⟨first, m₁⟩, hs, h⟩ := Option.bind_eq_some_iff.1 h
    dsimp only at h
    refine of_exec hs (fun ho => ?_) fun ho => ?_
    · rw [ho] at h
      exact ih h
    · rw [if_pos ho] at h
      cases h
      rfl

lemma of_outcomeOf {before : Option Value}
    (h : Program.outcomeOf n before ss m = some (o, m')) :
    ∃ os stop, Executes n ss m os stop m' := by
  induction ss generalizing before m with
  | nil =>
    cases h
    exact ⟨_, _, .all⟩
  | cons s rest ih =>
    obtain ⟨⟨first, m₁⟩, hs, -⟩ := Option.bind_eq_some_iff.1 h
    refine of_exec hs (fun ho => ?_) fun ho => ?_
    · rw [outcomeOf_of_normal before hs ho] at h
      exact ih h
    · obtain ⟨v, rfl, hv⟩ := (Option.any_eq_true _ _).1 ho
      rw [outcomeOf_of_abrupt before hs hv] at h
      cases h
      rfl

lemma of_valuesOf (h : Program.valuesOf n ss m = some (values, m')) :
    ∃ os stop, Executes n ss m os stop m' := by
  induction ss generalizing m values with
  | nil =>
    cases h
    exact ⟨_, _, .all⟩
  | cons s rest ih =>
    obtain ⟨⟨first, m₁⟩, hs, -⟩ := Option.bind_eq_some_iff.1 h
    refine of_exec hs (fun ho => ?_) fun ho => ?_
    · rw [valuesOf_cons hs ho] at h
      obtain ⟨⟨others, m₂⟩, hrest, hr⟩ := Option.map_eq_some_iff.1 h
      cases hr
      exact ih hrest
    · obtain ⟨v, rfl, hv⟩ := (Option.any_eq_true _ _).1 ho
      rw [valuesOf_of_abrupt hs hv] at h
      cases h
      rfl

lemma eq_of_error_mem {message : String} (h : Executes n ss m os stop m')
    (hmem : some (.error message) ∈ os ++ [stop]) : stop = some (.error message) := by
  rcases List.mem_append.1 hmem with hmem | hmem
  · have hnormal := h.normal _ hmem
    cases hnormal
  · exact (List.mem_singleton.1 hmem).symm

-- A `return` that ends the run carries a proper value if nothing else has been bound before.
lemma proper (h : Executes n ss m os stop m') (hm : m.store.Clean) :
    ∀ w, stop = some (.returned w) → w.isAbrupt = false := by
  have hkept {s : Stmt} {m o m₁} (hs : s.exec (callWithin n) n m = some (o, m₁))
      (hm : m.store.Clean) : m₁.store.Clean ∧ ∀ v ∈ o, v.Wraps (s :: s.inner false) := by
    have hsound : Regime.clean.Sound m.depth _ ((Phrase.stmt s).run n) :=
      Regime.sound_run (.inl trivial) (.stmt s) fun _ _ => trivial
    obtain ⟨hfit, hwraps⟩ := hsound.result ⟨hm, rfl⟩ hs
    exact ⟨hfit.store, hwraps⟩
  induction h with
  | all => exact nofun
  | stop hs _ =>
    rintro w ⟨⟩
    exact ((hkept hs hm).2 _ rfl w rfl).1
  | next hs _ _ ih => exact ih (hkept hs hm).1

lemma getLast?_isError (h : Executes n ss m os stop m') (hm : m.store.Clean) :
    (os.reduceOption ++ (stop.map Value.unwrap).toList).getLast?.any Value.isError = true ↔
      ∃ message, stop = some (.error message) := by
  have herror : stop.any Value.isError = true ↔ ∃ message, stop = some (.error message) := by
    cases stop with
    | none => simp
    | some v => cases v <;> simp [Value.isError]
  rw [← herror]
  cases stop with
  | none =>
    have hvalues : ∀ v ∈ os.reduceOption, v.isError = false := by
      intro v hv
      have hnormal := h.normal _ (List.reduceOption_mem_iff.1 hv)
      rw [Option.any_some, Value.isAbrupt, Bool.or_eq_false_iff] at hnormal
      exact hnormal.1
    have hlast : os.reduceOption.getLast?.any Value.isError = false := by
      rw [Option.any_eq_false]
      exact fun v hv => by simp [hvalues v (List.mem_of_mem_getLast? hv)]
    simp [hlast]
  | some v =>
    have hunwrap : v.unwrap.isError = v.isError := by
      cases v with
      | returned w =>
        have hproper := h.proper hm w rfl
        rw [Value.isAbrupt, Bool.or_eq_false_iff] at hproper
        exact hproper.1
      | _ => rfl
    simp [hunwrap]

end Executes

end Program

end MiniPascal
