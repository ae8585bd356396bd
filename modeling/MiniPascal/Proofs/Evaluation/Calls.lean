import MiniPascal.Proofs.Evaluation.Closed
/-! The record of the calls made so far has no effect on what is evaluated. -/

namespace MiniPascal

def Machine.withCalls (m : Machine) (calls : List CallRecord) : Machine := { m with calls := calls }

namespace Run

variable {α β : Type}

def IgnoresCalls (x : Run α) : Prop :=
  ∀ m calls, ∃ calls', x (m.withCalls calls) = (x m).map fun r => (r.1, r.2.withCalls calls')

namespace IgnoresCalls

lemma bind {x : Run α} {f : α → Run β} (hx : IgnoresCalls x) (hf : ∀ a, IgnoresCalls (f a)) :
    IgnoresCalls (x >>= f) := by
  intro m calls
  obtain ⟨calls₁, hm⟩ := hx m calls
  cases h : x m with
  | none =>
    refine ⟨[], ?_⟩
    simp [bind_apply, hm, h]
  | some r =>
    obtain ⟨calls₂, hn⟩ := hf r.1 r.2 calls₁
    refine ⟨calls₂, ?_⟩
    simp [bind_apply, hm, h, hn]

lemma inScope (parent : ScopeId) {x : Run α} (hx : IgnoresCalls x) :
    IgnoresCalls (inScope parent x) := by
  intro m calls
  obtain ⟨calls', h⟩ := hx (m.openScope parent).2 calls
  refine ⟨calls', ?_⟩
  rw [inScope_apply, inScope_apply]
  change Option.map _ (x ((m.openScope parent).2.withCalls calls)) = _
  rw [h, Option.map_map, Option.map_map]
  rfl

lemma deeper {x : Run α} (hx : IgnoresCalls x) : IgnoresCalls (deeper x) := by
  intro m calls
  obtain ⟨calls', h⟩ := hx { m with depth := m.depth + 1 } calls
  refine ⟨calls', ?_⟩
  rw [deeper_apply, deeper_apply]
  change Option.map _ (x (Machine.withCalls { m with depth := m.depth + 1 } calls)) = _
  rw [h, Option.map_map, Option.map_map]
  rfl

lemma closed : Closed IgnoresCalls where
  pure _ _ calls := ⟨calls, rfl⟩
  bind := bind
  cutOff _ _ := ⟨[], rfl⟩
  lookup _ _ calls := ⟨calls, rfl⟩
  define _ _ _ calls := ⟨calls, rfl⟩
  declare _ _ _ _ calls := ⟨calls, rfl⟩
  assign _ _ _ calls := ⟨calls, rfl⟩
  close _ _ _ calls := ⟨calls, rfl⟩
  record call _ calls := ⟨call :: calls, rfl⟩
  current _ calls := ⟨calls, rfl⟩
  depth _ calls := ⟨calls, rfl⟩
  inScope := inScope
  deeper := deeper

end IgnoresCalls

end Run

lemma Program.execEach_withCalls {n : Nat} {p : Program} {m m' : Machine} {values : List Value}
    (h : p.execEach n (m.withCalls []) = some (values, m')) (calls : List CallRecord) :
    ∃ calls', p.execEach n (m.withCalls calls) = some (values, m'.withCalls calls') := by
  obtain ⟨calls', hrun⟩ :=
    Run.IgnoresCalls.closed.valuesOf n p.statements (m.withCalls []) calls
  refine ⟨calls', ?_⟩
  rw [execEach] at h
  rw [h] at hrun
  exact hrun

end MiniPascal
