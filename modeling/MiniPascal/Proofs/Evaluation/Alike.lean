import MiniPascal.Proofs.Evaluation.Calls
import MiniPascal.Proofs.Evaluation.Mirror

namespace MiniPascal

/-- Machines that differ at most in types and literals in their procedures and in the calls that are
recorded. -/
structure Machine.Alike (m m' : Machine) : Prop where
  store : m.store.bare = m'.store.bare
  current : m.current = m'.current
  depth : m.depth = m'.depth
  made : m.made = m'.made

namespace Machine.Alike

variable {m m' : Machine}

lemma bare (h : m.Alike m') : m'.bare = m.bare.withCalls m'.calls := by
  obtain ⟨hstore, hcurrent, hdepth, hmade⟩ := h
  rw [Machine.bare, Machine.bare, ← hstore, ← hcurrent, ← hdepth, ← hmade]
  rfl

lemma of_bare {calls : List CallRecord} (h : m'.bare = m.bare.withCalls calls) : m.Alike m' where
  store := (congrArg Machine.store h).symm
  current := (congrArg Machine.current h).symm
  depth := (congrArg Machine.depth h).symm
  made := (congrArg Machine.made h).symm

end Machine.Alike

namespace Run

variable {α β : Type} {view : α → β}

def EndAlike (view : α → β) : (end₁ end₂ : Option (α × Machine)) → Prop :=
  Option.Rel fun r₁ r₂ => view r₁.1 = view r₂.1 ∧ r₁.2.Alike r₂.2

lemma Mirrors.endAlike {x₁ x₂ : Run α} {y : Run β} (h₁ : Mirrors view x₁ y) (h₂ : Mirrors view x₂ y)
    (hy : IgnoresCalls y) {m₁ m₂ : Machine} (hm : m₁.Alike m₂) :
    EndAlike view (x₁ m₁) (x₂ m₂) := by
  -- Both go the way of `y` on bare machines, and those differ in the record of calls at most.
  obtain ⟨calls, hends⟩ := hy m₁.bare m₂.calls
  rw [← hm.bare, h₂ m₂, h₁ m₁, Option.map_map] at hends
  cases hx₁ : x₁ m₁ with
  | none =>
    rw [hx₁] at hends
    rw [Option.map_eq_none_iff.1 hends]
    exact .none
  | some r₁ =>
    rw [hx₁, Option.map_some, Option.map_eq_some_iff] at hends
    obtain ⟨r₂, hx₂, hends⟩ := hends
    obtain ⟨hview, hmachine⟩ := Prod.mk.inj hends
    rw [hx₂]
    exact .some ⟨hview.symm, .of_bare hmachine⟩

end Run

namespace Program

open Run

/-- Programs that differ only in types and literals do the same on machines that differ only there:
each is cut off where the other is, and values, errors and scopes are the same, but for the types
and literals in procedures. -/
theorem runs_alike {p q : Program} (hp : p.bare = q.bare) {m m' : Machine} (hm : m.Alike m')
    (n : ℕ) :
    EndAlike (Option.map Value.bare) (p.exec n m) (q.exec n m') ∧
      EndAlike (List.map Value.bare) (p.execEach n m) (q.execEach n m') ∧
      EndAlike (Option.map Value.bare) (p.execStatements n m) (q.execStatements n m') := by
  have hexec := q.exec_bare n
  have heach := q.execEach_bare n
  have hstatements := q.execStatements_bare n
  rw [← hp] at hexec heach hstatements
  have hcalls := IgnoresCalls.closed
  exact ⟨(p.exec_bare n).endAlike hexec (hcalls.outcomeOf n none _) hm,
    (p.execEach_bare n).endAlike heach (hcalls.valuesOf n _) hm,
    (p.execStatements_bare n).endAlike hstatements (hcalls.execAll (hcalls.callWithin n) none _)
      hm⟩

def knowing (type : NumericType) (word : String) : Machine where
  store := ⟨#[⟨[("twice", ⟨.procedure
      ⟨0, ⟨word, "twice", [⟨"x", type⟩]⟩, .mk ⟨.beginWord, word⟩
        [.giveBack word (.infixed word .multiply (.named "x") (.integer word 2))], 0⟩,
      false⟩)], none⟩]⟩
  current := 0
  depth := 0
  made := 1
  calls := []

def comparing (type : NumericType) (word : String) : Program where
  statements :=
    [.expression word (.procedure ⟨word, "other", [⟨"x", type⟩]⟩ (.mk ⟨.beginWord, word⟩ [])),
    .expression word (.conditional word (.infixed word .equalTo (.named "other") (.named "twice"))
      (.mk ⟨.beginWord, word⟩ [])
      (some (.mk ⟨.beginWord, word⟩
        [.declare word true "y" type (.call word (.named "twice") [.integer word 3]),
        .expression word (.named "y")])))]

theorem runs_alike_comparing :
    (comparing .integer "").bare = (comparing .real "a").bare ∧
      (knowing .integer "").Alike (knowing .real "a") ∧
      ((comparing .real "a").execEach 2 (knowing .real "a")).map (·.1.map Value.text) =
        some ["a other(x: real)", "6"] ∧
      ((comparing .integer "").execEach 2 (knowing .integer "")).map (·.1.map Value.text) =
        some [" other(x: integer)", "6"] ∧
      EndAlike (List.map Value.bare) ((comparing .integer "").execEach 2 (knowing .integer ""))
        ((comparing .real "a").execEach 2 (knowing .real "a")) := by
  have hbare : (comparing .integer "").bare = (comparing .real "a").bare := rfl
  have halike : (knowing .integer "").Alike (knowing .real "a") := by
    refine ⟨?_, rfl, rfl, rfl⟩
    rw [Store.bare, Store.bare, knowing, knowing, List.map_toArray, List.map_toArray]
    rfl
  refine ⟨hbare, halike, ?_, ?_, (runs_alike hbare halike 2).2.1⟩
  · decide +kernel
  · decide +kernel

end Program

end MiniPascal
