import MiniPascal.Proofs.Store.Nearest

namespace MiniPascal

namespace Store

inductive Ascends (s : Store) : ScopeId → List ScopeId → Prop
  | root {i} : i < s.size → s.parent? i = none → Ascends s i [i]
  | parent {i parent path} : s.parent? i = some parent → Ascends s parent path →
    Ascends s i (i :: path)

def Within (s : Store) : ScopeId → ScopeId → Prop :=
  Relation.TransGen fun i parent => s.parent? i = some parent

/-- The search for a name, in a scope and then from its parent on whichever scope that is, comes to
an end: the scopes that are looked into, in this order, and what is found. -/
inductive Searches (s : Store) (name : String) :
    ScopeId → List ScopeId → Option (ScopeId × Binding) → Prop
  | found {i b} : s.bindingAt? i name = some b → Searches s name i [i] (some (i, b))
  | nowhere {i} : s.bindingAt? i name = none → s.parent? i = none → Searches s name i [i] none
  | onward {i parent visited found} : s.bindingAt? i name = none → s.parent? i = some parent →
    Searches s name parent visited found → Searches s name i (i :: visited) found

/-- From a scope on, looking up a name and assigning to it look into the scopes `visited`, once each
and in the order in which they lie over one another, and go by what is `found`. -/
structure Resolves (s : Store) (i : ScopeId) (name : String) (visited : List ScopeId)
    (found : Option (ScopeId × Binding)) : Prop where
  searches : s.Searches name i visited found
  only {visited' : List ScopeId} {found' : Option (ScopeId × Binding)} :
    s.Searches name i visited' found' → visited' = visited ∧ found' = found
  once : visited.Nodup
  on_chain : visited <+: s.chain i
  get : s.get? i name = found.map (·.2.value)
  assign (v : Value) : s.assign i name v =
    match found with
    | none => (some (.notFound name), s)
    | some (holder, b) =>
      if b.constant then (some (.constantAssignment name), s)
      else (none, s.put holder name ⟨v, false⟩)

variable {s : Store} {i j : ScopeId} {name : String} {path visited visited' : List ScopeId}
  {found found' : Option (ScopeId × Binding)}

lemma Within.lt (hs : s.Ordered) (h : s.Within i j) : j < i := by
  induction h with
  | single hparent => exact hs hparent
  | tail _ hparent ih => exact (hs hparent).trans ih

lemma not_within_self (hs : s.Ordered) : ¬ s.Within i i := fun h => (h.lt hs).false

-- The guard in `chain` stops nothing.
lemma chain_eq_cons (hs : s.Ordered) (hi : i < s.size) :
    s.chain i = i :: ((s.parent? i).map s.chain).getD [] := by
  have hscope : s.scopes[i]? = some s.scopes[i] := Array.getElem?_eq_getElem hi
  rw [chain, parent?, hscope, Option.bind_some]
  cases hparent : s.scopes[i].parent with
  | none => simp [hparent]
  | some parent =>
    have hlt : parent < i := hs (by rw [parent?, hscope]; exact hparent)
    simp [hparent, hlt]

lemma ascends_chain (hs : s.Ordered) (hi : i < s.size) : s.Ascends i (s.chain i) := by
  induction i using Nat.strongRecOn with
  | ind i ih =>
    rw [chain_eq_cons hs hi]
    cases hparent : s.parent? i with
    | none => exact .root hi hparent
    | some parent => exact .parent hparent (ih parent (hs hparent) ((hs hparent).trans hi))

namespace Ascends

lemma le_of_mem (hs : s.Ordered) (h : s.Ascends i path) (hj : j ∈ path) : j ≤ i := by
  induction h with
  | root => exact (List.mem_singleton.1 hj).le
  | parent hparent _ ih =>
    rcases List.mem_cons.1 hj with rfl | hj
    · exact Nat.le_refl _
    · exact (ih hj).trans (hs hparent).le

lemma nodup (hs : s.Ordered) (h : s.Ascends i path) : path.Nodup := by
  induction h with
  | root => exact List.nodup_singleton _
  | parent hparent hpath ih =>
    refine List.nodup_cons.2 ⟨fun hmem => ?_, ih⟩
    exact absurd (hpath.le_of_mem hs hmem) (Nat.not_le_of_lt (hs hparent))

end Ascends

namespace Searches

lemma unique (h : s.Searches name i visited found) (h' : s.Searches name i visited' found') :
    visited' = visited ∧ found' = found := by
  induction h generalizing visited' with
  | found hb =>
    cases h' with
    | found hb' =>
      cases hb.symm.trans hb'
      exact ⟨rfl, rfl⟩
    | nowhere hnone | onward hnone => cases hb.symm.trans hnone
  | nowhere hnone hroot =>
    cases h' with
    | found hb => cases hb.symm.trans hnone
    | nowhere => exact ⟨rfl, rfl⟩
    | onward _ hparent => cases hroot.symm.trans hparent
  | onward hnone hparent _ ih =>
    cases h' with
    | found hb => cases hb.symm.trans hnone
    | nowhere _ hroot => cases hroot.symm.trans hparent
    | onward _ hparent' h' =>
      cases hparent.symm.trans hparent'
      obtain ⟨rfl, rfl⟩ := ih h'
      exact ⟨rfl, rfl⟩

lemma isPrefix (h : s.Searches name i visited found) (hpath : s.Ascends i path) :
    visited <+: path := by
  induction h generalizing path with
  | found | nowhere => cases hpath <;> exact ⟨_, rfl⟩
  | onward _ hparent _ ih =>
    cases hpath with
    | root _ hroot => cases hroot.symm.trans hparent
    | parent hparent' hpath =>
      cases hparent.symm.trans hparent'
      exact List.cons_prefix_cons.2 ⟨rfl, ih hpath⟩

end Searches

lemma exists_searches (hs : s.Ordered) (i : ScopeId) (name : String) :
    ∃ visited, s.Searches name i visited (s.find? i name) := by
  induction i using Nat.strongRecOn with
  | ind i ih =>
    rw [find?_eq hs]
    cases hb : s.bindingAt? i name with
    | some b => exact ⟨[i], .found hb⟩
    | none =>
      cases hparent : s.parent? i with
      | none => exact ⟨[i], .nowhere hb hparent⟩
      | some parent =>
        obtain ⟨visited, h⟩ := ih parent (hs hparent)
        exact ⟨i :: visited, .onward hb hparent h⟩

lemma exists_resolves (hs : s.Ordered) (hi : i < s.size) (name : String) :
    ∃ visited found, s.Resolves i name visited found := by
  obtain ⟨visited, h⟩ := exists_searches hs i name
  have hchain := ascends_chain hs hi
  have hprefix := h.isPrefix hchain
  have honce := (hchain.nodup hs).sublist hprefix.sublist
  exact ⟨visited, s.find? i name, h, h.unique, honce, hprefix, rfl, fun _ => rfl⟩

end Store

end MiniPascal
