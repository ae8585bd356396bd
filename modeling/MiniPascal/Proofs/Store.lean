import Mathlib
import MiniPascal.Store

namespace MiniPascal

namespace Scope

lemma lookup_cons_eq (name other : String) (b : Binding) (bs : List (String × Binding)) :
    List.lookup other ((name, b) :: bs) = if other = name then some b else bs.lookup other := by
  by_cases h : other = name
  · rw [if_pos h, h, List.lookup_cons_self]
  · rw [if_neg h, List.lookup_cons, beq_false_of_ne h]

lemma lookup_insert (name other : String) (b : Binding) (bs : List (String × Binding)) :
    (insert name b bs).lookup other = if other = name then some b else bs.lookup other := by
  induction bs with
  | nil => exact lookup_cons_eq name other b []
  | cons x rest ih =>
    obtain ⟨key, old⟩ := x
    rw [insert]
    split
    · next hkey =>
      subst hkey
      rw [lookup_cons_eq, lookup_cons_eq]
      split <;> rfl
    split
    · exact lookup_cons_eq name other b _
    · next hkey _ =>
      rw [lookup_cons_eq, lookup_cons_eq, ih]
      split
      · next hother =>
        subst hother
        rw [if_neg (Ne.symm hkey)]
      · rfl

@[simp]
lemma find?_put (name other : String) (b : Binding) (s : Scope) :
    (s.put name b).find? other = if other = name then some b else s.find? other :=
  lookup_insert name other b s.bindings

lemma mem_names {name : String} {s : Scope} :
    name ∈ s.names ↔ ∃ b, s.find? name = some b := by
  obtain ⟨bindings, parent⟩ := s
  change name ∈ bindings.map (·.1) ↔ ∃ b, bindings.lookup name = some b
  induction bindings with
  | nil => simp
  | cons x rest ih =>
    rw [List.map_cons, List.mem_cons, ih, lookup_cons_eq]
    split
    · next h => exact ⟨fun _ => ⟨x.2, rfl⟩, fun _ => .inl h⟩
    · next h => exact ⟨fun h' => h'.resolve_left h, .inr⟩

@[simp]
lemma parent_put (name : String) (b : Binding) (s : Scope) : (s.put name b).parent = s.parent := rfl

end Scope

namespace Store

variable {s : Store} {id i : ScopeId} {name other : String} {b : Binding} {v : Value}

lemma bindingAt?_of_size_le (h : s.size ≤ i) : s.bindingAt? i other = none := by
  rw [bindingAt?, Array.getElem?_eq_none h]
  rfl

@[simp]
lemma size_put : (s.put id name b).size = s.size := Array.size_modify

@[simp]
lemma size_push (parent : Option ScopeId) : (s.push parent).size = s.size + 1 :=
  Array.size_push _

lemma size_lt_push (s : Store) (parent : Option ScopeId) : s.size < (s.push parent).size :=
  (Nat.lt_succ_self _).trans_eq (size_push parent).symm

lemma scopes_put : (s.put id name b).scopes[i]? =
    if id = i then s.scopes[i]?.map (Scope.put name b) else s.scopes[i]? := by
  rw [put, Array.getElem?_modify]

lemma scopes_put_of_ne (h : i ≠ id) : (s.put id name b).scopes[i]? = s.scopes[i]? := by
  rw [scopes_put, if_neg h.symm]

lemma scopes_push {parent : Option ScopeId} (h : i < s.size) :
    (s.push parent).scopes[i]? = s.scopes[i]? :=
  Array.getElem?_push_lt h |>.trans (Array.getElem?_eq_getElem h).symm

lemma scopes_push_size (parent : Option ScopeId) :
    (s.push parent).scopes[s.size]? = some ⟨[], parent⟩ :=
  Array.getElem?_push_size

lemma bindingAt?_put :
    (s.put id name b).bindingAt? i other =
      if i = id ∧ other = name ∧ id < s.size then some b else s.bindingAt? i other := by
  by_cases hi : i = id
  · subst hi
    by_cases hlt : i < s.size
    · have hscope : s.scopes[i]? = some s.scopes[i] := Array.getElem?_eq_getElem hlt
      simp [bindingAt?, scopes_put, hscope, hlt]
    · have hle : s.size ≤ i := Nat.le_of_not_lt hlt
      rw [if_neg fun h => hlt h.2.2, bindingAt?_of_size_le hle, bindingAt?_of_size_le]
      rwa [size_put]
  · simp [bindingAt?, scopes_put_of_ne hi, hi]

@[simp]
lemma bindingAt?_push (parent : Option ScopeId) :
    (s.push parent).bindingAt? i other = s.bindingAt? i other := by
  rcases Nat.lt_trichotomy i s.size with h | rfl | h
  · rw [bindingAt?, bindingAt?, scopes_push h]
  · rw [bindingAt?, scopes_push_size, bindingAt?_of_size_le (Nat.le_refl _)]
    rfl
  · rw [bindingAt?_of_size_le (Nat.le_of_lt h), bindingAt?_of_size_le]
    rw [size_push]
    exact h

lemma mem_names : name ∈ s.names i ↔ ∃ b, s.bindingAt? i name = some b := by
  rw [names, bindingAt?]
  cases s.scopes[i]? with
  | none => simp
  | some scope => exact Scope.mem_names

def parent? (s : Store) (i : ScopeId) : Option ScopeId := s.scopes[i]?.bind Scope.parent

lemma mem_names_put :
    other ∈ (s.put id name b).names i ↔
      i = id ∧ other = name ∧ id < s.size ∨ other ∈ s.names i := by
  rw [mem_names, mem_names, bindingAt?_put]
  split
  · next h => exact ⟨fun _ => .inl h, fun _ => ⟨b, rfl⟩⟩
  · next h => exact ⟨.inr, fun h' => h'.resolve_left h⟩

lemma mem_names_push (parent : Option ScopeId) :
    name ∈ (s.push parent).names i ↔ name ∈ s.names i := by
  rw [mem_names, mem_names, bindingAt?_push]

lemma parent?_put : (s.put id name b).parent? i = s.parent? i := by
  rw [parent?, parent?, scopes_put]
  split
  · cases s.scopes[i]? <;> rfl
  · rfl

lemma parent?_push {parent : Option ScopeId} (h : i < s.size) :
    (s.push parent).parent? i = s.parent? i := by
  rw [parent?, parent?, scopes_push h]

lemma declare_cases (s : Store) (id : ScopeId) (name : String) (v : Value) (constant : Bool) :
    (s.declare id name v constant).2 = s ∨
      (s.bindingAt? id name).any (·.constant) = false ∧
        (s.declare id name v constant).2 = s.put id name ⟨v, constant⟩ := by
  rw [declare]
  split
  · exact .inl rfl
  · next h => exact .inr ⟨by simpa using h, rfl⟩

lemma find?_eq_some {holder : ScopeId} (h : s.find? id name = some (holder, b)) :
    holder ∈ s.chain id ∧ s.bindingAt? holder name = some b := by
  rw [find?] at h
  obtain ⟨found, hfound, h⟩ := List.exists_of_findSome?_eq_some h
  obtain ⟨b', hb, hpair⟩ := Option.map_eq_some_iff.1 h
  cases hpair
  exact ⟨hfound, hb⟩

lemma assign_cases (s : Store) (id : ScopeId) (name : String) (v : Value) :
    (s.assign id name v).2 = s ∨
      ∃ holder ∈ s.chain id, ∃ b, s.bindingAt? holder name = some b ∧ b.constant = false ∧
        (s.assign id name v).2 = s.put holder name ⟨v, false⟩ := by
  rw [assign]
  split
  · exact .inl rfl
  · next holder b hfind =>
    obtain ⟨hchain, hb⟩ := find?_eq_some hfind
    split
    · exact .inl rfl
    · next hconstant => exact .inr ⟨holder, hchain, b, hb, by simpa using hconstant, rfl⟩

end Store

end MiniPascal
