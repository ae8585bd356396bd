import MiniPascal.Proofs.Store
import MiniPascal.Proofs.Tree.Bare
import MiniPascal.Proofs.Value
import MiniPascal.Machine
/-! Values, stores and machines without the types and literals in their procedures. -/

namespace MiniPascal

def Procedure.bare (p : Procedure) : Procedure :=
  { p with header := p.header.bare, body := p.body.bare }

@[simp]
lemma Procedure.arity_bare (p : Procedure) : p.bare.arity = p.arity :=
  List.length_map Parameter.bare

namespace Value

def bare : Value → Value
  | integer n => integer n
  | real x => real x
  | boolean b => boolean b
  | string s => string s
  | null => null
  | returned value => returned value.bare
  | error message => error message
  | procedure p => procedure p.bare

@[simp]
lemma type_bare (v : Value) : v.bare.type = v.type := by cases v <;> rfl

@[simp]
lemma isTruthy_bare (v : Value) : v.bare.isTruthy = v.isTruthy := by cases v <;> rfl

@[simp]
lemma isAbrupt_bare (v : Value) : v.bare.isAbrupt = v.isAbrupt := by cases v <;> rfl

lemma unwrap_bare (v : Value) : v.unwrap.bare = v.bare.unwrap := by cases v <;> rfl

lemma any_isAbrupt_bare (o : Option Value) : (o.map bare).any isAbrupt = o.any isAbrupt := by
  cases o with
  | none => rfl
  | some v => exact isAbrupt_bare v

lemma bare_of_isPlain {v : Value} (h : v.IsPlain) : v.bare = v := by
  cases v with
  | returned _ => exact h.elim
  | procedure _ => exact h.elim
  | _ => rfl

lemma applyPrefix_bare (operator : PrefixOperator) (v : Value) :
    (v.applyPrefix operator).bare = v.bare.applyPrefix operator := by
  rw [bare_of_isPlain (isPlain_applyPrefix operator v)]
  cases operator <;> cases v <;> rfl

lemma same_bare (a b : Value) : same a.bare b.bare = same a b := by
  induction a generalizing b with
  | returned a ih =>
    cases b with
    | returned b => exact ih b
    | _ => rfl
  | _ => cases b <;> rfl

lemma otherInfix_bare (operator : InfixOperator) (a b : Value) :
    otherInfix operator a.bare b.bare = otherInfix operator a b := by
  rw [otherInfix.eq_def, otherInfix.eq_def, type_bare, type_bare, same_bare]

lemma applyInfix_bare (operator : InfixOperator) (a b : Value) :
    (applyInfix operator a b).bare = applyInfix operator a.bare b.bare := by
  rw [bare_of_isPlain (isPlain_applyInfix operator a b)]
  have hother := (otherInfix_bare operator a b).symm
  cases a <;> cases b <;> first | exact hother | cases operator <;> rfl

end Value

def Binding.bare (b : Binding) : Binding := { b with value := b.value.bare }

namespace Scope

def bare (s : Scope) : Scope := { s with bindings := s.bindings.map fun e => (e.1, e.2.bare) }

lemma find?_bare (s : Scope) (name : String) :
    s.bare.find? name = (s.find? name).map Binding.bare := by
  obtain ⟨bindings, parent⟩ := s
  change List.lookup name (bindings.map _) = (bindings.lookup name).map Binding.bare
  induction bindings with
  | nil => rfl
  | cons x rest ih =>
    rw [List.map_cons, lookup_cons_eq, lookup_cons_eq, ih]
    split <;> rfl

lemma insert_bare (name : String) (b : Binding) (bs : List (String × Binding)) :
    insert name b.bare (bs.map fun e => (e.1, e.2.bare)) =
      (insert name b bs).map fun e => (e.1, e.2.bare) := by
  induction bs with
  | nil => rfl
  | cons x rest ih =>
    obtain ⟨other, old⟩ := x
    rw [List.map_cons, insert, insert, ih]
    split
    · rfl
    split <;> rfl

lemma put_bare (name : String) (b : Binding) (s : Scope) :
    (s.put name b).bare = s.bare.put name b.bare := by
  rw [put, put, bare, ← insert_bare]
  rfl

end Scope

namespace Store

def bare (s : Store) : Store := ⟨s.scopes.map Scope.bare⟩

variable (s : Store) (id : ScopeId) (name : String) (v : Value)

lemma scopes_bare : s.bare.scopes[id]? = s.scopes[id]?.map Scope.bare := Array.getElem?_map

@[simp]
lemma size_bare : s.bare.size = s.size := Array.size_map

lemma push_bare (parent : Option ScopeId) : (s.push parent).bare = s.bare.push parent := by
  rw [push, push, bare, Array.map_push]
  rfl

lemma put_bare (b : Binding) : (s.put id name b).bare = s.bare.put id name b.bare := by
  have hscopes : (s.put id name b).bare.scopes = (s.bare.put id name b.bare).scopes := by
    refine Array.ext_getElem? fun i => ?_
    rw [scopes_bare, scopes_put, scopes_put, scopes_bare]
    split
    · rw [Option.map_map, Option.map_map]
      exact congrArg (Option.map · _) (funext fun scope => scope.put_bare name b)
    · rfl
  exact congrArg Store.mk hscopes

lemma chain_bare : s.bare.chain id = s.chain id := by
  induction id using Nat.strongRecOn with
  | ind id ih =>
    rw [chain, chain, scopes_bare]
    cases s.scopes[id]? with
    | none => rfl
    | some scope =>
      obtain ⟨bindings, _ | parent⟩ := scope
      · rfl
      · change (if parent < id then id :: s.bare.chain parent else [id]) =
          if parent < id then id :: s.chain parent else [id]
        split
        · next h => rw [ih parent h]
        · rfl

lemma bindingAt?_bare : s.bare.bindingAt? id name = (s.bindingAt? id name).map Binding.bare := by
  rw [bindingAt?, bindingAt?, scopes_bare]
  cases s.scopes[id]? with
  | none => rfl
  | some scope => exact scope.find?_bare name

lemma find?_bare :
    s.bare.find? id name = (s.find? id name).map fun found => (found.1, found.2.bare) := by
  rw [find?, find?, chain_bare]
  induction s.chain id with
  | nil => rfl
  | cons holder rest ih =>
    rw [List.findSome?_cons, List.findSome?_cons, bindingAt?_bare]
    cases s.bindingAt? holder name with
    | none => exact ih
    | some b => rfl

lemma get?_bare : s.bare.get? id name = (s.get? id name).map Value.bare := by
  rw [get?, get?, find?_bare, Option.map_map, Option.map_map]
  rfl

lemma define_bare : (s.define id name v).bare = s.bare.define id name v.bare :=
  put_bare s id name ⟨v, false⟩

lemma declare_bare (constant : Bool) :
    s.bare.declare id name v.bare constant =
      ((s.declare id name v constant).1, (s.declare id name v constant).2.bare) := by
  have hconstant : (s.bare.bindingAt? id name).any (·.constant) =
      (s.bindingAt? id name).any (·.constant) := by
    rw [bindingAt?_bare]
    cases s.bindingAt? id name <;> rfl
  rw [declare, declare, hconstant]
  split
  · rfl
  · exact congrArg (none, ·) (put_bare s id name ⟨v, constant⟩).symm

lemma assign_bare :
    s.bare.assign id name v.bare = ((s.assign id name v).1, (s.assign id name v).2.bare) := by
  rw [assign, assign, find?_bare]
  cases s.find? id name with
  | none => rfl
  | some found =>
    obtain ⟨holder, b⟩ := found
    dsimp only [Option.map_some, Binding.bare]
    split
    · rfl
    · exact congrArg (none, ·) (put_bare s holder name ⟨v, false⟩).symm

end Store

namespace Machine

def bare (m : Machine) : Machine := { m with store := m.store.bare }

lemma openScope_bare (m : Machine) (parent : ScopeId) :
    (m.bare.openScope parent).2 = (m.openScope parent).2.bare := by
  rw [openScope, openScope]
  simp [bare, Store.push_bare]

end Machine

end MiniPascal
