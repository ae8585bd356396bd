import MiniPascal.Proofs.Evaluation.Evaluates

namespace MiniPascal

inductive Value.Holds (p : Procedure) : Value → Prop
  | procedure : Holds p (.procedure p)
  | returned {v} : Holds p v → Holds p (.returned v)

namespace Value

def Inside (S : Set ScopeId) (v : Value) : Prop := ∀ p, v.Holds p → p.closure ∈ S

variable {S : Set ScopeId} {p : Procedure} {v : Value}

lemma Inside.of_isPlain (h : v.IsPlain) : v.Inside S := by
  rintro p ⟨⟩ <;> exact h.elim

lemma Inside.returned (h : v.Inside S) : (Value.returned v).Inside S := by
  rintro p ⟨⟩
  exact h p ‹_›

lemma Inside.unwrap (h : v.Inside S) : v.unwrap.Inside S := by
  cases v with
  | returned w => exact fun p hp => h p (.returned hp)
  | _ => exact h

lemma inside_procedure_iff : (Value.procedure p).Inside S ↔ p.closure ∈ S := by
  constructor
  · exact fun h => h p .procedure
  · rintro h q ⟨⟩
    exact h

end Value

namespace Store

/-- A scope is reached from `origin` over parents and over the scopes of procedures that are bound
in scopes reached so far. -/
inductive Reachable (s : Store) (origin : ScopeId) : ScopeId → Prop
  | here : Reachable s origin origin
  | parent {i j scope} : Reachable s origin i → s.scopes[i]? = some scope →
    scope.parent = some j → Reachable s origin j
  | closure {i name b p} : Reachable s origin i → s.bindingAt? i name = some b →
    b.value.Holds p → Reachable s origin p.closure

-- Scopes that are made later count as reached.
def reach (s : Store) (origin : ScopeId) : Set ScopeId := {i | s.Reachable origin i ∨ s.size ≤ i}

structure Closed (S : Set ScopeId) (s : Store) : Prop where
  parent {i j : ScopeId} {scope : Scope} :
    i ∈ S → s.scopes[i]? = some scope → scope.parent = some j → j ∈ S
  closure {i : ScopeId} {name : String} {b : Binding} :
    i ∈ S → s.bindingAt? i name = some b → b.value.Inside S

variable {S : Set ScopeId} {base s : Store} {c i : ScopeId} {name : String} {b : Binding}
  {v : Value}

namespace Closed

lemma chain_subset (h : Closed S s) (hc : c ∈ S) : ∀ i ∈ s.chain c, i ∈ S := by
  induction c using Nat.strongRecOn with
  | ind c ih =>
    intro i hi
    rw [chain] at hi
    split at hi
    · cases hi
    · next scope hscope =>
      split at hi
      · rwa [List.mem_singleton.1 hi]
      · next parent hparent =>
        split at hi
        · next hlt =>
          rcases List.mem_cons.1 hi with rfl | hi
          · exact hc
          · exact ih parent hlt (h.parent hc hscope hparent) i hi
        · rwa [List.mem_singleton.1 hi]

lemma put (h : Closed S s) (hb : b.value.Inside S) : Closed S (s.put i name b) where
  parent {j k scope} hj hscope hk := by
    rw [scopes_put] at hscope
    split at hscope
    · obtain ⟨old, hold, rfl⟩ := Option.map_eq_some_iff.1 hscope
      exact h.parent hj hold hk
    · exact h.parent hj hscope hk
  closure hj hbinding := by
    rw [bindingAt?_put] at hbinding
    split at hbinding
    · cases hbinding
      exact hb
    · exact h.closure hj hbinding

lemma push (h : Closed S s) (hc : c ∈ S) : Closed S (s.push (some c)) where
  parent {j k scope} hj hscope hk := by
    rcases Nat.lt_trichotomy j s.size with hlt | rfl | hlt
    · rw [scopes_push hlt] at hscope
      exact h.parent hj hscope hk
    · rw [scopes_push_size] at hscope
      cases hscope
      cases hk
      exact hc
    · have hle : (s.push (some c)).scopes.size ≤ j := (size_push (some c)).trans_le hlt
      rw [Array.getElem?_eq_none hle] at hscope
      cases hscope
  closure hj hbinding := by
    rw [bindingAt?_push] at hbinding
    exact h.closure hj hbinding

lemma reachable (h : Closed S s) (hc : c ∈ S) (hi : s.Reachable c i) : i ∈ S := by
  induction hi with
  | here => exact hc
  | parent _ hscope hj ih => exact h.parent ih hscope hj
  | closure _ hbinding hp ih => exact h.closure ih hbinding _ hp

lemma reach (s : Store) (origin : ScopeId) : Closed (s.reach origin) s where
  parent {i j scope} hi hscope hj := by
    rcases hi with hi | hi
    · exact .inl (hi.parent hscope hj)
    · rw [Array.getElem?_eq_none hi] at hscope
      cases hscope
  closure {i name b} hi hbinding := by
    rcases hi with hi | hi
    · exact fun p hp => .inl (hi.closure hbinding hp)
    · rw [bindingAt?_of_size_le hi] at hbinding
      cases hbinding

end Closed

structure Confined (base : Store) (S : Set ScopeId) (s : Store) : Prop where
  closed : Closed S s
  size : base.size ≤ s.size
  scopes {i : ScopeId} : i ∉ S → s.scopes[i]? = base.scopes[i]?

namespace Confined

lemma put (h : Confined base S s) (hi : i ∈ S) (hb : b.value.Inside S) :
    Confined base S (s.put i name b) where
  closed := h.closed.put hb
  size := h.size.trans_eq size_put.symm
  scopes hj := by
    rw [scopes_put_of_ne (ne_of_mem_of_not_mem hi hj).symm]
    exact h.scopes hj

lemma push (h : Confined base S s) (hS : ∀ i, base.size ≤ i → i ∈ S) (hc : c ∈ S) :
    Confined base S (s.push (some c)) where
  closed := h.closed.push hc
  size := h.size.trans (size_lt_push s _).le
  scopes {j} hj := by
    have hlt : j < s.size := by
      by_contra hle
      exact hj (hS j (h.size.trans (Nat.le_of_not_lt hle)))
    rw [scopes_push hlt]
    exact h.scopes hj

lemma declare (h : Confined base S s) (hc : c ∈ S) (hv : v.Inside S) (constant : Bool) :
    Confined base S (s.declare c name v constant).2 := by
  rcases declare_cases s c name v constant with hs | ⟨_, hs⟩
  · rw [hs]
    exact h
  · rw [hs]
    exact h.put hc hv

lemma assign (h : Confined base S s) (hc : c ∈ S) (hv : v.Inside S) :
    Confined base S (s.assign c name v).2 := by
  rcases assign_cases s c name v with hs | ⟨holder, hholder, _, _, _, hs⟩
  · rw [hs]
    exact h
  · rw [hs]
    exact h.put (h.closed.chain_subset hc holder hholder) hv

lemma get (h : Confined base S s) (hc : c ∈ S) (hget : s.get? c name = some v) :
    v.Inside S := by
  rw [get?, Option.map_eq_some_iff] at hget
  obtain ⟨⟨holder, b⟩, hfind, rfl⟩ := hget
  obtain ⟨hchain, hb⟩ := find?_eq_some hfind
  exact h.closed.closure (h.closed.chain_subset hc holder hchain) hb

end Confined

end Store

open Store (Confined)

def Discipline.confined (base : Store) (S : Set ScopeId) (hS : ∀ i, base.size ≤ i → i ∈ S) :
    Discipline where
  inv := Confined base S
  live _ c := c ∈ S
  val _ v := v.Inside S
  held _ v := v.Inside S
  plain := .of_isPlain
  returned := .returned
  unwrap := .unwrap
  closure := Value.inside_procedure_iff.1
  close _ _ _ hc := Value.inside_procedure_iff.2 hc
  get h hc hget := h.get hc hget
  declare _ constant h hc hv := ⟨h.declare hc hv constant, trivial⟩
  assign _ h hc hv := ⟨h.assign hc hv, trivial⟩
  define _ h hc _ hv := ⟨h.put hc hv, trivial, trivial⟩
  scope h hc := ⟨h.push hS hc, hS _ h.size, trivial⟩

namespace Machine

/-- Whatever is evaluated and whatever comes of it, a scope that could not be reached from the
current one keeps its bindings and its parent. -/
theorem unreachable_untouched {m m' : Machine} (h : m.Evaluates m') {i : ScopeId}
    (hi : i < m.store.size) (hreach : ¬ m.store.Reachable m.current i) :
    m'.store.scopes[i]? = m.store.scopes[i]? := by
  have hclosed : Confined m.store (m.store.reach m.current) m.store :=
    ⟨.reach m.store m.current, Nat.le_refl _, fun _ => rfl⟩
  have hready : (Discipline.confined m.store (m.store.reach m.current) fun _ => .inr).Ready
      m.current m :=
    ⟨rfl, hclosed, .inl .here⟩
  have hchange := Discipline.change_of_evaluates hready h
  exact hchange.inv.scopes fun hmem => hmem.elim hreach (Nat.not_le_of_lt hi)

def setter : Procedure where
  identity := 0
  header := ⟨"procedure", "f", []⟩
  body := .mk ⟨.beginWord, "begin"⟩ [.assign "n" (.integer "5" 5)]
  closure := 1

def apart : Machine where
  store := ⟨#[⟨[("f", ⟨.procedure setter, false⟩)], none⟩,
    ⟨[("n", ⟨.integer 0, false⟩)], some 0⟩, ⟨[("n", ⟨.integer 9, false⟩)], some 0⟩]⟩
  current := 0
  depth := 0
  made := 1
  calls := []

lemma closed_apart : Store.Closed {0, 1} apart.store where
  parent {i j scope} hi hscope hj := by
    obtain rfl | rfl := hi
    · cases hscope
      cases hj
    · cases hscope
      cases hj
      exact .inl rfl
  closure {i name b} hi hb := by
    obtain rfl | rfl := hi
    · change List.lookup name [("f", Binding.mk (.procedure setter) false)] = some b at hb
      rw [Scope.lookup_cons_eq] at hb
      split at hb
      · cases hb
        exact Value.inside_procedure_iff.2 (.inr rfl)
      · cases hb
    · change List.lookup name [("n", Binding.mk (.integer 0) false)] = some b at hb
      rw [Scope.lookup_cons_eq] at hb
      split at hb
      · cases hb
        exact .of_isPlain trivial
      · cases hb

theorem unreachable_untouched_apart :
    ∃ m', apart.Evaluates m' ∧ 2 < apart.store.size ∧ ¬ apart.store.Reachable apart.current 2 ∧
      (m'.store.bindingAt? 1 "n").map (·.value.text) = some "5" ∧
      m'.store.scopes[2]? = some ⟨[("n", ⟨.integer 9, false⟩)], some 0⟩ := by
  let call : Expr := .call "(" (.named "f") []
  have hcall : (call.eval (callWithin 1) 1 apart).any
      (fun r => (r.2.store.bindingAt? 1 "n").map (·.value.text) == some "5") = true := by
    decide +kernel
  obtain ⟨⟨v, m'⟩, hrun, hset⟩ := (Option.any_eq_true _ _).1 hcall
  have hreach : ¬ apart.store.Reachable apart.current 2 := by
    intro h
    obtain h | h := closed_apart.reachable (.inl rfl) h <;> cases h
  have hsize : 2 < apart.store.size := by decide
  have heval : apart.Evaluates m' := .expression call hrun
  exact ⟨m', heval, hsize, hreach, by simpa using hset, unreachable_untouched heval hsize hreach⟩

end Machine

end MiniPascal
