import MiniPascal.Proofs.Evaluation.Balance

namespace MiniPascal

namespace Store

variable {s t u : Store} {c d i j : ScopeId} {name other : String} {b : Binding} {v : Value}

/-- The scopes of `s` have the same parents in `t` and bind the same names, but for the scope `c`,
which may have gained some. -/
structure Grows (c : ScopeId) (s t : Store) : Prop where
  size : s.size ≤ t.size
  parent {i : ScopeId} : i < s.size → t.parent? i = s.parent? i
  kept {i : ScopeId} {name : String} : name ∈ s.names i → name ∈ t.names i
  old {i : ScopeId} {name : String} : i < s.size → i ≠ c → name ∈ t.names i → name ∈ s.names i

namespace Grows

lemma refl : Grows c s s := ⟨Nat.le_refl _, fun _ => rfl, id, fun _ _ => id⟩

lemma trans (h : Grows c s t) (h' : Grows c t u) : Grows c s u where
  size := h.size.trans h'.size
  parent hi := (h'.parent (hi.trans_le h.size)).trans (h.parent hi)
  kept hs := h'.kept (h.kept hs)
  old hi hc hu := h.old hi hc (h'.old (hi.trans_le h.size) hc hu)

lemma leave (h : Grows s.size (s.push (some d)) t) : Grows c s t where
  size := (size_lt_push s _).le.trans h.size
  parent hi := (h.parent (hi.trans (size_lt_push s _))).trans (parent?_push hi)
  kept hs := h.kept ((mem_names_push _).2 hs)
  old := by
    rintro i name hi - ht
    exact (mem_names_push _).1 (h.old (hi.trans (size_lt_push s _)) hi.ne ht)

lemma put (h : name ∈ s.names i ∨ i = c) : Grows c s (s.put i name b) where
  size := size_put.ge
  parent _ := parent?_put
  kept hs := mem_names_put.2 (.inr hs)
  old := by
    rintro j other - hj ht
    rcases mem_names_put.1 ht with ⟨rfl, rfl, -⟩ | hs
    · exact h.resolve_right hj
    · exact hs

lemma declare (constant : Bool) : Grows c s (s.declare c name v constant).2 := by
  rcases declare_cases s c name v constant with h | ⟨_, h⟩
  · rw [h]
    exact refl
  · rw [h]
    exact put (.inr rfl)

lemma assign : Grows c s (s.assign d name v).2 := by
  rcases assign_cases s d name v with h | ⟨holder, _, b, hb, _, h⟩
  · rw [h]
    exact refl
  · rw [h]
    exact put (.inl (mem_names.2 ⟨b, hb⟩))

end Grows

end Store

open Store (Grows)

def Discipline.growth : Discipline where
  rel := Grows
  refl := .refl
  trans := .trans
  declare _ constant _ _ _ := ⟨trivial, .declare constant⟩
  assign _ _ _ _ := ⟨trivial, .assign⟩
  define _ _ _ _ _ := ⟨trivial, .put (.inr rfl), trivial⟩
  scope := unrestricted.scope
  leave := .leave

namespace Machine

/-- What has a scope of its own is run on `m` to its end and leaves the other machine: a block, be
it a statement, a branch or the body of a loop; a loop over numbers; a procedure. -/
inductive RunsApart (m : Machine) : Machine → Prop
  | block {n outcome m'} (b : Block) : b.exec (callWithin n) n m = some (outcome, m') →
    RunsApart m m'
  | loop {n outcome m'} (counter : String) (b : Block) (first last : Value) :
    Run.countedLoop counter (b.exec (callWithin n) n) first last m = some (outcome, m') →
    RunsApart m m'
  | call {n v m'} (p : Procedure) (args : List Value) : callWithin n p args m = some (v, m') →
    RunsApart m m'

variable {m m' : Machine}

-- What runs apart keeps to the rules of every scope, also to those of a scope that does not exist.
lemma RunsApart.grows (h : m.RunsApart m') (c : ScopeId) : Grows c m.store m'.store := by
  have hcalls := Discipline.growth.keepsCalls
  have hready : Discipline.growth.Ready m.current m := ⟨rfl, trivial, trivial⟩
  cases h with
  | block b hrun => exact (Discipline.execBlock (hcalls _) hready b c _ _ hrun).rel
  | loop counter b first last hrun =>
    refine (Discipline.Keeps.countedLoop (d := c) (fun d m h => ?_) counter first last hready
      _ _ hrun).rel
    exact Discipline.execBlock (hcalls _) h b
  | call p args hrun =>
    exact (hcalls _ p args m.current m hready trivial (fun _ _ => trivial) c _ _ hrun).rel

/-- Whatever is evaluated, a scope keeps its parent and the names bound in it, and only the current
scope may gain names. What has a scope of its own gives none to the current scope either. -/
theorem scopes_grow :
    (m.Evaluates m' → ∀ i < m.store.size,
      m'.store.parent? i = m.store.parent? i ∧ m.store.names i ⊆ m'.store.names i ∧
        (i ≠ m.current → ∀ name, name ∈ m'.store.names i ↔ name ∈ m.store.names i)) ∧
    (m.RunsApart m' → ∀ i < m.store.size,
      m'.store.parent? i = m.store.parent? i ∧
        ∀ name, name ∈ m'.store.names i ↔ name ∈ m.store.names i) := by
  refine ⟨fun h i hi => ?_, fun h i hi => ?_⟩
  · have hready : Discipline.growth.Ready m.current m := ⟨rfl, trivial, trivial⟩
    have hgrows : Grows m.current m.store m'.store := (Discipline.change_of_evaluates hready h).rel
    exact ⟨hgrows.parent hi, fun _ => hgrows.kept, fun hne _ => ⟨hgrows.old hi hne, hgrows.kept⟩⟩
  · have hgrows := h.grows m.store.size
    exact ⟨hgrows.parent hi, fun _ => ⟨hgrows.old hi hi.ne, hgrows.kept⟩⟩

def nested : Machine where
  store := ⟨#[⟨[("f", ⟨.procedure
      ⟨0, ⟨"procedure", "f", []⟩, .mk ⟨.beginWord, "begin"⟩
        [.declare "var" false "m" .integer (.integer "2" 2), .assign "n" (.named "m")], 1⟩,
      false⟩)], none⟩,
    ⟨[("n", ⟨.integer 1, false⟩)], some 0⟩]⟩
  current := 0
  depth := 0
  made := 1
  calls := []

def resultOfCall : Stmt :=
  .declare "var" false "z" .integer (.call "(" (.named "f") [])

theorem scopes_grow_nested :
    ∃ m₁ m₂, nested.Evaluates m₁ ∧ m₁.store.names 0 = ["f", "z"] ∧ m₁.store.names 2 = ["m"] ∧
      (∀ name, name ∈ m₁.store.names 1 ↔ name ∈ ["n"]) ∧
      nested.RunsApart m₂ ∧ m₂.store.names 2 = ["z"] ∧
      ∀ name, name ∈ m₂.store.names 0 ↔ name ∈ ["f"] := by
  have hopen : (resultOfCall.exec (callWithin 1) 1 nested).any (fun r =>
      r.2.store.names 0 == ["f", "z"] && r.2.store.names 2 == ["m"]) = true := by
    decide +kernel
  have hblock : (Block.exec (callWithin 1) 1 (.mk ⟨.beginWord, "begin"⟩ [resultOfCall])
      nested).any (fun r => r.2.store.names 2 == ["z"]) = true := by
    decide +kernel
  obtain ⟨⟨o₁, m₁⟩, hrun₁, hnames₁⟩ := (Option.any_eq_true _ _).1 hopen
  obtain ⟨⟨o₂, m₂⟩, hrun₂, hnames₂⟩ := (Option.any_eq_true _ _).1 hblock
  simp only [Bool.and_eq_true, beq_iff_eq] at hnames₁ hnames₂
  have hevaluates : nested.Evaluates m₁ := .statement resultOfCall hrun₁
  have hapart : nested.RunsApart m₂ := .block _ hrun₂
  obtain ⟨-, -, hsame⟩ := scopes_grow.1 hevaluates 1 (by decide)
  obtain ⟨-, hsame'⟩ := scopes_grow.2 hapart 0 (by decide)
  exact ⟨m₁, m₂, hevaluates, hnames₁.1, hnames₁.2, hsame (by decide), hapart, hnames₂, hsame'⟩

end Machine

end MiniPascal
