import MiniPascal.Proofs.Evaluation.Sound

namespace MiniPascal

namespace Value

def Wraps (ss : List Stmt) (v : Value) : Prop :=
  ∀ w, v = .returned w → w.isAbrupt = false ∧ ∃ s ∈ ss, s.isReturn = true

variable {v : Value} {o : Option Value} {ss rest : List Stmt}

lemma isReturned_eq_false_iff : v.isReturned = false ↔ ∀ w, v ≠ .returned w := by
  cases v <;> simp [isReturned]

lemma isReturned_of_isAbrupt (h : v.isAbrupt = false) : v.isReturned = false :=
  (Bool.or_eq_false_iff.1 h).2

lemma isReturned_of_isPlain (h : v.IsPlain) : v.isReturned = false := by
  rw [isReturned_eq_false_iff]
  rintro w rfl
  exact h

namespace Wraps

lemma of_isReturned (h : v.isReturned = false) : v.Wraps ss := by
  rintro w rfl
  cases h

lemma of_isPlain (h : v.IsPlain) : v.Wraps ss := of_isReturned (isReturned_of_isPlain h)

lemma mono (h : v.Wraps ss) (hss : ss ⊆ rest) : v.Wraps rest := by
  intro w hw
  obtain ⟨hproper, s, hs, hreturn⟩ := h w hw
  exact ⟨hproper, s, hss hs, hreturn⟩

lemma giveBack (hv : v.isAbrupt = false) (lexeme : String) (e : Expr) :
    (Value.returned v).Wraps (.giveBack lexeme e :: ss) := by
  rintro w ⟨⟩
  exact ⟨hv, _, List.mem_cons_self, rfl⟩

lemma unwrap (h : v.Wraps ss) : v.unwrap.Wraps rest := by
  cases v with
  | returned w => exact of_isReturned (isReturned_of_isAbrupt (h w rfl).1)
  | _ => exact of_isReturned rfl

lemma isReturned (h : v.Wraps []) : v.isReturned = false := by
  rw [isReturned_eq_false_iff]
  intro w hw
  obtain ⟨-, s, hs, -⟩ := h w hw
  cases hs

end Wraps

end Value

namespace Regime

def returning (bound : Value → Prop) (hproper : ∀ {v}, v.isAbrupt = false → bound v)
    (hbound : ∀ {v}, bound v → v.isReturned = false) : Regime where
  cut := True
  deep := false
  allowed _ := True
  bound := bound
  given ss v := v.Wraps ss
  mono := .mono
  plain := .of_isPlain
  get h := .of_isReturned (hbound h)
  hold _ := hproper
  returned lexeme e _ h := .giveBack h lexeme e
  unwrap := .unwrap
  close _ := hproper rfl
  body _ _ _ := trivial
  loop _ := trivial

def clean : Regime := returning (fun v => v.isAbrupt = false) id Value.isReturned_of_isAbrupt

def unreturned : Regime := returning (fun v => v.isReturned = false) Value.isReturned_of_isAbrupt id

end Regime

def Store.Clean (s : Store) : Prop := s.BindsOnly fun v => v.isAbrupt = false

namespace Machine

open Regime

/-- A new machine binds nothing that is on its way out, and no evaluation makes a machine do so.
What a `return` carries is then a proper value, and neither a call nor a program as a whole gives
anything that a `return` still carries. -/
theorem clean_kept :
    Machine.initial.store.Clean ∧ ∀ m : Machine, m.store.Clean →
      (∀ t o m', Phrase.Gives t m o m' →
        m'.store.Clean ∧ ∀ w, o = some (.returned w) → w.isAbrupt = false) ∧
      (∀ n p args v m', (∀ a ∈ args, a.isAbrupt = false) → callWithin n p args m = some (v, m') →
        m'.store.Clean ∧ v.isReturned = false) ∧
      (∀ n p o m', Program.exec n p m = some (o, m') →
        m'.store.Clean ∧ ∀ v ∈ o, v.isReturned = false) ∧
      ∀ n p values m', Program.execEach n p m = some (values, m') →
        m'.store.Clean ∧ ∀ v ∈ values, v.isReturned = false := by
  refine ⟨.initial, fun m hm => ?_⟩
  have hfit : clean.Fit m.depth m := ⟨hm, rfl⟩
  have hallows (ss : List Stmt) : clean.Allows ss := fun _ _ => trivial
  refine ⟨?_, ?_, ?_, ?_⟩
  · rintro t o m' ⟨n, hrun⟩
    obtain ⟨hm', ho⟩ := (sound_run (.inl trivial) t (hallows _)).result hfit hrun
    exact ⟨hm'.store, fun w hw => (ho _ hw w rfl).1⟩
  · intro n p args v m' hargs hrun
    have hcalls : clean.SoundCalls m.depth (callWithin n) := soundCalls (.inl trivial)
    obtain ⟨hm', hv⟩ := (hcalls p args (hallows _) hargs).result hfit hrun
    exact ⟨hm'.store, hv.isReturned⟩
  · intro n p o m' hrun
    obtain ⟨hm', ho⟩ :=
      (sound_outcomeOf (.inl trivial) p.statements (hallows _) none .none).result hfit hrun
    exact ⟨hm'.store, fun v hv => (ho v hv).isReturned⟩
  · intro n p values m' hrun
    obtain ⟨hm', hvalues⟩ :=
      (sound_valuesOf (.inl trivial) p.statements (hallows _)).result hfit hrun
    exact ⟨hm'.store, fun v hv => (hvalues v hv).isReturned⟩

def earlyReturn : Stmt :=
  .declare "var" false "x" .integer (.conditional "if" (.boolean "true" true)
    (.mk ⟨.thenWord, "then"⟩ [.giveBack "return" (.integer "7" 7)]) none)

def earlyProcedure : Procedure :=
  ⟨0, ⟨"procedure", "p", [⟨"a", .integer⟩]⟩, .mk ⟨.beginWord, "begin"⟩ [earlyReturn], 0⟩

theorem clean_kept_earlyReturn :
    ∃ m₁ m₂ m₃,
      ((Phrase.stmt earlyReturn).Gives .initial (some (.returned (.integer 7))) m₁ ∧
        m₁.store.Clean ∧ (Value.integer 7).isAbrupt = false) ∧
      (callWithin 1 earlyProcedure [.integer 3] .initial = some (.integer 7, m₂) ∧
        m₂.store.Clean ∧ (Value.integer 7).isReturned = false) ∧
      Program.execEach 1 ⟨[earlyReturn]⟩ .initial = some ([.integer 7], m₃) ∧ m₃.store.Clean := by
  obtain ⟨hphrase, hcall, -, heach⟩ := clean_kept.2 .initial clean_kept.1
  have hruns : ∃ m₁ m₂ m₃,
      (Phrase.stmt earlyReturn).Gives .initial (some (.returned (.integer 7))) m₁ ∧
      callWithin 1 earlyProcedure [.integer 3] .initial = some (.integer 7, m₂) ∧
      Program.execEach 1 ⟨[earlyReturn]⟩ .initial = some ([.integer 7], m₃) :=
    ⟨_, _, _, ⟨1, rfl⟩, rfl, rfl⟩
  obtain ⟨m₁, m₂, m₃, hstmt, hrun, hvalues⟩ := hruns
  obtain ⟨hclean₁, hproper⟩ := hphrase _ _ _ hstmt
  have hargs : ∀ a ∈ [Value.integer 3], a.isAbrupt = false := List.forall_mem_singleton.2 rfl
  obtain ⟨hclean₂, hv⟩ := hcall 1 earlyProcedure _ _ _ hargs hrun
  obtain ⟨hclean₃, -⟩ := heach 1 ⟨[earlyReturn]⟩ _ _ hvalues
  exact ⟨m₁, m₂, m₃, ⟨hstmt, hclean₁, hproper _ rfl⟩, ⟨hrun, hclean₂, hv⟩, hvalues, hclean₃⟩

end Machine

namespace Phrase

open Regime

/-- If what a phrase gives is still carried by a `return`, then this `return` stands in the phrase,
outside the procedures written in it. A call in particular gives such a thing only if a `return`
stands in the callee or in an argument. -/
theorem exists_return_of_returned {m : Machine}
    (hm : m.store.BindsOnly fun v => v.isReturned = false) :
    (∀ t m' w, Phrase.Gives t m (some (.returned w)) m' →
      ∃ s ∈ t.inner false, s.isReturn = true) ∧
    ∀ lexeme callee arguments m' w,
      (expr (.call lexeme callee arguments)).Gives m (some (.returned w)) m' →
        (∃ s ∈ callee.inner false, s.isReturn = true) ∨
          ∃ e ∈ arguments, ∃ s ∈ e.inner false, s.isReturn = true := by
  have hreturn (t : Phrase) (m' : Machine) (w : Value) (h : t.Gives m (some (.returned w)) m') :
      ∃ s ∈ t.inner false, s.isReturn = true := by
    obtain ⟨n, hrun⟩ := h
    have hfit : unreturned.Fit m.depth m := ⟨hm, rfl⟩
    have hallows : unreturned.Allows (t.inner false) := fun _ _ => trivial
    obtain ⟨-, ho⟩ := (sound_run (.inl trivial) t hallows).result hfit hrun
    exact (ho _ rfl w rfl).2
  refine ⟨hreturn, fun lexeme callee arguments m' w h => ?_⟩
  obtain ⟨s, hs, hret⟩ := hreturn _ m' w h
  rcases List.mem_append.1 hs with hs | hs
  · exact .inl ⟨s, hs, hret⟩
  · obtain ⟨e, he, hs⟩ := Expr.mem_listInner.1 hs
    exact .inr ⟨e, he, s, hs, hret⟩

def returningProcedure : Expr :=
  .procedure ⟨"procedure", "p", [⟨"a", .integer⟩]⟩
    (.mk ⟨.beginWord, "begin"⟩ [.giveBack "return" (.integer "1" 1)])

def returningArgument : Expr :=
  .conditional "if" (.boolean "true" true)
    (.mk ⟨.thenWord, "then"⟩ [.giveBack "return" (.integer "2" 2)]) none

-- It is the `return` of the argument that is left, not the one in the procedure.
theorem exists_return_of_returned_argument :
    Machine.initial.store.BindsOnly (fun v => v.isReturned = false) ∧
      ∃ m', (expr (.call "(" returningProcedure [returningArgument])).Gives .initial
          (some (.returned (.integer 2))) m' ∧
        ((∃ s ∈ returningProcedure.inner false, s.isReturn = true) ∨
          ∃ e ∈ [returningArgument], ∃ s ∈ e.inner false, s.isReturn = true) := by
  have hgives : ∃ m', (expr (.call "(" returningProcedure [returningArgument])).Gives .initial
      (some (.returned (.integer 2))) m' := ⟨_, 1, rfl⟩
  obtain ⟨m', hgives⟩ := hgives
  exact ⟨.initial, m', hgives, (exists_return_of_returned .initial).2 _ _ _ m' _ hgives⟩

end Phrase

end MiniPascal
