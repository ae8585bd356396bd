import MiniPascal.Proofs.Evaluation.Reach
import MiniPascal.Proofs.Evaluation.Sound

namespace MiniPascal

def Stmt.NoneWhile (ss : List Stmt) : Prop := ∀ s ∈ ss, s.isWhile = false

def Program.WhileFree (p : Program) : Prop := Stmt.NoneWhile (Stmt.listInner true p.statements)

def Value.WhileFree (v : Value) : Prop := ∀ p, v.Holds p → Stmt.NoneWhile (p.body.inner true)

namespace Value.WhileFree

variable {v : Value}

lemma of_isPlain (h : v.IsPlain) : v.WhileFree := by
  rintro p ⟨⟩ <;> exact h.elim

lemma procedure {p : Procedure} (h : Stmt.NoneWhile (p.body.inner true)) :
    (Value.procedure p).WhileFree := by
  rintro q ⟨⟩
  exact h

lemma returned (h : v.WhileFree) : (Value.returned v).WhileFree := by
  rintro p ⟨⟩
  exact h p ‹_›

lemma unwrap (h : v.WhileFree) : v.unwrap.WhileFree := by
  cases v with
  | returned w => exact fun p hp => h p (.returned hp)
  | _ => exact h

end Value.WhileFree

def Regime.whileFree : Regime where
  cut := False
  deep := true
  allowed s := s.isWhile = false
  bound := Value.WhileFree
  given _ := Value.WhileFree
  mono h _ := h
  plain := .of_isPlain
  get := id
  hold h _ := h
  returned _ _ h _ := h.returned
  unwrap := .unwrap
  close := .procedure
  body h := h _ .procedure
  loop := nofun

namespace Regime

lemma Sound.exists_outcome {α : Type} {good : α → Prop} {x : ℕ → Run α} {m : Machine}
    (hx : whileFree.Sound m.depth good (x maxCallDepth))
    (hmono : ∀ n, maxCallDepth ≤ n → (x maxCallDepth).Below (x n))
    (hm : m.store.BindsOnly Value.WhileFree) :
    ∃ a m', ∀ n, maxCallDepth ≤ n → x n m = some (a, m') := by
  obtain ⟨r, hrun⟩ := hx.exists_result id ⟨hm, rfl⟩
  exact ⟨r.1, r.2, fun n hn => hmono n hn m r hrun⟩

end Regime

namespace Program

open Regime

/-- A program without `while` comes to its end in all ways to run it, with one result under all
bounds that admit as many nested calls as the language does. -/
theorem terminates {p : Program} {m : Machine} (hp : p.WhileFree)
    (hm : m.store.BindsOnly Value.WhileFree) :
    (∃ o m', ∀ n, maxCallDepth ≤ n → p.exec n m = some (o, m')) ∧
      (∃ values m', ∀ n, maxCallDepth ≤ n → p.execEach n m = some (values, m')) ∧
      ∃ o m', ∀ n, maxCallDepth ≤ n → p.execStatements n m = some (o, m') := by
  have hle : whileFree.cut ∨ maxCallDepth ≤ maxCallDepth := .inr (Nat.le_refl _)
  refine ⟨?_, ?_, ?_⟩
  · exact (sound_outcomeOf hle p.statements hp none .none).exists_outcome
      (fun n hn => .outcomeOf hn none p.statements) hm
  · exact (sound_valuesOf hle p.statements hp).exists_outcome
      (fun n hn => .valuesOf hn p.statements) hm
  · exact (sound_run hle (.stmts p.statements) hp).exists_outcome
      (fun n hn => Phrase.below_run hn (.stmts p.statements)) hm

def applier : Procedure where
  identity := 0
  header := ⟨"procedure", "apply", [⟨"f", .integer⟩]⟩
  body := .mk ⟨.beginWord, "begin"⟩ [.expression "f" (.call "(" (.named "f") [.named "f"])]
  closure := 0

def withApplier : Machine :=
  ⟨⟨#[⟨[("apply", ⟨.procedure applier, false⟩)], none⟩]⟩, 0, 190, 1, []⟩

def selfApplication : Program :=
  ⟨[.forLoop "for" "i" (.integer "1" 1) (.integer "2" 2)
    (.mk ⟨.doWord, "do"⟩ [.expression "apply" (.call "(" (.named "apply") [.named "apply"])])]⟩

lemma bindsOnly_withApplier : withApplier.store.BindsOnly Value.WhileFree := by
  intro i name b hb
  obtain ⟨scope, hscope, hb⟩ := Option.bind_eq_some_iff.1 hb
  cases Array.mem_singleton.1 (Array.mem_of_getElem? hscope)
  rw [Scope.find?, Scope.lookup_cons_eq] at hb
  split at hb
  · cases hb
    exact .procedure (by unfold Stmt.NoneWhile; decide)
  · cases hb

theorem terminates_selfApplication :
    selfApplication.WhileFree ∧ withApplier.store.BindsOnly Value.WhileFree ∧
      ∃ o m', (∀ n, maxCallDepth ≤ n → selfApplication.exec n withApplier = some (o, m')) ∧
        o.map Value.text = some "[ERROR]: maximum call depth of 200 exceeded" := by
  have hfree : selfApplication.WhileFree := by
    unfold WhileFree Stmt.NoneWhile
    decide
  obtain ⟨⟨o, m', hrun⟩, -, -⟩ := terminates hfree bindsOnly_withApplier
  have houtcome : (selfApplication.exec maxCallDepth withApplier).any (fun r =>
      r.1.map Value.text == some "[ERROR]: maximum call depth of 200 exceeded") = true := by
    decide +kernel
  rw [hrun maxCallDepth (Nat.le_refl _)] at houtcome
  exact ⟨hfree, bindsOnly_withApplier, o, m', hrun, by simpa using houtcome⟩

end Program

end MiniPascal
