import MiniPascal.Proofs.Evaluation.Positions
/-! Rules about stores hold at every stage of an evaluation. -/

namespace MiniPascal

open Discipline

variable {D : Discipline} {c : ScopeId} {m m' : Machine}

namespace Discipline

lemma Ready.opened {parent : ScopeId} (h : D.Ready c m) (hparent : D.live m.store parent) :
    D.Ready m.store.size (m.openScope parent).2 ∧
      D.fresh (m.openScope parent).2.store m.store.size := by
  obtain ⟨hinv, hlive, hfresh⟩ := D.scope h.inv hparent
  exact ⟨⟨rfl, hinv, hlive⟩, hfresh⟩

lemma Ready.inside (h : D.Ready c m) : D.Ready m.store.size (m.openScope m.current).2 :=
  (h.opened (h.current.symm ▸ h.live)).1

lemma Ready.counter {counter : String} (h : D.Ready c m) (hc : D.fresh m.store c) (n : Int64) :
    D.Ready c (m.define counter (.integer n)) ∧
      D.fresh (m.define counter (.integer n)).store c := by
  have hn : D.held m.store (.integer n) := D.hold (D.plain trivial) rfl
  have hkept := Keeps.define counter h hc hn () (m.define counter (.integer n)) rfl
  exact ⟨h.after hkept.toChange, hkept.good⟩

lemma Ready.entered {p : Procedure} {vs : List Value} (h : D.Ready c m)
    (hp : D.val m.store (.procedure p)) (hvs : ∀ v ∈ vs, D.held m.store v) :
    D.Ready m.store.size (m.entered p vs) := by
  have hcounted : D.Ready c
      { m with depth := m.depth + 1, calls := ⟨p.header.name, vs.length⟩ :: m.calls } :=
    ⟨h.current, h.inv, h.live⟩
  obtain ⟨hopened, hfresh⟩ := hcounted.opened (D.closure hp)
  have hmono : D.rel c m.store (m.store.push (some p.closure)) := D.leave D.refl
  have hvalues : ∀ b ∈ p.header.parameters.zip vs,
      D.held (m.store.push (some p.closure)) b.2 :=
    fun b hb => D.held_mono hmono (hvs b.2 (List.of_mem_zip hb).2)
  have hbound := Keeps.bindAll hopened hfresh hvalues () _ (Run.bindAll_apply _)
  exact hopened.after hbound.toChange

end Discipline

namespace Phrase

variable {t : Phrase} {T U : Task} {counter : String} {condition : Expr} {body : Block}
  {o : Option Value}

lemma Gives.kept (hgives : t.Gives m o m') (h : D.Ready c m) : D.Kept c D.Outcome m o m' := by
  obtain ⟨n, hn⟩ := hgives
  have hcall := D.keepsCalls n
  cases t with
  | expr e => exact Keeps.map h (Discipline.eval hcall h e) (fun _ _ => outcome_some) o m' hn
  | stmt s => exact exec hcall h s o m' hn
  | stmts ss => exact execAll hcall h none ss outcome_none o m' hn
  | block b => exact execBlock hcall h b c o m' hn

lemma Gives.ready (hgives : t.Gives m o m') (h : D.Ready c m) : D.Ready c m' :=
  h.after (hgives.kept h).toChange

lemma Pass.kept {ts : List Phrase} {os : List (Option Value)} (hpass : Pass ts m os m')
    (h : D.Ready c m) : D.Kept c (fun s os => ∀ o ∈ os, ∀ v ∈ o, D.held s v) m os m' := by
  induction hpass with
  | nil => exact ⟨.refl h, nofun⟩
  | @cons t ts m o m₁ os m' hfirst hnormal _ ih =>
    have hkept := hfirst.kept h
    have hrest := ih (h.after hkept.toChange)
    refine ⟨hkept.toChange.trans hrest.toChange, List.forall_mem_cons.2 ⟨?_, hrest.good⟩⟩
    rintro v rfl
    exact D.held_mono hrest.rel (D.hold (hkept.good v rfl) hnormal)

lemma Rounds.ready (hrounds : Rounds condition body m m') (h : D.Ready c m) : D.Ready c m' := by
  induction hrounds with
  | start => exact h
  | round hcondition _ _ hbody _ _ ih => exact ih (hbody.ready (hcondition.ready h))

lemma Counted.ready {k : ℕ} {a n : Int64} (hcounted : Counted counter body k a m n m')
    (h : D.Ready c m) (hc : D.fresh m.store c) : D.Ready c m' ∧ D.fresh m'.store c := by
  induction hcounted with
  | start => exact ⟨h, hc⟩
  | pass hbody _ _ ih =>
    obtain ⟨h₁, hc₁⟩ := h.counter hc _
    obtain ⟨bound, hrun⟩ := hbody
    -- The body has a scope of its own, so that the scope of the counter is left as it was.
    have hkept := Keeps.with_fresh (d := c) (execBlock (D.keepsCalls _) h₁ body) hc₁ _ _ hrun
    exact ih (h₁.after hkept.toChange) hkept.good.2

-- One case for each position, by what has been evaluated before.
lemma Reaches.ready (hreaches : Reaches T U) (h : D.Ready c T.2) : ∃ d, D.Ready d U.2 := by
  cases hreaches with
  | operand | left | condition | callee | declared | assigned | givenBack | expression | inner
  | first => exact ⟨c, h⟩
  | right hbefore | consequence hbefore | alternative hbefore | last hbefore =>
    exact ⟨c, hbefore.ready h⟩
  | argument hcallee hpass =>
    have h₁ := hcallee.ready h
    exact ⟨c, h₁.after (hpass.kept h₁).toChange⟩
  | test hrounds => exact ⟨c, hrounds.ready h⟩
  | whileBody hrounds hcondition => exact ⟨c, hcondition.ready (hrounds.ready h)⟩
  | @forBody _ _ _ _ _ _ _ _ _ m₂ _ _ _ hfirst hlast hcounted =>
    have h₂ : D.Ready c m₂ := hlast.ready (hfirst.ready h)
    obtain ⟨hopened, hfresh⟩ := h₂.opened (h₂.current.symm ▸ h₂.live)
    obtain ⟨h₃, hfresh⟩ := hcounted.ready hopened hfresh
    exact ⟨m₂.store.size, (h₃.counter hfresh _).1⟩
  | statement hpass => exact ⟨c, h.after (hpass.kept h).toChange⟩
  | statements => exact ⟨_, h.inside⟩

lemma Enters.ready (henters : Enters T U) (h : D.Ready c T.2) : ∃ d, D.Ready d U.2 := by
  cases henters with
  | @body lexeme callee arguments m p m₁ vs m₂ hcallee hpass =>
    have hp := hcallee.kept h
    have h₁ : D.Ready c m₁ := h.after hp.toChange
    have hargs := hpass.kept h₁
    have hvs : ∀ v ∈ vs, D.held m₂.store v :=
      fun v hv => hargs.good (some v) (List.mem_map_of_mem hv) v rfl
    have hcalled : D.val m₂.store (.procedure p) := D.val_mono hargs.rel (hp.good _ rfl)
    exact ⟨_, (h₁.after hargs.toChange).entered hcalled hvs⟩

end Phrase

end MiniPascal
