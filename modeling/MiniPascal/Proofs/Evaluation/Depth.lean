import MiniPascal.Proofs.Evaluation.Lowering

namespace MiniPascal

open Run

lemma Machine.depth_bindAll (m : Machine) (bindings : List (Parameter × Value)) :
    (m.bindAll bindings).depth = m.depth := by
  induction bindings generalizing m with
  | nil => rfl
  | cons b rest ih => exact ih _

namespace Phrase

variable {k : ℕ} {T U : Task} {t u : Phrase} {m m' : Machine} {o : Option Value}

/-- The evaluation of the first task comes to the second inside `k` bodies of procedures, each of
which is run inside the one before. -/
inductive Inside (T : Task) : ℕ → Task → Prop
  | start : Inside T 0 T
  | reach {k U V} : Inside T k U → Reaches U V → Inside T k V
  | enter {k U V} : Inside T k U → Enters U V → Inside T (k + 1) V

lemma Reaches.depth (h : Reaches T U) : U.2.depth = T.2.depth := by
  cases h with
  | operand | left | condition | callee | declared | assigned | givenBack | expression | inner
  | first | statements => rfl
  | right hleft | last hleft => exact hleft.back.depth
  | consequence hcondition | alternative hcondition => exact hcondition.back.depth
  | argument hcallee hpass => exact hpass.back.depth.trans hcallee.back.depth
  | test hrounds => exact hrounds.back.depth
  | whileBody hrounds hcondition => exact hcondition.back.depth.trans hrounds.back.depth
  | forBody hfirst hlast hcounted =>
    exact hcounted.back.depth.trans (hlast.back.depth.trans hfirst.back.depth)
  | statement hpass => exact hpass.back.depth

lemma Enters.depth (h : Enters T U) : U.2.depth = T.2.depth + 1 ∧ U.2.depth ≤ maxCallDepth := by
  cases h with
  | @body lexeme callee arguments m p m₁ vs m₂ hcallee hpass hlt harity =>
    have hentered : (m₂.entered p vs).depth = m₂.depth + 1 := Machine.depth_bindAll _ _
    rw [hentered]
    exact ⟨congrArg (· + 1) (hpass.back.depth.trans hcallee.back.depth), hlt⟩

lemma Inside.depth (h : Inside T k U) : U.2.depth = T.2.depth + k := by
  induction h with
  | start => rfl
  | reach _ hreaches ih => exact hreaches.depth.trans ih
  | enter _ henters ih => rw [henters.depth.1, ih, Nat.add_assoc]

lemma Inside.depth_le (h : Inside T k U) (hT : T.2.depth ≤ maxCallDepth) :
    U.2.depth ≤ maxCallDepth := by
  induction h with
  | start => exact hT
  | reach _ hreaches ih => exact hreaches.depth.trans_le ih
  | enter _ henters => exact henters.depth.2

lemma runWith_callBeyond (t : Phrase) {beyond : Caller} {n : ℕ} (hm : m.depth = 0) :
    t.runWith (callBeyond beyond maxCallDepth n) n m = t.run n m := by
  have hlowers {room room' : ℕ} (h : maxCallDepth ≤ room) (h' : maxCallDepth ≤ room') :
      Lowers 0 (· = some .tooDeep) (t.runWith (callBeyond beyond room n) n)
        (t.runWith (callBeyond beyond room' n) n) :=
    .runWith (fun hd => .callBeyond hd (by rwa [Nat.zero_add]) (by rwa [Nat.zero_add])) t
  have hlt : n < n + 1 + maxCallDepth := by omega
  have hroom : maxCallDepth ≤ n + 1 + maxCallDepth := Nat.le_add_left _ _
  rw [← t.runWith_callWithin, ← callBeyond_of_lt beyond hlt]
  refine Option.ext fun r => ⟨fun h => ?_, fun h => ?_⟩
  · exact (hlowers (Nat.le_refl _) hroom).same hm h
  · exact (hlowers hroom (Nat.le_refl _)).same hm h

/-- Run from the depth 0, a phrase has at most 200 bodies of procedures running inside one another:
whatever stands in the place of those that would run inside them makes no difference. Unless a run
gives the error of the limit, it gives the same result at every lesser depth and leaves the same
machine, but for the depth. -/
theorem depth_limit (t : Phrase) (n : ℕ) (m : Machine) :
    (m.depth = 0 →
      (∀ beyond, t.runWith (callBeyond beyond 200 n) n m = t.run n m) ∧
      ∀ k u m', Inside (t, m) k (u, m') → m'.depth = k ∧ k ≤ 200) ∧
    ∀ d ≤ m.depth,
      (∀ o m', t.run n m = some (o, m') →
        o ≠ some (.error "maximum call depth of 200 exceeded") →
        t.run n (m.withDepth d) = some (o, m'.withDepth d)) ∧
      ∀ p : Program,
        (∀ o m', p.exec n m = some (o, m') →
          o ≠ some (.error "maximum call depth of 200 exceeded") →
          p.exec n (m.withDepth d) = some (o, m'.withDepth d)) ∧
        ∀ values m', p.execEach n m = some (values, m') →
          values.getLast? ≠ some (.error "maximum call depth of 200 exceeded") →
          p.execEach n (m.withDepth d) = some (values, m'.withDepth d) := by
  refine ⟨fun hm => ⟨fun beyond => t.runWith_callBeyond hm, fun k u m' h => ?_⟩, fun d hd => ?_⟩
  · have hdepth := h.depth
    have hle := h.depth_le (hm.trans_le (Nat.zero_le _))
    rw [hm, Nat.zero_add] at hdepth
    exact ⟨hdepth, hdepth.symm.trans_le hle⟩
  · refine ⟨fun o m' hrun ho => ?_, fun p => ⟨fun o m' hrun ho => ?_, fun values m' hrun hv => ?_⟩⟩
    · exact (Lowers.run t).lesser hrun ho hd
    · exact (Lowers.outcomeOf none p.statements).lesser hrun ho hd
    · exact (Lowers.valuesOf p.statements).lesser hrun hv hd

def seven : Expr :=
  .procedure ⟨"procedure", "p", []⟩ (.mk ⟨.beginWord, "begin"⟩ [.expression "7" (.integer "7" 7)])

def callOfSeven : Expr := .call "(" seven []

-- The last call that the limit admits, and the first that it refuses.
theorem depth_limit_callOfSeven :
    ∃ m m', (expr callOfSeven).run 1 ⟨.initial, 0, 199, 0, []⟩ = some (some (.integer 7), m) ∧
      (expr callOfSeven).run 1 ⟨.initial, 0, 200, 0, []⟩ = some (some .tooDeep, m') ∧
      (∀ beyond, (expr callOfSeven).runWith (callBeyond beyond 200 1) 1 .initial =
        some (some (.integer 7), m.withDepth 0)) ∧
      (∃ body inside, Inside (expr callOfSeven, .initial) 1 (body, inside) ∧ inside.depth = 1) ∧
      Program.exec 1 ⟨[.expression "" callOfSeven]⟩ .initial =
        some (some (.integer 7), m.withDepth 0) ∧
      Program.execEach 1 ⟨[.expression "" callOfSeven]⟩ .initial =
        some ([.integer 7], m.withDepth 0) := by
  have hruns : ∃ m m', (expr callOfSeven).run 1 ⟨.initial, 0, 199, 0, []⟩ =
        some (some (.integer 7), m) ∧
      (expr callOfSeven).run 1 ⟨.initial, 0, 200, 0, []⟩ = some (some .tooDeep, m') ∧
      Program.exec 1 ⟨[.expression "" callOfSeven]⟩ ⟨.initial, 0, 199, 0, []⟩ =
        some (some (.integer 7), m) ∧
      Program.execEach 1 ⟨[.expression "" callOfSeven]⟩ ⟨.initial, 0, 199, 0, []⟩ =
        some ([.integer 7], m) :=
    ⟨_, _, rfl, rfl, rfl, rfl⟩
  obtain ⟨m, m', hrun, hrefused, hexec, heach⟩ := hruns
  obtain ⟨hlower, hprograms⟩ :=
    (depth_limit (expr callOfSeven) 1 ⟨.initial, 0, 199, 0, []⟩).2 0 (Nat.zero_le _)
  obtain ⟨hbeyond, hinside⟩ := (depth_limit (expr callOfSeven) 1 .initial).1 rfl
  have hcallee : ∃ p m₁, (expr seven).Gives .initial (some (.procedure p)) m₁ ∧
      m₁.depth < maxCallDepth ∧ [].length = p.arity :=
    ⟨_, _, ⟨1, rfl⟩, by decide, rfl⟩
  obtain ⟨p, m₁, hcallee, hdepth, harity⟩ := hcallee
  have hbody : Inside (expr callOfSeven, .initial) 1 (stmts p.body.statements, m₁.entered p []) :=
    .enter .start (@Enters.body _ _ [] _ _ _ [] _ hcallee .nil hdepth harity)
  refine ⟨m, m', hrun, hrefused, fun beyond => ?_, ⟨_, _, hbody, (hinside _ _ _ hbody).1⟩,
    ?_, ?_⟩
  · rw [hbeyond]
    exact hlower _ _ hrun nofun
  · exact (hprograms _).1 _ _ hexec nofun
  · exact (hprograms _).2 _ _ heach nofun

end Phrase

end MiniPascal
