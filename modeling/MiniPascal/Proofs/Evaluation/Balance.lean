import MiniPascal.Proofs.Evaluation.Evaluates

namespace MiniPascal

def Discipline.unrestricted : Discipline where

lemma Discipline.ready_unrestricted (m : Machine) : unrestricted.Ready m.current m :=
  ⟨rfl, trivial, trivial⟩

namespace Machine

/-- Every evaluation, and every run of a procedure, comes back to the current scope and to the depth
of calls it began with, whatever its outcome is and wherever it was left. -/
theorem balanced {m m' : Machine}
    (h : m.Evaluates m' ∨ ∃ n p args v, callWithin n p args m = some (v, m')) :
    m'.current = m.current ∧ m'.depth = m.depth := by
  have hready := Discipline.ready_unrestricted m
  rcases h with h | ⟨n, p, args, v, hrun⟩
  · have hchange := Discipline.change_of_evaluates hready h
    exact ⟨hchange.current, hchange.depth⟩
  · have hkept := Discipline.unrestricted.keepsCalls n p args m.current m hready trivial
      (fun _ _ => trivial) m.current v m' hrun
    exact ⟨hkept.current, hkept.depth⟩

def abandonedLoop : Expr :=
  .call "("
    (.procedure ⟨"procedure", "p", []⟩ (.mk ⟨.beginWord, "begin"⟩
      [.forLoop "for" "i" (.integer "1" 1) (.integer "3" 3)
        (.mk ⟨.doWord, "do"⟩ [.giveBack "return" (.integer "7" 7)])]))
    []

theorem balanced_abandonedLoop :
    ∃ v m', abandonedLoop.eval (callWithin 1) 1 ⟨.initial, 0, 5, 0, []⟩ = some (v, m') ∧
      v.text = "7" ∧ m'.current = 0 ∧ m'.depth = 5 := by
  have hloop : (abandonedLoop.eval (callWithin 1) 1 ⟨.initial, 0, 5, 0, []⟩).any
      (·.1.text == "7") = true := by
    decide +kernel
  obtain ⟨⟨v, m'⟩, hrun, htext⟩ := (Option.any_eq_true _ _).1 hloop
  obtain ⟨hcurrent, hdepth⟩ := balanced (.inl (.expression abandonedLoop hrun))
  exact ⟨v, m', hrun, by simpa using htext, hcurrent, hdepth⟩

end Machine

end MiniPascal
