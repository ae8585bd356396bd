import MiniPascal.Proofs.Evaluation.Drivers
import MiniPascal.Proofs.Shell.Session

namespace MiniPascal.Shell

open Program (Executes)

lemma runScript_of_values {o : Options} {contents : ByteArray} {source : String} {p : Program}
    {values : List Value} {m' : Machine} (path : String) (ho : o.printTree = false)
    (hsource : String.fromUTF8? contents = some source) (hp : Program.parse source = .ok p)
    (hrun : p.execEach ample .initial = some (values, m')) :
    (runScript o path (some contents)).out = lines (values.map Value.text) ∧
      (runScript o path (some contents)).code =
        if values.getLast?.any Value.isError then 70 else 0 := by
  have heval : p.execEach ample { Machine.initial with calls := [] } = some (values, m') := hrun
  rw [Program.parse, Program.ofSource] at hp
  simp only [runScript, hsource, step, hp, ho, evaluate, heval, Bool.false_eq_true, if_false]
  split <;> exact ⟨trivial, rfl⟩

/-- All ways to run a program run the same statements and leave the same machine: they come to an
end if and only if the statements, one after the other, come to an end or to one that gives an error
or a `return`. As a list of statements the program gives this error or `return` as it is, as a
program without the wrapper of the `return`, and as a series of values after the values before it;
if there is none, it gives the outcome of the last statement, or all values.

A script that parses therefore exits with 70 if and only if one of the statements that are run gives
an error, which is then printed last, and with 0 if it ends otherwise. -/
theorem drivers_agree (p : Program) :
    (∀ n m, (∀ os stop m', Executes n p.statements m os stop m' →
        p.execStatements n m = some (stop.or os.getLast?.join, m') ∧
        p.exec n m = some ((stop.map Value.unwrap).or os.getLast?.join, m') ∧
        p.execEach n m = some (os.reduceOption ++ (stop.map Value.unwrap).toList, m')) ∧
      ∀ m', (∃ outcome, p.execStatements n m = some (outcome, m')) ∨
          (∃ outcome, p.exec n m = some (outcome, m')) ∨
          (∃ values, p.execEach n m = some (values, m')) →
        ∃ os stop, Executes n p.statements m os stop m') ∧
    ∀ o path contents source, o.printTree = false →
      String.fromUTF8? contents = some source → Program.parse source = .ok p →
      ∀ os stop m', Executes ample p.statements .initial os stop m' →
        ((runScript o path (some contents)).code = 70 ↔
          ∃ message, some (.error message) ∈ os ++ [stop]) ∧
        (∀ message, some (.error message) ∈ os ++ [stop] →
          (runScript o path (some contents)).out =
            lines (os.reduceOption.map Value.text ++ [(Value.error message).text])) ∧
        ((∀ message, stop ≠ some (.error message)) →
          (runScript o path (some contents)).code = 0) := by
  refine ⟨fun n m => ⟨fun os stop m' h => ?_, fun m' h => ?_⟩, ?_⟩
  · have hlast : os.getLast?.getD none = os.getLast?.join := by
      cases os.getLast? <;> rfl
    have hstatements := h.execAll none
    have hprogram := h.outcomeOf none
    rw [hlast] at hstatements hprogram
    exact ⟨hstatements, hprogram, h.valuesOf⟩
  · rcases h with ⟨_, h⟩ | ⟨_, h⟩ | ⟨_, h⟩
    · exact Executes.of_execAll h
    · exact Executes.of_outcomeOf h
    · exact Executes.of_valuesOf h
  · intro o path contents source ho hsource hp os stop m' h
    obtain ⟨hout, hcode⟩ := runScript_of_values path ho hsource hp h.valuesOf
    have hlast := h.getLast?_isError .initial
    refine ⟨?_, fun message hmem => ?_, fun hstop => ?_⟩
    · rw [hcode]
      constructor
      · intro h70
        have herror := hlast.1 <| by
          by_contra hno
          rw [if_neg hno] at h70
          cases h70
        obtain ⟨message, rfl⟩ := herror
        exact ⟨message, List.mem_append_right _ (List.mem_singleton.2 rfl)⟩
      · rintro ⟨message, hmem⟩
        exact if_pos (hlast.2 ⟨message, h.eq_of_error_mem hmem⟩)
    · obtain rfl := h.eq_of_error_mem hmem
      rw [hout, List.map_append]
      rfl
    · rw [hcode, if_neg]
      rw [hlast, not_exists]
      exact hstop

def one : Stmt := .expression "1" (.integer "1" 1)

def givesTwo : Stmt := .giveBack "return" (.integer "2" 2)

def quotient : Stmt := .expression "1" (.infixed "/" .divide (.integer "1" 1) (.integer "0" 0))

-- One script ends on a `return`, the other on an error; both have a statement that is not run.
theorem drivers_agree_one :
    ∃ m m', Executes ample [one, givesTwo, one] .initial [some (.integer 1)]
        (some (.returned (.integer 2))) m ∧
      (runScript ⟨none, 0, false⟩ "x.pas" (some "1; return 2; 1".toUTF8)).code = 0 ∧
      Program.execEach ample ⟨[one, givesTwo, one]⟩ .initial =
        some ([.integer 1, .integer 2], m) ∧
      Executes ample [one, quotient, one] .initial [some (.integer 1)]
        (some (.ofError .divisionByZero)) m' ∧
      (runScript ⟨none, 0, false⟩ "x.pas" (some "1; 1 / 0; 1".toUTF8)).code = 70 ∧
      (runScript ⟨none, 0, false⟩ "x.pas" (some "1; 1 / 0; 1".toUTF8)).out =
        lines ["1", (Value.ofError .divisionByZero).text] := by
  have hreturn : Executes ample [one, givesTwo, one] .initial [some (.integer 1)]
      (some (.returned (.integer 2))) .initial :=
    .next rfl rfl (.stop rfl rfl)
  have herror : Executes ample [one, quotient, one] .initial [some (.integer 1)]
      (some (.ofError .divisionByZero)) .initial :=
    .next rfl rfl (.stop rfl rfl)
  have hparse : Program.parse "1; return 2; 1" = .ok ⟨[one, givesTwo, one]⟩ := by cbv
  have hparse' : Program.parse "1; 1 / 0; 1" = .ok ⟨[one, quotient, one]⟩ := by cbv
  obtain ⟨hdrivers, hscript⟩ := drivers_agree ⟨[one, givesTwo, one]⟩
  obtain ⟨-, -, heach⟩ := (hdrivers ample .initial).1 _ _ _ hreturn
  obtain ⟨-, -, hzero⟩ := hscript ⟨none, 0, false⟩ "x.pas" _ _ rfl (fromUTF8?_toUTF8 _) hparse
    _ _ _ hreturn
  obtain ⟨hcode, hout, -⟩ := (drivers_agree ⟨[one, quotient, one]⟩).2 ⟨none, 0, false⟩ "x.pas" _ _
    rfl (fromUTF8?_toUTF8 _) hparse' _ _ _ herror
  have hmem : some (Value.ofError .divisionByZero) ∈
      [some (Value.integer 1)] ++ [some (Value.ofError .divisionByZero)] :=
    List.mem_append_right _ (List.mem_singleton.2 rfl)
  have hstop (message : String) : some (Value.returned (.integer 2)) ≠ some (.error message) := by
    simp
  exact ⟨_, _, hreturn, hzero hstop, heach, herror, hcode.2 ⟨_, hmem⟩, hout _ hmem⟩

end MiniPascal.Shell
