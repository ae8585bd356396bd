import MiniPascal.Proofs.Evaluation.Calls
import MiniPascal.Proofs.Evaluation.Values
import MiniPascal.Proofs.Program.Append
import MiniPascal.Proofs.Shell.Lines

namespace MiniPascal.Shell

def session (o : Options) : Machine → List String → List Step
  | _, [] => []
  | m, line :: rest => step o m line :: session o (step o m line).machine rest

def after (o : Options) : Machine → List String → Machine
  | m, [] => m
  | m, line :: rest => after o (step o m line).machine rest

def parses (line : String) : Bool := (Program.parse line).isOk

/-- The lines that parse are run in order, and none of them stops on an error or a `return`. -/
inductive RunsThrough : Machine → List String → Prop
  | nil {m} : RunsThrough m []
  | rejected {m line rest errors} : Program.parse line = .error errors → RunsThrough m rest →
    RunsThrough m (line :: rest)
  | accepted {m m' line rest p} : Program.parse line = .ok p →
    p.Completes ample (m.withCalls []) m' → RunsThrough m' rest → RunsThrough m (line :: rest)

section Filter

variable {line : String} (rest : List String)

lemma filter_parses_of_error {errors : List ParseError}
    (h : Program.parse line = .error errors) :
    (line :: rest).filter parses = rest.filter parses :=
  List.filter_cons_of_neg (by simp [parses, h, Except.isOk, Except.toBool])

lemma filter_parses_of_ok {p : Program} (h : Program.parse line = .ok p) :
    (line :: rest).filter parses = line :: rest.filter parses :=
  List.filter_cons_of_pos (by simp [parses, h, Except.isOk, Except.toBool])

end Filter

section Steps

variable {o : Options} {m m' : Machine} {source : String} {p : Program} {values : List Value}

lemma step_of_error {errors : List ParseError} (h : Program.parse source = .error errors) :
    ∃ err, step o m source = ⟨m, "", err, .rejected⟩ := by
  rw [Program.parse, Program.ofSource] at h
  simp only [step, h]
  exact ⟨_, rfl⟩

lemma evaluate_eq (h : p.execEach ample (m.withCalls []) = some (values, m'))
    (hvalues : ∀ v ∈ values, v.isAbrupt = false) :
    ∃ err, evaluate o m p = ⟨m', lines (values.map Value.text), err, .finished⟩ := by
  have hlast : values.getLast?.any Value.isError = false := by
    cases hv : values.getLast? with
    | none => rfl
    | some v =>
      have habrupt := hvalues v (List.mem_of_mem_getLast? hv)
      rw [Value.isAbrupt, Bool.or_eq_false_iff] at habrupt
      exact habrupt.1
  rw [Machine.withCalls] at h
  rw [evaluate, h]
  simp only [hlast]
  exact ⟨_, rfl⟩

lemma step_of_ok (ho : o.printTree = false) (hp : Program.parse source = .ok p)
    (h : p.execEach ample (m.withCalls []) = some (values, m'))
    (hvalues : ∀ v ∈ values, v.isAbrupt = false) :
    ∃ err, step o m source = ⟨m', lines (values.map Value.text), err, .finished⟩ := by
  obtain ⟨err, heval⟩ := evaluate_eq (o := o) h hvalues
  rw [Program.parse, Program.ofSource] at hp
  simp only [step, hp, ho, heval]
  exact ⟨_, rfl⟩

end Steps

theorem runLines_append (o : Options) (m : Machine) (lines : List String)
    (more : List (List UInt8)) :
    runLines o m (lines.map bytes ++ more) =
      ⟨(runLines o (after o m lines) more).code,
        String.join ((session o m lines).map (prompt ++ ·.out)) ++
          (runLines o (after o m lines) more).out,
        String.join ((session o m lines).map Step.err) ++
          (runLines o (after o m lines) more).err⟩ := by
  induction lines generalizing m with
  | nil => simp [session, after]
  | cons line rest ih =>
    rw [List.map_cons, List.cons_append, runLines, fromUTF8?_bytes]
    simp [ih, session, after, String.join_cons, String.append_assoc]

structure Agrees (o : Options) (m : Machine) (input : List String) (p : Program)
    (values : List Value) (m' : Machine) : Prop where
  parse : Program.parse (String.join (input.filter parses)) = .ok p
  runs : p.execEach ample (m.withCalls []) = some (values, m')
  intact : ∀ v ∈ values, v.isAbrupt = false
  prints : lines (values.map Value.text) = String.join ((session o m input).map Step.out)
  leaves : m'.withCalls [] = (after o m input).withCalls []

lemma IsLine.separated {line : String} (h : IsLine line) (rest : List Char) :
    Lexical.Separated line.toList rest := by
  obtain ⟨body, rfl, _⟩ := h
  have hlast : '\n' ∈ (body ++ "\n").toList.getLast? := by simp
  exact .inr ⟨_, hlast, rfl⟩

lemma lines_append (xs ys : List String) : lines (xs ++ ys) = lines xs ++ lines ys := by
  rw [lines, List.map_append, String.join_append]
  rfl

namespace Agrees

variable {o : Options} {m m₁ m' : Machine} {line : String} {rest : List String} {p q : Program}
  {values : List Value}

lemma nil (o : Options) (m : Machine) : Agrees o m [] ⟨[]⟩ [] (m.withCalls []) where
  parse := by cbv
  runs := rfl
  intact := by simp
  prints := rfl
  leaves := rfl

lemma rejected {errors : List ParseError} (hline : Program.parse line = .error errors)
    (h : Agrees o m rest p values m') : Agrees o m (line :: rest) p values m' := by
  obtain ⟨err, hstep⟩ := step_of_error (o := o) (m := m) hline
  refine ⟨?_, h.runs, h.intact, ?_, ?_⟩
  · rw [filter_parses_of_error rest hline]
    exact h.parse
  · rw [session, hstep, List.map_cons, String.join_cons, String.empty_append]
    exact h.prints
  · rw [after, hstep]
    exact h.leaves

lemma accepted (ho : o.printTree = false) (hline : IsLine line)
    (hcomplete : Token.Complete (Token.scan line)) (hp : Program.parse line = .ok p)
    (hrun : p.Completes ample (m.withCalls []) m₁) (h : Agrees o m₁ rest q values m') :
    ∃ values' m'', Agrees o m (line :: rest) ⟨p.statements ++ q.statements⟩ values' m'' := by
  obtain ⟨first, hfirst, halone, hrest⟩ := hrun.exists_values
  obtain ⟨err, hstep⟩ := step_of_ok ho hp halone hfirst
  obtain ⟨calls, hruns⟩ := Program.execEach_withCalls h.runs m₁.calls
  refine ⟨first ++ values, m'.withCalls calls, ?_, ?_, ?_, ?_, ?_⟩
  · rw [filter_parses_of_ok rest hp, String.join_cons]
    exact Program.parse_append hcomplete (hline.separated _) hp h.parse
  · rw [hrest]
    exact congrArg _ hruns
  · intro v hv
    exact (List.mem_append.1 hv).elim (hfirst v) (h.intact v)
  · rw [session, hstep, List.map_cons, String.join_cons, List.map_append, lines_append, h.prints]
  · rw [after, hstep]
    exact h.leaves

end Agrees

theorem exists_agrees {o : Options} {m : Machine} {input : List String} (ho : o.printTree = false)
    (hlines : ∀ line ∈ input, IsLine line)
    (hcomplete : ∀ line ∈ input.filter parses, Token.Complete (Token.scan line))
    (hrun : RunsThrough m input) : ∃ p values m', Agrees o m input p values m' := by
  induction hrun with
  | @nil m => exact ⟨_, _, _, .nil o m⟩
  | @rejected m line rest errors hp _ ih =>
    rw [filter_parses_of_error rest hp] at hcomplete
    rw [List.forall_mem_cons] at hlines
    obtain ⟨p, values, m', hagrees⟩ := ih hlines.2 hcomplete
    exact ⟨p, values, m', hagrees.rejected hp⟩
  | @accepted m m₁ line rest p hp hcompletes _ ih =>
    rw [filter_parses_of_ok rest hp, List.forall_mem_cons] at hcomplete
    rw [List.forall_mem_cons] at hlines
    obtain ⟨q, values, m', hagrees⟩ := ih hlines.2 hcomplete.2
    obtain ⟨values', m'', hall⟩ := hagrees.accepted ho hlines.1 hcomplete.1 hp hcompletes
    exact ⟨_, values', m'', hall⟩

lemma out_of_not_parses {o : Options} {m : Machine} {input : List String} :
    ∀ x ∈ input.zip (session o m input), parses x.1 = false → x.2.out = "" := by
  induction input generalizing m with
  | nil => simp [session]
  | cons line rest ih =>
    intro x hx hline
    rw [session, List.zip_cons_cons, List.mem_cons] at hx
    rcases hx with rfl | hx
    · cases hp : Program.parse line with
      | error errors =>
        obtain ⟨err, hstep⟩ := step_of_error (o := o) (m := m) hp
        simp [hstep]
      | ok p => simp [parses, hp, Except.isOk, Except.toBool] at hline
    · exact ih x hx hline

/-- The shell and the script made of the lines that parse agree, as long as each of these lines
ends its last statement, closes its blocks and is run to its end. -/
theorem script_of_session {o o' : Options} {input : List String} (path : String)
    (ho : o.printTree = false) (ho' : o'.printTree = false)
    (hlines : ∀ line ∈ input, IsLine line)
    (hcomplete : ∀ line ∈ input.filter parses, Token.Complete (Token.scan line))
    (hrun : RunsThrough .initial input) :
    let answers := session o .initial input
    let shell := runShell o (String.join input).toUTF8
    let source := String.join (input.filter parses)
    let script := runScript o' path (some source.toUTF8)
    shell.out = String.join (answers.map (prompt ++ ·.out)) ++ prompt ∧
      (∀ x ∈ input.zip answers, parses x.1 = false → x.2.out = "") ∧
      script.out = String.join (answers.map Step.out) ∧
      (after o .initial input).store = (step o' .initial source).machine.store ∧
      (after o .initial input).current = (step o' .initial source).machine.current ∧
      shell.code = 0 ∧ script.code = 0 := by
  intro answers shell source script
  have hshell : shell = runLines o .initial (input.map bytes ++ []) := by
    rw [List.append_nil, ← splitLines_bytes hlines, ← toList_toUTF8]
    rfl
  rw [runLines_append] at hshell
  obtain ⟨p, values, m', hagrees⟩ := exists_agrees ho hlines hcomplete hrun
  obtain ⟨err, hstep⟩ := step_of_ok ho' hagrees.parse hagrees.runs hagrees.intact
  have hscript : script = ⟨0, lines (values.map Value.text), err⟩ := by
    simp only [script, runScript, fromUTF8?_toUTF8]
    rw [hstep]
    rfl
  have hleaves := hagrees.leaves
  refine ⟨?_, out_of_not_parses, ?_, ?_, ?_, ?_, ?_⟩
  · rw [hshell]
    rfl
  · rw [hscript]
    exact hagrees.prints
  · rw [hstep]
    exact (congrArg Machine.store hleaves).symm
  · rw [hstep]
    exact (congrArg Machine.current hleaves).symm
  · rw [hshell]
    rfl
  · rw [hscript]

def conversation : List String := ["var x: integer := 2;\n", "x :=\n", "x;\n"]

def twoBound : Machine := ⟨⟨#[⟨[("x", ⟨.integer 2, false⟩)], none⟩]⟩, 0, 0, 0, []⟩

lemma lookup_twoBound : Run.lookup "x" twoBound = some (.integer 2, twoBound) := by
  have hget : twoBound.store.get? 0 "x" = some (.integer 2) := by cbv
  change some ((twoBound.store.get? 0 "x").getD _, twoBound) = _
  rw [hget]
  rfl

lemma runsThrough_conversation : RunsThrough .initial conversation := by
  have hmissing : Program.parse "x :=\n" = .error [.noOperand .endOfInput] := by cbv
  have hdeclare : Program.Completes ample
      ⟨[.declare "var" false "x" .integer (.integer "2" 2)]⟩ .initial twoBound :=
    ⟨none, rfl, rfl⟩
  have hname : Program.Completes ample ⟨[.expression "x" (.named "x")]⟩ twoBound twoBound := by
    refine ⟨some (.integer 2), ?_, rfl⟩
    rw [Program.execStatements, Stmt.execAll, Run.bind_apply, Stmt.exec, Run.bind_apply,
      Expr.eval, lookup_twoBound]
    rfl
  apply RunsThrough.accepted (by cbv) hdeclare
  apply RunsThrough.rejected hmissing
  exact .accepted (by cbv) hname .nil

lemma complete_conversation :
    ∀ line ∈ conversation.filter parses, Token.Complete (Token.scan line) := by
  have hfilter : conversation.filter parses = ["var x: integer := 2;\n", "x;\n"] := by cbv
  have hdeclaration : Token.scan "var x: integer := 2;\n" =
      [⟨.varWord, "var"⟩, ⟨.identifier, "x"⟩, ⟨.colon, ":"⟩, ⟨.integerWord, "integer"⟩,
        ⟨.assign, ":="⟩, ⟨.integer, "2"⟩, ⟨.semicolon, ";"⟩] := by
    cbv
  have hname : Token.scan "x;\n" = [⟨.identifier, "x"⟩, ⟨.semicolon, ";"⟩] := by cbv
  rw [hfilter, List.forall_mem_cons, List.forall_mem_cons, hdeclaration, hname]
  exact ⟨⟨by simp, rfl⟩, ⟨by simp, rfl⟩, by simp⟩

theorem script_of_conversation :
    (∀ line ∈ conversation, IsLine line) ∧
      (∀ line ∈ conversation.filter parses, Token.Complete (Token.scan line)) ∧
      RunsThrough .initial conversation ∧
      (runShell ⟨none, 0, false⟩ (String.join conversation).toUTF8).out =
        String.join ((session ⟨none, 0, false⟩ .initial conversation).map (prompt ++ ·.out)) ++
          prompt ∧
      (runScript ⟨some "x.pas", 0, false⟩ "x.pas"
        (some (String.join (conversation.filter parses)).toUTF8)).code = 0 := by
  have hlines : ∀ line ∈ conversation, IsLine line := by
    simp only [conversation, List.forall_mem_cons]
    exact ⟨⟨"var x: integer := 2;", rfl, by decide⟩, ⟨"x :=", rfl, by decide⟩,
      ⟨"x;", rfl, by decide⟩, by simp⟩
  have hagree := @script_of_session ⟨none, 0, false⟩ ⟨some "x.pas", 0, false⟩ conversation "x.pas"
    rfl rfl hlines complete_conversation runsThrough_conversation
  obtain ⟨hout, _, _, _, _, _, hcode⟩ := hagree
  exact ⟨hlines, complete_conversation, runsThrough_conversation, hout, hcode⟩

end MiniPascal.Shell
