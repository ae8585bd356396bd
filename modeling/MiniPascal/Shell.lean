import MiniPascal.Log
import MiniPascal.Evaluation
/-! The command line: a script is run as a whole, and the shell runs its input line by line. -/

namespace MiniPascal.Shell

def programName : String := "rpas"

def version : String := "0.1.0"

def prompt : String := ">> "

structure Options where
  script : Option String
  verbosity : Nat
  printTree : Bool
  deriving DecidableEq, Repr

inductive Request where
  | run (options : Options)
  | showVersion
  | showUsage
  | refused (argument : String)
  deriving DecidableEq, Repr

structure Exit where
  code : Nat
  out : String
  err : String
  deriving DecidableEq, Repr

namespace Request

def withScript (o : Options) (path : String) : Request :=
  if o.script.isSome then refused path else run { o with script := some path }

def ofLetters (o : Options) : List Char → Request
  | [] => run o
  | 'v' :: rest => ofLetters { o with verbosity := o.verbosity + 1 } rest
  | 'V' :: _ => showVersion
  | 'h' :: _ => showUsage
  | c :: _ => refused ("-" ++ c.toString)

def ofArgument (o : Options) (argument : String) : Request :=
  match argument with
  | "--verbose" => run { o with verbosity := o.verbosity + 1 }
  | "--print-ast" => run { o with printTree := true }
  | "--version" => showVersion
  | "--help" => showUsage
  | _ =>
    match argument.toList with
    | '-' :: '-' :: _ :: _ => refused argument
    | '-' :: c :: rest => ofLetters o (c :: rest)
    | _ => withScript o argument

def ofArguments (o : Options) : (onlyPaths : Bool) → List String → Request
  | _, [] => run o
  | onlyPaths, argument :: rest =>
    if !onlyPaths && argument == "--" then ofArguments o true rest
    else
      match if onlyPaths then withScript o argument else ofArgument o argument with
      | run o' => ofArguments o' onlyPaths rest
      | other => other

def treeFlags (arguments : List String) : Nat :=
  (arguments.takeWhile (· != "--")).count "--print-ast"

/-- A flag that may stand once is counted after all arguments have been taken, so one that asks for
the version is still answered after a repetition. -/
def parse (arguments : List String) : Request :=
  match ofArguments ⟨none, 0, false⟩ false arguments with
  | run o => if treeFlags arguments ≤ 1 then run o else refused "--print-ast"
  | other => other

end Request

inductive Ending where
  | finished
  | rejected
  | stoppedOnError
  | cutOff
  deriving DecidableEq, Repr

structure Step where
  machine : Machine
  out : String
  err : String
  ending : Ending

def lines (texts : List String) : String := String.join (texts.map (· ++ "\n"))

def report (errors : List ParseError) : String := lines (errors.map ("\t" ++ ·.message))

def evaluate (o : Options) (m : Machine) (p : Program) : Step :=
  match p.execEach ample { m with calls := [] } with
  | none => ⟨m, "", "", .cutOff⟩
  | some (values, after) =>
    ⟨after, lines (values.map Value.text),
      Log.text o.verbosity (Log.ofEvaluation after.calls.reverse values),
      if values.getLast?.any Value.isError then .stoppedOnError else .finished⟩

def step (o : Options) (m : Machine) (source : String) : Step :=
  let tokens := Token.scan source
  let reading := Program.ofTokens tokens
  let log := Log.text o.verbosity (Log.ofProgram tokens reading)
  match Program.accepted reading with
  | .error errors => ⟨m, "", log ++ report errors, .rejected⟩
  | .ok p =>
    if o.printTree then ⟨m, lines [p.text], log, .finished⟩
    else
      let result := evaluate o m p
      { result with err := log ++ result.err }

def Ending.code : Ending → Nat
  | finished => 0
  | rejected => 65
  | stoppedOnError => 70
  | cutOff => 70

def notText : String := "stream did not contain valid UTF-8"

def noSuchFile : String := "No such file or directory (os error 2)"

def unreadable (what reason : String) : Exit :=
  ⟨74, "", "could not read " ++ what ++ ": " ++ reason ++ "\n"⟩

def runScript (o : Options) (path : String) (contents : Option ByteArray) : Exit :=
  match contents with
  | none => unreadable path noSuchFile
  | some bytes =>
    match String.fromUTF8? bytes with
    | none => unreadable path notText
    | some source =>
      let result := step o .initial source
      ⟨result.ending.code, result.out, result.err⟩

def splitLines (line : List UInt8) : List UInt8 → List (List UInt8)
  | [] => if line.isEmpty then [] else [line.reverse]
  | byte :: rest =>
    if byte = 10 then (byte :: line).reverse :: splitLines [] rest
    else splitLines (byte :: line) rest

def runLines (o : Options) (m : Machine) : List (List UInt8) → Exit
  | [] => ⟨0, prompt, ""⟩
  | line :: rest =>
    match String.fromUTF8? ⟨line.toArray⟩ with
    | none => { unreadable "input" notText with out := prompt }
    | some source =>
      let result := step o m source
      let after := runLines o result.machine rest
      ⟨after.code, prompt ++ result.out ++ after.out, result.err ++ after.err⟩

def runShell (o : Options) (input : ByteArray) : Exit :=
  runLines o .initial (splitLines [] input.toList)

def usage : String := "USAGE:\n    " ++ programName ++ " [OPTIONS] [SCRIPT]\n"

/-- The whole program: `read` gives the contents of a file if there is one. -/
def run (arguments : List String) (read : String → Option ByteArray) (input : ByteArray) : Exit :=
  match Request.parse arguments with
  | .showVersion => ⟨0, programName ++ " " ++ version ++ "\n", ""⟩
  | .showUsage => ⟨0, usage, ""⟩
  | .refused argument => ⟨2, "", "unexpected argument " ++ argument ++ "\n\n" ++ usage⟩
  | .run o =>
    match o.script with
    | some path => runScript o path (read path)
    | none => runShell o input

end MiniPascal.Shell
