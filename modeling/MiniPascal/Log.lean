import MiniPascal.Machine
import MiniPascal.Program.Source

namespace MiniPascal.Log

inductive Level where
  | debug | trace
  deriving DecidableEq, Repr

inductive Reporter where
  | lexer | parser | evaluator | procedure
  deriving DecidableEq, Repr

structure Record where
  level : Level
  reporter : Reporter
  message : String
  deriving DecidableEq, Repr

def Level.name : Level → String
  | debug => "DEBUG"
  | trace => "TRACE"

def Reporter.path : Reporter → String
  | lexer => "rusty_pas::frontend::lexer"
  | parser => "rusty_pas::frontend::parser"
  | evaluator => "rusty_pas::evaluator::evaluator"
  | procedure => "rusty_pas::evaluator::procedure"

def Level.verbosity : Level → Nat
  | debug => 1
  | trace => 2

def Record.text (r : Record) : String :=
  "[" ++ r.level.name ++ "] [" ++ r.reporter.path ++ "] " ++ r.message

def text (verbosity : Nat) (records : List Record) : String :=
  String.join ((records.filter (·.level.verbosity ≤ verbosity)).map (·.text ++ "\n"))

def illegalTokens (ts : List Token) : List Record :=
  (ts.filter (·.kind = .illegal)).map fun t =>
    ⟨.trace, .lexer, "illegal token " ++ Text.quoted t.literal⟩

/-- The records of reading `ts`, of which `met` tokens were met before out of `total`. A failure is
reported when the token after the last one used has been met. -/
def ofReading (total met : Nat) (ts : List Token) : List Failure → List Record
  | [] => illegalTokens ts
  | failure :: rest =>
    let fresh := total + 1 - failure.place.unread.length - met
    illegalTokens (ts.take fresh) ++
      ⟨.debug, .parser, "parse error: " ++ failure.error.message⟩ ::
      ofReading total (met + fresh) (ts.drop fresh) rest

def ofProgram (ts : List Token) (reading : Reading Program) : List Record :=
  ofReading ts.length 0 ts reading.failures

def ofCall (call : CallRecord) : Record :=
  ⟨.trace, .procedure,
    "calling procedure " ++ call.name ++ " with " ++ toString call.arguments ++ " argument(s)"⟩

def ofEvaluation (calls : List CallRecord) (values : List Value) : List Record :=
  calls.map ofCall ++
    match values.getLast? with
    | some (.error message) =>
      [⟨.debug, .evaluator, "evaluation stopped: " ++ (Value.error message).text⟩]
    | _ => []

end MiniPascal.Log
