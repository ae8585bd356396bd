import MiniPascal.Program.Read
import MiniPascal.Token.Scan

namespace MiniPascal

def Token.delivered : List (Option Token) → List Token
  | some t :: rest => t :: delivered rest
  | _ => []

namespace Program

def ofTokens (ts : List Token) : Reading Program :=
  let statements := Stmt.readMany false ts
  ⟨⟨statements.value⟩, statements.place, statements.failures⟩

def ofSource (source : String) : Reading Program := ofTokens (Token.scan source)

def accepted (x : Reading Program) : Except (List ParseError) Program :=
  if x.failures.isEmpty then .ok x.value else .error (x.failures.map Failure.error)

def parse (source : String) : Except (List ParseError) Program := accepted (ofSource source)

end Program

end MiniPascal
