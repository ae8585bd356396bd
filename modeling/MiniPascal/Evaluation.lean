import MiniPascal.Machine
import MiniPascal.Value.Operation
/-! Evaluation by recursion on the syntax, given a way to run procedures. -/

namespace MiniPascal

def maxCallDepth : Nat := 200

abbrev Caller := Procedure → List Value → Run Value

namespace Run

def repeatWhile (test : Run Value) (body : Run (Option Value)) : (passes : Nat) → Run (Option Value)
  | 0 => cutOff
  | passes + 1 =>
    onValue some test fun v =>
      if v.isTruthy then do
        let outcome ← body
        if outcome.any Value.isAbrupt then pure outcome else repeatWhile test body passes
      else pure none

def repeatFor (counter : String) (body : Run (Option Value)) :
    (count : Nat) → (n : Int64) → Run (Option Value)
  | 0, _ => pure none
  | count + 1, n => do
    define counter (.integer n)
    let outcome ← body
    if outcome.any Value.isAbrupt then pure outcome else repeatFor counter body count (n + 1)

def countedLoop (counter : String) (body : Run (Option Value)) (first last : Value) :
    Run (Option Value) :=
  match first, last with
  | .integer a, .integer b => do
    inScope (← current) (repeatFor counter body (b.toInt - a.toInt + 1).toNat a)
  | .integer _, other => pure (some (.ofError (.nonIntegerBound other.type)))
  | other, _ => pure (some (.ofError (.nonIntegerBound other.type)))

def bindAll : List (Parameter × Value) → Run Unit
  | [] => pure ()
  | (p, v) :: rest => do
    define p.name v
    bindAll rest

def execute (p : Procedure) (args : List Value) (body : Run (Option Value)) : Run Value :=
  if args.length = p.arity then do
    record ⟨p.header.name, args.length⟩
    let outcome ← inScope p.closure do
      bindAll (p.header.parameters.zip args)
      body
    pure (outcome.getD .null).unwrap
  else pure (.ofError (.wrongArity p.arity args.length))

def enter (x : Run Value) : Run Value := do
  if maxCallDepth ≤ (← depth) then pure (.ofError (.callDepthExceeded maxCallDepth)) else deeper x

end Run

open Run

mutual
def Expr.eval (call : Caller) (passes : Nat) : Expr → Run Value
  | .named name => lookup name
  | .integer _ value => pure (.integer value)
  | .real _ value => pure (.real value)
  | .boolean _ value => pure (.boolean value)
  | .string value => pure (.string value)
  | .prefixed _ operator right =>
    onValue id (right.eval call passes) fun v => pure (v.applyPrefix operator)
  | .infixed _ operator left right =>
    onValue id (left.eval call passes) fun a =>
    onValue id (right.eval call passes) fun b => pure (.applyInfix operator a b)
  | .conditional _ condition consequence alternative =>
    onValue id (condition.eval call passes) fun v =>
      if v.isTruthy then do pure ((← consequence.exec call passes).getD .null)
      else
        match alternative with
        | some block => do pure ((← block.exec call passes).getD .null)
        | none => pure .null
  | .procedure header body => do
    let p ← close header body
    pure ((← declare header.name (.procedure p) false).getD (.procedure p))
  | .call _ callee arguments => do
    match ← callee.eval call passes with
    | .procedure p =>
      match ← Expr.evalAll call passes arguments with
      | .ok args => enter (call p args)
      | .error v => pure v
    | other => pure (if other.isAbrupt then other else .ofError (.notAProcedure other.type))

def Expr.evalAll (call : Caller) (passes : Nat) : List Expr → Run (Except Value (List Value))
  | [] => pure (.ok [])
  | e :: rest =>
    onValue .error (e.eval call passes) fun v => do
      pure ((← Expr.evalAll call passes rest).map (v :: ·))

def Stmt.exec (call : Caller) (passes : Nat) : Stmt → Run (Option Value)
  | .declare _ constant name _ value =>
    onValue some (value.eval call passes) fun v => Run.declare name v constant
  | .assign name value => onValue some (value.eval call passes) fun v => Run.assign name v
  | .giveBack _ value =>
    onValue some (value.eval call passes) fun v => pure (some (.returned v))
  | .expression _ value => do pure (some (← value.eval call passes))
  | .block body => body.exec call passes
  | .whileLoop _ condition body =>
    repeatWhile (condition.eval call passes) (body.exec call passes) passes
  | .forLoop _ counter first last body =>
    onValue some (first.eval call passes) fun a =>
    onValue some (last.eval call passes) fun b =>
    countedLoop counter (body.exec call passes) a b

def Stmt.execAll (call : Caller) (passes : Nat) (before : Option Value) :
    List Stmt → Run (Option Value)
  | [] => pure before
  | s :: rest => do
    let outcome ← s.exec call passes
    if outcome.any Value.isAbrupt then pure outcome else Stmt.execAll call passes outcome rest

def Block.exec (call : Caller) (passes : Nat) : Block → Run (Option Value)
  | .mk _ statements => do inScope (← current) (Stmt.execAll call passes none statements)
end

/-- Runs procedures with at most `n` calls nested and at most `n` passes of every `while`. -/
def callWithin : (n : Nat) → Caller
  | 0 => fun _ _ => cutOff
  | n + 1 => fun p args => execute p args (Stmt.execAll (callWithin n) n none p.body.statements)

/-- More calls and passes than a run makes before it is stopped from outside. -/
def ample : Nat := Nat.pow 2 62

namespace Program

def execStatements (n : Nat) (p : Program) : Run (Option Value) :=
  Stmt.execAll (callWithin n) n none p.statements

def outcomeOf (n : Nat) (before : Option Value) : List Stmt → Run (Option Value)
  | [] => pure before
  | s :: rest => do
    match ← s.exec (callWithin n) n with
    | some (.returned v) => pure (some v)
    | some (.error message) => pure (some (.error message))
    | outcome => outcomeOf n outcome rest

def exec (n : Nat) (p : Program) : Run (Option Value) := outcomeOf n none p.statements

def valuesOf (n : Nat) : List Stmt → Run (List Value)
  | [] => pure []
  | s :: rest => do
    match ← s.exec (callWithin n) n with
    | some (.returned v) => pure [v]
    | some (.error message) => pure [.error message]
    | some v => do pure (v :: (← valuesOf n rest))
    | none => valuesOf n rest

def execEach (n : Nat) (p : Program) : Run (List Value) := valuesOf n p.statements

end Program

end MiniPascal
