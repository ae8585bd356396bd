import MiniPascal.Store
/-! The state that evaluation works on, and what a construct may do to it. -/

namespace MiniPascal

structure CallRecord where
  name : String
  arguments : Nat
  deriving DecidableEq, Repr

/-- `depth` counts the calls that are being evaluated, `made` the procedures made so far; `calls`
are all calls so far, the latest first. -/
structure Machine where
  store : Store
  current : ScopeId
  depth : Nat
  made : Nat
  calls : List CallRecord

/-- An evaluation, which gives nothing if it was cut off before its end. -/
abbrev Run := StateT Machine Option

namespace Machine

def initial : Machine := ⟨.initial, 0, 0, 0, []⟩

/-- Makes a scope inside `parent` the current one; the scope left comes first. -/
def openScope (m : Machine) (parent : ScopeId) : ScopeId × Machine :=
  let opened := m.store.size
  (m.current, { m with store := m.store.push (some parent), current := opened })

def close (m : Machine) (header : Header) (body : Block) : Procedure × Machine :=
  (⟨m.made, header, body, m.current⟩, { m with made := m.made + 1 })

end Machine

namespace Run

variable {α : Type}

def cutOff : Run α := fun _ => none

def lookup (name : String) : Run Value := fun m =>
  some ((m.store.get? m.current name).getD (.ofError (.notFound name)), m)

def define (name : String) (v : Value) : Run Unit := fun m =>
  some ((), { m with store := m.store.define m.current name v })

def declare (name : String) (v : Value) (constant : Bool) : Run (Option Value) := fun m =>
  let (refusal, store) := m.store.declare m.current name v constant
  some (refusal.map .ofError, { m with store := store })

def assign (name : String) (v : Value) : Run (Option Value) := fun m =>
  let (refusal, store) := m.store.assign m.current name v
  some (refusal.map .ofError, { m with store := store })

def close (header : Header) (body : Block) : Run Procedure := fun m => some (m.close header body)

def record (call : CallRecord) : Run Unit := fun m =>
  some ((), { m with calls := call :: m.calls })

def current : Run ScopeId := fun m => some (m.current, m)

def depth : Run Nat := fun m => some (m.depth, m)

def inScope (parent : ScopeId) (x : Run α) : Run α := fun m =>
  let (outer, inner) := m.openScope parent
  match x inner with
  | none => none
  | some (a, after) => some (a, { after with current := outer })

def deeper (x : Run α) : Run α := fun m =>
  match x { m with depth := m.depth + 1 } with
  | none => none
  | some (a, after) => some (a, { after with depth := after.depth - 1 })

@[inline]
def onValue (outcome : Value → α) (x : Run Value) (f : Value → Run α) : Run α := do
  let v ← x
  if v.isAbrupt then pure (outcome v) else f v

end Run

end MiniPascal
