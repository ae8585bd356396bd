import MiniPascal.Value
import MiniPascal.Text.Quoted
/-! Scopes: names bound to values, each scope inside an older one. -/

namespace MiniPascal

structure Binding where
  value : Value
  constant : Bool

/-- The bindings of a scope stand in the order of their names. -/
structure Scope where
  bindings : List (String × Binding)
  parent : Option ScopeId

structure Store where
  scopes : Array Scope

namespace Scope

def find? (s : Scope) (name : String) : Option Binding := s.bindings.lookup name

def names (s : Scope) : List String := s.bindings.map (·.1)

def insert (name : String) (b : Binding) : List (String × Binding) → List (String × Binding)
  | [] => [(name, b)]
  | (other, old) :: rest =>
    if name = other then (name, b) :: rest
    else if name < other then (name, b) :: (other, old) :: rest
    else (other, old) :: insert name b rest

def put (name : String) (b : Binding) (s : Scope) : Scope :=
  { s with bindings := insert name b s.bindings }

end Scope

namespace Store

def initial : Store := ⟨#[⟨[], none⟩]⟩

/-- The scopes that are searched from a scope on, from the inside out. A parent is older than its
child. -/
def chain (s : Store) (id : ScopeId) : List ScopeId :=
  match s.scopes[id]? with
  | none => []
  | some scope =>
    match scope.parent with
    | none => [id]
    | some parent => if parent < id then id :: s.chain parent else [id]
termination_by id

def bindingAt? (s : Store) (id : ScopeId) (name : String) : Option Binding :=
  s.scopes[id]?.bind (·.find? name)

def find? (s : Store) (id : ScopeId) (name : String) : Option (ScopeId × Binding) :=
  (s.chain id).findSome? fun holder => (s.bindingAt? holder name).map (holder, ·)

def get? (s : Store) (id : ScopeId) (name : String) : Option Value :=
  (s.find? id name).map (·.2.value)

def names (s : Store) (id : ScopeId) : List String := (s.scopes[id]?.map Scope.names).getD []

def put (s : Store) (id : ScopeId) (name : String) (b : Binding) : Store :=
  ⟨s.scopes.modify id (Scope.put name b)⟩

def define (s : Store) (id : ScopeId) (name : String) (v : Value) : Store :=
  s.put id name ⟨v, false⟩

def declare (s : Store) (id : ScopeId) (name : String) (v : Value) (constant : Bool) :
    Option EvalError × Store :=
  if (s.bindingAt? id name).any (·.constant) then (some (.constantRedeclaration name), s)
  else (none, s.put id name ⟨v, constant⟩)

def assign (s : Store) (id : ScopeId) (name : String) (v : Value) : Option EvalError × Store :=
  match s.find? id name with
  | none => (some (.notFound name), s)
  | some (holder, b) =>
    if b.constant then (some (.constantAssignment name), s)
    else (none, s.put holder name ⟨v, false⟩)

def push (s : Store) (parent : Option ScopeId) : Store := ⟨s.scopes.push ⟨[], parent⟩⟩

def scopeText (s : Store) (id : ScopeId) : String :=
  "<env [" ++ ", ".intercalate ((s.names id).map Text.quoted) ++ "]>"

def size (s : Store) : Nat := s.scopes.size

end Store

end MiniPascal
