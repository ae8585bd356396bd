import MiniPascal.Program
import MiniPascal.Program.ParseError
/-! What reading gives, and how it goes on after a failure. -/

namespace MiniPascal

/-- Where reading stands: the kind of the last token used, and the tokens not used yet. -/
structure Place where
  last : TokenKind
  unread : List Token
  deriving DecidableEq, Repr

structure Failure where
  error : ParseError
  place : Place
  deriving DecidableEq, Repr

/-- What was read, where reading stopped, and the failures of statements left out on the way. -/
structure Reading (α : Type) where
  value : α
  place : Place
  failures : List Failure

abbrev Attempt (α : Type) := Reading (Except ParseError α)

namespace Place

def skipSemicolon (p : Place) : Place :=
  match p.unread with
  | [] => p
  | t :: rest => if t.kind = .semicolon then ⟨.semicolon, rest⟩ else p

/-- Leaves out tokens: up to and with a semicolon, or up to a closing word or the end of input. -/
def skipStatement : List Token → List Token
  | [] => []
  | t :: rest =>
    if t.kind = .endWord ∨ t.kind = .endOfInput then t :: rest
    else if t.kind = .semicolon then rest
    else skipStatement rest

def recover (p : Place) : List Token :=
  if p.last = .semicolon ∨ p.last = .endOfInput then p.unread else skipStatement p.unread

theorem length_skipSemicolon_le (p : Place) : p.skipSemicolon.unread.length ≤ p.unread.length := by
  unfold skipSemicolon
  split
  · exact Nat.le_refl _
  · next t rest h =>
    split
    · simp [h]
    · exact Nat.le_refl _

theorem length_skipStatement_le (ts : List Token) : (skipStatement ts).length ≤ ts.length := by
  induction ts with
  | nil => exact Nat.le_refl _
  | cons t rest ih =>
    unfold skipStatement
    split
    · exact Nat.le_refl _
    split
    · exact Nat.le_succ _
    · exact Nat.le_succ_of_le ih

theorem length_recover_le (p : Place) : p.recover.length ≤ p.unread.length := by
  unfold recover
  split
  · exact Nat.le_refl _
  · exact length_skipStatement_le _

end Place

namespace Reading

variable {α β : Type}

def done (a : α) (p : Place) : Attempt α := ⟨.ok a, p, []⟩

def fail (e : ParseError) (p : Place) : Attempt α := ⟨.error e, p, []⟩

def andThen (x : Reading α) (f : α → Place → Reading β) : Reading β :=
  let y := f x.value x.place
  ⟨y.value, y.place, x.failures ++ y.failures⟩

def onSuccess (x : Attempt α) (f : α → Place → Attempt β) : Attempt β :=
  x.andThen fun result p =>
    match result with
    | .error e => fail e p
    | .ok a => f a p

def expect (kind last : TokenKind) : List Token → Attempt Token
  | [] => fail (.unexpected kind .endOfInput) ⟨last, []⟩
  | t :: rest =>
    if t.kind = kind then done t ⟨kind, rest⟩ else fail (.unexpected kind t.kind) ⟨last, t :: rest⟩

def expectType (last : TokenKind) : List Token → Attempt NumericType
  | [] => fail (.expectedType .endOfInput) ⟨last, []⟩
  | t :: rest =>
    if t.kind = .integerWord then done .integer ⟨t.kind, rest⟩
    else if t.kind = .realWord then done .real ⟨t.kind, rest⟩
    else fail (.expectedType t.kind) ⟨last, t :: rest⟩

theorem length_expect_le (kind last : TokenKind) (ts : List Token) :
    (expect kind last ts).place.unread.length ≤ ts.length := by
  cases ts with
  | nil => exact Nat.le_refl _
  | cons t rest =>
    rw [expect]
    split
    · exact Nat.le_succ _
    · exact Nat.le_refl _

theorem length_expectType_le (last : TokenKind) (ts : List Token) :
    (expectType last ts).place.unread.length ≤ ts.length := by
  cases ts with
  | nil => exact Nat.le_refl _
  | cons t rest =>
    rw [expectType]
    split
    · exact Nat.le_succ _
    split
    · exact Nat.le_succ _
    · exact Nat.le_refl _

end Reading

/-- A reading that leaves at most `n` tokens. -/
structure Within (n : Nat) (α : Type) where
  reading : Reading α
  bound : reading.place.unread.length ≤ n

abbrev AttemptWithin (n : Nat) (α : Type) := Within n (Except ParseError α)

namespace Within

variable {α β : Type} {m n : Nat}

def pass (a : α) (p : Place) (h : p.unread.length ≤ n) : Within n α := ⟨⟨a, p, []⟩, h⟩

def done (a : α) (p : Place) (h : p.unread.length ≤ n) : AttemptWithin n α := ⟨.done a p, h⟩

def fail (e : ParseError) (p : Place) (h : p.unread.length ≤ n) : AttemptWithin n α :=
  ⟨.fail e p, h⟩

def expect (kind last : TokenKind) (ts : List Token) : AttemptWithin ts.length Token :=
  ⟨.expect kind last ts, Reading.length_expect_le kind last ts⟩

def expectType (last : TokenKind) (ts : List Token) : AttemptWithin ts.length NumericType :=
  ⟨.expectType last ts, Reading.length_expectType_le last ts⟩

def weaken (x : Within m α) (h : m ≤ n) : Within n α := ⟨x.reading, Nat.le_trans x.bound h⟩

def record (failure : Failure) (x : Within n α) : Within n α :=
  ⟨⟨x.reading.value, x.reading.place, failure :: x.reading.failures⟩, x.bound⟩

def map (f : α → β) (x : Within n α) : Within n β :=
  ⟨⟨f x.reading.value, x.reading.place, x.reading.failures⟩, x.bound⟩

def andThen (x : Within m α) (f : α → (p : Place) → p.unread.length ≤ m → Within n β) :
    Within n β :=
  let y := f x.reading.value x.reading.place x.bound
  ⟨⟨y.reading.value, y.reading.place, x.reading.failures ++ y.reading.failures⟩, y.bound⟩

def onSuccess (x : AttemptWithin m α) (h : m ≤ n)
    (f : α → (p : Place) → p.unread.length ≤ m → AttemptWithin n β) : AttemptWithin n β :=
  x.andThen fun result p hp =>
    match result with
    | .error e => fail e p (Nat.le_trans hp h)
    | .ok a => f a p hp

theorem reading_andThen (x : Within m α) (f : α → (p : Place) → p.unread.length ≤ m → Within n β)
    (g : α → Place → Reading β) (hf : ∀ a p hp, (f a p hp).reading = g a p) :
    (x.andThen f).reading = x.reading.andThen g := by
  simp only [andThen, Reading.andThen, hf]

theorem reading_onSuccess (x : AttemptWithin m α) (h : m ≤ n)
    (f : α → (p : Place) → p.unread.length ≤ m → AttemptWithin n β) (g : α → Place → Attempt β)
    (hf : ∀ a p hp, (f a p hp).reading = g a p) :
    (x.onSuccess h f).reading = x.reading.onSuccess g := by
  refine reading_andThen _ _ _ fun result p hp => ?_
  cases result with
  | error e => rfl
  | ok a => exact hf a p hp

end Within

end MiniPascal
