import Mathlib
import MiniPascal.Proofs.Reading.Append
/-! The turns of all loops over statements in a reading, in the order of their beginnings. -/

namespace MiniPascal

/-- One turn of a loop over statements: `first` is the token it starts on, `rest` are those behind.
The loop of a program has the depth 0, that of a block one more than the loop around it. -/
structure Turn where
  depth : ℕ
  first : Token
  rest : List Token

namespace Turn

def start (r : Turn) : List Token := r.first :: r.rest

def result (r : Turn) : Except ParseError Stmt := (Stmt.read r.first r.rest).value

def statement? (r : Turn) : Option Stmt := r.result.toOption

def error? (r : Turn) : Option ParseError :=
  match r.result with
  | .ok _ => none
  | .error e => some e

end Turn

namespace Within

variable {α β : Type} {n : ℕ}

def afterwards (x : Within n α) (f : (p : Place) → p.unread.length ≤ n → List β) : List β :=
  f x.reading.place x.bound

def follow (x : AttemptWithin n α) (f : α → (p : Place) → p.unread.length ≤ n → List β) : List β :=
  match x.reading.value with
  | .error _ => []
  | .ok a => f a x.reading.place x.bound

def nextTurn (x : AttemptWithin n Stmt) : List Token :=
  match x.reading.value with
  | .ok _ => x.reading.place.unread
  | .error _ => x.reading.place.recover

lemma length_nextTurn_le (x : AttemptWithin n Stmt) : x.nextTurn.length ≤ n := by
  rw [nextTurn]
  split
  · exact x.bound
  · exact x.reading.place.length_recover_le.trans x.bound

lemma nextTurn_of_ok {x : AttemptWithin n Stmt} {s : Stmt} {p : Place} {fs : List Failure}
    (h : x.reading = ⟨.ok s, p, fs⟩) : x.nextTurn = p.unread := by
  rw [nextTurn, h]

lemma nextTurn_of_error {x : AttemptWithin n Stmt} {e : ParseError} {p : Place}
    {fs : List Failure} (h : x.reading = ⟨.error e, p, fs⟩) : x.nextTurn = p.recover := by
  rw [nextTurn, h]

end Within

namespace Turns

open Within (expect)

-- The turns in the blocks that a reader reads, which have the depth `d`. Where a reader reads no
-- block, or has read its last, there is nothing to list.
mutual
def statement (d : ℕ) (t : Token) (ts : List Token) : List Turn :=
  match t.kind with
  | .varWord | .constWord =>
    (expect .identifier t.kind ts).follow fun _ p _ =>
    (expect .colon p.last p.unread).follow fun _ p _ =>
    (Within.expectType p.last p.unread).follow fun _ p _ =>
    (expect .assign p.last p.unread).follow fun _ p _ =>
    expression d .lowest p.unread
  | .beginWord => statements d true ts
  | .returnWord => expression d .lowest ts
  | .whileWord =>
    expression d .lowest ts ++ (Within.expression .lowest ts).follow fun _ p _ =>
    (expect .doWord p.last p.unread).follow fun _ p _ =>
    statements d true p.unread
  | .forWord =>
    (expect .identifier t.kind ts).follow fun _ p _ =>
    (expect .assign p.last p.unread).follow fun _ p _ =>
    expression d .lowest p.unread ++ (Within.expression .lowest p.unread).follow fun _ p _ =>
    (expect .toWord p.last p.unread).follow fun _ p _ =>
    expression d .lowest p.unread ++ (Within.expression .lowest p.unread).follow fun _ p _ =>
    (expect .doWord p.last p.unread).follow fun _ p _ =>
    statements d true p.unread
  | .identifier =>
    if Token.headKind ts = .assign then expression d .lowest ts.tail
    else expression d .lowest (t :: ts)
  | _ => expression d .lowest (t :: ts)
termination_by 7 * ts.length + 9

def statements (d : ℕ) (inBlock : Bool) (ts : List Token) : List Turn :=
  match ts with
  | [] => []
  | t :: rest =>
    if Within.isLast inBlock t.kind then []
    else
      have := (Within.statement t rest).length_nextTurn_le
      ⟨d, t, rest⟩ ::
        (statement (d + 1) t rest ++ statements d inBlock (Within.statement t rest).nextTurn)
termination_by 7 * ts.length + 3

def expression (d : ℕ) (min : Precedence) (ts : List Token) : List Turn :=
  match ts with
  | [] => []
  | t :: rest =>
    operand d t rest ++ (Within.operand t rest).follow fun _ p _ =>
    operators d min p.unread
termination_by 7 * ts.length

def operand (d : ℕ) (t : Token) (ts : List Token) : List Turn :=
  match t.kind with
  | .minus | .notWord => expression d .prefixOp ts
  | .leftParen => expression d .lowest ts
  | .ifWord =>
    expression d .lowest ts ++ (Within.expression .lowest ts).follow fun _ p _ =>
    (expect .thenWord p.last p.unread).follow fun opener p _ =>
    statements d true p.unread ++ (Within.block opener p.unread).afterwards fun p _ =>
    alternative d p.unread
  | .procedureWord =>
    (expect .identifier t.kind ts).follow fun _ p _ =>
    (expect .leftParen p.last p.unread).follow fun _ p _ =>
    (Within.parameters p.unread).follow fun _ p _ =>
    (expect .beginWord p.last p.unread).follow fun _ p _ =>
    statements d true p.unread
  | _ => []
termination_by 7 * ts.length + 6

def alternative (d : ℕ) (ts : List Token) : List Turn :=
  match ts with
  | [] => []
  | t :: rest => if t.kind = .elseWord then statements d true rest else []
termination_by 7 * ts.length

def operators (d : ℕ) (min : Precedence) (ts : List Token) : List Turn :=
  match ts with
  | [] => []
  | t :: rest =>
    if min < Precedence.ofKind t.kind then
      match InfixOperator.ofKind? t.kind with
      | some operator =>
        expression d operator.precedence rest ++
        (Within.expression operator.precedence rest).follow fun _ p _ =>
        operators d min p.unread
      | none =>
        arguments d rest ++ (Within.arguments rest).follow fun _ p _ =>
        operators d min p.unread
    else []
termination_by 7 * ts.length

def arguments (d : ℕ) (ts : List Token) : List Turn :=
  match ts with
  | [] => someArguments d []
  | t :: rest => if t.kind = .rightParen then [] else someArguments d (t :: rest)
termination_by 7 * ts.length + 2

def someArguments (d : ℕ) (ts : List Token) : List Turn :=
  expression d .lowest ts ++ (Within.expression .lowest ts).follow fun _ p _ =>
    match hp : p.unread with
    | [] => []
    | t :: rest =>
      have hlt : rest.length < p.unread.length := by simp [hp]
      if t.kind = .comma then someArguments d rest else []
termination_by 7 * ts.length + 1
end

lemma statements_last {d : ℕ} {inBlock : Bool} {t : Token} {rest : List Token}
    (ht : Within.isLast inBlock t.kind = true) : statements d inBlock (t :: rest) = [] := by
  rw [statements, if_pos ht]

lemma statements_cons {d : ℕ} {inBlock : Bool} {t : Token} {rest : List Token}
    (ht : Within.isLast inBlock t.kind = false) :
    statements d inBlock (t :: rest) =
      ⟨d, t, rest⟩ ::
        (statement (d + 1) t rest ++ statements d inBlock (Within.statement t rest).nextTurn) := by
  rw [statements, ht]
  rfl

end Turns

namespace Reading

variable {α : Type} {inBlock : Bool} {u : Token} {rest : List Token}

def recorded (x : Attempt α) : List Failure :=
  x.failures ++
    match x.value with
    | .ok _ => []
    | .error e => [⟨e, x.place⟩]

lemma recorded_after (fs : List Failure) (x : Attempt α) :
    recorded (x.after fs) = fs ++ recorded x :=
  List.append_assoc _ _ _

lemma recorded_ok (a : α) (p : Place) (fs : List Failure) : recorded ⟨.ok a, p, fs⟩ = fs :=
  List.append_nil fs

lemma recorded_error (e : ParseError) (p : Place) (fs : List Failure) :
    recorded (⟨.error e, p, fs⟩ : Attempt α) = fs ++ [⟨e, p⟩] := rfl

lemma recorded_sure (x : Reading α) : recorded x.sure = x.failures := List.append_nil _

lemma nextTurn_suffix (u : Token) (rest : List Token) :
    (Within.statement u rest).nextTurn <:+ (Stmt.read u rest).place.unread := by
  rw [Within.nextTurn]
  split
  · exact List.suffix_refl _
  · exact Place.recover_suffix _

lemma nextTurn_of_nil (h : (Stmt.read u rest).place.unread = []) :
    (Within.statement u rest).nextTurn = [] := by
  have hsuffix := nextTurn_suffix u rest
  rw [h] at hsuffix
  exact List.suffix_nil.1 hsuffix

lemma readMany_turn (hu : Within.isLast inBlock u.kind = false) :
    Stmt.readMany inBlock (u :: rest) =
      ((Stmt.readMany inBlock (Within.statement u rest).nextTurn).andThen fun others p =>
        ⟨(Stmt.read u rest).value.toOption.toList ++ others, p, []⟩).after
        (recorded (Stmt.read u rest)) := by
  rcases hread : Stmt.read u rest with ⟨value, q, fs⟩
  cases value with
  | ok s =>
    rw [Stmt.readMany_of_ok hu hread, Within.nextTurn_of_ok hread, recorded_ok]
    rfl
  | error e =>
    rw [Stmt.readMany_of_error hu hread, Within.nextTurn_of_error hread, recorded_error]
    simp [andThen, after, Except.toOption]

end Reading

end MiniPascal
