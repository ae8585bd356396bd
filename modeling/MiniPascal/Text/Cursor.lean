/-! A cursor over a text: single steps by character, offsets in UTF-8 bytes. -/

namespace MiniPascal

/-- `before` is what has been passed, last character first; `offset` is its length in bytes. -/
structure Cursor where
  before : List Char
  after : List Char
  offset : Nat

namespace Cursor

def ofList (source : List Char) : Cursor := ⟨[], source, 0⟩

def ofString (source : String) : Cursor := ofList source.toList

def source (c : Cursor) : List Char := c.before.reverse ++ c.after

def peek? (c : Cursor) : Option (Nat × Char) := c.after.head?.map fun x => (c.offset, x)

def advance (c : Cursor) : Cursor :=
  match c.after with
  | [] => c
  | x :: rest => ⟨x :: c.before, rest, c.offset + x.utf8Size⟩

def peekNext? (c : Cursor) : Option (Nat × Char) := c.advance.peek?

def takeIf? (c : Cursor) (target : Char) : Option Cursor :=
  match c.after with
  | [] => none
  | x :: _ => if x = target then some c.advance else none

def passWhile (p : Char → Bool) (before : List Char) (offset : Nat) : List Char → Cursor
  | [] => ⟨before, [], offset⟩
  | x :: rest =>
    if p x then passWhile p (x :: before) (offset + x.utf8Size) rest
    else ⟨before, x :: rest, offset⟩

def takeWhile (c : Cursor) (p : Char → Bool) : Cursor := passWhile p c.before c.offset c.after

def takeUntil (c : Cursor) (p : Char → Bool) : Cursor := c.takeWhile fun x => !p x

/-- The last `size` bytes of a reversed text, in reading order; `none` off a character boundary. -/
def lastBytes? : (size : Nat) → List Char → (found : List Char) → Option (List Char)
  | 0, _, found => some found
  | _ + 1, [], _ => none
  | size + 1, x :: rest, found =>
    if x.utf8Size ≤ size + 1 then lastBytes? (size + 1 - x.utf8Size) rest (x :: found) else none

def sliceFrom? (c : Cursor) (start : Nat) : Option String :=
  if start ≤ c.offset then (lastBytes? (c.offset - start) c.before []).map String.ofList else none

theorem takeWhile_cons (p : Char → Bool) (before : List Char) (x : Char) (rest : List Char)
    (offset : Nat) :
    takeWhile ⟨before, x :: rest, offset⟩ p =
      if p x then takeWhile ⟨x :: before, rest, offset + x.utf8Size⟩ p
      else ⟨before, x :: rest, offset⟩ := rfl

theorem takeWhile_after (c : Cursor) (p : Char → Bool) :
    (c.takeWhile p).after = c.after.dropWhile p := by
  obtain ⟨before, after, offset⟩ := c
  induction after generalizing before offset with
  | nil => rfl
  | cons x rest ih => by_cases h : p x <;> simp [takeWhile_cons, h, ih]

theorem length_takeWhile_le (c : Cursor) (p : Char → Bool) :
    (c.takeWhile p).after.length ≤ c.after.length := by
  rw [takeWhile_after]
  exact (List.dropWhile_suffix p).length_le

theorem length_takeUntil_le (c : Cursor) (p : Char → Bool) :
    (c.takeUntil p).after.length ≤ c.after.length :=
  c.length_takeWhile_le _

theorem takeIf?_after {c d : Cursor} {target : Char} (h : c.takeIf? target = some d) :
    c.after = target :: d.after := by
  obtain ⟨before, after, offset⟩ := c
  cases after with
  | nil => simp [takeIf?] at h
  | cons x rest =>
    by_cases hx : x = target
    · simp only [takeIf?, hx, if_pos, Option.some.injEq] at h
      subst h hx
      rfl
    · simp [takeIf?, hx] at h

end Cursor

end MiniPascal
