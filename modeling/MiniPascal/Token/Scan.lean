import MiniPascal.Token
import MiniPascal.Text.Cursor
import MiniPascal.Decimal.Numeral
/-! Splitting a source into tokens: always the longest token at the cursor. -/

namespace MiniPascal

def isBlank (c : Char) : Bool := c == ' ' || c == '\t' || c == '\n' || c == '\r'

def isLetter (c : Char) : Bool := c.isAlpha || c == '_'

namespace Cursor

open Decimal (isDigit)

def textFrom (c : Cursor) (start : Cursor) : String := (c.sliceFrom? start.offset).getD ""

def skipComment? (c : Cursor) : Option Cursor :=
  (c.takeIf? '{').bind fun inside => (inside.takeUntil (· == '}')).takeIf? '}'

theorem skipComment?_length {c d : Cursor} (h : c.skipComment? = some d) :
    d.after.length < c.after.length := by
  simp only [skipComment?, Option.bind_eq_some_iff] at h
  obtain ⟨inside, hopen, hclose⟩ := h
  have hlt := congrArg List.length (takeIf?_after hopen)
  have hle := length_takeUntil_le inside (· == '}')
  rw [takeIf?_after hclose] at hle
  simp only [List.length_cons] at hlt hle
  omega

def skipBlank (c : Cursor) : Cursor :=
  match _h : (c.takeWhile isBlank).skipComment? with
  | some rest => rest.skipBlank
  | none => c.takeWhile isBlank
termination_by c.after.length
decreasing_by exact Nat.lt_of_lt_of_le (skipComment?_length _h) (length_takeWhile_le c isBlank)

def signs : List (Char × TokenKind) :=
  [('+', .plus), ('-', .minus), ('*', .asterisk), ('/', .slash), ('(', .leftParen),
   (')', .rightParen), (',', .comma), (';', .semicolon), ('!', .notWord), ('<', .less),
   ('>', .greater), (':', .colon)]

def doubleSigns : List ((Char × Char) × TokenKind) :=
  [(('<', '>'), .notEqual), (('<', '='), .lessEq), (('>', '='), .greaterEq), ((':', '='), .assign),
   (('=', '='), .equal)]

def doubleSign? (c : Cursor) : Option (Token × Cursor) :=
  match c.after with
  | x :: y :: _ =>
    (doubleSigns.lookup (x, y)).map fun kind => (⟨kind, String.ofList [x, y]⟩, c.advance.advance)
  | _ => none

def sign? (c : Cursor) : Option (Token × Cursor) :=
  match c.after with
  | x :: _ => (signs.lookup x).map fun kind => (⟨kind, x.toString⟩, c.advance)
  | [] => none

/-- A quoted text, which may hold anything but a quote; without its closing quote it is illegal and
reaches to the end. The cursor stands on the opening quote. -/
def quotedText (c : Cursor) : Token × Cursor :=
  let inside := c.advance
  let close := inside.takeUntil (· == '"')
  match close.takeIf? '"' with
  | some rest => (⟨.text, close.textFrom inside⟩, rest)
  | none => (⟨.illegal, close.textFrom c⟩, close)

def fractionNext (c : Cursor) : Bool :=
  match c.after with
  | '.' :: x :: _ => isDigit x
  | _ => false

def number (c : Cursor) : Token × Cursor :=
  let whole := c.takeWhile isDigit
  if whole.fractionNext then
    let rest := whole.advance.takeWhile isDigit
    (⟨.real, rest.textFrom c⟩, rest)
  else (⟨.integer, whole.textFrom c⟩, whole)

def word (c : Cursor) : Token × Cursor :=
  let rest := c.takeWhile isLetter
  (⟨.ofWord (rest.textFrom c), rest.textFrom c⟩, rest)

/-- A brace opens a comment; met here it is never closed, and the rest of the source is lost. -/
def openComment (c : Cursor) : Token × Cursor :=
  (⟨.illegal, "\x7b"⟩, c.advance.takeUntil (· == '}'))

def tokenHere (c : Cursor) : Token × Cursor :=
  match c.after with
  | [] => (Token.endOfInput, c)
  | x :: _ =>
    match c.doubleSign? with
    | some found => found
    | none =>
      match c.sign? with
      | some found => found
      | none =>
        if x = '{' then c.openComment
        else if x = '"' then c.quotedText
        else if isDigit x then c.number
        else if isLetter x then c.word
        else (⟨.illegal, x.toString⟩, c.advance)

def nextToken (c : Cursor) : Token × Cursor := c.skipBlank.tokenHere

def nextTokens : Nat → Cursor → List Token
  | 0, _ => []
  | n + 1, c => c.nextToken.1 :: nextTokens n c.nextToken.2

theorem after_advance (c : Cursor) : c.advance.after = c.after.tail := by
  obtain ⟨before, _ | ⟨x, rest⟩, offset⟩ := c <;> rfl

theorem length_advance {c : Cursor} (h : c.after ≠ []) :
    c.advance.after.length < c.after.length := by
  rw [after_advance, List.length_tail]
  exact Nat.sub_lt (List.length_pos_iff.2 h) Nat.one_pos

theorem length_advance_le (c : Cursor) : c.advance.after.length ≤ c.after.length := by
  rw [after_advance, List.length_tail]
  exact Nat.sub_le _ _

theorem length_takeWhile_lt {c : Cursor} {p : Char → Bool} {x : Char} {rest : List Char}
    (h : c.after = x :: rest) (hx : p x = true) :
    (c.takeWhile p).after.length < c.after.length := by
  rw [takeWhile_after, h, List.dropWhile_cons_of_pos hx]
  exact Nat.lt_succ_of_le (List.dropWhile_suffix p).length_le

theorem length_quotedText {c : Cursor} (h : c.after ≠ []) :
    c.quotedText.2.after.length < c.after.length := by
  have hlt := length_advance h
  have hle := length_takeUntil_le c.advance (· == '"')
  simp only [quotedText]
  split
  · next rest hclose =>
    rw [takeIf?_after hclose, List.length_cons] at hle
    exact Nat.lt_trans (Nat.lt_of_succ_le hle) hlt
  · exact Nat.lt_of_le_of_lt hle hlt

theorem length_number {c : Cursor} {x : Char} {rest : List Char} (h : c.after = x :: rest)
    (hx : isDigit x = true) : c.number.2.after.length < c.after.length := by
  have hlt := length_takeWhile_lt h hx
  have hadv := length_advance_le (c.takeWhile isDigit)
  have hle := length_takeWhile_le (c.takeWhile isDigit).advance isDigit
  simp only [number]
  split
  · exact Nat.lt_of_le_of_lt (Nat.le_trans hle hadv) hlt
  · exact hlt

theorem length_tokenHere {c : Cursor} (h : c.after ≠ []) :
    c.tokenHere.2.after.length < c.after.length := by
  obtain ⟨x, rest, hc⟩ := List.exists_cons_of_ne_nil h
  have hlt := length_advance h
  have htwo := Nat.lt_of_le_of_lt (length_advance_le c.advance) hlt
  simp only [tokenHere, hc]
  rw [← hc]
  split
  · next found hfound =>
    simp only [doubleSign?] at hfound
    split at hfound
    · obtain ⟨kind, _, rfl⟩ := Option.map_eq_some_iff.1 hfound
      exact htwo
    · simp at hfound
  split
  · next found hfound =>
    simp only [sign?, hc] at hfound
    obtain ⟨kind, _, rfl⟩ := Option.map_eq_some_iff.1 hfound
    exact hlt
  split
  · exact Nat.lt_of_le_of_lt (length_takeWhile_le _ _) hlt
  split
  · exact length_quotedText h
  split
  · exact length_number hc ‹_›
  split
  · exact length_takeWhile_lt hc ‹_›
  · exact hlt

theorem length_skipBlank_le (c : Cursor) : c.skipBlank.after.length ≤ c.after.length := by
  rw [skipBlank]
  split
  · next rest h =>
    have hlt := skipComment?_length h
    have hle := length_takeWhile_le c isBlank
    have ih := length_skipBlank_le rest
    omega
  · exact length_takeWhile_le c isBlank
termination_by c.after.length
decreasing_by omega

theorem length_nextToken {c : Cursor} (h : c.nextToken.1.kind ≠ .endOfInput) :
    c.nextToken.2.after.length < c.after.length := by
  refine Nat.lt_of_lt_of_le (length_tokenHere fun hn => h ?_) (length_skipBlank_le c)
  simp [nextToken, tokenHere, hn, Token.endOfInput]

def tokens (c : Cursor) : List Token :=
  if c.nextToken.1.kind = .endOfInput then [] else c.nextToken.1 :: c.nextToken.2.tokens
termination_by c.after.length
decreasing_by exact length_nextToken ‹_›

end Cursor

def Token.scan (source : String) : List Token := (Cursor.ofString source).tokens

end MiniPascal
