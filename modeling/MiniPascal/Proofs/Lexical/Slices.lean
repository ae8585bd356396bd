import MiniPascal.Proofs.Lexical.Scan
import MiniPascal.Proofs.Text.Slice
/-! Scanning by parts of the source that may fail to be there. -/

namespace MiniPascal

namespace Cursor

open Decimal (isDigit)

variable {c d : Cursor} {x : Char} {rest : List Char}

def quotedText? (c : Cursor) : Option (Token × Cursor) :=
  let close := c.advance.takeUntil (· == '"')
  match close.takeIf? '"' with
  | some rest =>
    (rest.sliceFrom? c.offset).bind fun text =>
    (Text.slice? text 1 (text.utf8ByteSize - 1)).map fun inside => (⟨.text, inside⟩, rest)
  | none => (close.sliceFrom? c.offset).map fun text => (⟨.illegal, text⟩, close)

def number? (c : Cursor) : Option (Token × Cursor) :=
  let whole := c.takeWhile isDigit
  if whole.fractionNext then
    let rest := whole.advance.takeWhile isDigit
    (rest.sliceFrom? c.offset).map fun text => (⟨.real, text⟩, rest)
  else (whole.sliceFrom? c.offset).map fun text => (⟨.integer, text⟩, whole)

def word? (c : Cursor) : Option (Token × Cursor) :=
  let rest := c.takeWhile isLetter
  (rest.sliceFrom? c.offset).map fun text => (⟨.ofWord text, text⟩, rest)

def tokenHere? (c : Cursor) : Option (Token × Cursor) :=
  match c.after with
  | [] => some (Token.endOfInput, c)
  | x :: _ =>
    match c.doubleSign? with
    | some found => some found
    | none =>
      match c.sign? with
      | some found => some found
      | none =>
        if x = '{' then some c.openComment
        else if x = '"' then c.quotedText?
        else if isDigit x then c.number?
        else if isLetter x then c.word?
        else some (⟨.illegal, x.toString⟩, c.advance)

/-- The first `n` tokens from the cursor on, if all parts of the source that they take are there. -/
def nextTokens? : ℕ → Cursor → Option (List Token)
  | 0, _ => some []
  | n + 1, c => c.skipBlank.tokenHere?.bind fun found => (nextTokens? n found.2).map (found.1 :: ·)

lemma passes_advance (c : Cursor) : ∃ w, Passes c w c.advance := by
  cases hc : c.after with
  | nil =>
    refine ⟨[], ?_⟩
    rw [Cursor.advance, hc]
    exact .refl c
  | cons x rest => exact ⟨[x], .advance hc⟩

lemma passes_takeIf? (h : c.takeIf? x = some d) : Passes c [x] d := by
  have hc := takeIf?_after h
  rw [takeIf?_eq_some hc] at h
  cases h
  exact .advance hc

lemma word?_eq (c : Cursor) : c.word? = some c.word := by
  have hpasses := c.passes_takeWhile isLetter
  rw [word?, word, hpasses.textFrom, hpasses.sliceFrom?, Option.map_some]

lemma number?_eq (c : Cursor) : c.number? = some c.number := by
  have hwhole := c.passes_takeWhile isDigit
  rw [number?, number]
  dsimp only
  split
  · obtain ⟨w, hpoint⟩ := passes_advance (c.takeWhile isDigit)
    have hreal := (hwhole.trans hpoint).trans (passes_takeWhile _ isDigit)
    rw [hreal.sliceFrom?, Option.map_some, hreal.textFrom]
  · rw [hwhole.sliceFrom?, Option.map_some, hwhole.textFrom]

lemma slice?_quoted (w : List Char) :
    Text.slice? (.ofList ('"' :: (w ++ ['"']))) 1
      ((String.ofList ('"' :: (w ++ ['"']))).utf8ByteSize - 1) = some (.ofList w) := by
  have hsplit : String.ofList ('"' :: (w ++ ['"'])) = "\"" ++ .ofList w ++ "\"" := by
    rw [← String.toList_inj]
    simp
  have hslice := Text.slice?_append "\"" (.ofList w) "\""
  -- The first and the last character are one byte long each.
  have hquote : "\"".utf8ByteSize = 1 := rfl
  have hsize : ("\"" ++ .ofList w ++ "\"").utf8ByteSize = ("\"" ++ .ofList w).utf8ByteSize + 1 :=
    String.utf8ByteSize_append
  rw [hsplit, hsize, Nat.add_sub_cancel]
  rwa [hquote] at hslice

lemma quotedText?_eq (hc : c.after = '"' :: rest) : c.quotedText? = some c.quotedText := by
  have hopen := Passes.advance hc
  have hinside := passes_takeWhile c.advance fun x => !(x == '"')
  rw [quotedText?, quotedText, takeUntil]
  cases hclose : (c.advance.takeWhile fun x => !(x == '"')).takeIf? '"' with
  | none =>
    dsimp only
    rw [(hopen.trans hinside).sliceFrom?, Option.map_some, (hopen.trans hinside).textFrom]
  | some behind =>
    have hquoted := (hopen.trans hinside).trans (passes_takeIf? hclose)
    dsimp only
    rw [hquoted.sliceFrom?, Option.bind_some, hinside.textFrom]
    rw [List.append_assoc, List.singleton_append, slice?_quoted, Option.map_some]

lemma tokenHere?_eq (c : Cursor) : c.tokenHere? = some c.tokenHere := by
  rw [tokenHere?, tokenHere]
  cases hc : c.after with
  | nil => rfl
  | cons x rest =>
    cases c.doubleSign? with
    | some found => rfl
    | none =>
      cases c.sign? with
      | some found => rfl
      | none =>
        dsimp only
        split
        · rfl
        split
        · next hquote => exact quotedText?_eq (hquote ▸ hc)
        split
        · exact number?_eq c
        split
        · exact word?_eq c
        · rfl

lemma nextTokens?_eq (n : ℕ) (c : Cursor) : c.nextTokens? n = some (c.nextTokens n) := by
  induction n generalizing c with
  | zero => rfl
  | succ n ih =>
    rw [nextTokens?, tokenHere?_eq, Option.bind_some, ih, Option.map_some, nextTokens]
    rfl

end Cursor

end MiniPascal
