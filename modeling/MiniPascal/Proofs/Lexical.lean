import Mathlib
import MiniPascal.Token.Scan
/-! The lexical grammar: how the characters of a source fall into tokens. -/

namespace MiniPascal.Lexical

open Cursor (signs doubleSigns)
open Decimal (isDigit)

inductive IsBlanks : List Char → Prop
  | nil : IsBlanks []
  | blank {x cs} : isBlank x = true → IsBlanks cs → IsBlanks (x :: cs)
  | comment {inside cs} : '}' ∉ inside → IsBlanks cs → IsBlanks ('{' :: (inside ++ '}' :: cs))

def isUnknown (x : Char) : Bool :=
  (signs.lookup x).isNone && !isLetter x && !isDigit x && !isBlank x && x != '{' && x != '"'

/-- A token, its characters, and the characters behind them, none of which belongs to it. -/
inductive IsToken : Token → List Char → List Char → Prop
  | word {w rest} : w ≠ [] → (∀ x ∈ w, isLetter x = true) →
    (∀ x ∈ rest.head?, isLetter x = false) →
    IsToken ⟨.ofWord (String.ofList w), String.ofList w⟩ w rest
  | integer {w rest} : w ≠ [] → (∀ x ∈ w, isDigit x = true) →
    (∀ x ∈ rest.head?, isDigit x = false) →
    (∀ x after, rest = '.' :: x :: after → isDigit x = false) →
    IsToken ⟨.integer, String.ofList w⟩ w rest
  | real {w fraction rest} : w ≠ [] → (∀ x ∈ w, isDigit x = true) → fraction ≠ [] →
    (∀ x ∈ fraction, isDigit x = true) → (∀ x ∈ rest.head?, isDigit x = false) →
    IsToken ⟨.real, String.ofList (w ++ '.' :: fraction)⟩ (w ++ '.' :: fraction) rest
  | text {w rest} : '"' ∉ w → IsToken ⟨.text, String.ofList w⟩ ('"' :: (w ++ ['"'])) rest
  | doubleSign {x y kind rest} : doubleSigns.lookup (x, y) = some kind →
    IsToken ⟨kind, String.ofList [x, y]⟩ [x, y] rest
  | sign {x kind rest} : signs.lookup x = some kind →
    (∀ y ∈ rest.head?, doubleSigns.lookup (x, y) = none) → IsToken ⟨kind, x.toString⟩ [x] rest
  | unknown {x rest} : isUnknown x = true →
    (∀ y ∈ rest.head?, doubleSigns.lookup (x, y) = none) →
    IsToken ⟨.illegal, x.toString⟩ [x] rest
  | openText {w} : '"' ∉ w → IsToken ⟨.illegal, String.ofList ('"' :: w)⟩ ('"' :: w) []
  | openComment {w} : '}' ∉ w → IsToken ⟨.illegal, "\x7b"⟩ ('{' :: w) []

inductive Splits : List Char → List Token → Prop
  | nil {cs} : IsBlanks cs → Splits cs []
  | cons {u w rest t ts} : IsBlanks u → IsToken t w rest → Splits rest ts →
    Splits (u ++ (w ++ rest)) (t :: ts)

end MiniPascal.Lexical
