import MiniPascal.Proofs.Lexical.Scan

namespace MiniPascal

/-- A comment or a text that is not closed, so that it takes up the rest of its source. -/
def Token.IsUnclosed (t : Token) : Prop :=
  t.kind = .illegal ∧ ∃ x ∈ t.literal.toList.head?, x ∈ ['{', '"']

namespace Lexical

open Cursor (signs doubleSigns)
open Decimal (isDigit)

variable {a b u w rest : List Char} {t : Token} {ts us : List Token}

def separators : List Char := [' ', '\t', '\n', '\r', '{']

def Separated (a b : List Char) : Prop :=
  (∀ y ∈ b.head?, y ∈ separators) ∨ ∃ x ∈ a.getLast?, isBlank x = true

namespace Separated

lemma head (h : Separated rest b) {p : Char → Prop} (hrest : ∀ y ∈ rest.head?, p y)
    (hp : ∀ y, y ∈ separators → p y) : ∀ y ∈ (rest ++ b).head?, p y := by
  cases rest with
  | nil =>
    rcases h with h | ⟨x, hx, _⟩
    · intro y hy
      exact hp y (h y hy)
    · simp at hx
  | cons x rest => exact hrest

lemma class_eq_false (h : Separated rest b) {p : Char → Bool}
    (hrest : ∀ y ∈ rest.head?, p y = false) (hp : separators.any p = false) :
    ∀ y ∈ (rest ++ b).head?, p y = false := by
  apply h.head hrest
  intro y hy
  rw [List.any_eq_false] at hp
  simpa using hp y hy

lemma doubleSign_eq_none {x : Char} (h : Separated rest b)
    (hrest : ∀ y ∈ rest.head?, doubleSigns.lookup (x, y) = none) :
    ∀ y ∈ (rest ++ b).head?, doubleSigns.lookup (x, y) = none := by
  apply h.head hrest
  intro y hy
  apply Cursor.lookup_eq_none (p := fun s => separators.contains s.2) (by decide)
  rwa [List.contains_iff_mem]

lemma fraction_eq_false (h : Separated rest b)
    (hrest : ∀ x after, rest = '.' :: x :: after → isDigit x = false) :
    ∀ x after, rest ++ b = '.' :: x :: after → isDigit x = false := by
  intro x after hafter
  rcases rest with _ | ⟨c, _ | ⟨d, rest⟩⟩
  · have hdot := h.class_eq_false (p := (· == '.')) (by simp) (by decide) '.' (by simp [hafter])
    simp at hdot
  · obtain ⟨rfl, rfl⟩ := List.cons.inj hafter
    rcases h with h | ⟨y, hy, hblank⟩
    · have hall : separators.any isDigit = false := by decide
      rw [List.any_eq_false] at hall
      simpa using hall x (h x rfl)
    · obtain rfl : '.' = y := by simpa using hy
      exact absurd hblank (by decide)
  · simp only [List.cons_append, List.cons.injEq] at hafter
    obtain ⟨rfl, rfl, _⟩ := hafter
    exact hrest d rest rfl

end Separated

namespace IsToken

lemma append (h : IsToken t w rest) (ht : ¬ t.IsUnclosed) (hb : Separated rest b) :
    IsToken t w (rest ++ b) := by
  cases h with
  | word hne hw hrest => exact .word hne hw (hb.class_eq_false hrest (by decide))
  | integer hne hw hrest hfraction =>
    exact .integer hne hw (hb.class_eq_false hrest (by decide)) (hb.fraction_eq_false hfraction)
  | real hne hw hne' hf hrest =>
    exact .real hne hw hne' hf (hb.class_eq_false hrest (by decide))
  | text hw => exact .text hw
  | doubleSign h => exact .doubleSign h
  | sign h hrest => exact .sign h (hb.doubleSign_eq_none hrest)
  | unknown h hrest => exact .unknown h (hb.doubleSign_eq_none hrest)
  | openText _ => exact absurd ⟨rfl, '"', by simp, by simp⟩ ht
  | openComment _ => exact absurd ⟨rfl, '{', rfl, by simp⟩ ht

lemma getLast_not_blank (h : IsToken t w rest) (ht : ¬ t.IsUnclosed) :
    ∀ x ∈ w.getLast?, isBlank x = false := by
  intro x hx
  have hmem := List.mem_of_mem_getLast? hx
  cases h with
  | word hne hw _ => exact isBlank_eq_false (hw x hmem) (by decide)
  | integer hne hw _ _ => exact isBlank_eq_false (hw x hmem) (by decide)
  | @real w fraction _ _ _ hne hf _ =>
    have hlast : x ∈ fraction.getLast? := by
      rw [← List.getLast?_append_of_ne_nil (w ++ ['.']) hne]
      simpa using hx
    exact isBlank_eq_false (hf x (List.mem_of_mem_getLast? hlast)) (by decide)
  | text _ =>
    obtain rfl : '"' = x := by simpa [List.getLast?_cons] using hx
    decide
  | @doubleSign _ y kind _ h =>
    obtain rfl : y = x := by simpa using hx
    have hall : ∀ s ∈ doubleSigns, isBlank s.1.2 = false := by decide
    exact hall _ (mem_of_lookup h)
  | @sign y kind _ h _ =>
    obtain rfl : y = x := by simpa using hx
    have hall : ∀ s ∈ signs, isBlank s.1 = false := by decide
    exact hall _ (mem_of_lookup h)
  | @unknown y _ h _ =>
    obtain rfl : y = x := by simpa using hx
    exact isBlank_eq_false h (by decide)
  | openText _ => exact absurd ⟨rfl, '"', by simp, by simp⟩ ht
  | openComment _ => exact absurd ⟨rfl, '{', rfl, by simp⟩ ht

end IsToken

lemma IsBlanks.append (hu : IsBlanks u) (hw : IsBlanks w) : IsBlanks (u ++ w) := by
  induction hu with
  | nil => exact hw
  | blank hx _ ih => exact .blank hx ih
  | comment hinside _ ih =>
    rw [List.cons_append, List.append_assoc, List.cons_append]
    exact .comment hinside ih

lemma Separated.of_append (h : Separated (u ++ (w ++ rest)) b)
    (hw : ∀ x ∈ w.getLast?, isBlank x = false) (hne : w ≠ []) : Separated rest b := by
  rcases h with h | ⟨x, hx, hblank⟩
  · exact .inl h
  · refine .inr ⟨x, ?_, hblank⟩
    cases rest with
    | nil =>
      have hlast : x ∈ w.getLast? := by simpa [List.getLast?_append, hne] using hx
      rw [hw x hlast] at hblank
      cases hblank
    | cons y rest => simpa [List.getLast?_append, List.getLast?_cons] using hx

namespace Splits

lemma blanks (hu : IsBlanks u) (h : Splits b us) : Splits (u ++ b) us := by
  cases h with
  | nil hb => exact .nil (hu.append hb)
  | cons hv htoken hrest =>
    rw [← List.append_assoc]
    exact .cons (hu.append hv) htoken hrest

lemma append (h : Splits a ts) (hts : ∀ t ∈ ts, ¬ t.IsUnclosed) (hab : Separated a b)
    (hb : Splits b us) : Splits (a ++ b) (ts ++ us) := by
  induction h with
  | nil hblanks => exact hb.blanks hblanks
  | cons hblanks htoken _ ih =>
    rw [List.forall_mem_cons] at hts
    have hrest := hab.of_append (htoken.getLast_not_blank hts.1) htoken.ne_nil
    rw [List.append_assoc, List.append_assoc]
    exact .cons hblanks (htoken.append hts.1 hrest) (ih hts.2 hrest)

end Splits

end Lexical

theorem Token.scan_append {a b : String} (ha : ∀ t ∈ scan a, ¬ t.IsUnclosed)
    (hab : Lexical.Separated a.toList b.toList) : scan (a ++ b) = scan a ++ scan b := by
  have hsplits : Lexical.Splits a.toList (scan a) := Lexical.splits_iff_scan.2 rfl
  rw [← Lexical.splits_iff_scan, String.toList_append]
  exact hsplits.append ha hab (Lexical.splits_iff_scan.2 rfl)

end MiniPascal
