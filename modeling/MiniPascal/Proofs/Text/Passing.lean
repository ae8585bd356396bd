import Mathlib
import MiniPascal.Token.Scan

namespace MiniPascal.Cursor

structure Passes (c : Cursor) (w : List Char) (d : Cursor) : Prop where
  after : c.after = w ++ d.after
  before : d.before = w.reverse ++ c.before
  offset : d.offset = c.offset + (w.map Char.utf8Size).sum

namespace Passes

variable {b c d : Cursor} {v w : List Char}

lemma refl (c : Cursor) : Passes c [] c := ⟨rfl, rfl, rfl⟩

lemma trans (h : Passes b v c) (h' : Passes c w d) : Passes b (v ++ w) d where
  after := by rw [h.after, h'.after, List.append_assoc]
  before := by rw [h'.before, h.before, List.reverse_append, List.append_assoc]
  offset := by simp only [h'.offset, h.offset, List.map_append, List.sum_append, Nat.add_assoc]

lemma advance {x : Char} {rest : List Char} (h : c.after = x :: rest) : Passes c [x] c.advance := by
  obtain ⟨before, after, offset⟩ := c
  cases h
  exact ⟨rfl, rfl, by simp [Cursor.advance]⟩

end Passes

lemma advance_after {c : Cursor} {x : Char} {rest : List Char} (h : c.after = x :: rest) :
    c.advance.after = rest := by
  rw [after_advance, h, List.tail_cons]

lemma passes_takeWhile (c : Cursor) (p : Char → Bool) :
    Passes c (c.after.takeWhile p) (c.takeWhile p) := by
  obtain ⟨before, after, offset⟩ := c
  induction after generalizing before offset with
  | nil => exact .refl _
  | cons x rest ih =>
    rw [takeWhile_cons]
    by_cases hx : p x = true
    · rw [if_pos hx, List.takeWhile_cons_of_pos hx]
      have hstep : Passes ⟨before, x :: rest, offset⟩ [x]
          ⟨x :: before, rest, offset + x.utf8Size⟩ :=
        .advance rfl
      exact hstep.trans (ih (x :: before) (offset + x.utf8Size))
    · rw [if_neg hx, List.takeWhile_cons_of_neg hx]
      exact .refl _

section Exact

variable {c : Cursor} {p : Char → Bool} {w rest : List Char}

lemma takeWhile_append (hw : ∀ x ∈ w, p x = true) (hrest : ∀ x ∈ rest.head?, p x = false) :
    (w ++ rest).takeWhile p = w := by
  rw [List.takeWhile_append_of_pos hw]
  cases rest with
  | nil => simp
  | cons x rest => simp [hrest x rfl]

lemma dropWhile_append (hw : ∀ x ∈ w, p x = true) (hrest : ∀ x ∈ rest.head?, p x = false) :
    (w ++ rest).dropWhile p = rest := by
  rw [List.dropWhile_append_of_pos hw]
  cases rest with
  | nil => rfl
  | cons x rest => simp [hrest x rfl]

lemma Passes.takeWhile (h : c.after = w ++ rest) (hw : ∀ x ∈ w, p x = true)
    (hrest : ∀ x ∈ rest.head?, p x = false) : Passes c w (c.takeWhile p) := by
  have hpasses := c.passes_takeWhile p
  rwa [h, takeWhile_append hw hrest] at hpasses

lemma takeWhile_after_eq (h : c.after = w ++ rest) (hw : ∀ x ∈ w, p x = true)
    (hrest : ∀ x ∈ rest.head?, p x = false) : (c.takeWhile p).after = rest := by
  rw [takeWhile_after, h, dropWhile_append hw hrest]

end Exact

lemma lastBytes?_append (v before found : List Char) :
    lastBytes? (v.map Char.utf8Size).sum (v ++ before) found = some (v.reverse ++ found) := by
  induction v generalizing found with
  | nil =>
    rw [List.map_nil, List.sum_nil, lastBytes?]
    simp
  | cons x v ih =>
    have hsum : ((x :: v).map Char.utf8Size).sum =
        (x.utf8Size - 1 + (v.map Char.utf8Size).sum) + 1 := by
      have hpos := x.utf8Size_pos
      simp only [List.map_cons, List.sum_cons]
      omega
    have hleft : x.utf8Size - 1 + (v.map Char.utf8Size).sum + 1 - x.utf8Size =
        (v.map Char.utf8Size).sum := by
      have hpos := x.utf8Size_pos
      omega
    rw [hsum, List.cons_append, lastBytes?, if_pos (by have hpos := x.utf8Size_pos; omega), hleft,
      ih, List.reverse_cons, List.append_assoc, List.singleton_append]

lemma Passes.sliceFrom? {c d : Cursor} {w : List Char} (h : Passes c w d) :
    d.sliceFrom? c.offset = some (String.ofList w) := by
  have hsum : d.offset - c.offset = (w.reverse.map Char.utf8Size).sum := by
    rw [h.offset, Nat.add_sub_cancel_left, List.map_reverse, List.sum_reverse]
  rw [Cursor.sliceFrom?, if_pos (by rw [h.offset]; exact Nat.le_add_right _ _), hsum, h.before,
    lastBytes?_append]
  simp

lemma Passes.textFrom {c d : Cursor} {w : List Char} (h : Passes c w d) :
    d.textFrom c = String.ofList w := by
  rw [Cursor.textFrom, h.sliceFrom?]
  rfl

end MiniPascal.Cursor
