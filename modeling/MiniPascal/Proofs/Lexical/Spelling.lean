import MiniPascal.Proofs.Lexical.Scan
import MiniPascal.Proofs.Token.Spelling

namespace MiniPascal

def Token.characters (t : Token) : List Char :=
  if t.kind = .text then '"' :: (t.literal.toList ++ ['"']) else t.literal.toList

def TokenKind.wordKinds : List TokenKind := keywords.map Prod.snd

def TokenKind.signKinds : List TokenKind :=
  Cursor.signs.map Prod.snd ++ Cursor.doubleSigns.map Prod.snd

namespace Lexical

open Cursor (signs doubleSigns)
open TokenKind (wordKinds signKinds)

variable {x : Char} {w rest : List Char} {t : Token} {us : List Token}

def Occurs (t : Token) : Prop := t.kind ≠ .illegal ∧ ∃ w rest, IsToken t w rest

def Parted (rest : List Char) : Prop :=
  ∀ y ∈ rest.head?, y ∈ [' ', '(', ')', ',', ';', ':']

namespace Parted

lemma class_eq_false (h : Parted rest) {p : Char → Bool}
    (hp : [' ', '(', ')', ',', ';', ':'].any p = false) : ∀ y ∈ rest.head?, p y = false := by
  intro y hy
  rw [List.any_eq_false] at hp
  simpa using hp y (h y hy)

lemma cons (hx : x ∈ [' ', '(', ')', ',', ';', ':']) : Parted (x :: rest) := by
  rintro y ⟨⟩
  exact hx

lemma space : Parted (' ' :: rest) := cons (by decide)

lemma leftParen : Parted ('(' :: rest) := cons (by decide)

lemma rightParen : Parted (')' :: rest) := cons (by decide)

lemma comma : Parted (',' :: rest) := cons (by decide)

lemma semicolon : Parted (';' :: rest) := cons (by decide)

lemma colon : Parted (':' :: rest) := cons (by decide)

end Parted

lemma ofWord_eq_or (word : String) :
    TokenKind.ofWord word = .identifier ∨ (word, TokenKind.ofWord word) ∈ TokenKind.keywords := by
  rw [TokenKind.ofWord]
  cases h : TokenKind.keywords.lookup word with
  | none => exact .inl rfl
  | some kind => exact .inr (mem_of_lookup h)

lemma ofWord_ne (word : String) {kind : TokenKind} (hkind : kind ≠ .identifier)
    (hword : kind ∉ wordKinds) : TokenKind.ofWord word ≠ kind := by
  rintro rfl
  rcases ofWord_eq_or word with h | h
  · exact hkind h
  · exact hword (List.mem_map_of_mem h)

namespace IsToken

lemma kind_mem_signKinds {kind : TokenKind} (h : signs.lookup x = some kind) :
    kind ∈ signKinds :=
  List.mem_append_left _ (List.mem_map_of_mem (mem_of_lookup h) : _ ∈ signs.map Prod.snd)

lemma kind_mem_signKinds' {y : Char} {kind : TokenKind}
    (h : doubleSigns.lookup (x, y) = some kind) : kind ∈ signKinds :=
  List.mem_append_right _ (List.mem_map_of_mem (mem_of_lookup h) : _ ∈ doubleSigns.map Prod.snd)

lemma characters_eq (h : IsToken t w rest) (hkind : t.kind ≠ .illegal) : w = t.characters := by
  cases h with
  | word _ _ _ =>
    have hne : TokenKind.ofWord (String.ofList w) ≠ .text := ofWord_ne _ nofun (by decide)
    rw [Token.characters, if_neg hne, String.toList_ofList]
  | integer _ _ _ _ => rw [Token.characters, if_neg nofun, String.toList_ofList]
  | real _ _ _ _ _ => rw [Token.characters, if_neg nofun, String.toList_ofList]
  | text _ => rw [Token.characters, if_pos rfl, String.toList_ofList]
  | doubleSign h =>
    have hne : ∀ k ∈ signKinds, k ≠ .text := by decide
    rw [Token.characters, if_neg (hne _ (kind_mem_signKinds' h)), String.toList_ofList]
  | sign h _ =>
    have hne : ∀ k ∈ signKinds, k ≠ .text := by decide
    rw [Token.characters, if_neg (hne _ (kind_mem_signKinds h))]
    simp
  | unknown _ _ => exact absurd rfl hkind
  | openText _ => exact absurd rfl hkind
  | openComment _ => exact absurd rfl hkind

lemma before_parted {rest' : List Char} (h : IsToken t w rest) (hkind : t.kind ≠ .illegal)
    (hrest : Parted rest') : IsToken t w rest' := by
  cases h with
  | word hne hw _ => exact .word hne hw (hrest.class_eq_false (by decide))
  | integer hne hw _ _ =>
    refine .integer hne hw (hrest.class_eq_false (by decide)) ?_
    rintro y after rfl
    exact absurd (hrest '.' rfl) (by decide)
  | real hne hw hne' hf _ => exact .real hne hw hne' hf (hrest.class_eq_false (by decide))
  | text hw => exact .text hw
  | doubleSign h => exact .doubleSign h
  | sign h _ =>
    refine .sign h fun y hy => ?_
    refine Cursor.lookup_eq_none (p := fun s => [' ', '(', ')', ',', ';', ':'].contains s.2)
      (by decide) ?_
    rw [List.contains_iff_mem]
    exact hrest y hy
  | unknown _ _ => exact absurd rfl hkind
  | openText _ => exact absurd rfl hkind
  | openComment _ => exact absurd rfl hkind

end IsToken

namespace Splits

lemma token (h : Splits rest us) (ht : Occurs t) (hrest : Parted rest) :
    Splits (t.characters ++ rest) (t :: us) := by
  obtain ⟨hkind, w, rest', htoken⟩ := ht
  rw [← htoken.characters_eq hkind]
  exact .cons (u := []) .nil (htoken.before_parted hkind hrest) h

lemma space (h : Splits rest us) : Splits (' ' :: rest) us := by
  cases h with
  | nil hblanks => exact .nil (.blank rfl hblanks)
  | cons hblanks htoken hrest => exact .cons (.blank rfl hblanks) htoken hrest

lemma sign {kind : TokenKind} (h : Splits rest us) (hx : signs.lookup x = some kind)
    (hdouble : ∀ s ∈ doubleSigns, (s.1.1 == x) = false) :
    Splits (x :: rest) (⟨kind, x.toString⟩ :: us) := by
  refine .cons (u := []) (w := [x]) .nil (.sign hx fun y _ => ?_) h
  exact Cursor.lookup_eq_none (p := fun s => s.1 == x) hdouble (beq_self_eq_true x)

end Splits

lemma Occurs.word {kind : TokenKind} {s : String} (hkind : TokenKind.ofWord s = kind)
    (hne : s.toList ≠ []) (hs : ∀ x ∈ s.toList, isLetter x = true) : Occurs ⟨kind, s⟩ := by
  subst hkind
  refine ⟨ofWord_ne s nofun (by decide), s.toList, [], ?_⟩
  have htoken : IsToken _ s.toList [] := .word hne hs nofun
  rwa [String.ofList_toList] at htoken

lemma Occurs.literal_eq {kind : TokenKind} (h : Occurs t) (hkind : t.kind = kind)
    (hword : kind ∈ wordKinds ∧ kind ≠ .notWord) : t.literal = kind.spelling := by
  subst hkind
  obtain ⟨ht, hnot⟩ := hword
  obtain ⟨_, w, rest, htoken⟩ := h
  have hsigns : ∀ kind ∈ signKinds, kind ∈ wordKinds → kind = .notWord := by decide
  have hothers : ∀ kind ∈ [TokenKind.identifier, .integer, .real, .text, .illegal],
      kind ∉ wordKinds := by decide
  cases htoken with
  | word _ _ _ =>
    rcases ofWord_eq_or (String.ofList w) with hkind | hmem
    · rw [hkind] at ht
      exact absurd ht (hothers _ (by simp))
    · have hall : ∀ entry ∈ TokenKind.keywords, entry.1 = entry.2.spelling := by decide
      exact hall _ hmem
  | doubleSign h => exact absurd (hsigns _ (IsToken.kind_mem_signKinds' h) ht) hnot
  | sign h _ => exact absurd (hsigns _ (IsToken.kind_mem_signKinds h) ht) hnot
  | _ => exact absurd ht (hothers _ (by simp))

end Lexical

end MiniPascal
