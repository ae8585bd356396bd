import MiniPascal.Proofs.Lexical
import MiniPascal.Proofs.Text.Passing

namespace MiniPascal

open Decimal (isDigit)

namespace Cursor

variable {c : Cursor} {x y : Char} {w rest : List Char} {t : Token}

section Dispatch

lemma le_toNat_of_isLetter (h : isLetter x = true) : 65 ≤ x.toNat := by
  simp only [isLetter, Char.isAlpha, Char.isUpper, Char.isLower, Bool.or_eq_true, Bool.and_eq_true,
    decide_eq_true_eq, beq_iff_eq, ge_iff_le] at h
  rcases h with (h | h) | rfl
  · exact h.1
  · exact Nat.le_trans (by decide) (UInt32.le_iff_toNat_le.1 h.1)
  · decide

lemma toNat_le_of_isDigit (h : isDigit x = true) : x.toNat ≤ 57 := by
  simp only [isDigit, Bool.and_eq_true, decide_eq_true_eq] at h
  exact h.2

lemma isDigit_eq_false_of_isLetter (h : isLetter x = true) : isDigit x = false := by
  have hle := le_toNat_of_isLetter h
  by_cases hx : isDigit x = true
  · have hlt := toNat_le_of_isDigit hx
    omega
  · simpa using hx

lemma ne_of_class {p : Char → Bool} (hx : p x = true) (hy : p y = false) : x ≠ y := by
  rintro rfl
  rw [hx] at hy
  cases hy

lemma lookup_eq_none {α β : Type} [BEq α] [LawfulBEq α] {table : List (α × β)} {a : α}
    {p : α → Bool} (htable : ∀ s ∈ table, p s.1 = false) (ha : p a = true) :
    table.lookup a = none := by
  rw [List.lookup_eq_none_iff]
  intro s hs
  rw [bne_iff_ne]
  rintro rfl
  rw [htable s hs] at ha
  cases ha

lemma doubleSign?_eq_none (hc : c.after = x :: rest)
    (h : ∀ y ∈ rest.head?, doubleSigns.lookup (x, y) = none) : c.doubleSign? = none := by
  rw [doubleSign?, hc]
  cases rest with
  | nil => rfl
  | cons y rest =>
    dsimp only
    rw [h y rfl, Option.map_none]

lemma tokenHere_eq (hc : c.after = x :: rest)
    (hdouble : ∀ y ∈ rest.head?, doubleSigns.lookup (x, y) = none)
    (hsign : signs.lookup x = none) :
    c.tokenHere =
      if x = '{' then c.openComment
      else if x = '"' then c.quotedText
      else if isDigit x then c.number
      else if isLetter x then c.word
      else (⟨.illegal, x.toString⟩, c.advance) := by
  have hs : c.sign? = none := by
    rw [sign?, hc]
    dsimp only
    rw [hsign, Option.map_none]
  rw [tokenHere, hc]
  dsimp only
  rw [doubleSign?_eq_none hc hdouble, hs]

lemma tokenHere_eq_of {p : Char → Bool} (hc : c.after = x :: rest) (hx : p x = true)
    (hsigns : ∀ s ∈ signs, p s.1 = false) (hdoubles : ∀ s ∈ doubleSigns, p s.1.1 = false) :
    c.tokenHere =
      if x = '{' then c.openComment
      else if x = '"' then c.quotedText
      else if isDigit x then c.number
      else if isLetter x then c.word
      else (⟨.illegal, x.toString⟩, c.advance) := by
  refine tokenHere_eq hc ?_ (lookup_eq_none hsigns hx)
  intro y _
  exact lookup_eq_none (p := fun s => p s.1) hdoubles hx

end Dispatch

lemma tokenHere_word (hc : c.after = w ++ rest) (hne : w ≠ []) (hw : ∀ x ∈ w, isLetter x = true)
    (hrest : ∀ x ∈ rest.head?, isLetter x = false) :
    c.tokenHere.1 = ⟨.ofWord (String.ofList w), String.ofList w⟩ ∧
      c.tokenHere.2.after = rest := by
  obtain ⟨x, v, rfl⟩ := List.exists_cons_of_ne_nil hne
  have hx := hw x List.mem_cons_self
  have hbrace : x ≠ '{' := ne_of_class hx (by decide)
  have hquote : x ≠ '"' := ne_of_class hx (by decide)
  have hdigit := isDigit_eq_false_of_isLetter hx
  rw [tokenHere_eq_of hc hx (by decide) (by decide), if_neg hbrace, if_neg hquote,
    if_neg (by simp [hdigit]), if_pos hx]
  have hpasses := Passes.takeWhile hc hw hrest
  refine ⟨?_, takeWhile_after_eq hc hw hrest⟩
  rw [Cursor.word, hpasses.textFrom]

lemma tokenHere_number (hc : c.after = x :: rest) (hx : isDigit x = true) :
    c.tokenHere = c.number := by
  have hbrace : x ≠ '{' := ne_of_class hx (by decide)
  have hquote : x ≠ '"' := ne_of_class hx (by decide)
  rw [tokenHere_eq_of hc hx (by decide) (by decide), if_neg hbrace, if_neg hquote, if_pos hx]

lemma fractionNext_eq_true_iff :
    c.fractionNext = true ↔ ∃ x after, c.after = '.' :: x :: after ∧ isDigit x = true := by
  rw [fractionNext]
  constructor
  · intro h
    split at h
    · next x after hafter => exact ⟨x, after, hafter, h⟩
    · cases h
  · rintro ⟨x, after, hafter, hx⟩
    rw [hafter]
    exact hx

lemma tokenHere_integer (hc : c.after = w ++ rest) (hne : w ≠ [])
    (hw : ∀ x ∈ w, isDigit x = true) (hrest : ∀ x ∈ rest.head?, isDigit x = false)
    (hfraction : ∀ x after, rest = '.' :: x :: after → isDigit x = false) :
    c.tokenHere.1 = ⟨.integer, String.ofList w⟩ ∧ c.tokenHere.2.after = rest := by
  obtain ⟨x, v, rfl⟩ := List.exists_cons_of_ne_nil hne
  have hafter := takeWhile_after_eq hc hw hrest
  have hnext : (c.takeWhile isDigit).fractionNext ≠ true := by
    rw [Ne, fractionNext_eq_true_iff]
    rintro ⟨y, after, hy, hdigit⟩
    rw [hfraction y after (hafter.symm.trans hy)] at hdigit
    cases hdigit
  have hpasses := Passes.takeWhile hc hw hrest
  rw [tokenHere_number hc (hw x List.mem_cons_self), number, if_neg hnext, hpasses.textFrom]
  exact ⟨rfl, hafter⟩

lemma tokenHere_real {fraction : List Char} (hc : c.after = w ++ '.' :: (fraction ++ rest))
    (hne : w ≠ []) (hw : ∀ x ∈ w, isDigit x = true) (hne' : fraction ≠ [])
    (hfraction : ∀ x ∈ fraction, isDigit x = true) (hrest : ∀ x ∈ rest.head?, isDigit x = false) :
    c.tokenHere.1 = ⟨.real, String.ofList (w ++ '.' :: fraction)⟩ ∧
      c.tokenHere.2.after = rest := by
  obtain ⟨x, v, rfl⟩ := List.exists_cons_of_ne_nil hne
  have hpoint : ∀ x ∈ ('.' :: (fraction ++ rest)).head?, isDigit x = false := by
    rintro x ⟨⟩
    decide
  have hafter := takeWhile_after_eq hc hw hpoint
  have hnext : (c.takeWhile isDigit).fractionNext = true := by
    obtain ⟨y, f, rfl⟩ := List.exists_cons_of_ne_nil hne'
    exact fractionNext_eq_true_iff.2 ⟨y, f ++ rest, hafter, hfraction y List.mem_cons_self⟩
  have hafter' := advance_after hafter
  have hpasses := (Passes.takeWhile hc hw hpoint).trans
    ((Passes.advance hafter).trans (Passes.takeWhile hafter' hfraction hrest))
  rw [tokenHere_number hc (hw x List.mem_cons_self), number, if_pos hnext]
  refine ⟨?_, takeWhile_after_eq hafter' hfraction hrest⟩
  dsimp only
  rw [hpasses.textFrom, List.singleton_append]

lemma takeIf?_eq_some (hc : c.after = x :: rest) : c.takeIf? x = some c.advance := by
  rw [takeIf?, hc]
  exact if_pos rfl

lemma takeIf?_eq_none (h : ∀ y ∈ c.after.head?, y ≠ x) : c.takeIf? x = none := by
  cases hc : c.after with
  | nil => rw [takeIf?, hc]
  | cons y rest =>
    rw [takeIf?, hc]
    exact if_neg (h y (by rw [hc]; rfl))

lemma not_beq_of_not_mem {v : List Char} (h : x ∉ v) : ∀ y ∈ v, (!(y == x)) = true := by
  intro y hy
  simp only [Bool.not_eq_true', beq_eq_false_iff_ne]
  rintro rfl
  exact h hy

lemma tokenHere_quote (hc : c.after = '"' :: rest) : c.tokenHere = c.quotedText := by
  rw [tokenHere_eq_of (p := (· == '"')) hc (by decide) (by decide) (by decide),
    if_neg (by decide), if_pos rfl]

lemma tokenHere_text (hc : c.after = '"' :: (w ++ '"' :: rest)) (hw : '"' ∉ w) :
    c.tokenHere.1 = ⟨.text, String.ofList w⟩ ∧ c.tokenHere.2.after = rest := by
  have hinside := advance_after hc
  have hrest : ∀ x ∈ ('"' :: rest).head?, (!(x == '"')) = false := by
    rintro x ⟨⟩
    decide
  have hclose := takeWhile_after_eq hinside (not_beq_of_not_mem hw) hrest
  have hpasses := Passes.takeWhile hinside (not_beq_of_not_mem hw) hrest
  have htake := takeIf?_eq_some hclose
  rw [tokenHere_quote hc, quotedText, takeUntil]
  rw [htake]
  dsimp only
  rw [hpasses.textFrom]
  exact ⟨rfl, advance_after hclose⟩

lemma tokenHere_openText (hc : c.after = '"' :: w) (hw : '"' ∉ w) :
    c.tokenHere.1 = ⟨.illegal, String.ofList ('"' :: w)⟩ ∧ c.tokenHere.2.after = [] := by
  have hinside : c.advance.after = w ++ [] := by rw [advance_after hc, List.append_nil]
  have hclose := takeWhile_after_eq hinside (not_beq_of_not_mem hw) nofun
  have hpasses := (Passes.advance hc).trans
    (Passes.takeWhile hinside (not_beq_of_not_mem hw) nofun)
  have htake := takeIf?_eq_none (x := '"') (by rw [hclose]; exact nofun)
  rw [tokenHere_quote hc, quotedText, takeUntil]
  rw [htake]
  dsimp only
  rw [hpasses.textFrom]
  exact ⟨rfl, hclose⟩

lemma tokenHere_openComment (hc : c.after = '{' :: w) (hw : '}' ∉ w) :
    c.tokenHere.1 = ⟨.illegal, "\x7b"⟩ ∧ c.tokenHere.2.after = [] := by
  have hinside : c.advance.after = w ++ [] := by rw [advance_after hc, List.append_nil]
  have hclose := takeWhile_after_eq hinside (not_beq_of_not_mem hw) nofun
  rw [tokenHere_eq_of (p := (· == '{')) hc (by decide) (by decide) (by decide), if_pos rfl]
  exact ⟨rfl, hclose⟩

lemma tokenHere_doubleSign {kind : TokenKind} (hc : c.after = x :: y :: rest)
    (h : doubleSigns.lookup (x, y) = some kind) :
    c.tokenHere.1 = ⟨kind, String.ofList [x, y]⟩ ∧ c.tokenHere.2.after = rest := by
  have hdouble : c.doubleSign? = some (⟨kind, String.ofList [x, y]⟩, c.advance.advance) := by
    rw [doubleSign?, hc]
    dsimp only
    rw [h, Option.map_some]
  rw [tokenHere, hc]
  dsimp only
  rw [hdouble]
  exact ⟨rfl, advance_after (advance_after hc)⟩

lemma tokenHere_sign {kind : TokenKind} (hc : c.after = x :: rest)
    (h : signs.lookup x = some kind)
    (hdouble : ∀ y ∈ rest.head?, doubleSigns.lookup (x, y) = none) :
    c.tokenHere.1 = ⟨kind, x.toString⟩ ∧ c.tokenHere.2.after = rest := by
  have hsign : c.sign? = some (⟨kind, x.toString⟩, c.advance) := by
    rw [sign?, hc]
    dsimp only
    rw [h, Option.map_some]
  rw [tokenHere, hc]
  dsimp only
  rw [doubleSign?_eq_none hc hdouble, hsign]
  exact ⟨rfl, advance_after hc⟩

lemma tokenHere_unknown (hc : c.after = x :: rest) (h : Lexical.isUnknown x = true)
    (hdouble : ∀ y ∈ rest.head?, doubleSigns.lookup (x, y) = none) :
    c.tokenHere.1 = ⟨.illegal, x.toString⟩ ∧ c.tokenHere.2.after = rest := by
  simp only [Lexical.isUnknown, Bool.and_eq_true, Bool.not_eq_true', bne_iff_ne,
    Option.isNone_iff_eq_none] at h
  obtain ⟨⟨⟨⟨⟨hsign, hletter⟩, hdigit⟩, _⟩, hbrace⟩, hquote⟩ := h
  rw [tokenHere_eq hc hdouble hsign, if_neg hbrace, if_neg hquote, if_neg (by simp [hdigit]),
    if_neg (by simp [hletter])]
  exact ⟨rfl, advance_after hc⟩

lemma tokenHere_of_isToken (h : Lexical.IsToken t w rest) (hc : c.after = w ++ rest) :
    c.tokenHere.1 = t ∧ c.tokenHere.2.after = rest := by
  cases h with
  | word hne hw hrest => exact tokenHere_word hc hne hw hrest
  | integer hne hw hrest hfraction => exact tokenHere_integer hc hne hw hrest hfraction
  | real hne hw hne' hfraction hrest =>
    rw [List.append_assoc] at hc
    exact tokenHere_real hc hne hw hne' hfraction hrest
  | text hw =>
    rw [List.cons_append, List.append_assoc] at hc
    exact tokenHere_text hc hw
  | doubleSign h => exact tokenHere_doubleSign hc h
  | sign h hdouble => exact tokenHere_sign hc h hdouble
  | unknown h hdouble => exact tokenHere_unknown hc h hdouble
  | openText hw =>
    rw [List.append_nil] at hc
    exact tokenHere_openText hc hw
  | openComment hw =>
    rw [List.append_nil] at hc
    exact tokenHere_openComment hc hw

section Blanks

lemma skipBlank_eq (c : Cursor) :
    c.skipBlank =
      match (c.takeWhile isBlank).skipComment? with
      | some rest => rest.skipBlank
      | none => c.takeWhile isBlank := by
  rw [skipBlank]
  split <;> next h => rw [h]

lemma takeWhile_blank (hc : c.after = x :: rest) (hx : isBlank x = true) :
    c.takeWhile isBlank = c.advance.takeWhile isBlank := by
  obtain ⟨before, after, offset⟩ := c
  cases hc
  rw [takeWhile_cons, if_pos hx]
  rfl

lemma skipBlank_blank (hc : c.after = x :: rest) (hx : isBlank x = true) :
    c.skipBlank = c.advance.skipBlank := by
  rw [skipBlank_eq c, skipBlank_eq c.advance, takeWhile_blank hc hx]

lemma takeWhile_of_not (h : ∀ x ∈ c.after.head?, isBlank x = false) :
    c.takeWhile isBlank = c := by
  obtain ⟨before, after, offset⟩ := c
  cases after with
  | nil => rfl
  | cons x rest =>
    rw [takeWhile_cons, if_neg]
    rw [h x rfl]
    exact nofun

lemma skipComment?_closed (hc : c.after = '{' :: (w ++ '}' :: rest)) (hw : '}' ∉ w) :
    ∃ d : Cursor, c.skipComment? = some d ∧ d.after = rest := by
  have hrest : ∀ x ∈ ('}' :: rest).head?, (!(x == '}')) = false := by
    rintro x ⟨⟩
    decide
  have hclose := takeWhile_after_eq (advance_after hc) (not_beq_of_not_mem hw) hrest
  refine ⟨_, ?_, advance_after hclose⟩
  rw [skipComment?, takeIf?_eq_some hc, Option.bind_some, takeUntil, takeIf?_eq_some hclose]

lemma skipComment?_open (hc : ∀ w, c.after = '{' :: w → '}' ∉ w) : c.skipComment? = none := by
  rw [skipComment?]
  by_cases h : ∃ w, c.after = '{' :: w
  · obtain ⟨w, hw⟩ := h
    have hinside : c.advance.after = w ++ [] := by rw [advance_after hw, List.append_nil]
    have hclose := takeWhile_after_eq hinside (not_beq_of_not_mem (hc w hw)) (by simp)
    rw [takeIf?_eq_some hw, Option.bind_some, takeUntil]
    refine takeIf?_eq_none ?_
    simp [hclose]
  · rw [takeIf?_eq_none, Option.bind_none]
    rintro x hx rfl
    obtain ⟨w, hw⟩ := List.head?_eq_some_iff.1 hx
    exact h ⟨w, hw⟩

lemma skipBlank_of_isBlanks {u : List Char} (hu : Lexical.IsBlanks u) (hc : c.after = u ++ rest) :
    ∃ d : Cursor, d.after = rest ∧ c.skipBlank = d.skipBlank := by
  induction hu generalizing c with
  | nil => exact ⟨c, hc, rfl⟩
  | blank hx _ ih =>
    obtain ⟨d, hd, hskip⟩ := ih (advance_after hc)
    exact ⟨d, hd, (skipBlank_blank hc hx).trans hskip⟩
  | @comment inside cs hinside _ ih =>
    have hc' : c.after = '{' :: (inside ++ '}' :: (cs ++ rest)) := by simpa using hc
    obtain ⟨d, hd, hafter⟩ := skipComment?_closed hc' hinside
    obtain ⟨d', hd', hskip⟩ := ih hafter
    refine ⟨d', hd', ?_⟩
    rw [skipBlank_eq, takeWhile_of_not (by rw [hc']; rintro x ⟨⟩; decide), hd]
    exact hskip

lemma skipBlank_stop (h : ∀ x ∈ c.after.head?, isBlank x = false)
    (hcomment : ∀ w, c.after = '{' :: w → '}' ∉ w) : c.skipBlank = c := by
  rw [skipBlank_eq, takeWhile_of_not h, skipComment?_open hcomment]

end Blanks

end Cursor

namespace Lexical

open Cursor (signs doubleSigns)

variable {x y : Char} {w rest : List Char} {t : Token}

lemma mem_of_lookup {α β : Type} [BEq α] [LawfulBEq α] {table : List (α × β)} {a : α} {b : β}
    (h : table.lookup a = some b) : (a, b) ∈ table := by
  obtain ⟨l₁, l₂, rfl, _⟩ := List.lookup_eq_some_iff.1 h
  simp

lemma isBlank_eq_false {p : Char → Bool} (hx : p x = true)
    (hp : [' ', '\t', '\n', '\r'].any p = false) : isBlank x = false := by
  simp only [List.any_cons, List.any_nil, Bool.or_false, Bool.or_eq_false_iff] at hp
  obtain ⟨hspace, htab, hnewline, hreturn⟩ := hp
  simp only [isBlank, Bool.or_eq_false_iff, beq_eq_false_iff_ne]
  exact ⟨⟨⟨Cursor.ne_of_class hx hspace, Cursor.ne_of_class hx htab⟩,
    Cursor.ne_of_class hx hnewline⟩, Cursor.ne_of_class hx hreturn⟩

structure Starts (cs : List Char) : Prop where
  blank : ∀ x ∈ cs.head?, isBlank x = false
  comment : ∀ v, cs = '{' :: v → '}' ∉ v

lemma Starts.of_class {p : Char → Bool} (hx : p x = true)
    (hp : [' ', '\t', '\n', '\r'].any p = false) (hbrace : p '{' = false)
    (rest : List Char) : Starts (x :: rest) := by
  refine ⟨?_, ?_⟩
  · rintro y ⟨⟩
    exact isBlank_eq_false hx hp
  · rintro v ⟨⟩
    rw [hbrace] at hx
    cases hx

namespace IsToken

lemma starts (h : IsToken t w rest) : Starts (w ++ rest) := by
  cases h with
  | word hne hw _ =>
    obtain ⟨x, v, rfl⟩ := List.exists_cons_of_ne_nil hne
    exact .of_class (hw x List.mem_cons_self) (by decide) (by decide) _
  | integer hne hw _ _ =>
    obtain ⟨x, v, rfl⟩ := List.exists_cons_of_ne_nil hne
    exact .of_class (hw x List.mem_cons_self) (by decide) (by decide) _
  | real hne hw _ _ _ =>
    obtain ⟨x, v, rfl⟩ := List.exists_cons_of_ne_nil hne
    exact .of_class (hw x List.mem_cons_self) (by decide) (by decide) _
  | text _ => exact .of_class (p := (· == '"')) rfl (by decide) (by decide) _
  | @doubleSign x y kind _ h =>
    have hx : (doubleSigns.any fun s => s.1.1 == x) = true :=
      List.any_eq_true.2 ⟨((x, y), kind), mem_of_lookup h, beq_self_eq_true x⟩
    exact .of_class (p := fun x => doubleSigns.any fun s => s.1.1 == x) hx (by decide) (by decide) _
  | @sign x kind _ h _ =>
    have hx : (signs.any fun s => s.1 == x) = true :=
      List.any_eq_true.2 ⟨(x, kind), mem_of_lookup h, beq_self_eq_true x⟩
    exact .of_class (p := fun x => signs.any fun s => s.1 == x) hx (by decide) (by decide) _
  | unknown h _ => exact .of_class h (by decide) (by decide) _
  | openText _ => exact .of_class (p := (· == '"')) rfl (by decide) (by decide) _
  | openComment hw =>
    rw [List.append_nil]
    refine ⟨?_, ?_⟩
    · rintro x ⟨⟩
      decide
    · rintro v ⟨⟩
      exact hw

lemma kind_ne (h : IsToken t w rest) : t.kind ≠ .endOfInput := by
  cases h with
  | @word w _ _ _ _ =>
    dsimp only [TokenKind.ofWord]
    cases hkind : TokenKind.keywords.lookup (String.ofList w) with
    | none => exact nofun
    | some kind =>
      have hall : ∀ entry ∈ TokenKind.keywords, entry.2 ≠ .endOfInput := by decide
      exact hall _ (mem_of_lookup hkind)
  | doubleSign h =>
    have hall : ∀ entry ∈ doubleSigns, entry.2 ≠ .endOfInput := by decide
    exact hall _ (mem_of_lookup h)
  | sign h _ =>
    have hall : ∀ entry ∈ signs, entry.2 ≠ .endOfInput := by decide
    exact hall _ (mem_of_lookup h)
  | _ => exact nofun

lemma ne_nil (h : IsToken t w rest) : w ≠ [] := by
  cases h <;> simp_all

end IsToken

lemma IsBlanks.nextToken_eq {u : List Char} (hu : IsBlanks u) {c : Cursor} (hc : c.after = u) :
    ∃ d : Cursor, d.after = [] ∧ c.nextToken = (Token.endOfInput, d) := by
  obtain ⟨d, hd, hskip⟩ := Cursor.skipBlank_of_isBlanks hu (hc.trans (List.append_nil u).symm)
  have hstop : d.skipBlank = d :=
    Cursor.skipBlank_stop (by rw [hd]; exact nofun) (by rw [hd]; exact nofun)
  refine ⟨d, hd, ?_⟩
  rw [Cursor.nextToken, hskip, hstop, Cursor.tokenHere, hd]

lemma IsToken.nextToken_eq {u : List Char} (h : IsToken t w rest) (hu : IsBlanks u) {c : Cursor}
    (hc : c.after = u ++ (w ++ rest)) : c.nextToken.1 = t ∧ c.nextToken.2.after = rest := by
  obtain ⟨d, hd, hskip⟩ := Cursor.skipBlank_of_isBlanks hu hc
  have hstarts := h.starts
  rw [← hd] at hstarts
  have hstop : d.skipBlank = d := Cursor.skipBlank_stop hstarts.blank hstarts.comment
  rw [Cursor.nextToken, hskip, hstop]
  exact Cursor.tokenHere_of_isToken h hd

lemma Splits.tokens_eq {cs : List Char} {ts : List Token} (h : Splits cs ts) {c : Cursor}
    (hc : c.after = cs) : c.tokens = ts := by
  induction h generalizing c with
  | nil hblanks =>
    obtain ⟨d, -, hnext⟩ := hblanks.nextToken_eq hc
    rw [Cursor.tokens, if_pos]
    rw [hnext]
    rfl
  | cons hblanks htoken _ ih =>
    obtain ⟨hfirst, hrest⟩ := htoken.nextToken_eq hblanks hc
    rw [Cursor.tokens, hfirst, if_neg htoken.kind_ne, ih hrest]

lemma exists_blanks (n : Nat) (cs : List Char) (hn : cs.length ≤ n) :
    ∃ u rest, cs = u ++ rest ∧ IsBlanks u ∧ Starts rest := by
  induction n generalizing cs with
  | zero =>
    obtain rfl := List.eq_nil_of_length_eq_zero (Nat.le_zero.1 hn)
    exact ⟨[], [], rfl, .nil, ⟨nofun, nofun⟩⟩
  | succ n ih =>
    cases cs with
    | nil => exact ⟨[], [], rfl, .nil, ⟨nofun, nofun⟩⟩
    | cons x cs =>
      rw [List.length_cons] at hn
      by_cases hx : isBlank x = true
      · obtain ⟨u, rest, rfl, hu, hrest⟩ := ih cs (by omega)
        exact ⟨x :: u, rest, rfl, .blank hx hu, hrest⟩
      by_cases hcomment : x = '{' ∧ '}' ∈ cs
      · obtain ⟨rfl, hclosed⟩ := hcomment
        obtain ⟨inside, after, rfl, hinside⟩ := List.eq_append_cons_of_mem hclosed
        obtain ⟨u, rest, rfl, hu, hrest⟩ := ih after (by simp at hn; omega)
        exact ⟨_, rest, by simp, .comment hinside hu, hrest⟩
      · refine ⟨[], x :: cs, rfl, .nil, ?_, ?_⟩
        · rintro y ⟨⟩
          simpa using hx
        · rintro v ⟨⟩ hclosed
          exact hcomment ⟨rfl, hclosed⟩

lemma exists_span {p : Char → Bool} (hx : p x = true) (cs : List Char) :
    ∃ w rest, x :: cs = w ++ rest ∧ w ≠ [] ∧ (∀ y ∈ w, p y = true) ∧
      ∀ y ∈ rest.head?, p y = false := by
  refine ⟨(x :: cs).takeWhile p, (x :: cs).dropWhile p, List.takeWhile_append_dropWhile.symm, ?_,
    List.all_eq_true.1 List.all_takeWhile, ?_⟩
  · rw [List.takeWhile_cons_of_pos hx]
    exact List.cons_ne_nil _ _
  · intro y hy
    have hnot := List.head?_dropWhile_not p (x :: cs)
    rw [hy] at hnot
    simpa using hnot

lemma exists_number (hx : isDigit x = true) (cs : List Char) :
    ∃ t w rest, x :: cs = w ++ rest ∧ IsToken t w rest := by
  obtain ⟨w, rest, hcs, hne, hw, hrest⟩ := exists_span hx cs
  rw [hcs]
  by_cases hfraction : ∃ y after, rest = '.' :: y :: after ∧ isDigit y = true
  · obtain ⟨y, after, rfl, hy⟩ := hfraction
    obtain ⟨fraction, rest', hafter, hne', hfraction, hrest'⟩ := exists_span hy after
    refine ⟨_, w ++ '.' :: fraction, rest', ?_, .real hne hw hne' hfraction hrest'⟩
    rw [hafter, List.append_assoc, List.cons_append]
  · refine ⟨_, w, rest, rfl, .integer hne hw hrest ?_⟩
    intro y after hafter
    by_cases hy : isDigit y = true
    · exact absurd ⟨y, after, hafter, hy⟩ hfraction
    · simpa using hy

lemma exists_isToken {cs : List Char} (hne : cs ≠ []) (h : Starts cs) :
    ∃ t w rest, cs = w ++ rest ∧ IsToken t w rest := by
  obtain ⟨x, rest, rfl⟩ := List.exists_cons_of_ne_nil hne
  by_cases hdouble : ∃ y ∈ rest.head?, ∃ kind, doubleSigns.lookup (x, y) = some kind
  · obtain ⟨y, hy, kind, hkind⟩ := hdouble
    obtain ⟨rest', rfl⟩ := List.head?_eq_some_iff.1 hy
    exact ⟨_, [x, y], rest', rfl, .doubleSign hkind⟩
  have hdouble' : ∀ y ∈ rest.head?, doubleSigns.lookup (x, y) = none := by
    intro y hy
    rw [Option.eq_none_iff_forall_ne_some]
    intro kind hkind
    exact hdouble ⟨y, hy, kind, hkind⟩
  cases hsign : signs.lookup x with
  | some kind => exact ⟨_, [x], rest, rfl, .sign hsign hdouble'⟩
  | none =>
    by_cases hbrace : x = '{'
    · subst hbrace
      exact ⟨_, _, [], (List.append_nil _).symm, .openComment (h.comment rest rfl)⟩
    by_cases hquote : x = '"'
    · subst hquote
      by_cases hclosed : '"' ∈ rest
      · obtain ⟨w, after, rfl, hw⟩ := List.eq_append_cons_of_mem hclosed
        exact ⟨_, _, after, by simp, .text hw⟩
      · exact ⟨_, _, [], (List.append_nil _).symm, .openText hclosed⟩
    by_cases hdigit : isDigit x = true
    · exact exists_number hdigit rest
    by_cases hletter : isLetter x = true
    · obtain ⟨w, rest', hcs, hne, hw, hrest⟩ := exists_span hletter rest
      exact ⟨_, w, rest', hcs, .word hne hw hrest⟩
    refine ⟨_, [x], rest, rfl, .unknown ?_ hdouble'⟩
    have hblank := h.blank x rfl
    rw [Bool.not_eq_true] at hdigit hletter
    simp only [isUnknown, hsign, hletter, hdigit, hblank, Option.isNone_none, Bool.not_false,
      Bool.and_true, Bool.true_and, Bool.and_eq_true, bne_iff_ne]
    exact ⟨hbrace, hquote⟩

lemma exists_splits (n : Nat) (cs : List Char) (hn : cs.length ≤ n) : ∃ ts, Splits cs ts := by
  induction n generalizing cs with
  | zero =>
    obtain rfl := List.eq_nil_of_length_eq_zero (Nat.le_zero.1 hn)
    exact ⟨[], .nil .nil⟩
  | succ n ih =>
    obtain ⟨u, rest, rfl, hu, hrest⟩ := exists_blanks cs.length cs (Nat.le_refl _)
    by_cases hnil : rest = []
    · subst hnil
      rw [List.append_nil]
      exact ⟨[], .nil hu⟩
    · obtain ⟨t, w, rest', rfl, htoken⟩ := exists_isToken hnil hrest
      have hlength := List.length_pos_iff.2 htoken.ne_nil
      obtain ⟨ts, hts⟩ := ih rest' (by simp at hn; omega)
      exact ⟨t :: ts, .cons hu htoken hts⟩

theorem splits_iff_scan {source : String} {ts : List Token} :
    Splits source.toList ts ↔ Token.scan source = ts := by
  constructor
  · intro h
    exact h.tokens_eq rfl
  · rintro rfl
    obtain ⟨ts, hts⟩ := exists_splits source.toList.length source.toList (Nat.le_refl _)
    have heq : Token.scan source = ts := hts.tokens_eq rfl
    rw [heq]
    exact hts

end Lexical

end MiniPascal
