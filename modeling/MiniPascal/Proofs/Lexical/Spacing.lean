import MiniPascal.Proofs.Lexical.Append
import MiniPascal.Proofs.Lexical.Layout
import MiniPascal.Proofs.Lexical.Spelling

namespace MiniPascal

namespace Lexical

variable {a b g lead rest w : List Char} {t : Token} {ts us : List Token} {p : Piece}
  {ps qs : List Piece}

lemma Splits.unique (h : Splits a ts) (h' : Splits a us) : ts = us := by
  rw [← h.tokens_eq (c := .ofList a) rfl, h'.tokens_eq (c := .ofList a) rfl]

lemma IsBlanks.head_mem_separators (hg : IsBlanks g) (hne : g ≠ []) :
    ∀ y ∈ (g ++ b).head?, y ∈ separators := by
  cases hg with
  | nil => exact absurd rfl hne
  | @blank x _ hx _ =>
    rintro y ⟨⟩
    simp only [isBlank, Bool.or_eq_true, beq_iff_eq] at hx
    rcases hx with ((rfl | rfl) | rfl) | rfl <;> decide
  | comment _ _ =>
    rintro y ⟨⟩
    decide

namespace IsToken

lemma of_append (h : IsToken t w (rest ++ b)) : IsToken t w rest := by
  have hhead : ∀ y ∈ rest.head?, y ∈ (rest ++ b).head? := by
    intro y hy
    rw [List.head?_append, hy]
    rfl
  generalize hr : rest ++ b = r at h hhead
  cases h with
  | word hne hw hrest => exact .word hne hw fun y hy => hrest y (hhead y hy)
  | integer hne hw hrest hfraction =>
    refine .integer hne hw (fun y hy => hrest y (hhead y hy)) fun x after hafter => ?_
    exact hfraction x (after ++ b) (by rw [← hr, hafter, List.cons_append, List.cons_append])
  | real hne hw hne' hf hrest => exact .real hne hw hne' hf fun y hy => hrest y (hhead y hy)
  | text hw => exact .text hw
  | doubleSign h => exact .doubleSign h
  | sign h hrest => exact .sign h fun y hy => hrest y (hhead y hy)
  | unknown h hrest => exact .unknown h fun y hy => hrest y (hhead y hy)
  | openText hw =>
    rw [(List.append_eq_nil_iff.1 hr).1]
    exact .openText hw
  | openComment hw =>
    rw [(List.append_eq_nil_iff.1 hr).1]
    exact .openComment hw

lemma not_isUnclosed (h : IsToken t w rest) (hrest : rest ≠ []) : ¬ t.IsUnclosed := by
  have hsigns : ∀ kind ∈ TokenKind.signKinds, kind ≠ .illegal := by decide
  rintro ⟨hkind, x, hx, hmem⟩
  cases h with
  | word _ _ _ =>
    exact absurd hkind (ofWord_ne _ (by decide : TokenKind.illegal ≠ .identifier) (by decide))
  | doubleSign h => exact hsigns _ (kind_mem_signKinds' h) hkind
  | sign h _ => exact hsigns _ (kind_mem_signKinds h) hkind
  | @unknown y _ h _ =>
    obtain rfl : y = x := by simpa using hx
    simp only [List.mem_cons, List.not_mem_nil, or_false] at hmem
    rcases hmem with rfl | rfl <;> exact absurd h (by decide)
  | openText _ => exact hrest rfl
  | openComment _ => exact hrest rfl
  | _ => cases hkind

end IsToken

lemma join_eq (lead : List Char) (ps : List Piece) : join lead ps = lead ++ join [] ps := by
  cases ps with
  | nil => exact (List.append_nil lead).symm
  | cons p rest => rfl

def Piece.last (p : Piece) : Piece := { p with gap := [] }

lemma join_append (lead : List Char) (ps : List Piece) (p : Piece) (qs : List Piece) :
    join lead (ps ++ p :: qs) = join lead (ps ++ [p.last]) ++ (p.gap ++ join [] qs) := by
  induction ps generalizing lead with
  | nil =>
    change lead ++ (p.text ++ join p.gap qs) = lead ++ (p.text ++ []) ++ (p.gap ++ join [] qs)
    rw [join_eq p.gap, List.append_nil, List.append_assoc]
  | cons q ps ih => simp only [List.cons_append, join, ih, List.append_assoc]

namespace Laid

lemma left (h : Laid lead (ps ++ p :: qs)) : Laid lead (ps ++ [p.last]) := by
  induction ps generalizing lead with
  | nil =>
    obtain ⟨hlead, htoken, -⟩ := h
    exact ⟨hlead, htoken.of_append (b := join p.gap qs), .nil⟩
  | cons q ps ih =>
    obtain ⟨hlead, htoken, hrest⟩ := h
    rw [List.append_eq, join_append] at htoken
    exact ⟨hlead, htoken.of_append, ih hrest⟩

lemma right (h : Laid lead (ps ++ p :: qs)) : Laid [] qs := by
  induction ps generalizing lead with
  | nil =>
    obtain ⟨-, -, hrest⟩ := h
    cases qs with
    | nil => exact .nil
    | cons q qs => exact ⟨.nil, hrest.2⟩
  | cons q ps ih => exact ih h.2.2

lemma join_ne_nil (h : Laid lead ps) (hne : ps ≠ []) : join lead ps ≠ [] := by
  cases ps with
  | nil => exact absurd rfl hne
  | cons p rest => simp [join, h.2.1.ne_nil]

lemma closed (h : Laid lead (ps ++ qs)) (hne : qs ≠ []) :
    ∀ t ∈ ps.map Piece.token, ¬ t.IsUnclosed := by
  induction ps generalizing lead with
  | nil => exact nofun
  | cons p ps ih =>
    obtain ⟨-, htoken, hrest⟩ := h
    have hbehind : join p.gap (ps ++ qs) ≠ [] := hrest.join_ne_nil (by simp [hne])
    exact List.forall_mem_cons.2 ⟨htoken.not_isUnclosed hbehind, ih hrest⟩

end Laid

/-- Between two tokens of a source another gap is put, which is not empty. -/
inductive Respaced : List Char → List Char → Prop
  | gap {lead g : List Char} {ps qs : List Piece} {p : Piece} :
    Laid lead (ps ++ p :: qs) → qs ≠ [] → IsBlanks g → g ≠ [] →
    Respaced (join lead (ps ++ p :: qs)) (join lead (ps ++ { p with gap := g } :: qs))

lemma Respaced.exists_splits (h : Respaced a b) : ∃ ts, Splits a ts ∧ Splits b ts := by
  cases h with
  | @gap lead g ps qs p hlaid hne hg hgne =>
    refine ⟨_, hlaid.splits, ?_⟩
    -- What stands up to `p` is a source of its own; no token in it is cut short by its end.
    have hclosed : ∀ t ∈ (ps ++ [p.last]).map Piece.token, ¬ t.IsUnclosed := by
      have happend : Laid lead ((ps ++ [p]) ++ qs) := by rwa [List.append_assoc]
      simpa [Piece.last] using happend.closed hne
    have hsplits := hlaid.left.splits.append hclosed (.inl (hg.head_mem_separators hgne))
      (hlaid.right.splits.blanks hg)
    rw [join_append]
    simpa [Piece.last] using hsplits

lemma Respaced.splits (h : Relation.ReflTransGen Respaced a b) (ha : Splits a ts) :
    Splits b ts := by
  induction h with
  | refl => exact ha
  | tail _ hstep ih =>
    obtain ⟨us, hb, hc⟩ := hstep.exists_splits
    rwa [ih.unique hb]

end Lexical

/-- Sources with a gap between them have the tokens of both; and in a source the gaps between tokens
may be made wider, replaced, or made smaller as long as something is left of them. -/
theorem Token.scan_respaced :
    (∀ a gap b : String, (∀ t ∈ scan a, ¬ t.IsUnclosed) → Lexical.IsBlanks gap.toList → gap ≠ "" →
      scan (a ++ gap ++ b) = scan a ++ scan b) ∧
    ∀ source source' : String,
      Relation.ReflTransGen Lexical.Respaced source.toList source'.toList →
        scan source' = scan source := by
  constructor
  · intro a gap b ha hgap hne
    have hne' : gap.toList ≠ [] := by simpa using hne
    have hblanks : scan (gap ++ b) = scan b := by
      rw [← Lexical.splits_iff_scan, String.toList_append]
      exact (Lexical.splits_iff_scan.2 rfl).blanks hgap
    rw [String.append_assoc, scan_append ha, hblanks]
    rw [String.toList_append]
    exact .inl (hgap.head_mem_separators hne')
  · intro source source' h
    exact Lexical.splits_iff_scan.1 (Lexical.Respaced.splits h (Lexical.splits_iff_scan.2 rfl))

namespace Lexical

def assignment (g : List Char) : List Piece :=
  [⟨⟨.identifier, "x"⟩, ['x'], g⟩, ⟨⟨.assign, ":="⟩, [':', '='], ['{', 'a', '}']⟩,
    ⟨⟨.integer, "1"⟩, ['1'], []⟩]

lemma laid_assignment (hg : IsBlanks g) (hhead : ∀ y ∈ (g ++ [':']).head?, isLetter y = false) :
    Laid [] (assignment g) := by
  have hone : IsToken ⟨.integer, "1"⟩ ['1'] [] :=
    IsToken.integer (w := ['1']) nofun (List.forall_mem_singleton.2 rfl) nofun nofun
  refine ⟨.nil, IsToken.word (w := ['x']) nofun (List.forall_mem_singleton.2 rfl) ?_, hg,
    .doubleSign rfl, .comment (by decide : '}' ∉ ['a']) .nil, hone, .nil⟩
  cases g <;> exact hhead

end Lexical

theorem Token.scan_respaced_assignment :
    ((∀ t ∈ scan "= 1.", ¬ t.IsUnclosed) ∧ Lexical.IsBlanks "\x7bc\x7d\n".toList ∧
      "\x7bc\x7d\n" ≠ "" ∧ scan ("= 1." ++ "\x7bc\x7d\n" ++ "5") = scan "= 1." ++ scan "5") ∧
    Relation.ReflTransGen Lexical.Respaced "x:=\x7ba\x7d1".toList "x\n:= 1".toList ∧
      scan "x\n:= 1" = scan "x:=\x7ba\x7d1" := by
  have hclosed : ∀ t ∈ scan "= 1.", ¬ t.IsUnclosed := by
    have hscan : scan "= 1." = [⟨.illegal, "="⟩, ⟨.integer, "1"⟩, ⟨.illegal, "."⟩] := by cbv
    rw [hscan]
    simp [IsUnclosed]
  have hblanks : Lexical.IsBlanks "\x7bc\x7d\n".toList :=
    .comment (by decide : '}' ∉ ['c']) (.blank rfl .nil)
  have hlaid := Lexical.laid_assignment .nil (by rintro y ⟨⟩; rfl)
  have hlaid' := Lexical.laid_assignment (g := ['\n']) (.blank rfl .nil) (by rintro y ⟨⟩; rfl)
  have hfirst : Lexical.Respaced "x:=\x7ba\x7d1".toList "x\n:=\x7ba\x7d1".toList :=
    @Lexical.Respaced.gap [] ['\n'] [] _ _ hlaid (by decide) (.blank rfl .nil) (by decide)
  have hsecond : Lexical.Respaced "x\n:=\x7ba\x7d1".toList "x\n:= 1".toList :=
    @Lexical.Respaced.gap [] [' '] [_] _ _ hlaid' (by decide) (.blank rfl .nil) (by decide)
  have hpath := Relation.ReflTransGen.tail (.single hfirst) hsecond
  exact ⟨⟨hclosed, hblanks, by decide, scan_respaced.1 _ _ _ hclosed hblanks (by decide)⟩, hpath,
    scan_respaced.2 _ _ hpath⟩

end MiniPascal
