import MiniPascal.Proofs.Reading.Parts
/-! Composed readers go on in their course. -/

namespace MiniPascal

open Token

namespace Reading

variable {α β : Type} {final : Prop} {δ : ℤ} {n : ℕ}

lemma depth_of_ne_end {t : Token} (h : t.kind ≠ .endWord) : depth [t] = openings [t] := by
  simp [depth, closings, h]

lemma Course.behind_token {t : Token} {k ts : List Token} {x y : Attempt α}
    (h : Course final (δ - openings [t]) k ts x y) (ht : t.kind ≠ .endWord) :
    Course final δ k (t :: ts) x y := by
  change Course final δ k ([t] ++ ts) x y
  exact h.behind (Int.le_refl _) (fun _ => depth_of_ne_end ht) (add_sub_cancel _ _)

namespace Continues

lemma refuse (error : TokenKind → ParseError) :
    Continues final δ n (Reading.refuse (α := α) error) where
  course p k _ hp := by
    obtain ⟨last, _ | ⟨t, rest⟩⟩ := p
    · exact absurd rfl hp.ne_nil
    · exact .fails [] rfl hp
  ended _ hlast := ⟨rfl, hlast⟩

lemma peek {accept : Token → Option (Place → Attempt α)} {leave : Place → Attempt α}
    (hstops : ∀ t f, accept t = some f → t.kind ∉ stops)
    (hsemicolon : ∀ t f, accept t = some f → t.kind = .semicolon →
      final ∧ δ = 0 ∧ ∃ a, f = fun p => .done a p)
    (haccept : ∀ m < n, ∀ t f, accept t = some f → t.kind ≠ .semicolon →
      Continues final (δ - openings [t]) m f)
    (hleave : Continues final δ n leave) : Continues final δ n (Reading.peek accept leave) where
  course p k hn hp := by
    obtain ⟨last, _ | ⟨t, rest⟩⟩ := p
    · exact absurd rfl hp.ne_nil
    simp only [Place.extend, List.cons_append]
    cases hf : accept t with
    | none =>
      rw [peek_none hf, peek_none hf]
      exact hleave.course ⟨last, t :: rest⟩ k hn hp
    | some f =>
      rw [peek_some hf, peek_some hf]
      by_cases hkind : t.kind = .semicolon
      · obtain ⟨hfinal, rfl, a, rfl⟩ := hsemicolon t f hf hkind
        obtain rfl : final = True := eq_true hfinal
        obtain ⟨kind, s⟩ := t
        obtain rfl : kind = .semicolon := hkind
        exact .semicolon hp
      · have hend : t.kind ≠ .endWord := fun h => hstops t f hf (by rw [h]; decide)
        exact ((haccept (rest.length + 1) hn t f hf hkind).course ⟨t.kind, rest⟩ k
          (Nat.lt_succ_self _) (hp.tail_of_ne hkind)).behind_token hend
  ended last hlast := hleave.ended last hlast

lemma take {accept : Token → Place → Attempt α}
    (haccept : ∀ m < n, ∀ t, t.kind ∈ Expr.operandKinds → Continues final 0 m (accept t)) :
    Continues final 0 n (Reading.take accept) where
  course p k hn hp := by
    obtain ⟨last, _ | ⟨t, rest⟩⟩ := p
    · exact absurd rfl hp.ne_nil
    simp only [Place.extend, List.cons_append, Reading.take]
    split
    · next ht =>
      obtain ⟨hstops, hopen, hne⟩ := Expr.isSign_operandKinds t.kind ht
      have hend : t.kind ≠ .endWord := fun h => hstops (by rw [h]; decide)
      have hcourse := (haccept (rest.length + 1) hn t ht).course ⟨t.kind, rest⟩ k
        (Nat.lt_succ_self _) (hp.tail_of_ne hne)
      apply Course.behind_token _ hend
      rw [openings_of_not_mem hopen]
      exact hcourse
    · exact .refused hp
  ended _ _ := ⟨rfl, (by decide : TokenKind.endOfInput ≠ .semicolon)⟩

lemma map {x : Place → Reading α} (f : α → β) (hx : Continues False δ n fun p => (x p).sure) :
    Continues False δ n fun p => ((x p).andThen fun a p => ⟨f a, p, []⟩).sure :=
  hx.onSuccess (fun a => .done (f a)) (Int.le_refl 0) (Int.add_zero δ)

end Continues

end Reading

open Reading

namespace Stmt

variable {n : ℕ} {t : Token} {rest k : List Token} {q : Place} {fs : List Failure}

lemma course_of_reader {g : Place → Attempt Stmt} (hg : Continues True (-openings [t]) n g)
    (hread : ∀ ts, read t ts = g ⟨t.kind, ts⟩) (hn : rest.length < n)
    (hp : Terminated (t :: rest)) :
    Course True 0 k (t :: rest) (read t rest) (read t (rest ++ k)) := by
  by_cases hkind : t.kind = .semicolon ∨ t.kind = .endWord
  · have hword : t.kind ∉ wordKinds := by
      rcases hkind with h | h <;> rw [h] <;> decide
    have hoperand : t.kind ∉ Expr.operandKinds := by
      rcases hkind with h | h <;> rw [h] <;> decide
    rw [read_refused hword hoperand, read_refused hword hoperand]
    exact .refused hp
  · obtain ⟨hsemicolon, hend⟩ := not_or.1 hkind
    rw [hread, hread]
    apply Course.behind_token _ hend
    rw [Int.zero_sub]
    exact hg.course ⟨t.kind, rest⟩ k hn (hp.tail_of_ne hsemicolon)

end Stmt

end MiniPascal
