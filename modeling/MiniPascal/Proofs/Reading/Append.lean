import MiniPascal.Proofs.Reading.Steady
/-! Programs one after the other. -/

namespace MiniPascal

open Token Reading

lemma Within.isLast_eq_false {inBlock : Bool} {t : Token} (hinput : t.kind ≠ .endOfInput)
    (hend : inBlock = true → t.kind ≠ .endWord) : isLast inBlock t.kind = false := by
  cases inBlock <;> simp_all [isLast]

namespace Place

variable {p : Place} {ts k : List Token}

lemma skipStatement_suffix (ts : List Token) : skipStatement ts <:+ ts := by
  induction ts with
  | nil => exact List.suffix_refl []
  | cons t rest ih =>
    rw [skipStatement]
    split
    · exact List.suffix_refl _
    split
    · exact List.suffix_cons t rest
    · exact ih.trans (List.suffix_cons t rest)

lemma skipStatement_append (hts : Terminated ts) :
    skipStatement (ts ++ k) = skipStatement ts ++ k := by
  induction ts with
  | nil => exact absurd rfl hts.ne_nil
  | cons t rest ih =>
    rw [List.cons_append, skipStatement, skipStatement]
    split
    · rfl
    split
    · rfl
    · next ht => exact ih (hts.tail_of_ne ht)

lemma recover_suffix (p : Place) : p.recover <:+ p.unread := by
  rw [recover]
  split
  · exact List.suffix_refl _
  · exact skipStatement_suffix _

lemma recover_nil (last : TokenKind) : recover ⟨last, []⟩ = [] :=
  List.suffix_nil.1 (recover_suffix ⟨last, []⟩)

lemma recover_extend (hp : Terminated p.unread ∨ p = ⟨.semicolon, []⟩) :
    (p.extend k).recover = p.recover ++ k := by
  rcases hp with hp | rfl
  · rw [recover, recover, extend]
    split
    · rfl
    · exact skipStatement_append hp
  · rfl

lemma terminated_recover (hp : Terminated p.unread ∨ p = ⟨.semicolon, []⟩) :
    p.recover = [] ∨ Terminated p.recover := by
  rcases hp with hp | rfl
  · by_cases hnil : p.recover = []
    · exact .inl hnil
    · obtain ⟨skipped, hskipped⟩ := p.recover_suffix
      rw [← hskipped] at hp
      exact .inr (hp.right hnil)
  · exact .inl (recover_nil _)

end Place

lemma Failure.map_extend_concat (k : List Token) (fs : List Failure) (e : ParseError)
    (q : Place) :
    (fs ++ [Failure.mk e q]).map (extend k) = fs.map (extend k) ++ [⟨e, q.extend k⟩] := by
  simp [extend]

namespace Stmt

variable {inBlock : Bool} {t : Token} {rest : List Token} {q : Place} {fs : List Failure}

lemma readMany_of_ok {s : Stmt} (ht : Within.isLast inBlock t.kind = false)
    (hread : read t rest = ⟨.ok s, q, fs⟩) :
    readMany inBlock (t :: rest) =
      ((readMany inBlock q.unread).andThen fun others p => ⟨s :: others, p, []⟩).after fs := by
  rw [readMany_cons inBlock t rest ht, hread]
  simp [andThen, after]

lemma readMany_of_error {e : ParseError} (ht : Within.isLast inBlock t.kind = false)
    (hread : read t rest = ⟨.error e, q, fs⟩) :
    readMany inBlock (t :: rest) = (readMany inBlock q.recover).after (fs ++ [⟨e, q⟩]) := by
  rw [readMany_cons inBlock t rest ht, hread]
  simp [andThen, after]

end Stmt

namespace Reading.Continues

lemma cut_of_end {k ts : List Token} {x y : Reading (List Stmt)}
    (hplace : x.place = ⟨.endOfInput, []⟩) (hclean : Clean x.sure → 0 ≤ depth ts) :
    Course False (-1) k ts x.sure y.sure := by
  refine .cut ?_ ?_ (by omega) fun hx => ?_
  · exact congrArg Place.unread hplace
  · exact (congrArg Place.last hplace).trans_ne (by decide)
  · have hle := hclean hx
    omega

variable {n : ℕ} {q : Place} {fs : List Failure} {t : Token} {rest k : List Token}

lemma stmts_of_ok {s : Stmt} (hmore : Continues False (-1) (rest.length + 1) stmts)
    (hkind : Within.isLast true t.kind = false) (hread : Stmt.read t rest = ⟨.ok s, q, fs⟩)
    (hcourse : Course True 0 k (t :: rest) (Stmt.read t rest) (Stmt.read t (rest ++ k))) :
    Course False (-1) k (t :: rest) (Stmt.readMany true (t :: rest)).sure
      (Stmt.readMany true (t :: (rest ++ k))).sure := by
  have hle := Stmt.length_read_le t rest
  rw [hread] at hcourse hle
  rw [Stmt.readMany_of_ok hkind hread]
  cases hcourse with
  | within used hts hend hy hle' hclean =>
    rw [Stmt.readMany_of_ok hkind hy, hts]
    have hothers := (hmore.map (List.cons s)).course q k (Nat.lt_succ_of_le hle) hend
    refine hothers.after.behind (hle' ⟨s, rfl⟩) (fun hx => hclean ?_) rfl
    obtain ⟨rfl, _⟩ := hx.of_after
    exact ⟨s, q, rfl⟩
  | whole hplace _ _ hclean =>
    obtain rfl : q = ⟨.semicolon, []⟩ := hplace
    rw [Stmt.readMany_nil]
    refine cut_of_end rfl fun hx => ?_
    obtain rfl := hx.of_sure_after
    exact Int.le_of_eq (hclean ⟨s, _, rfl⟩).symm
  | cut hunread _ _ hclean =>
    obtain ⟨last, unread⟩ := q
    obtain rfl : unread = [] := hunread
    rw [Stmt.readMany_nil]
    refine cut_of_end rfl fun hx => ?_
    obtain rfl := hx.of_sure_after
    exact Int.le_of_lt (hclean ⟨s, _, rfl⟩)

lemma stmts_of_error {e : ParseError} (hmore : Continues False (-1) (rest.length + 1) stmts)
    (hkind : Within.isLast true t.kind = false) (hread : Stmt.read t rest = ⟨.error e, q, fs⟩)
    (hcourse : Course True 0 k (t :: rest) (Stmt.read t rest) (Stmt.read t (rest ++ k))) :
    Course False (-1) k (t :: rest) (Stmt.readMany true (t :: rest)).sure
      (Stmt.readMany true (t :: (rest ++ k))).sure := by
  have hle := Stmt.length_read_le t rest
  rw [hread] at hcourse hle
  rw [Stmt.readMany_of_error hkind hread]
  have hfailed {x : Reading (List Stmt)} : ¬ Clean (x.after (fs ++ [⟨e, q⟩])).sure := by
    intro hx
    simpa using hx.of_sure_after
  by_cases hnil : q.recover = []
  · rw [hnil, Stmt.readMany_nil]
    exact cut_of_end rfl fun hx => absurd hx hfailed
  cases hcourse with
  | within used hts hend hy _ _ =>
    obtain ⟨skipped, hskipped⟩ := q.recover_suffix
    have hrecover := (Place.terminated_recover (.inl hend)).resolve_left hnil
    have hothers := hmore.course ⟨q.last, q.recover⟩ k
      (Nat.lt_succ_of_le (q.length_recover_le.trans hle)) hrecover
    rw [Stmt.readMany_of_error hkind hy, Place.recover_extend (.inl hend), hts, ← hskipped,
      ← List.append_assoc, ← Failure.map_extend_concat]
    exact hothers.after.behind (Int.natCast_nonneg _) (fun hx => absurd hx hfailed) rfl
  | whole hplace _ _ _ =>
    obtain rfl : q = ⟨.semicolon, []⟩ := hplace
    exact absurd (Place.recover_nil _) hnil
  | cut hunread _ _ _ =>
    obtain ⟨last, unread⟩ := q
    obtain rfl : unread = [] := hunread
    exact absurd (Place.recover_nil _) hnil

lemma stmts {f : Token → Place → Attempt Stmt}
    (hread : ∀ t, t.kind ≠ .endOfInput → ∀ ts, Stmt.read t ts = f t ⟨t.kind, ts⟩)
    (hstmt : ∀ m < n, ∀ t, t.kind ≠ .endOfInput → Continues True (-openings [t]) m (f t))
    (hmore : ∀ m < n, Continues False (-1) m Reading.stmts) :
    Continues False (-1) n Reading.stmts where
  course p k hn hp := by
    obtain ⟨last, _ | ⟨t, rest⟩⟩ := p
    · exact absurd rfl hp.ne_nil
    simp only [Place.extend, List.cons_append, Reading.stmts]
    have hinput : t.kind ≠ .endOfInput := hp.endless t List.mem_cons_self
    cases hkind : Within.isLast true t.kind with
    | true =>
      have hend : t.kind = .endWord := by simpa [Within.isLast, hinput] using hkind
      obtain ⟨kind, s⟩ := t
      obtain rfl : kind = .endWord := hend
      rw [Stmt.readMany_last true _ _ hkind, Stmt.readMany_last true _ _ hkind]
      exact .succeeds [_] rfl (hp.tail_of_ne (by simp)) rfl
    | false =>
      have hcourse := Stmt.course_of_reader (k := k) (hstmt (rest.length + 1) hn t hinput)
        (hread t hinput) (Nat.lt_succ_self _) hp
      generalize hresult : Stmt.read t rest = x
      obtain ⟨value, q, fs⟩ := x
      cases value with
      | ok s => exact stmts_of_ok (hmore _ hn) hkind hresult hcourse
      | error e => exact stmts_of_error (hmore _ hn) hkind hresult hcourse
  ended last _ := by
    rw [Reading.stmts, Stmt.readMany_nil]
    exact ⟨rfl, (by decide : TokenKind.endOfInput ≠ .semicolon)⟩

end Reading.Continues

lemma Reading.Composed.continues {α : Type} {final : Prop} {δ : ℤ} {n : ℕ}
    {g : Place → Attempt α} (h : Composed final δ n g) : Continues final δ n g := by
  induction h with
  | done a => exact .done a
  | fail e => exact .fail e
  | refuse error => exact .refuse error
  | onSuccess _ _ hε hsum ihg ihf => exact ihg.onSuccess ihf hε hsum
  | peek hstops hsemicolon _ _ ihaccept ihleave =>
    exact .peek hstops hsemicolon ihaccept ihleave
  | take _ ih => exact .take ih
  | stmts hread _ _ ihstmt ihmore => exact .stmts hread ihstmt ihmore

lemma Stmt.course_read {t : Token} {rest : List Token} (k : List Token)
    (hp : Terminated (t :: rest)) :
    Course True 0 k (t :: rest) (read t rest) (read t (rest ++ k)) := by
  obtain ⟨g, hg, hread⟩ :=
    (parts (rest.length + 1)).stmt (hp.endless t List.mem_cons_self)
  exact course_of_reader hg.continues hread (Nat.lt_succ_self _) hp

namespace Reading

def join (k : List Token) (x y : Reading (List Stmt)) : Reading (List Stmt) :=
  ⟨x.value ++ y.value, y.place, x.failures.map (Failure.extend k) ++ y.failures⟩

variable {k : List Token} {x y : Reading (List Stmt)} {fs : List Failure}

lemma join_nil (last : TokenKind) : join k ⟨[], ⟨last, []⟩, []⟩ y = y := rfl

lemma join_after : join k (x.after fs) y = (join k x y).after (fs.map (Failure.extend k)) := by
  simp [join, after]

lemma join_cons (s : Stmt) :
    join k (x.andThen fun others p => ⟨s :: others, p, []⟩) y =
      (join k x y).andThen fun others p => ⟨s :: others, p, []⟩ := by
  simp [join, andThen]

end Reading

namespace Stmt

/-- Tokens that leave no block open: no block begins in them, or they are read without failures and
close as many blocks as they open. -/
def Settled (inBlock : Bool) (ts : List Token) : Prop :=
  openings ts = 0 ∨ (readMany inBlock ts).failures = [] ∧ depth ts = 0

variable {inBlock : Bool} {t : Token} {ts rest k used : List Token} {q : Place}
  {fs : List Failure}

namespace Settled

lemma of_ok {s : Stmt} (h : Settled inBlock (t :: rest))
    (ht : Within.isLast inBlock t.kind = false) (hread : read t rest = ⟨.ok s, q, fs⟩)
    (hts : t :: rest = used ++ q.unread)
    (hused : Clean (⟨.ok s, q, fs⟩ : Attempt Stmt) → depth used = 0) :
    Settled inBlock q.unread := by
  rcases h with h | ⟨hfailures, hdepth⟩
  · rw [hts, openings_append] at h
    exact .inl (by omega)
  · rw [readMany_of_ok ht hread] at hfailures
    simp only [after, andThen, List.append_eq_nil_iff] at hfailures
    obtain ⟨rfl, hothers, _⟩ := hfailures
    rw [hts, depth_append, hused ⟨s, q, rfl⟩, Int.zero_add] at hdepth
    exact .inr ⟨hothers, hdepth⟩

lemma openings_eq_zero {e : ParseError} (h : Settled inBlock (t :: rest))
    (ht : Within.isLast inBlock t.kind = false) (hread : read t rest = ⟨.error e, q, fs⟩) :
    openings (t :: rest) = 0 := by
  rcases h with h | ⟨hfailures, _⟩
  · exact h
  · rw [readMany_of_error ht hread] at hfailures
    simp [after] at hfailures

lemma exists_used (h : Settled inBlock (t :: rest)) (ht : Within.isLast inBlock t.kind = false)
    {x y : Attempt Stmt} (hread : read t rest = x) (hcourse : Course True 0 k (t :: rest) x y) :
    y = x.extend k ∧ (Terminated x.place.unread ∨ x.place = ⟨.semicolon, []⟩) ∧
      ∃ used, t :: rest = used ++ x.place.unread ∧ (Clean x → depth used = 0) := by
  cases hcourse with
  | within used hts hend hy _ hclean => exact ⟨hy, .inl hend, used, hts, hclean⟩
  | whole hplace hy _ hclean =>
    refine ⟨hy, .inr hplace, t :: rest, ?_, hclean⟩
    rw [hplace, List.append_nil]
  | cut _ _ hopen hclean =>
    rcases h with h | ⟨hfailures, hdepth⟩
    · omega
    obtain ⟨value, q, fs⟩ := x
    cases value with
    | error e =>
      rw [readMany_of_error ht hread] at hfailures
      simp [after] at hfailures
    | ok s =>
      rw [readMany_of_ok ht hread] at hfailures
      simp only [after, andThen, List.append_eq_nil_iff] at hfailures
      obtain ⟨rfl, _⟩ := hfailures
      have hlt := hclean ⟨s, q, rfl⟩
      omega

end Settled

-- Goes through settled tokens statement by statement: behind one that is read, and behind what is
-- left out after one that fails, the tokens are settled again, and no later tokens matter.
lemma Settled.induction {motive : List Token → Prop} (nil : motive [])
    (ok : ∀ {t rest s q fs}, Within.isLast inBlock t.kind = false →
      read t rest = ⟨.ok s, q, fs⟩ → (∀ k, read t (rest ++ k) = extend k ⟨.ok s, q, fs⟩) →
      motive q.unread → motive (t :: rest))
    (error : ∀ {t rest e q fs}, Within.isLast inBlock t.kind = false →
      read t rest = ⟨.error e, q, fs⟩ → (∀ k, read t (rest ++ k) = extend k ⟨.error e, q, fs⟩) →
      (∀ k, (q.extend k).recover = q.recover ++ k) → motive q.recover → motive (t :: rest))
    (hts : ts = [] ∨ Terminated ts) (hlast : ∀ t ∈ ts, Within.isLast inBlock t.kind = false)
    (h : Settled inBlock ts) : motive ts := by
  induction hn : ts.length using Nat.strongRecOn generalizing ts with
  | ind n ih =>
    cases ts with
    | nil => exact nil
    | cons t rest =>
      replace hts : Terminated (t :: rest) := hts.resolve_left (List.cons_ne_nil t rest)
      have ht := hlast t List.mem_cons_self
      have hcourse k := course_read k hts
      have hle := length_read_le t rest
      generalize hread : read t rest = x at hcourse hle
      have hlater k : read t (rest ++ k) = x.extend k := (h.exists_used ht hread (hcourse k)).1
      obtain ⟨_, hq, used, hused, hclean⟩ := h.exists_used ht hread (hcourse [])
      obtain ⟨value, q, fs⟩ := x
      dsimp only at hle hused
      simp only [List.length_cons] at hn
      cases value with
      | ok s =>
        refine ok ht hread hlater ?_
        refine ih q.unread.length (by omega) ?_ ?_ (h.of_ok ht hread hused hclean) rfl
        · exact hq.symm.imp_left (congrArg Place.unread)
        · intro u hu
          rw [hused] at hlast
          exact hlast u (List.mem_append_right used hu)
      | error e =>
        obtain ⟨skipped, hskipped⟩ := q.recover_suffix
        have hlength := q.length_recover_le
        have hopen := h.openings_eq_zero ht hread
        rw [hused, ← hskipped, openings_append, openings_append] at hopen
        refine error ht hread hlater (fun k => Place.recover_extend hq) ?_
        refine ih q.recover.length (by omega) (Place.terminated_recover hq) ?_ (.inl (by omega)) rfl
        intro u hu
        rw [hused, ← hskipped] at hlast
        exact hlast u (List.mem_append_right used (List.mem_append_right skipped hu))

theorem readMany_append (hts : ts = [] ∨ Terminated ts)
    (hlast : ∀ t ∈ ts, Within.isLast inBlock t.kind = false) (h : Settled inBlock ts) :
    readMany inBlock (ts ++ k) = join k (readMany inBlock ts) (readMany inBlock k) := by
  refine Settled.induction
    (motive := fun ts => readMany inBlock (ts ++ k) = join k (readMany inBlock ts) _)
    ?_ ?_ ?_ hts hlast h
  · rw [List.nil_append, readMany_nil, join_nil]
  · intro t rest s q fs ht hread hlater ih
    rw [List.cons_append, readMany_of_ok ht hread, readMany_of_ok ht (hlater k), join_after,
      join_cons, ← ih]
    rfl
  · intro t rest e q fs ht hread hlater hrecover ih
    rw [List.cons_append, readMany_of_error ht hread, readMany_of_error ht (hlater k), join_after,
      Failure.map_extend_concat, hrecover, ih]

end Stmt

end MiniPascal
