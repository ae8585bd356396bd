import MiniPascal.Proofs.Reading.Progress
import MiniPascal.Proofs.Reading.Stray
/-! How reading goes on when an `end` or an end of input, and more tokens, stand behind a list. -/

namespace MiniPascal

open Token

def ParseError.before (t : Token) (e : ParseError) : ParseError :=
  if e.got = .endOfInput then e.onKind t.kind else e

def Failure.before (t : Token) (k : List Token) (f : Failure) : Failure :=
  ⟨f.error.before t, f.place.extend (t :: k)⟩

lemma ParseError.before_of_ne {e : ParseError} (t : Token) (h : e.got ≠ .endOfInput) :
    e.before t = e :=
  if_neg h

lemma ParseError.before_endOfInput {t : Token} (ht : t.kind = .endOfInput) (e : ParseError) :
    e.before t = e := by
  rw [before]
  split
  · next he =>
    rw [ht]
    cases e <;> simp_all [onKind, got]
  · rfl

namespace Place

def IsStop (kind : TokenKind) : Prop := kind = .endWord ∨ kind = .endOfInput

lemma IsStop.mem_stops {kind : TokenKind} (h : IsStop kind) : kind ∈ Reading.stops := by
  rcases h with rfl | rfl <;> decide

lemma IsStop.isLast {kind : TokenKind} (h : IsStop kind) : Within.isLast true kind = true := by
  rcases h with rfl | rfl <;> rfl

lemma skipStatement_stop {t : Token} {k : List Token} (ht : IsStop t.kind) :
    skipStatement (t :: k) = t :: k := by
  rw [skipStatement]
  exact if_pos ht

lemma skipStatement_before {t : Token} (ht : IsStop t.kind) (k ts : List Token) :
    skipStatement (ts ++ t :: k) = skipStatement ts ++ t :: k := by
  induction ts with
  | nil => exact skipStatement_stop ht
  | cons u rest ih =>
    rw [List.cons_append, skipStatement, skipStatement]
    split
    · rfl
    split
    · rfl
    · exact ih

lemma recover_before {t : Token} (ht : IsStop t.kind) (k : List Token) (p : Place) :
    (p.extend (t :: k)).recover = p.recover ++ t :: k := by
  rw [recover, recover, extend]
  split
  · rfl
  · exact skipStatement_before ht k p.unread

end Place

namespace Reading

open Place (atEnd IsStop)

variable {α β : Type}

def before (t : Token) (k : List Token) (x : Attempt α) : Attempt α :=
  ⟨x.value.mapError (ParseError.before t), x.place.extend (t :: k),
    x.failures.map (Failure.before t k)⟩

lemma before_after (t : Token) (k : List Token) (fs : List Failure) (x : Attempt α) :
    (x.after fs).before t k = (x.before t k).after (fs.map (Failure.before t k)) := by
  simp [before, after]

/-- What becomes of an attempt `x` at tokens `ts` when `t` stands behind them, and `k` behind that,
which gives `y`: it goes on as before, or it has used the end of the input for a token. -/
inductive Meets (δ : ℤ) (t : Token) (k ts : List Token) (x y : Attempt α) : Prop
  | apart (used : List Token) : ts = used ++ x.place.unread → x.place.last ≠ .endOfInput →
    y = x.before t k → ((∃ a, x.value = .ok a) → δ ≤ openings used) →
    (0 ≤ δ → openings used = 0 → x.failures = []) →
    x.value ≠ .error (.noOperand .endOfInput) → Meets δ t k ts x y
  | used : x.place = atEnd →
    (0 ≤ δ → openings ts = 0 →
      x = fail (.noOperand .endOfInput) atEnd ∧ y = fail (.noOperand t.kind) ⟨t.kind, k⟩) →
    (t.kind = .endOfInput → k = [stray] → Strays x y) → Meets δ t k ts x y

namespace Meets

variable {δ ε ζ : ℤ} {t : Token} {k ts : List Token} {x y : Attempt α}

lemma illegals_before (ht : t.kind = .endOfInput) (fs : List Failure) :
    illegals (fs.map (Failure.before t k)) = illegals fs := by
  simp [illegals, List.countP_map, Function.comp_def, Failure.before,
    ParseError.before_endOfInput ht]

lemma behind (used : List Token) (fs : List Failure) (h : Meets ε t k ts x y)
    (hle : δ ≤ openings used) (hsum : δ + ε = ζ) (hfs : 0 ≤ ζ → openings used = 0 → fs = []) :
    Meets ζ t k (used ++ ts) (x.after fs) (y.after (fs.map (Failure.before t k))) := by
  cases h with
  | apart used' hts hlast hy hle' hfailures hvalue =>
    refine .apart (used ++ used') ?_ hlast ?_ (fun hx => ?_) (fun hζ hopen => ?_) hvalue
    · rw [List.append_assoc]
      exact congrArg (used ++ ·) hts
    · rw [before_after, hy]
    · have hle' := hle' hx
      rw [openings_append]
      omega
    · rw [openings_append] at hopen
      simp only [Reading.after, List.append_eq_nil_iff]
      exact ⟨hfs hζ (by omega), hfailures (by omega) (by omega)⟩
  | used hplace hplain hstrays =>
    refine .used hplace (fun hζ hopen => ?_) fun ht hk => ?_
    · rw [openings_append] at hopen
      rw [hfs hζ (by omega)]
      exact hplain (by omega) (by omega)
    · exact (hstrays ht hk).after (illegals_before ht fs).ge

lemma behind_token {u : Token} (h : Meets (δ - openings [u]) t k ts x y) :
    Meets δ t k (u :: ts) x y :=
  behind [u] [] h (Int.le_refl _) (add_sub_cancel _ _) fun _ _ => rfl

end Meets

def Stops (δ : ℤ) (t : Token) (k : List Token) (n : ℕ) (g : Place → Attempt α) : Prop :=
  ∀ p, p.unread.length < n → (∀ u ∈ p.unread, u.kind ≠ .endOfInput) → p.last ≠ .endOfInput →
    Meets δ t k p.unread (g p) (g (p.extend (t :: k)))

namespace Stops

variable {δ ε ζ : ℤ} {t : Token} {k : List Token} {m n : ℕ} {g : Place → Attempt α}

lemma done (a : α) : Stops 0 t k n (Reading.done a) := by
  intro p _ _ hlast
  exact .apart [] rfl hlast rfl (fun _ => Int.le_refl 0) (fun _ _ => rfl) nofun

lemma fail {e : ParseError} (he : e.got ≠ .endOfInput) :
    Stops δ t k n (Reading.fail (α := α) e) := by
  intro p _ _ hlast
  refine .apart [] rfl hlast ?_ nofun (fun _ _ => rfl) ?_
  · simp [Reading.before, Reading.fail, Except.mapError, ParseError.before_of_ne t he]
  · intro h
    cases h
    exact he rfl

lemma refuse {error : TokenKind → ParseError} (hgot : ∀ kind, (error kind).got = kind)
    (hkind : ∀ kind other, (error kind).onKind other = error other)
    (hne : ∀ kind, error kind ≠ .noOperand kind) :
    Stops δ t k n (Reading.refuse (α := α) error) := by
  intro p _ hendless hlast
  refine .apart [] rfl hlast ?_ nofun (fun _ _ => rfl) ?_
  · obtain ⟨last, _ | ⟨u, rest⟩⟩ := p
    · simp [Reading.before, Reading.refuse, Reading.fail, Except.mapError, Place.extend, headKind,
        ParseError.before, hgot, hkind]
    · have hu : (error u.kind).got ≠ .endOfInput := by
        rw [hgot]
        exact hendless u List.mem_cons_self
      simp [Reading.before, Reading.refuse, Reading.fail, Except.mapError, Place.extend, headKind,
        ParseError.before_of_ne t hu]
  · intro h
    have herror : error (headKind p.unread) = .noOperand .endOfInput := Except.error.inj h
    have hhead : headKind p.unread = .endOfInput := by
      rw [← hgot (headKind p.unread), herror]
      rfl
    rw [hhead] at herror
    exact hne _ herror

lemma onSuccess {f : α → Place → Attempt β} (hg : Stops δ t k n g)
    (hf : ∀ a, Stops ε t k n (f a)) (hends : ∀ a, Ends (f a)) (hε : ε ≤ 0) (hsum : δ + ε = ζ) :
    Stops ζ t k n fun p => (g p).onSuccess f := by
  intro p hn hendless hlast
  change Meets ζ t k p.unread ((g p).onSuccess f) ((g (p.extend (t :: k))).onSuccess f)
  have hmeets := hg p hn hendless hlast
  generalize g p = x at hmeets ⊢
  generalize g (p.extend (t :: k)) = y at hmeets ⊢
  obtain ⟨value, q, fs⟩ := x
  cases hmeets with
  | apart used hts hq hy hle hfailures hvalue =>
    dsimp only at hts hq hfailures
    cases value with
    | error e =>
      rw [hy, onSuccess_error]
      refine .apart used hts hq (onSuccess_error _ _ _ _) nofun (fun hζ => hfailures (by omega)) ?_
      exact fun h => hvalue (congrArg Except.error (Except.error.inj h))
    | ok a =>
      have hlength := congrArg List.length hts
      rw [List.length_append] at hlength
      rw [hts] at hendless
      have hrest := hf a q (by omega) (fun u hu => hendless u (List.mem_append_right used hu)) hq
      rw [hy, hts]
      exact hrest.behind used fs (hle ⟨a, rfl⟩) hsum fun hζ => hfailures (by omega)
  | used hplace hplain hstrays =>
    obtain rfl : q = atEnd := hplace
    refine .used ?_ (fun hζ hopen => ?_) fun ht hk => (hstrays ht hk).onSuccess rfl hends
    · cases value with
      | error e => exact congrArg Reading.place (onSuccess_error e atEnd fs f)
      | ok a => exact (hends a).place
    · obtain ⟨hx, rfl⟩ := hplain (by omega) hopen
      rw [hx]
      exact ⟨onSuccess_error _ _ _ _, onSuccess_error _ _ _ _⟩

lemma peek {accept : Token → Option (Place → Attempt α)} (ht : accept t = none)
    (hsemicolon : ∀ u f, accept u = some f → u.kind = .semicolon →
      δ = 0 ∧ ∃ a, f = fun p => .done a p)
    (haccept : ∀ m < n, ∀ u f, accept u = some f → u.kind ≠ .semicolon →
      Stops (δ - openings [u]) t k m f) (hg : Stops δ t k n g) :
    Stops δ t k n (Reading.peek accept g) := by
  intro p hn hendless hlast
  obtain ⟨last, _ | ⟨u, rest⟩⟩ := p
  · have hmeets := hg ⟨last, []⟩ hn hendless hlast
    simp only [Place.extend, List.nil_append] at hmeets ⊢
    rwa [peek_none ht]
  · simp only [Place.extend, List.cons_append]
    obtain ⟨hu, hrest⟩ := List.forall_mem_cons.1 hendless
    cases hf : accept u with
    | none =>
      rw [peek_none hf, peek_none hf]
      exact hg ⟨last, u :: rest⟩ hn hendless hlast
    | some f =>
      rw [peek_some hf, peek_some hf]
      apply Meets.behind_token
      by_cases hkind : u.kind = .semicolon
      · obtain ⟨rfl, a, rfl⟩ := hsemicolon u f hf hkind
        rw [openings_of_not_mem (by rw [hkind]; decide)]
        exact done a ⟨u.kind, rest⟩ (Nat.lt_of_succ_lt hn) hrest hu
      · exact haccept (rest.length + 1) hn u f hf hkind ⟨u.kind, rest⟩ (Nat.lt_succ_self _) hrest hu

lemma take_stop {accept : Token → Place → Attempt α} (ht : IsStop t.kind) (last : TokenKind) :
    Reading.take accept ⟨last, t :: k⟩ = .fail (.noOperand t.kind) ⟨t.kind, k⟩ := by
  have hother : t.kind ∉ Expr.operandKinds ∧ t.kind ≠ .illegal := by
    rcases ht with ht | ht <;> rw [ht] <;> decide
  simp only [Reading.take, if_neg hother.1, ParseError.notAnOperand, if_neg hother.2]

lemma take {accept : Token → Place → Attempt α} (ht : IsStop t.kind)
    (haccept : ∀ m < n, ∀ u, u.kind ∈ Expr.operandKinds → Stops 0 t k m (accept u)) :
    Stops 0 t k n (Reading.take accept) := by
  intro p hn hendless hlast
  obtain ⟨last, _ | ⟨u, rest⟩⟩ := p
  · simp only [Place.extend, List.nil_append, take_stop ht]
    refine .used rfl (fun _ _ => ⟨rfl, rfl⟩) fun hend hk => ?_
    rw [hend, hk]
    exact .ahead rfl (fun _ => Iff.rfl) (Nat.le_refl _)
  · obtain ⟨hu, hrest⟩ := List.forall_mem_cons.1 hendless
    simp only [Place.extend, List.cons_append, Reading.take]
    split
    · next hoperand =>
      apply Meets.behind_token
      rw [openings_of_not_mem (Expr.isSign_operandKinds u.kind hoperand).2.1]
      exact haccept (rest.length + 1) hn u hoperand ⟨u.kind, rest⟩ (Nat.lt_succ_self _) hrest hu
    · have hgot : (ParseError.notAnOperand u).got ≠ .endOfInput :=
        (ParseError.got_notAnOperand u).trans_ne hu
      have hfail := fail (δ := 0) (t := t) (k := k) (α := α) hgot ⟨u.kind, rest⟩
        (Nat.lt_succ_self _) hrest hu
      exact hfail.behind [u] [] (Int.natCast_nonneg _) (Int.zero_add 0) fun _ _ => rfl

end Stops

section Turn

variable {inBlock : Bool} {t u : Token} {rest k : List Token}

lemma recorded_before (t : Token) (k : List Token) (x : Attempt α) :
    recorded (x.before t k) = (recorded x).map (Failure.before t k) := by
  obtain ⟨_ | a, p, fs⟩ := x <;> simp [recorded, before, Except.mapError, Failure.before]

lemma nextTurn_before (ht : IsStop t.kind)
    (h : Stmt.read u (rest ++ t :: k) = (Stmt.read u rest).before t k) :
    (Within.statement u (rest ++ t :: k)).nextTurn =
      (Within.statement u rest).nextTurn ++ t :: k := by
  rcases hread : Stmt.read u rest with ⟨value, q, fs⟩
  rw [hread] at h
  cases value with
  | ok s =>
    rw [Within.nextTurn_of_ok hread, Within.nextTurn_of_ok h]
    rfl
  | error e =>
    rw [Within.nextTurn_of_error hread, Within.nextTurn_of_error h]
    exact Place.recover_before ht k q

lemma readMany_turn_before (ht : IsStop t.kind) (hu : Within.isLast inBlock u.kind = false)
    (h : Stmt.read u (rest ++ t :: k) = (Stmt.read u rest).before t k) :
    Stmt.readMany inBlock (u :: (rest ++ t :: k)) =
      ((Stmt.readMany inBlock ((Within.statement u rest).nextTurn ++ t :: k)).andThen
        fun others p => ⟨(Stmt.read u rest).value.toOption.toList ++ others, p, []⟩).after
        ((recorded (Stmt.read u rest)).map (Failure.before t k)) := by
  rw [readMany_turn hu, nextTurn_before ht h, h, recorded_before]
  obtain ⟨_ | s, q, fs⟩ := Stmt.read u rest <;> rfl

end Turn

namespace Stops

variable {t : Token} {k : List Token} {n : ℕ} {f : Token → Place → Attempt Stmt}

lemma stmts (ht : IsStop t.kind)
    (hread : ∀ u, u.kind ≠ .endOfInput → ∀ ts, Stmt.read u ts = f u ⟨u.kind, ts⟩)
    (hstmt : ∀ m < n, ∀ u, u.kind ≠ .endOfInput → Stops (-openings [u]) t k m (f u))
    (hmore : ∀ m < n, Stops (-1) t k m Reading.stmts) : Stops (-1) t k n Reading.stmts := by
  intro p hn hendless hlast
  obtain ⟨last, _ | ⟨u, rest⟩⟩ := p
  · simp only [Place.extend, List.nil_append, Reading.stmts, Stmt.readMany_nil]
    rw [Stmt.readMany_last true t k ht.isLast]
    refine .used rfl (fun hδ => absurd hδ (by decide)) fun hend hk => ?_
    rw [hend, hk]
    exact .ahead rfl (fun _ => Iff.rfl) (Nat.le_refl _)
  obtain ⟨hu, hrest⟩ := List.forall_mem_cons.1 hendless
  simp only [Place.extend, List.cons_append, Reading.stmts]
  cases hkind : Within.isLast true u.kind with
  | true =>
    rw [Stmt.readMany_last true u _ hkind, Stmt.readMany_last true u _ hkind]
    refine .apart [u] rfl hu rfl (fun _ => ?_) (fun _ _ => rfl) fun h => ?_
    · exact (by decide : (-1 : ℤ) ≤ 0).trans (Int.natCast_nonneg _)
    · cases h
  | false =>
    have hstatement := hstmt (rest.length + 1) hn u hu ⟨u.kind, rest⟩ (Nat.lt_succ_self _) hrest hu
    simp only [Place.extend, ← hread u hu] at hstatement
    cases hstatement with
    | apart used hts hlast hy hle hfailures hvalue =>
      -- the turns behind this one are a block of their own, with what it has found put before them
      obtain ⟨skipped, hskipped⟩ := nextTurn_suffix u rest
      have hlength := (Within.statement u rest).length_nextTurn_le
      rw [← hskipped, ← List.append_assoc] at hts
      have hothers := (hmore (rest.length + 1) hn).onSuccess
        (fun others => done ((Stmt.read u rest).value.toOption.toList ++ others))
        (fun others => .done _) (Int.le_refl 0) (Int.add_zero _)
      have hmeets := hothers ⟨(Stmt.read u rest).place.last, (Within.statement u rest).nextTurn⟩
        (Nat.lt_succ_of_le hlength) (fun v hv => hrest v ?_) hlast
      · rw [readMany_turn hkind, readMany_turn_before ht hkind hy]
        nth_rewrite 1 [hts]
        exact hmeets.behind (u :: (used ++ skipped)) _ (Int.natCast_nonneg _) (Int.zero_add _)
          fun hδ => absurd hδ (by decide)
      · rw [hts]
        exact List.mem_append_right _ hv
    | used hplace hplain hstrays =>
      refine .used ?_ (fun hδ => absurd hδ (by decide)) fun hend hk => ?_
      · rw [readMany_turn hkind, nextTurn_of_nil (congrArg Place.unread hplace),
          Stmt.readMany_nil]
        rfl
      · obtain ⟨hplace', hvalue, hlt⟩ :=
          readMany_strays (hstrays hend hk) (congrArg Place.unread hplace) hkind
        refine .past _ hplace' rfl (congrArg Except.ok hvalue) ?_
        rwa [recorded_sure, recorded_sure]

end Stops

lemma Composed.stops {final : Prop} {δ : ℤ} {t : Token} {n : ℕ} {g : Place → Attempt α}
    (h : Composed final δ n g) (ht : IsStop t.kind) (k : List Token) : Stops δ t k n g := by
  induction h with
  | done a => exact .done a
  | fail e he => exact .fail he
  | refuse error hgot hkind hne => exact .refuse hgot hkind hne
  | onSuccess _ hf hε hsum ihg ihf => exact ihg.onSuccess ihf (fun a => (hf a).ends) hε hsum
  | peek hkinds hsemicolon _ _ ihaccept ihleave =>
    exact .peek (accept_eq_none hkinds ht.mem_stops)
      (fun u f hf hkind => (hsemicolon u f hf hkind).2) ihaccept ihleave
  | take _ ih => exact .take ht ih
  | stmts hread _ _ ihstmt ihmore => exact .stmts ht hread ihstmt ihmore

end Reading

namespace Stmt

open Reading

variable {inBlock : Bool} {t u : Token} {rest ts k : List Token}

lemma meets_read (ht : Place.IsStop t.kind) (k : List Token) (hu : u.kind ≠ .endOfInput)
    (hrest : ∀ v ∈ rest, v.kind ≠ .endOfInput) :
    Meets 0 t k (u :: rest) (read u rest) (read u (rest ++ t :: k)) := by
  obtain ⟨g, hg, hread⟩ := (parts (rest.length + 1)).stmt hu
  rw [hread, hread]
  apply Meets.behind_token
  rw [Int.zero_sub]
  exact hg.stops ht k ⟨u.kind, rest⟩ (Nat.lt_succ_self _) hrest hu

lemma ne_endOfInput_of_isLast (h : Within.isLast inBlock t.kind = false) :
    t.kind ≠ .endOfInput := by
  intro ht
  simp [Within.isLast, ht] at h

lemma nextTurn_suffix_cons {δ : ℤ} {y : Attempt Stmt}
    (h : Meets δ t k (u :: rest) (read u rest) y) :
    (Within.statement u rest).nextTurn <:+ u :: rest := by
  refine (nextTurn_suffix u rest).trans ?_
  cases h with
  | apart used hts => exact ⟨used, hts.symm⟩
  | used hplace =>
    rw [hplace]
    exact List.nil_suffix

lemma turn_induction {motive : List Token → Prop} (ht : Place.IsStop t.kind) (k : List Token)
    (nil : motive [])
    (turn : ∀ {u rest}, Within.isLast inBlock u.kind = false →
      Meets 0 t k (u :: rest) (read u rest) (read u (rest ++ t :: k)) →
      motive (Within.statement u rest).nextTurn → motive (u :: rest))
    (hts : ∀ u ∈ ts, Within.isLast inBlock u.kind = false) : motive ts := by
  induction hn : ts.length using Nat.strongRecOn generalizing ts with
  | ind n ih =>
    cases ts with
    | nil => exact nil
    | cons u rest =>
      obtain ⟨hu, hrest⟩ := List.forall_mem_cons.1 hts
      have hendless : ∀ v ∈ rest, v.kind ≠ .endOfInput :=
        fun v hv => ne_endOfInput_of_isLast (hrest v hv)
      have hmeets := meets_read ht k (ne_endOfInput_of_isLast hu) hendless
      have hlength := (Within.statement u rest).length_nextTurn_le
      rw [List.length_cons] at hn
      refine turn hu hmeets (ih _ (by omega) (fun v hv => ?_) rfl)
      exact hts v ((nextTurn_suffix_cons hmeets).mem hv)

lemma readMany_inside (hts : ∀ u ∈ ts, Within.isLast true u.kind = false) :
    readMany true ts = readMany false ts := by
  have houtside {u : Token} (hu : Within.isLast true u.kind = false) :
      Within.isLast false u.kind = false :=
    Within.isLast_eq_false (ne_endOfInput_of_isLast hu) nofun
  refine turn_induction (t := endOfInput) (motive := fun ts => readMany true ts = readMany false ts)
    (.inr rfl) [] ?_ (fun hu _ ih => ?_) hts
  · rw [readMany_nil, readMany_nil]
  · rw [readMany_turn hu, readMany_turn (houtside hu), ih]

end Stmt

/-- The statement of the turn is read without using the end of the input. -/
def Turn.LeavesEnd (r : Turn) : Prop := (Stmt.read r.first r.rest).place.last ≠ .endOfInput

def Turns.LeaveEnd (inBlock : Bool) (ts : List Token) : Prop :=
  ∀ r ∈ own 0 (statements 0 inBlock ts), r.LeavesEnd

section Leave

open Reading

variable {inBlock : Bool} {t u : Token} {rest ts : List Token}

lemma Turns.leaveEnd_nil : LeaveEnd inBlock [] := by
  rw [LeaveEnd, statements]
  exact List.forall_mem_nil _

lemma Turns.leaveEnd_cons (hu : Within.isLast inBlock u.kind = false) :
    LeaveEnd inBlock (u :: rest) ↔ (Stmt.read u rest).place.last ≠ .endOfInput ∧
      LeaveEnd inBlock (Within.statement u rest).nextTurn := by
  rw [LeaveEnd, own_cons hu, List.forall_mem_cons]
  rfl

lemma Stmt.readMany_before (ht : Place.IsStop t.kind) (hlast : Within.isLast inBlock t.kind = true)
    (hts : ∀ u ∈ ts, Within.isLast inBlock u.kind = false) (h : Turns.LeaveEnd inBlock ts)
    (k : List Token) :
    readMany inBlock (ts ++ t :: k) = ⟨(readMany inBlock ts).value, ⟨t.kind, k⟩,
      (readMany inBlock ts).failures.map (Failure.before t k)⟩ := by
  refine turn_induction (motive := fun ts => Turns.LeaveEnd inBlock ts →
    readMany inBlock (ts ++ t :: k) = ⟨(readMany inBlock ts).value, ⟨t.kind, k⟩,
      (readMany inBlock ts).failures.map (Failure.before t k)⟩) ht k ?_ ?_ hts h
  · intro _
    rw [List.nil_append, readMany_last inBlock t k hlast, readMany_nil]
    rfl
  · intro u rest hu hmeets ih hleave
    obtain ⟨hleaves, hnext⟩ := (Turns.leaveEnd_cons hu).1 hleave
    cases hmeets with
    | apart used hts hne hy =>
      rw [List.cons_append, readMany_turn_before ht hu hy, ih hnext, readMany_turn hu]
      simp [andThen, after]
    | used hplace => exact absurd (congrArg Place.last hplace) hleaves

end Leave

end MiniPascal
