import MiniPascal.Proofs.Reading.Parts
import MiniPascal.Proofs.Reading.Turns
/-! At the end of the input a reader has nothing to use. -/

namespace MiniPascal

open Token

def Place.atEnd : Place := ⟨.endOfInput, []⟩

namespace Reading

open Place (atEnd)

variable {α β : Type}

def stray : Token := ⟨.illegal, ""⟩

def illegals (fs : List Failure) : ℕ := fs.countP (·.error.got = .illegal)

lemma illegals_append (fs gs : List Failure) : illegals (fs ++ gs) = illegals fs + illegals gs :=
  List.countP_append

/-- What becomes of an attempt `x` that has come to the end of the input when a stray token stands
behind that, which gives `y`: it is still ahead, or an error speaks of it. -/
inductive Strays (x y : Attempt α) : Prop
  | ahead : y.place = ⟨.endOfInput, [stray]⟩ → (∀ a, x.value = .ok a ↔ y.value = .ok a) →
    illegals (recorded x) ≤ illegals (recorded y) → Strays x y
  | past (a : α) : y.place = atEnd → x.value = .ok a → y.value = .ok a →
    illegals (recorded x) < illegals (recorded y) → Strays x y
  | failed (d e : ParseError) : y.place.unread = [] → x.value = .error d → y.value = .error e →
    illegals (recorded x) < illegals (recorded y) → Strays x y

namespace Strays

variable {x y : Attempt α} {fs gs : List Failure}

lemma after (h : Strays x y) (hle : illegals fs ≤ illegals gs) :
    Strays (x.after fs) (y.after gs) := by
  have hx := congrArg illegals (recorded_after fs x)
  have hy := congrArg illegals (recorded_after gs y)
  rw [illegals_append] at hx hy
  cases h with
  | ahead hplace hvalue hmore => exact .ahead hplace hvalue (by omega)
  | past a hplace hvalue hvalue' hmore => exact .past a hplace hvalue hvalue' (by omega)
  | failed d e hplace hvalue hvalue' hmore => exact .failed d e hplace hvalue hvalue' (by omega)

lemma toOption_eq (h : Strays x y) : y.value.toOption = x.value.toOption := by
  cases h with
  | ahead _ hvalue _ =>
    cases hx : x.value with
    | ok a => rw [(hvalue a).1 hx]
    | error d =>
      cases hy : y.value with
      | ok b =>
        rw [(hvalue b).2 hy] at hx
        cases hx
      | error e => rfl
  | past a _ hx hy _ => rw [hx, hy]
  | failed d e _ hx hy _ =>
    rw [hx, hy]
    rfl

lemma same (hplace : x.place = atEnd) (hlt : illegals fs < illegals gs) :
    Strays (x.after fs) (x.after gs) := by
  have hx := congrArg illegals (recorded_after fs x)
  have hy := congrArg illegals (recorded_after gs x)
  rw [illegals_append] at hx hy
  cases hvalue : x.value with
  | ok a => exact .past a hplace hvalue hvalue (by omega)
  | error e => exact .failed e e (congrArg Place.unread hplace) hvalue hvalue (by omega)

end Strays

structure Ends (g : Place → Attempt α) : Prop where
  place : (g atEnd).place = atEnd
  strays : Strays (g atEnd) (g ⟨.endOfInput, [stray]⟩)

lemma Strays.onSuccess {x y : Attempt α} {f : α → Place → Attempt β} (h : Strays x y)
    (hx : x.place = atEnd) (hf : ∀ a, Ends (f a)) : Strays (x.onSuccess f) (y.onSuccess f) := by
  obtain ⟨value, p, fs⟩ := x
  obtain ⟨value', q, gs⟩ := y
  obtain rfl : p = atEnd := hx
  cases h with
  | ahead hplace hvalue hmore =>
    obtain rfl : q = ⟨.endOfInput, [stray]⟩ := hplace
    cases value with
    | error d =>
      cases value' with
      | error e =>
        rw [onSuccess_error, onSuccess_error]
        exact .ahead rfl (fun b => by simp) hmore
      | ok a => cases (hvalue a).2 rfl
    | ok a =>
      obtain rfl : value' = .ok a := (hvalue a).1 rfl
      rw [recorded_ok, recorded_ok] at hmore
      exact (hf a).strays.after hmore
  | past a hplace hx hy hmore =>
    obtain rfl : q = atEnd := hplace
    obtain rfl : value = .ok a := hx
    obtain rfl : value' = .ok a := hy
    rw [recorded_ok, recorded_ok] at hmore
    exact .same (hf a).place hmore
  | failed d e hplace hx hy hmore =>
    obtain rfl : value = .error d := hx
    obtain rfl : value' = .error e := hy
    rw [onSuccess_error, onSuccess_error]
    exact .failed d e hplace rfl rfl hmore

namespace Ends

variable {g : Place → Attempt α}

lemma done (a : α) : Ends (Reading.done a) :=
  ⟨rfl, .ahead rfl (fun _ => Iff.rfl) (Nat.le_refl _)⟩

lemma fail (e : ParseError) : Ends (α := α) (Reading.fail e) :=
  ⟨rfl, .ahead rfl (fun _ => Iff.rfl) (Nat.le_refl _)⟩

lemma refuse {error : TokenKind → ParseError} (hgot : ∀ kind, (error kind).got = kind) :
    Ends (Reading.refuse (α := α) error) := by
  refine ⟨rfl, .ahead rfl (fun _ => by simp [Reading.refuse, Reading.fail]) ?_⟩
  simp [illegals, recorded, Reading.refuse, Reading.fail, hgot, headKind, atEnd]

lemma onSuccess {f : α → Place → Attempt β} (hg : Ends g) (hf : ∀ a, Ends (f a)) :
    Ends fun p => (g p).onSuccess f := by
  refine ⟨?_, hg.strays.onSuccess hg.place hf⟩
  have hplace := hg.place
  generalize g atEnd = x at hplace ⊢
  obtain ⟨value, p, fs⟩ := x
  obtain rfl : p = atEnd := hplace
  cases value with
  | error e => exact congrArg Reading.place (onSuccess_error e atEnd fs f)
  | ok a => exact (hf a).place

lemma peek {accept : Token → Option (Place → Attempt α)} (hstray : accept stray = none)
    (hg : Ends g) : Ends (Reading.peek accept g) := by
  refine ⟨hg.place, ?_⟩
  rw [peek_none hstray]
  exact hg.strays

lemma take (accept : Token → Place → Attempt α) : Ends (Reading.take accept) :=
  ⟨rfl, .failed (.noOperand .endOfInput) (.illegalToken "") rfl rfl rfl Nat.zero_lt_one⟩

lemma readMany_stray (inBlock : Bool) : Stmt.readMany inBlock [stray] =
    ⟨[], atEnd, [⟨.illegalToken "", ⟨.illegal, []⟩⟩]⟩ := by
  cases inBlock <;> cbv

lemma stmts : Ends stmts where
  place := congrArg Reading.place (Stmt.readMany_nil true)
  strays := by
    refine .past [] ?_ ?_ ?_ ?_
    all_goals simp only [Reading.stmts, Reading.sure, atEnd, readMany_stray, Stmt.readMany_nil]
    all_goals decide

end Ends

lemma Composed.ends {final : Prop} {δ : ℤ} {n : ℕ} {g : Place → Attempt α}
    (h : Composed final δ n g) : Ends g := by
  induction h with
  | done a => exact .done a
  | fail e => exact .fail e
  | refuse error hgot => exact .refuse hgot
  | onSuccess _ _ _ _ ihg ihf => exact ihg.onSuccess ihf
  | peek hstops _ _ _ _ ihleave => exact .peek (accept_eq_none hstops (by decide)) ihleave
  | take => exact .take _
  | stmts => exact .stmts

section Turn

variable {inBlock : Bool} {u : Token} {rest ts : List Token}

lemma nextTurn_of_stray (h : (Stmt.read u rest).place = ⟨.endOfInput, [stray]⟩) :
    (Within.statement u rest).nextTurn = [stray] := by
  change (Within.statement u rest).reading.place = _ at h
  rw [Within.nextTurn, h]
  split <;> rfl

-- A token that the turn leaves unused is the first of the next turn, which refuses it.
lemma readMany_strays (h : Strays (Stmt.read u rest) (Stmt.read u ts))
    (hunread : (Stmt.read u rest).place.unread = [])
    (hu : Within.isLast inBlock u.kind = false) :
    (Stmt.readMany inBlock (u :: ts)).place = atEnd ∧
      (Stmt.readMany inBlock (u :: ts)).value = (Stmt.readMany inBlock (u :: rest)).value ∧
      illegals (Stmt.readMany inBlock (u :: rest)).failures <
        illegals (Stmt.readMany inBlock (u :: ts)).failures := by
  have hvalue := h.toOption_eq
  rw [readMany_turn hu, readMany_turn hu, nextTurn_of_nil hunread, Stmt.readMany_nil]
  simp only [andThen, after, List.append_nil, hvalue]
  cases h with
  | ahead hplace _ hmore =>
    have hstray : illegals [⟨.illegalToken "", ⟨.illegal, []⟩⟩] = 1 := rfl
    rw [nextTurn_of_stray hplace, Ends.readMany_stray, illegals_append, hstray]
    exact ⟨rfl, List.append_nil _, Nat.lt_succ_of_le hmore⟩
  | past s hplace _ _ hmore =>
    rw [nextTurn_of_nil (congrArg Place.unread hplace), Stmt.readMany_nil]
    exact ⟨rfl, List.append_nil _, by rwa [List.append_nil]⟩
  | failed d e hunread' _ _ hmore =>
    rw [nextTurn_of_nil hunread', Stmt.readMany_nil]
    exact ⟨rfl, List.append_nil _, by rwa [List.append_nil]⟩

end Turn

end Reading

end MiniPascal
