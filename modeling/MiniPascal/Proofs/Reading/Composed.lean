import MiniPascal.Proofs.Reading.Course
/-! The steps that readers are composed of. -/

namespace MiniPascal

open Token

def ParseError.got : ParseError → TokenKind
  | unexpected _ got | expectedType got | noOperand got => got
  | badInteger _ => .integer
  | badReal _ => .real
  | illegalToken _ => .illegal

def ParseError.onKind (kind : TokenKind) : ParseError → ParseError
  | unexpected expected _ => unexpected expected kind
  | expectedType _ => expectedType kind
  | noOperand _ => noOperand kind
  | e => e

namespace Reading

variable {α β : Type}

def peek (accept : Token → Option (Place → Attempt α)) (leave : Place → Attempt α) (p : Place) :
    Attempt α :=
  match p.unread with
  | [] => leave p
  | t :: rest =>
    match accept t with
    | some f => f ⟨t.kind, rest⟩
    | none => leave p

def take (accept : Token → Place → Attempt α) (p : Place) : Attempt α :=
  match p.unread with
  | [] => .fail (.noOperand .endOfInput) ⟨.endOfInput, []⟩
  | t :: rest =>
    if t.kind ∈ Expr.operandKinds then accept t ⟨t.kind, rest⟩
    else .fail (.notAnOperand t) ⟨t.kind, rest⟩

def refuse (error : TokenKind → ParseError) (p : Place) : Attempt α :=
  .fail (error (headKind p.unread)) p

def stmts (p : Place) : Attempt (List Stmt) := (Stmt.readMany true p.unread).sure

def stops : List TokenKind := [.endOfInput, .illegal, .endWord]

lemma accept_eq_none {accept : Token → Option (Place → Attempt α)} {t : Token}
    (h : ∀ u f, accept u = some f → u.kind ∉ stops) (ht : t.kind ∈ stops) : accept t = none := by
  rw [Option.eq_none_iff_forall_not_mem]
  exact fun f hf => h t f hf ht

/-- For lists of less than `n` tokens the reader is composed of these steps. It opens `δ` blocks
more than it closes, and only a `final` one uses a semicolon, as its last token. -/
inductive Composed : Prop → ℤ → ℕ → {α : Type} → (Place → Attempt α) → Prop
  | done {final n α} (a : α) : Composed final 0 n fun p => .done a p
  | fail {final δ n α} (e : ParseError) : e.got ≠ .endOfInput →
    Composed final δ n fun p => (.fail e p : Attempt α)
  | refuse {final δ n α} (error : TokenKind → ParseError) : (∀ kind, (error kind).got = kind) →
    (∀ kind other, (error kind).onKind other = error other) →
    (∀ kind, error kind ≠ .noOperand kind) →
    Composed final δ n (refuse (α := α) error)
  | onSuccess {final δ ε ζ n α β} {g : Place → Attempt α} {f : α → Place → Attempt β} :
    Composed False δ n g → (∀ a, Composed final ε n (f a)) → ε ≤ 0 → δ + ε = ζ →
    Composed final ζ n fun p => (g p).onSuccess f
  | peek {final δ n α} {accept : Token → Option (Place → Attempt α)} {leave : Place → Attempt α} :
    (∀ t f, accept t = some f → t.kind ∉ stops) →
    (∀ t f, accept t = some f → t.kind = .semicolon → final ∧ δ = 0 ∧ ∃ a, f = fun p => .done a p) →
    (∀ m < n, ∀ t f, accept t = some f → t.kind ≠ .semicolon →
      Composed final (δ - openings [t]) m f) →
    Composed final δ n leave → Composed final δ n (peek accept leave)
  | take {final n α} {accept : Token → Place → Attempt α} :
    (∀ m < n, ∀ t, t.kind ∈ Expr.operandKinds → Composed final 0 m (accept t)) →
    Composed final 0 n (take accept)
  | stmts {n} {f : Token → Place → Attempt Stmt} :
    (∀ t, t.kind ≠ .endOfInput → ∀ ts, Stmt.read t ts = f t ⟨t.kind, ts⟩) →
    (∀ m < n, ∀ t, t.kind ≠ .endOfInput → Composed True (-openings [t]) m (f t)) →
    (∀ m < n, Composed False (-1) m stmts) → Composed False (-1) n stmts

namespace Composed

variable {final : Prop} {δ : ℤ} {m n : ℕ} {g : Place → Attempt α} {f : α → Place → Attempt β}

lemma congr {h : Place → Attempt α} (hg : ∀ p, g p = h p) (hh : Composed final δ n h) :
    Composed final δ n g := by
  obtain rfl : g = h := funext hg
  exact hh

lemma mono (h : Composed final δ n g) (hm : m ≤ n) : Composed final δ m g := by
  induction h generalizing m with
  | done a => exact .done a
  | fail e he => exact .fail e he
  | refuse error hgot hkind hne => exact .refuse error hgot hkind hne
  | onSuccess _ _ hε hsum ihg ihf => exact .onSuccess (ihg hm) (fun a => ihf a hm) hε hsum
  | peek hstops hsemicolon haccept _ _ ihleave =>
    exact .peek hstops hsemicolon (fun k hk => haccept k (hk.trans_le hm)) (ihleave hm)
  | take haccept _ => exact .take fun k hk => haccept k (hk.trans_le hm)
  | stmts hread hstmt hmore _ _ =>
    exact .stmts hread (fun k hk => hstmt k (hk.trans_le hm)) fun k hk => hmore k (hk.trans_le hm)

lemma next (hg : Composed False 0 n g) (hf : ∀ a, Composed final 0 n (f a)) :
    Composed final 0 n fun p => (g p).onSuccess f :=
  .onSuccess hg hf (Int.le_refl 0) (Int.zero_add 0)

lemma andThen {x : Place → Reading α} (hx : Composed False δ n fun p => (x p).sure)
    (hf : ∀ a, Composed final 0 n (f a)) : Composed final δ n fun p => (x p).andThen f :=
  .onSuccess hx hf (Int.le_refl 0) (Int.add_zero δ)

lemma map {x : Place → Reading α} (f : α → β) (hx : Composed False δ n fun p => (x p).sure) :
    Composed False δ n fun p => ((x p).andThen fun a p => ⟨f a, p, []⟩).sure :=
  .onSuccess hx (fun a => .done (f a)) (Int.le_refl 0) (Int.add_zero δ)

end Composed

end Reading

end MiniPascal
