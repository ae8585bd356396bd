import MiniPascal.Proofs.Reading.Progress
import MiniPascal.Proofs.Writing.Levels

namespace MiniPascal

namespace Reading

variable {α β γ : Type} {x : Attempt α} {a : α}

lemma onSuccess_of_ok (h : x.value = .ok a) (f : α → Place → Attempt β) :
    x.onSuccess f = (f a x.place).after x.failures := by
  obtain ⟨value, p, fs⟩ := x
  obtain rfl : value = .ok a := h
  exact onSuccess_ok a p fs f

lemma onSuccess_of_error {e : ParseError} (h : x.value = .error e) (f : α → Place → Attempt β) :
    x.onSuccess f = ⟨.error e, x.place, x.failures⟩ := by
  obtain ⟨value, p, fs⟩ := x
  obtain rfl : value = .error e := h
  exact onSuccess_error e p fs f

lemma onSuccess_congr {f g : α → Place → Attempt β}
    (h : ∀ a, x.value = .ok a → f a x.place = g a x.place) : x.onSuccess f = x.onSuccess g := by
  cases hx : x.value with
  | error e => rw [onSuccess_of_error hx, onSuccess_of_error hx]
  | ok a => rw [onSuccess_of_ok hx, onSuccess_of_ok hx, h a hx]

lemma onSuccess_after (fs : List Failure) (x : Attempt α) (f : α → Place → Attempt β) :
    (x.after fs).onSuccess f = (x.onSuccess f).after fs := by
  simp [onSuccess, andThen, after]

lemma onSuccess_assoc (x : Attempt α) (f : α → Place → Attempt β) (g : β → Place → Attempt γ) :
    (x.onSuccess f).onSuccess g = x.onSuccess fun a p => (f a p).onSuccess g := by
  cases hx : x.value with
  | error e =>
    rw [onSuccess_of_error hx, onSuccess_of_error hx]
    exact onSuccess_error e _ _ g
  | ok a => rw [onSuccess_of_ok hx, onSuccess_of_ok hx, onSuccess_after]

lemma onSuccess_value_eq_ok {f : α → Place → Attempt β} {b : β}
    (h : (x.onSuccess f).value = .ok b) :
    ∃ a, x.value = .ok a ∧ (f a x.place).value = .ok b := by
  cases hx : x.value with
  | error e =>
    rw [onSuccess_of_error hx] at h
    cases h
  | ok a =>
    rw [onSuccess_of_ok hx] at h
    exact ⟨a, rfl, h⟩

lemma place_onSuccess_done (x : Attempt α) (f : α → β) :
    (x.onSuccess fun a p => done (f a) p).place = x.place := by
  cases hx : x.value with
  | error e => rw [onSuccess_of_error hx]
  | ok a =>
    rw [onSuccess_of_ok hx]
    rfl

end Reading

open Reading

namespace Expr

/-- The expression is the other one or stands at its left: it is come upon over the left operands of
operators and over what is called. -/
inductive OnSpine (e : Expr) : Expr → Prop
  | here : OnSpine e e
  | left {lexeme operator left right} : OnSpine e left →
    OnSpine e (.infixed lexeme operator left right)
  | callee {lexeme callee arguments} : OnSpine e callee → OnSpine e (.call lexeme callee arguments)

lemma OnSpine.trans {d e f : Expr} (h : d.OnSpine e) (h' : e.OnSpine f) : d.OnSpine f := by
  induction h' with
  | here => exact h
  | left _ ih => exact .left ih
  | callee _ ih => exact .callee ih

def readNext (left : Expr) (p : Place) : Attempt Expr :=
  match p.unread with
  | [] => .done left p
  | t :: rest =>
    match InfixOperator.ofKind? t.kind with
    | some operator =>
      (read operator.precedence rest).onSuccess fun right q =>
      .done (.infixed t.literal operator left right) q
    | none =>
      (readArguments rest).onSuccess fun args q =>
      .done (.call t.literal left args) q

section Loop

variable {min weak strong : Precedence} {left e : Expr} {p : Place}

lemma readOperators_last (h : ¬ min < Precedence.ofKind (Token.headKind p.unread)) :
    readOperators min left p = .done left p := by
  obtain ⟨last, _ | ⟨t, rest⟩⟩ := p
  · exact readOperators_nil min left last
  · exact readOperators_stop min left last t rest h

-- Which level is read at decides only whether there is a next turn of the loop.
lemma readOperators_next (h : min < Precedence.ofKind (Token.headKind p.unread)) :
    readOperators min left p = (readNext left p).onSuccess (readOperators min) := by
  obtain ⟨last, _ | ⟨t, rest⟩⟩ := p
  · exact absurd h (Nat.not_lt_zero _)
  · rw [readNext]
    dsimp only
    cases hoperator : InfixOperator.ofKind? t.kind with
    | some operator =>
      dsimp only [Token.headKind] at h
      rw [Precedence.ofKind_infix hoperator] at h
      rw [Expr.readOperators_infix min left last t rest operator hoperator h, onSuccess_assoc]
      simp only [onSuccess_done]
    | none =>
      obtain ⟨literal, rfl⟩ := Precedence.eq_leftParen h hoperator
      rw [readOperators_call min left last literal rest h, onSuccess_assoc]
      simp only [onSuccess_done]

lemma length_readNext_lt (h : p.unread ≠ []) :
    (readNext left p).place.unread.length < p.unread.length := by
  obtain ⟨last, _ | ⟨t, rest⟩⟩ := p
  · exact absurd rfl h
  · rw [readNext]
    dsimp only
    split
    · next operator _ =>
      have hle := length_read_le operator.precedence rest
      rw [place_onSuccess_done, List.length_cons]
      omega
    · rw [place_onSuccess_done]
      exact Nat.lt_succ_of_le (length_readArguments_le rest)

lemma onSpine_of_readNext (h : (readNext left p).value = .ok e) : left.OnSpine e := by
  rw [readNext] at h
  split at h
  · cases h
    exact .here
  split at h
  · obtain ⟨right, -, h⟩ := onSuccess_value_eq_ok h
    cases h
    exact .left .here
  · obtain ⟨args, -, h⟩ := onSuccess_value_eq_ok h
    cases h
    exact .callee .here

lemma unread_ne_nil (h : min < Precedence.ofKind (Token.headKind p.unread)) : p.unread ≠ [] := by
  intro hnil
  rw [hnil] at h
  exact absurd h (Nat.not_lt_zero _)

lemma readOperators_through (h : weak ≤ strong) (left : Expr) (p : Place) :
    readOperators weak left p = (readOperators strong left p).onSuccess (readOperators weak) := by
  induction hn : p.unread.length using Nat.strongRecOn generalizing left p with
  | ind n ih =>
    subst hn
    by_cases hstrong : strong < Precedence.ofKind (Token.headKind p.unread)
    · have hweak := Nat.lt_of_le_of_lt h hstrong
      rw [readOperators_next hweak, readOperators_next hstrong, onSuccess_assoc]
      have hlt : (readNext left p).place.unread.length < p.unread.length :=
        length_readNext_lt (unread_ne_nil hstrong)
      exact onSuccess_congr fun e _ => ih _ hlt e _ rfl
    · rw [readOperators_last hstrong, onSuccess_done]

lemma readOperators_ok (h : (readOperators min left p).value = .ok e) :
    left.OnSpine e ∧
      Precedence.ofKind (Token.headKind (readOperators min left p).place.unread) ≤ min := by
  induction hn : p.unread.length using Nat.strongRecOn generalizing left p with
  | ind n ih =>
    subst hn
    by_cases hmin : min < Precedence.ofKind (Token.headKind p.unread)
    · have hlt : (readNext left p).place.unread.length < p.unread.length :=
        length_readNext_lt (unread_ne_nil hmin)
      rw [readOperators_next hmin] at h ⊢
      obtain ⟨next, hnext, hrest⟩ := onSuccess_value_eq_ok h
      obtain ⟨hspine, hstop⟩ := ih _ hlt hrest rfl
      rw [onSuccess_of_ok hnext]
      exact ⟨(onSpine_of_readNext hnext).trans hspine, hstop⟩
    · rw [readOperators_last hmin] at h ⊢
      cases h
      exact ⟨.here, Precedence.not_lt.1 hmin⟩

end Loop

lemma read_through {weak strong : Precedence} (h : weak ≤ strong) (ts : List Token) :
    read weak ts = (read strong ts).onSuccess (readOperators weak) := by
  cases ts with
  | nil =>
    rw [read_nil, read_nil, fail, onSuccess_error]
  | cons t rest =>
    rw [read_cons, read_cons, onSuccess_assoc]
    exact onSuccess_congr fun left _ => readOperators_through h left _

lemma read_suffix (min : Precedence) (ts : List Token) : (read min ts).place.unread <:+ ts :=
  ((accounted (ts.length + 1)).expr (Nat.lt_succ_self _) 0 min).left.trans (List.tail_suffix _)

lemma readOperators_suffix (min : Precedence) (left : Expr) (p : Place) :
    (readOperators min left p).place.unread <:+ p.unread :=
  ((accounted _).operators min left p.last (Nat.le_refl _) (Nat.lt_succ_self _) 0).left

lemma headKind_of_read_ok {min : Precedence} {ts : List Token} {e : Expr}
    (h : (read min ts).value = .ok e) :
    Precedence.ofKind (Token.headKind (read min ts).place.unread) ≤ min := by
  cases ts with
  | nil =>
    rw [read_nil] at h
    cases h
  | cons t rest =>
    rw [read_cons] at h ⊢
    obtain ⟨left, hleft, hrest⟩ := onSuccess_value_eq_ok h
    rw [onSuccess_of_ok hleft]
    exact (readOperators_ok hrest).2

/-- Read at a weaker level, an expression fails where it fails at a stronger one, with the same
error and the same failures before it. If it is read, then what is read at the stronger level stands
at its left and ends earlier or at the same token, and the loop over operators makes the whole of it
from there. Behind what is read at a level no token binds more strongly than that; a semicolon binds
least of all. -/
theorem levels_nest {weak strong : Precedence} (h : weak ≤ strong) (ts : List Token) :
    (∀ error, (read strong ts).value = .error error →
      (read weak ts).value = .error error ∧ read weak ts = read strong ts) ∧
    (∀ whole, (read weak ts).value = .ok whole →
      ∃ part, (read strong ts).value = .ok part ∧ part.OnSpine whole ∧
        (read strong ts).place.unread <:+ ts ∧
        (read weak ts).place.unread <:+ (read strong ts).place.unread ∧
        ∃ later, readOperators weak part (read strong ts).place =
            ⟨.ok whole, (read weak ts).place, later⟩ ∧
          (read weak ts).failures = (read strong ts).failures ++ later) ∧
    ∀ min e, (read min ts).value = .ok e →
      Precedence.ofKind (Token.headKind (read min ts).place.unread) ≤ min := by
  have hthrough := read_through h ts
  refine ⟨fun error herror => ?_, fun whole hwhole => ?_, fun min e => headKind_of_read_ok⟩
  · rw [onSuccess_of_error herror, ← herror] at hthrough
    exact ⟨congrArg Reading.value hthrough |>.trans herror, hthrough⟩
  · rw [hthrough] at hwhole
    obtain ⟨part, hpart, hrest⟩ := onSuccess_value_eq_ok hwhole
    rw [onSuccess_of_ok hpart] at hthrough
    refine ⟨part, hpart, (readOperators_ok hrest).1, read_suffix strong ts, ?_,
      (readOperators weak part (read strong ts).place).failures, ?_, ?_⟩
    · rw [hthrough]
      exact readOperators_suffix weak part _
    · rw [hthrough, ← hrest]
      rfl
    · rw [hthrough]
      rfl

def product : Expr :=
  .infixed "*" .multiply
    (.call "(" (.conditional "if" (.named "a") (.mk ⟨.thenWord, "then"⟩ []) none) []) (.named "b")

def sum : Expr := .infixed "+" .add product (.named "c")

-- The statement in the block fails, which is recorded at both levels.
def sumTokens : List Token :=
  [⟨.ifWord, "if"⟩, ⟨.identifier, "a"⟩, ⟨.thenWord, "then"⟩, ⟨.slash, "/"⟩, ⟨.endWord, "end"⟩,
    ⟨.leftParen, "("⟩, ⟨.rightParen, ")"⟩, ⟨.asterisk, "*"⟩, ⟨.identifier, "b"⟩, ⟨.plus, "+"⟩,
    ⟨.identifier, "c"⟩, ⟨.semicolon, ";"⟩]

-- The product has no right operand.
def brokenTokens : List Token :=
  [⟨.identifier, "a"⟩, ⟨.asterisk, "*"⟩, ⟨.plus, "+"⟩, ⟨.identifier, "c"⟩]

theorem levels_nest_sum :
    Precedence.lowest ≤ Precedence.addition ∧
      (read .addition brokenTokens).value = .error (.noOperand .plus) ∧
      read .lowest brokenTokens = read .addition brokenTokens ∧
      (read .addition sumTokens).value = .ok product ∧ (read .lowest sumTokens).value = .ok sum ∧
      product.OnSpine sum ∧
      (∃ later, readOperators .lowest product (read .addition sumTokens).place =
        ⟨.ok sum, (read .lowest sumTokens).place, later⟩) ∧
      (read .lowest sumTokens).failures.map Failure.error = [.noOperand .slash] ∧
      Token.headKind (read .addition sumTokens).place.unread = .plus ∧
      Precedence.ofKind .plus ≤ .addition := by
  have hlevels : Precedence.lowest ≤ Precedence.addition := by decide
  have hbroken : (read .addition brokenTokens).value = .error (.noOperand .plus) := by cbv
  have hproduct : (read .addition sumTokens).value = .ok product := by cbv
  have hsum : (read .lowest sumTokens).value = .ok sum := by cbv
  have hfailures : (read .lowest sumTokens).failures.map Failure.error = [.noOperand .slash] := by
    cbv
  have hplus : Token.headKind (read .addition sumTokens).place.unread = .plus := by cbv
  obtain ⟨hfails, -, -⟩ := levels_nest hlevels brokenTokens
  obtain ⟨-, hreads, hstops⟩ := levels_nest hlevels sumTokens
  obtain ⟨part, hpart, hspine, -, -, later, hlater, -⟩ := hreads sum hsum
  obtain rfl : product = part := by
    rw [hproduct] at hpart
    exact Except.ok.inj hpart
  have hstop := hstops .addition product hproduct
  rw [hplus] at hstop
  exact ⟨hlevels, hbroken, (hfails _ hbroken).2, hproduct, hsum, hspine, ⟨later, hlater⟩, hfailures,
    hplus, hstop⟩

end Expr

end MiniPascal
