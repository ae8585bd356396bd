import Mathlib
import MiniPascal.Proofs.Value

namespace MiniPascal

namespace InfixOperator

def comparisons : List InfixOperator :=
  [equalTo, notEqualTo, greaterThan, greaterEq, lessThan, lessEq]

def mirror : InfixOperator → InfixOperator
  | greaterThan => lessThan
  | greaterEq => lessEq
  | lessThan => greaterThan
  | lessEq => greaterEq
  | operator => operator

lemma comparisons_ne_add : ∀ operator ∈ comparisons, operator ≠ add ∧ operator.mirror ≠ add := by
  decide

end InfixOperator

open InfixOperator (comparisons)

namespace Value

variable {operator : InfixOperator} {l r : Value} {a b : Int64} {x y : Float}

/-- A comparison and its mirror image give the same answer, or are refused for the same reason. -/
inductive Accord (operator : InfixOperator) (l r : Value) : Value → Value → Prop
  | answer (b : Bool) : Accord operator l r (boolean b) (boolean b)
  | mismatch : Accord operator l r (ofError (.typeMismatch l.type operator r.type))
      (ofError (.typeMismatch r.type operator.mirror l.type))
  | unknown : Accord operator l r (ofError (.unknownInfix l.type operator r.type))
      (ofError (.unknownInfix r.type operator.mirror l.type))

/-- Equality and its negation give opposite answers, or are both refused. -/
inductive Denial (l r : Value) : Value → Value → Prop
  | answer (b : Bool) : Denial l r (boolean b) (boolean !b)
  | mismatch : Denial l r (ofError (.typeMismatch l.type .equalTo r.type))
      (ofError (.typeMismatch l.type .notEqualTo r.type))

inductive Dispatch (l r : Value) : Prop
  | integers (a b : Int64) : (∀ operator, applyInfix operator l r = integerInfix operator a b) →
    (∀ operator, applyInfix operator r l = integerInfix operator b a) → Dispatch l r
  | reals (x y : Float) : (∀ operator, applyInfix operator l r = realInfix operator x y) →
    (∀ operator, applyInfix operator r l = realInfix operator y x) → Dispatch l r
  | others : (∀ operator ≠ .add, applyInfix operator l r = otherInfix operator l r) →
    (∀ operator ≠ .add, applyInfix operator r l = otherInfix operator r l) → Dispatch l r

lemma applyInfix_string (s t : String) (h : operator ≠ .add) :
    applyInfix operator (string s) (string t) = otherInfix operator (string s) (string t) := by
  cases operator with
  | add => exact absurd rfl h
  | _ => rfl

lemma dispatch (l r : Value) : Dispatch l r := by
  cases l with
  | integer a =>
    cases r with
    | integer b => exact .integers a b (fun _ => rfl) fun _ => rfl
    | real y => exact .reals (nearest a) y (fun _ => rfl) fun _ => rfl
    | _ => exact .others (fun _ _ => rfl) fun _ _ => rfl
  | real x =>
    cases r with
    | integer b => exact .reals x (nearest b) (fun _ => rfl) fun _ => rfl
    | real y => exact .reals x y (fun _ => rfl) fun _ => rfl
    | _ => exact .others (fun _ _ => rfl) fun _ _ => rfl
  | string s =>
    cases r with
    | string t =>
      exact .others (fun _ h => applyInfix_string s t h) fun _ h => applyInfix_string t s h
    | _ => exact .others (fun _ _ => rfl) fun _ _ => rfl
  | _ => cases r <;> exact .others (fun _ _ => rfl) fun _ _ => rfl

lemma same_comm (l r : Value) : same l r = same r l := by
  induction l generalizing r with
  | returned v ih =>
    cases r with
    | returned w => exact ih w
    | _ => rfl
  | integer a =>
    cases r with
    | integer b => exact BEq.comm
    | _ => rfl
  | real x =>
    cases r with
    | real y => exact BEq.comm
    | _ => rfl
  | boolean b =>
    cases r with
    | boolean c => exact BEq.comm
    | _ => rfl
  | string s =>
    cases r with
    | string t => exact BEq.comm
    | _ => rfl
  | null => cases r <;> rfl
  | error e =>
    cases r with
    | error f => exact BEq.comm
    | _ => rfl
  | procedure p =>
    cases r with
    | procedure q => exact BEq.comm
    | _ => rfl

lemma accord_integers (h : operator ∈ comparisons) :
    Accord operator l r (integerInfix operator a b) (integerInfix operator.mirror b a) := by
  cases operator with
  | equalTo =>
    rw [integerInfix, BEq.comm]
    exact .answer _
  | notEqualTo =>
    rw [integerInfix, bne_comm]
    exact .answer _
  | greaterThan | greaterEq | lessThan | lessEq => exact .answer _
  | _ => exact absurd h (by decide)

lemma accord_reals (h : operator ∈ comparisons) :
    Accord operator l r (realInfix operator x y) (realInfix operator.mirror y x) := by
  cases operator with
  | equalTo =>
    rw [realInfix, BEq.comm]
    exact .answer _
  | notEqualTo =>
    rw [realInfix, bne, BEq.comm]
    exact .answer _
  | greaterThan | greaterEq | lessThan | lessEq => exact .answer _
  | _ => exact absurd h (by decide)

lemma accord_others (h : operator ∈ comparisons) :
    Accord operator l r (otherInfix operator l r) (otherInfix operator.mirror r l) := by
  by_cases htype : l.type = r.type
  · rw [otherInfix.eq_def, otherInfix.eq_def, if_neg (not_not.2 htype),
      if_neg (not_not.2 htype.symm)]
    cases operator with
    | equalTo | notEqualTo =>
      dsimp only [InfixOperator.mirror]
      rw [same_comm l r]
      exact .answer _
    | greaterThan | greaterEq | lessThan | lessEq => exact .unknown
    | _ => exact absurd h (by decide)
  · rw [otherInfix.eq_def, otherInfix.eq_def, if_pos htype, if_pos (Ne.symm htype)]
    exact .mismatch

lemma accord (h : operator ∈ comparisons) (l r : Value) :
    Accord operator l r (applyInfix operator l r) (applyInfix operator.mirror r l) := by
  obtain ⟨hne, hne'⟩ := InfixOperator.comparisons_ne_add operator h
  cases dispatch l r with
  | integers a b hl hr =>
    rw [hl, hr]
    exact accord_integers h
  | reals x y hl hr =>
    rw [hl, hr]
    exact accord_reals h
  | others hl hr =>
    rw [hl _ hne, hr _ hne']
    exact accord_others h

lemma denial (l r : Value) : Denial l r (applyInfix .equalTo l r) (applyInfix .notEqualTo l r) := by
  cases dispatch l r with
  | integers a b hl _ =>
    rw [hl, hl]
    exact .answer _
  | reals x y hl _ =>
    rw [hl, hl]
    exact .answer _
  | others hl _ =>
    rw [hl .equalTo nofun, hl .notEqualTo nofun, otherInfix, otherInfix]
    split
    · exact .mismatch
    · exact .answer _

def Compares (operator : InfixOperator) (l r : Value) : Prop :=
  applyInfix operator l r = boolean true

lemma compares_integers (a b : Int64) :
    (Compares .lessThan (integer a) (integer b) ↔ a < b) ∧
    (Compares .equalTo (integer a) (integer b) ↔ a = b) ∧
    (Compares .greaterThan (integer a) (integer b) ↔ b < a) ∧
    (Compares .lessEq (integer a) (integer b) ↔ a ≤ b) ∧
    (Compares .greaterEq (integer a) (integer b) ↔ b ≤ a) := by
  simp [Compares, applyInfix, integerInfix]

lemma compares_one (a b : Int64) :
    ∃! operator, operator ∈ [.lessThan, .equalTo, .greaterThan] ∧
      Compares operator (integer a) (integer b) := by
  obtain ⟨hlt, heq, hgt, -, -⟩ := compares_integers a b
  rw [Int64.lt_iff_toInt_lt] at hlt hgt
  rw [← Int64.toInt_inj] at heq
  have hmem (operator : InfixOperator) : operator ∈ [.lessThan, .equalTo, .greaterThan] →
      operator = .lessThan ∨ operator = .equalTo ∨ operator = .greaterThan := by
    simp
  apply existsUnique_of_exists_of_unique
  · rcases Int.lt_trichotomy a.toInt b.toInt with h | h | h
    · exact ⟨.lessThan, by simp, hlt.2 h⟩
    · exact ⟨.equalTo, by simp, heq.2 h⟩
    · exact ⟨.greaterThan, by simp, hgt.2 h⟩
  · rintro operator operator' ⟨hone, hcompares⟩ ⟨hone', hcompares'⟩
    rcases hmem operator hone with rfl | rfl | rfl <;>
      rcases hmem operator' hone' with rfl | rfl | rfl <;>
      simp only [hlt, heq, hgt] at hcompares hcompares' <;> first | rfl | omega

end Value

end MiniPascal
