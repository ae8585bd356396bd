import Mathlib
import MiniPascal.Decimal.Numeral

namespace MiniPascal.Decimal

variable {cs whole fraction : List Char} {n : Int64}

def IsNumeral (cs : List Char) : Prop := cs ≠ [] ∧ ∀ c ∈ cs, c.isDigit = true

lemma valueOf_eq (cs : List Char) : valueOf cs = Nat.ofDigitChars 10 cs 0 := rfl

lemma splitSign_digit {c : Char} (hc : c.isDigit = true) (rest : List Char) :
    splitSign (c :: rest) = (false, c :: rest) := by
  unfold splitSign
  split
  · next h =>
    obtain ⟨rfl, rfl⟩ := List.cons.inj h
    simp at hc
  · next h =>
    obtain ⟨rfl, rfl⟩ := List.cons.inj h
    simp at hc
  · rfl

lemma IsNumeral.splitSign (h : IsNumeral cs) (rest : List Char) :
    splitSign (cs ++ rest) = (false, cs ++ rest) := by
  obtain ⟨c, cs, rfl⟩ := List.exists_cons_of_ne_nil h.1
  exact splitSign_digit (h.2 c List.mem_cons_self) (cs ++ rest)

lemma IsNumeral.natural? (h : IsNumeral cs) : natural? cs = some (valueOf cs) := by
  rw [Decimal.natural?, if_pos ⟨h.1, List.all_eq_true.2 h.2⟩]

lemma inInt64_natCast (k : ℕ) : inInt64 (signed false k) ↔ k < 2 ^ 63 := by
  simp only [inInt64, signed, Int64.toInt_minValue, Int64.toInt_maxValue, Bool.false_eq_true,
    if_false]
  omega

lemma IsNumeral.integer? (h : IsNumeral cs) : integer? (.ofList cs) =
    if valueOf cs < 2 ^ 63 then some (.ofNat (valueOf cs)) else none := by
  have hsign := h.splitSign []
  rw [List.append_nil] at hsign
  have hofNat : Int64.ofInt (signed false (valueOf cs)) = .ofNat (valueOf cs) :=
    Int64.ofInt_eq_ofNat
  simp only [Decimal.integer?, String.toList_ofList, hsign, h.natural?, inInt64_natCast, hofNat]

lemma IsNumeral.toInt_eq (h : IsNumeral cs) (hn : Decimal.integer? (.ofList cs) = some n) :
    n.toInt = valueOf cs ∧ valueOf cs < 2 ^ 63 := by
  rw [h.integer?] at hn
  split at hn
  · next hlt =>
    rw [← Option.some.inj hn]
    exact ⟨Int64.toInt_ofNat_of_lt hlt, hlt⟩
  · cases hn

lemma IsNumeral.le_valueOf (h : IsNumeral cs) (hn : Decimal.integer? (.ofList cs) = none) :
    2 ^ 63 ≤ valueOf cs := by
  rw [h.integer?] at hn
  split at hn
  · cases hn
  · next hle => exact Nat.le_of_not_lt hle

lemma IsNumeral.magnitude? (hwhole : IsNumeral whole) (hfraction : IsNumeral fraction) :
    (magnitude? (whole ++ '.' :: fraction)).isSome = true := by
  have htake : (whole ++ '.' :: fraction).takeWhile isDigit = whole := by
    rw [List.takeWhile_append_of_pos (p := isDigit) hwhole.2]
    simp [isDigit]
  have hdrop : (whole ++ '.' :: fraction).dropWhile isDigit = '.' :: fraction := by
    rw [List.dropWhile_append_of_pos (p := isDigit) hwhole.2]
    simp [isDigit]
  have htake' : fraction.takeWhile isDigit = fraction := List.takeWhile_eq_self_iff.2 hfraction.2
  have hdrop' : fraction.dropWhile isDigit = [] := List.dropWhile_eq_nil_iff.2 hfraction.2
  simp [Decimal.magnitude?, htake, hdrop, htake', hdrop', hwhole.1, exponent?]

lemma IsNumeral.real? (hwhole : IsNumeral whole) (hfraction : IsNumeral fraction) :
    (real? (.ofList (whole ++ '.' :: fraction))).isSome = true := by
  have hmagnitude := hwhole.magnitude? hfraction
  simp only [Decimal.real?, String.toList_ofList, hwhole.splitSign]
  simp [Option.isSome_or, hmagnitude]

lemma isNumeral_repr (k : ℕ) : IsNumeral k.repr.toList := by
  rw [Nat.toList_repr]
  exact ⟨Nat.toDigits_ne_nil, fun c => Nat.isDigit_of_mem_toDigits (by decide) (by decide)⟩

lemma valueOf_repr (k : ℕ) : valueOf k.repr.toList = k := by
  rw [valueOf_eq, Nat.toList_repr, Nat.ofDigitChars_ten_toDigits]

lemma integer?_repr {k : ℕ} (h : k < 2 ^ 63) :
    Decimal.integer? k.repr = some (.ofNat k) := by
  have hread := (isNumeral_repr k).integer?
  rwa [valueOf_repr, if_pos h, String.ofList_toList] at hread

end MiniPascal.Decimal
