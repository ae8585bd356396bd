/-! The shortest decimal that a double-precision number is the nearest number to. -/

namespace MiniPascal.Decimal

structure Scaled where
  digits : Nat
  scale : Int
  deriving DecidableEq, Repr

structure Binary where
  mantissa : Nat
  exponent : Int
  deriving DecidableEq, Repr

namespace Binary

/-- Half the distance to the double below, in quarters of the last place: the gap below a power of
two is half as wide, except where the spacing cannot shrink any more. -/
def gapBelow (b : Binary) : Nat :=
  if b.mantissa = Nat.pow 2 52 ∧ -1074 < b.exponent then 1 else 2

/-- Numerator and denominator by which quarters of the last place become units of `10 ^ scale`. -/
def ratio (b : Binary) (scale : Int) : Nat × Nat :=
  let quarter := b.exponent - 2
  (Nat.pow 2 quarter.toNat * Nat.pow 10 (-scale).toNat,
    Nat.pow 2 (-quarter).toNat * Nat.pow 10 scale.toNat)

/-- Whether `digits · 10 ^ scale` rounds to `b`; the ends of the interval do if the mantissa is
even. -/
def isNearest (b : Binary) (scale : Int) (digits : Nat) : Bool :=
  let (num, den) := b.ratio scale
  let low := (4 * b.mantissa - b.gapBelow) * num
  let high := (4 * b.mantissa + 2) * num
  if b.mantissa % 2 = 0 then low ≤ digits * den && digits * den ≤ high
  else low < digits * den && digits * den < high

/-- Of the two multiples of `10 ^ scale` around `b` the one that rounds to `b`; of two the nearer,
and of two equally near the larger. -/
def onGrid? (b : Binary) (scale : Int) : Option Nat :=
  let (num, den) := b.ratio scale
  let below := 4 * b.mantissa * num / den
  let rest := 4 * b.mantissa * num % den
  match b.isNearest scale below, b.isNearest scale (below + 1) with
  | true, true => if 2 * rest < den then some below else some (below + 1)
  | true, false => some below
  | false, true => some (below + 1)
  | false, false => none

def search (b : Binary) : (steps : Nat) → (scale : Int) → Scaled
  | 0, scale => ⟨0, scale⟩
  | steps + 1, scale =>
    match b.onGrid? scale with
    | some digits => ⟨digits, scale⟩
    | none => b.search steps (scale - 1)

/-- A grid coarser than any with a hit: `10 ^ coarse` exceeds twice the number. -/
def coarse (b : Binary) : Int :=
  let bits := b.mantissa.log2 + b.exponent + 2
  max (bits * 30 / 100) (bits * 31 / 100) + 1

/-- The shortest decimal nearest to `b`; a grid with seventeen digits always has a hit, and the
search starts at most twelve grids above the first digit. -/
def shortest (b : Binary) : Scaled := b.search 40 b.coarse

end Binary

inductive Parts where
  | finite (negative : Bool) (magnitude : Binary)
  | infinite (negative : Bool)
  | notANumber

def Parts.ofFloat (x : Float) : Parts :=
  let bits := x.toBits.toNat
  let negative := bits / Nat.pow 2 63 == 1
  let exponent : Nat := bits / Nat.pow 2 52 % Nat.pow 2 11
  let fraction : Nat := bits % Nat.pow 2 52
  if exponent = 2047 then
    if fraction = 0 then .infinite negative else .notANumber
  else if exponent = 0 then .finite negative ⟨fraction, -1074⟩
  else .finite negative ⟨Nat.pow 2 52 + fraction, (exponent : Int) - 1075⟩

end MiniPascal.Decimal
