import MiniPascal.Decimal.Shortest

namespace MiniPascal.Decimal

/-- When a number is written positionally: from `10 ^ least` on and below `10 ^ limit`. -/
structure Layout where
  least : Int
  limit : Int

def realLayout : Layout := ⟨-4, 16⟩

def zeros (n : Nat) : String := String.ofList (List.replicate n '0')

def positional (digits : List Char) (point : Int) : String :=
  if point ≤ 0 then "0." ++ zeros (-point).toNat ++ String.ofList digits
  else if digits.length ≤ point then
    String.ofList digits ++ zeros (point.toNat - digits.length) ++ ".0"
  else String.ofList (digits.take point.toNat) ++ "." ++ String.ofList (digits.drop point.toNat)

def scientific (digits : List Char) (exponent : Int) : String :=
  let fraction := if digits.length ≤ 1 then "" else "." ++ String.ofList (digits.drop 1)
  String.ofList (digits.take 1) ++ fraction ++ "e" ++ toString exponent

def Scaled.text (layout : Layout) (d : Scaled) : String :=
  let digits := Nat.toDigits 10 d.digits
  let point := digits.length + d.scale
  if layout.least < point ∧ point ≤ layout.limit then positional digits point
  else scientific digits (point - 1)

def realText (x : Float) : String :=
  match Parts.ofFloat x with
  | .notANumber => "NaN"
  | .infinite negative => if negative then "-inf" else "inf"
  | .finite negative magnitude =>
    let text := if magnitude.mantissa = 0 then "0.0" else magnitude.shortest.text realLayout
    if negative then "-" ++ text else text

end MiniPascal.Decimal
