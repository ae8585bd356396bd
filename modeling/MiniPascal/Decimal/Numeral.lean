namespace MiniPascal.Decimal

def isDigit (c : Char) : Bool := '0' ≤ c && c ≤ '9'

def digitValue (c : Char) : Nat := c.toNat - '0'.toNat

def valueOf (digits : List Char) : Nat := digits.foldl (fun n c => 10 * n + digitValue c) 0

def natural? (cs : List Char) : Option Nat :=
  if cs ≠ [] ∧ cs.all isDigit then some (valueOf cs) else none

def splitSign : List Char → Bool × List Char
  | '-' :: rest => (true, rest)
  | '+' :: rest => (false, rest)
  | cs => (false, cs)

def signed (negative : Bool) (n : Nat) : Int := if negative then -n else n

def inInt64 (n : Int) : Prop := Int64.minValue.toInt ≤ n ∧ n ≤ Int64.maxValue.toInt

instance (n : Int) : Decidable (inInt64 n) := inferInstanceAs (Decidable (_ ∧ _))

def integer? (literal : String) : Option Int64 :=
  let (negative, digits) := splitSign literal.toList
  match natural? digits with
  | none => none
  | some n => if inInt64 (signed negative n) then some (Int64.ofInt (signed negative n)) else none

def exponent? : List Char → Option Int
  | [] => some 0
  | c :: rest =>
    if c = 'e' ∨ c = 'E' then
      let (negative, digits) := splitSign rest
      (natural? digits).map (signed negative)
    else none

def nearest (n : Nat) (e : Int) : Float := Float.ofScientific n (e < 0) e.natAbs

def magnitude? (cs : List Char) : Option Float :=
  let whole := cs.takeWhile isDigit
  let afterWhole := cs.dropWhile isDigit
  let (fraction, rest) :=
    match afterWhole with
    | '.' :: tail => (tail.takeWhile isDigit, tail.dropWhile isDigit)
    | tail => ([], tail)
  if whole ++ fraction = [] then none
  else (exponent? rest).map fun e => nearest (valueOf (whole ++ fraction)) (e - fraction.length)

def named? (cs : List Char) : Option Float :=
  match String.ofList (cs.map Char.toLower) with
  | "inf" => some (1 / 0)
  | "infinity" => some (1 / 0)
  | "nan" => some (0 / 0)
  | _ => none

def real? (literal : String) : Option Float :=
  let (negative, cs) := splitSign literal.toList
  let x? := (named? cs).or (magnitude? cs)
  if negative then x?.map (-·) else x?

end MiniPascal.Decimal
