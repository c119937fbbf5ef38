import Assemblage.Binary64.Shortest
import Assemblage.Text.Digit

/-!
Writing a number. A layout says which powers of ten are written positionally and how an exponent
looks; the digits are always the shortest ones.
-/

namespace Assemblage
set_option autoImplicit false

/-- How the decimals of a format are laid out. -/
structure Layout where
  /-- The least power of ten that is written positionally. -/
  lowest : Int
  /-- The least power of ten that is too large for that. -/
  limit : Int
  /-- The fewest digits of an exponent. -/
  exponentWidth : Nat
  /-- Whether a single digit before an exponent is followed by `.0`. -/
  pointAlways : Bool
  infinity : String
  nan : String

namespace Layout

/-- Messages: positional from `10 ^ -4` to `10 ^ 16`, two digits of exponent. -/
def message : Layout := ⟨-4, 16, 2, false, "inf", "nan"⟩

/-- Payloads: positional from `10 ^ -5` to `10 ^ 16`, the exponent as short as it is. -/
def payload : Layout := ⟨-5, 16, 1, false, "null", "null"⟩

/-- Scene files: a point is always written, so that the number is read as a real. -/
def scene : Layout := ⟨-4, 16, 2, true, ".inf", ".nan"⟩

def positional (digits : List Char) (power : Int) : List Char :=
  if power < 0 then '0' :: '.' :: List.replicate (-power - 1).toNat '0' ++ digits
  else
    let whole := power.toNat + 1
    if digits.length ≤ whole then
      digits ++ List.replicate (whole - digits.length) '0' ++ ['.', '0']
    else digits.take whole ++ '.' :: digits.drop whole

def withExponent (l : Layout) (digits : List Char) (power : Int) : List Char :=
  let mantissa :=
    match digits with
    | [d] => if l.pointAlways then [d, '.', '0'] else [d]
    | d :: rest => d :: '.' :: rest
    | [] => []
  mantissa ++ 'e' :: (if power < 0 then '-' else '+') :: Text.padded l.exponentWidth power.natAbs

def magnitude (l : Layout) (m : Magnitude) : List Char :=
  if m.mantissa = 0 then ['0', '.', '0']
  else
    let (digits, power) := (Decimal.shortest m).scientific
    if l.lowest ≤ power && power < l.limit then positional digits power
    else l.withExponent digits power

def write (l : Layout) : Binary64 → List Char
  | .finite negative m => (if negative then ['-'] else []) ++ l.magnitude m
  | .infinite negative => (if negative then ['-'] else []) ++ l.infinity.toList
  | .nan => l.nan.toList

end Layout

end Assemblage
