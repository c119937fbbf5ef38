import Assemblage.Binary64.Basic
import Assemblage.Text.Blank
import Assemblage.Text.Digit
import Assemblage.Text.Lower

/-!
Reading numbers from text: a sign, digits of any script with a point and an exponent, or the names
of infinity and of what is no number. White space around the number is dropped. An underscore may
stand between two digits.
-/

namespace Assemblage.Numeral
set_option autoImplicit false
open Assemblage.Text

/-- What may stand around a number: white space other than the four information separators. -/
def isMargin (c : Char) : Bool := isBlank c && !('\x1c' ≤ c && c ≤ '\x1f')

/-- Takes a sign off; `true` for a minus. -/
def cutSign : List Char → Bool × List Char
  | '-' :: rest => (true, rest)
  | '+' :: rest => (false, rest)
  | rest => (false, rest)

/-- The number that the digits write. -/
def number (digits : List Char) : Nat :=
  digits.foldl (fun n c => n * 10 + (digitValue? c).getD 0) 0

/-- Takes the digits off the front. -/
def cutDigits (s : List Char) : List Char × List Char := (s.takeWhile isDigit, s.dropWhile isDigit)

/-- Drops every underscore between two digits; `none` if one stands elsewhere. -/
def dropUnderscores (digit : Char → Bool) : List Char → Option (List Char)
  | [] => some []
  | ['_'] => none
  | '_' :: _ => none
  | [c] => some [c]
  | c :: '_' :: d :: rest =>
    if digit c && digit d then (dropUnderscores digit (d :: rest)).map (c :: ·) else none
  | c :: rest => (dropUnderscores digit rest).map (c :: ·)

/-- Reads an exponent, which may be missing. -/
def exponent? : List Char → Option Int
  | [] => some 0
  | e :: rest =>
    if e == 'e' || e == 'E' then
      let (negative, rest) := cutSign rest
      let (digits, rest) := cutDigits rest
      if digits.isEmpty || !rest.isEmpty then none
      else some (if negative then -(number digits : Int) else number digits)
    else none

/-- Reads an unsigned decimal: digits on at least one side of the point. -/
def decimal? (negative : Bool) (s : List Char) : Option Binary64 :=
  let (whole, rest) := cutDigits s
  let (fraction, rest) :=
    match rest with
    | '.' :: rest => cutDigits rest
    | rest => ([], rest)
  if whole.isEmpty && fraction.isEmpty then none
  else
    (exponent? rest).map fun e =>
      Binary64.ofDecimal negative (number (whole ++ fraction)) (e - fraction.length)

def named? (negative : Bool) (s : List Char) : Option Binary64 :=
  let name := String.ofList (s.map lowerAscii)
  if name == "inf" || name == "infinity" then some (.infinite negative)
  else if name == "nan" then some .nan
  else none

/-- Reads a real number. -/
def real? (s : List Char) : Option Binary64 := do
  let s ← dropUnderscores isDigit (trim isMargin s)
  let (negative, s) := cutSign s
  (decimal? negative s).or (named? negative s)

/-- Reads an integer in decimal. -/
def integer? (s : List Char) : Option Int := do
  let s ← dropUnderscores isDigit (trim isMargin s)
  let (negative, s) := cutSign s
  if s.isEmpty || !s.all isDigit then none
  else some (if negative then -(number s : Int) else number s)

end Assemblage.Numeral
