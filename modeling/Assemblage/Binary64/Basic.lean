/-!
Binary floating-point numbers of 64 bits, exactly: a finite magnitude is a whole number of units of
`2 ^ -1074`, written as a mantissa below `2 ^ 53` times a power of two. A quotient is rounded to
the nearest magnitude, halves to the even mantissa.
-/

namespace Assemblage
set_option autoImplicit false

/-- A finite magnitude, `mantissa * 2 ^ exponent` units of `2 ^ -1074`. Above the smallest
exponent the mantissa has all 53 bits, so that equal magnitudes are written alike. -/
structure Magnitude where
  mantissa : Nat
  exponent : Nat
  mantissa_lt : mantissa < Nat.pow 2 53
  normal : exponent = 0 ∨ Nat.pow 2 52 ≤ mantissa
  exponent_le : exponent ≤ 2045
  deriving DecidableEq, Repr

inductive Binary64 where
  | finite (negative : Bool) (magnitude : Magnitude)
  | infinite (negative : Bool)
  | nan
  deriving DecidableEq, Repr

namespace Magnitude

def zero : Magnitude := ⟨0, 0, by decide, .inl rfl, by decide⟩

/-- The number of units. -/
def units (m : Magnitude) : Nat := m.mantissa * Nat.pow 2 m.exponent

/-- Units in one. -/
def one : Nat := Nat.pow 2 1074

/-- The magnitude with this mantissa and exponent, if they keep the bounds. -/
def of? (mantissa exponent : Nat) : Option Magnitude :=
  if h : mantissa < Nat.pow 2 53 ∧ (exponent = 0 ∨ Nat.pow 2 52 ≤ mantissa) ∧ exponent ≤ 2045 then
    some ⟨mantissa, exponent, h.1, h.2.1, h.2.2⟩
  else none

/-- The whole number nearest to a quotient, a half going to the even neighbour. -/
def nearest (num den : Nat) : Nat :=
  let q := num / den
  let r := num % den
  if den < 2 * r || (2 * r == den && q % 2 == 1) then q + 1 else q

/-- The magnitude nearest to a quotient of units; `none` beyond the largest. -/
def round? (num den : Nat) : Option Magnitude :=
  let exponent := (num / den).log2 + 1 - 53
  let mantissa := nearest num (den * Nat.pow 2 exponent)
  if mantissa = Nat.pow 2 53 then of? (Nat.pow 2 52) (exponent + 1) else of? mantissa exponent

/-- The whole number that the magnitude is, if it is one. -/
def toNat? (m : Magnitude) : Option Nat :=
  if m.units % one = 0 then some (m.units / one) else none

end Magnitude

namespace Binary64

def zero : Binary64 := finite false .zero

/-- The number nearest to a quotient of units. -/
def ofUnits (negative : Bool) (num den : Nat) : Binary64 :=
  match Magnitude.round? num den with
  | some m => finite negative m
  | none => infinite negative

/-- The number nearest to `digits * 10 ^ exponent`. Beyond 310 places before the point or 330
behind it the answer is known without the power. -/
def ofDecimal (negative : Bool) (digits : Nat) (exponent : Int) : Binary64 :=
  let places : Int := (Nat.toDigits 10 digits).length + exponent
  if digits = 0 then finite negative .zero
  else if 310 < places then infinite negative
  else if places < -330 then finite negative .zero
  else if 0 ≤ exponent then ofUnits negative (digits * Nat.pow 10 exponent.toNat * Magnitude.one) 1
  else ofUnits negative (digits * Magnitude.one) (Nat.pow 10 (-exponent).toNat)

def ofInt (n : Int) : Binary64 := ofDecimal (n < 0) n.natAbs 0

def isFinite : Binary64 → Bool
  | finite .. => true
  | _ => false

/-- The integer that the number is, if it is one. -/
def toInt? : Binary64 → Option Int
  | finite negative m => m.toNat?.map fun n => if negative then -(n : Int) else n
  | _ => none

def neg : Binary64 → Binary64
  | finite negative m => finite (!negative) m
  | infinite negative => infinite (!negative)
  | nan => nan

/-- The units of a finite number, with their sign. -/
def signedUnits (negative : Bool) (m : Magnitude) : Int :=
  if negative then -(m.units : Int) else m.units

def add : Binary64 → Binary64 → Binary64
  | nan, _ => nan
  | _, nan => nan
  | infinite a, infinite b => if a = b then infinite a else nan
  | infinite a, _ => infinite a
  | _, infinite b => infinite b
  | finite a m, finite b n =>
    let sum := signedUnits a m + signedUnits b n
    ofUnits (sum < 0 || (sum == 0 && a && b)) sum.natAbs 1

def mul : Binary64 → Binary64 → Binary64
  | nan, _ => nan
  | _, nan => nan
  | infinite a, infinite b => infinite (a != b)
  | infinite a, finite b n => if n.mantissa = 0 then nan else infinite (a != b)
  | finite a m, infinite b => if m.mantissa = 0 then nan else infinite (a != b)
  | finite a m, finite b n => ofUnits (a != b) (m.units * n.units) Magnitude.one

/-- Equality of numbers: both zeros are one number, and what is no number equals nothing. -/
def sameNumber : Binary64 → Binary64 → Bool
  | nan, _ => false
  | finite a m, finite b n => m == n && (a == b || m.mantissa == 0)
  | x, y => x == y

end Binary64

end Assemblage
