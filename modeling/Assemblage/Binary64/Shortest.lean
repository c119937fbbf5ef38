import Assemblage.Binary64.Basic

/-!
The shortest decimal of a magnitude: the fewest digits that read back as the magnitude, and of
those the nearest to it. For one to seventeen digits the two neighbours on the decimal grid are
tried; the exact decimal expansion stands behind them.
-/

namespace Assemblage
set_option autoImplicit false

/-- A decimal, `digits * 10 ^ exponent`. -/
structure Decimal where
  digits : Nat
  exponent : Int
  deriving DecidableEq, Repr

namespace Decimal

/-- Whether the decimal is read as the magnitude. -/
def readsAs (d : Decimal) (m : Magnitude) : Bool :=
  Binary64.ofDecimal false d.digits d.exponent == .finite false m

/-- The exact expansion. -/
def exact (m : Magnitude) : Decimal := ⟨m.units * Nat.pow 5 1074, -1074⟩

/-- The magnitude in units of `10 ^ -400`, rounded down: at least 77 digits for all but zero. -/
def scaled (m : Magnitude) : Nat := m.units * Nat.pow 10 400 / Magnitude.one

/-- The neighbours of the magnitude on the grid of this many digits that read back, the nearer
first; at the same distance the even one is first. -/
def onGrid (m : Magnitude) (count : Nat) : List Decimal :=
  let s := scaled m
  let dropped := (Nat.toDigits 10 s).length - count
  let low := s / Nat.pow 10 dropped
  let exponent : Int := (dropped : Int) - 400
  let below : Decimal := ⟨low, exponent⟩
  let above : Decimal := ⟨low + 1, exponent⟩
  let twice := 2 * m.units * Nat.pow 10 400
  let middle := (2 * low + 1) * Nat.pow 10 dropped * Magnitude.one
  let belowFirst := twice < middle || (twice == middle && low % 2 == 0)
  (if belowFirst then [below, above] else [above, below]).filter (readsAs · m)

def shortest (m : Magnitude) : Decimal :=
  (((List.range 17).flatMap fun i => onGrid m (i + 1)).head?).getD (exact m)

/-- The digits without zeros at their end, and the power of ten of the first digit. -/
def scientific (d : Decimal) : List Char × Int :=
  let digits := Nat.toDigits 10 d.digits
  let significant := (digits.reverse.dropWhile (· == '0')).reverse
  (if significant.isEmpty then ['0'] else significant, d.exponent + digits.length - 1)

end Decimal

end Assemblage
