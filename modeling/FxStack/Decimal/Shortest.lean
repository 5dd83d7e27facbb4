import FxStack.Decimal

/-!
# Shortest decimals

The shortest decimal of a magnitude is the one with the fewest digits among those that round to it,
and of these the nearest. Candidates are the two neighbours of the magnitude on the grid of decimals
with a given number of digits: if any point of the grid rounds to the magnitude, one of them does.
-/

namespace FxStack

/-- Which of two equally near decimals is taken. -/
inductive TieRule where
  | toEven
  | up
deriving DecidableEq

namespace BinaryFormat

variable (f : BinaryFormat)

/-- The number of decimal digits of a natural number, none for 0. -/
def digitCount (n : Nat) : Nat := if n = 0 then 0 else (Nat.toDigits 10 n).length

/-- The exponent of the first significant digit of `n / d`, for positive `n` and `d`. -/
def floorLog10 (n d : Nat) : Int :=
  if d ≤ n then (digitCount (n / d) : Int) - 1
  else -(digitCount ((d + n - 1) / n - 1) : Int)

/-- The decimal with `digits` significant digits next below or above the magnitude with word `w`
    that rounds to `w` and is the nearer one of those that do. -/
def onGrid (tie : TieRule) (w digits : Nat) : Option Decimal :=
  let unit : Int := floorLog10 (f.numerator w) (f.denominator w) - digits + 1
  let n := f.numerator w * Nat.pow 10 (-unit).toNat
  let d := f.denominator w * Nat.pow 10 unit.toNat
  let below : Decimal := ⟨n / d, unit⟩
  let above : Decimal := ⟨n / d + 1, unit⟩
  match decide (f.nearestDecimal below = w), decide (f.nearestDecimal above = w) with
  | true, true =>
    if 2 * (n % d) < d then some below
    else if d < 2 * (n % d) then some above
    else match tie with
      | .toEven => some (if below.coefficient % 2 = 0 then below else above)
      | .up => some above
  | true, false => some below
  | false, true => some above
  | false, false => none

/-- The magnitude with word `w` written out in full. -/
def exactDecimal (w : Nat) : Decimal :=
  ⟨f.numerator w * Nat.pow 5 (-f.exponent w).toNat, min 0 (f.exponent w)⟩

/-- The number of digits that tells any two magnitudes of the formats used here apart. -/
def sufficientDigits : Nat := 17

/-- The shortest decimal that rounds to the finite magnitude with word `w`. -/
def shortest (tie : TieRule) (w : Nat) : Decimal :=
  if w = 0 then ⟨0, 0⟩
  else ((List.range sufficientDigits).findSome? fun k => f.onGrid tie w (k + 1)).getD (f.exactDecimal w)

end BinaryFormat

end FxStack
