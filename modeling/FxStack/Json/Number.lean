import FxStack.Decimal.Layout

/-!
# Numbers in JSON text

A numeral of 64 bits without point and exponent is an integer. Any other numeral becomes a double, for
speed rather than to the last bit: its leading digits, as many as have 64 bits, are rounded to a
double, and that is multiplied or divided by a power of ten, which is rounded too. So a numeral may
become a neighbour of the nearest double, and one that is close to the greatest double may be refused.
-/

namespace FxStack

/-! ### Digits that are kept -/

namespace Digit

/-- The number with the digits of `n` and as many more as leave it in 64 bits, and how many digits are
    left. -/
def takeWord (n : Nat) : List Digit → Nat × Nat
  | [] => (n, 0)
  | d :: ds =>
    if 10 * n + d.val < 0x10000000000000000 then takeWord (10 * n + d.val) ds else (n, ds.length + 1)

end Digit

namespace Numeral

/-- The decimal that is made of a numeral. Digits before the point that are left only raise the
    exponent, even if digits behind the point still find room; those left behind the point are ignored. -/
def kept (n : Numeral) : Decimal :=
  let whole := Digit.takeWord 0 (Digit.ofNat n.whole)
  let all := Digit.takeWord whole.1 n.fraction
  ⟨all.1, whole.2 - (n.fraction.length - all.2 : Nat) + n.exponent.getD 0⟩

end Numeral

/-! ### Decimals as doubles -/

namespace Double

/-- The exponent of the greatest power of ten that doubles are multiplied with or divided by. -/
def greatestTenPower : Nat := 308

/-- The magnitude nearest to a power of ten. -/
def tenPower (k : Nat) : Nat := BinaryFormat.double.nearest (Nat.pow 10 k) 1

/-- The magnitude `w` multiplied by `10 ^ k`, unless that is beyond the doubles. -/
def raised? (w k : Nat) : Option Nat :=
  if k ≤ greatestTenPower then
    let product := BinaryFormat.double.product w (tenPower k)
    if product < BinaryFormat.double.infinity then some product else none
  else if w = 0 then some 0
  else none

/-- The magnitude `w` divided by `10 ^ k`, in several steps if the power is none of the doubles. -/
def lowered (w k : Nat) : Nat :=
  if k ≤ greatestTenPower then BinaryFormat.double.quotient w (tenPower k)
  else if w = 0 then 0
  else lowered (BinaryFormat.double.quotient w (tenPower greatestTenPower)) (k - greatestTenPower)
termination_by k
decreasing_by
  unfold greatestTenPower at *
  omega

/-- The magnitude that is made of a decimal, unless it is beyond the doubles. -/
def ofDecimal? (d : Decimal) : Option Nat :=
  let coefficient := BinaryFormat.double.nearest d.coefficient 1
  if 0 ≤ d.exponent then raised? coefficient d.exponent.toNat
  else some (lowered coefficient (-d.exponent).toNat)

end Double

/-! ### Numbers -/

/-- What a numeral means in JSON text: an integer of 64 bits, or a double. -/
inductive Number where
  | integer (i : Int)
  | real (x : Double)
deriving DecidableEq

namespace Numeral

/-- The double that a numeral is read as, unless it is beyond the doubles. -/
def double? (n : Numeral) : Option Double := (Double.ofDecimal? n.kept).map (⟨n.negative, ·⟩)

/-- The number that a numeral means, unless it is beyond the doubles. Minus zero is a double, since
    no integer has its sign. -/
def number? (n : Numeral) : Option Number :=
  let isInteger : Bool :=
    if n.negative then 0 < n.whole && n.whole ≤ 0x8000000000000000 else n.whole < 0x10000000000000000
  if n.isIntegral && isInteger then some (.integer n.toInt) else n.double?.map .real

end Numeral

/-- The single nearest to a number. -/
def Number.toSingle : Number → Single
  | .integer i => .ofInt i
  | .real x => x.toSingle

end FxStack
