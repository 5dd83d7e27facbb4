import FxStack.Float.Format

/-!
# Decimals and numerals

A decimal is a natural number scaled by a power of ten. A numeral is the written form of a number:
its digits around the point and its exponent, without the decision how the exponent's sign is shown.
-/

namespace FxStack

/-! ### Digits -/

/-- A decimal digit. -/
abbrev Digit := Fin 10

namespace Digit

def char (d : Digit) : Char := Nat.digitChar d.val

def ofChar? (c : Char) : Option Digit :=
  if h : '0'.toNat ≤ c.toNat ∧ c.toNat - '0'.toNat < 10 then some ⟨c.toNat - '0'.toNat, h.2⟩ else none

def value (ds : List Digit) : Nat := ds.foldl (fun n d => 10 * n + d.val) 0

/-- The digits of a number, most significant first; the number 0 has one digit. -/
def ofNat (n : Nat) : List Digit := (Nat.toDigits 10 n).filterMap ofChar?

end Digit

/-! ### Decimals -/

/-- The number `coefficient * 10 ^ exponent`. -/
structure Decimal where
  coefficient : Nat
  exponent : Int
deriving DecidableEq

namespace Decimal

def numerator (d : Decimal) : Nat := d.coefficient * Nat.pow 10 d.exponent.toNat

def denominator (d : Decimal) : Nat := Nat.pow 10 (-d.exponent).toNat

/-- The exponent of the digit before the first digit, that is, the least `k` with `d < 10 ^ k`. -/
def top (d : Decimal) : Int := (Digit.ofNat d.coefficient).length + d.exponent

end Decimal

namespace BinaryFormat

/-- Powers of ten that no magnitude of the formats used here reaches from either side. -/
def decimalReach : Int := 400

/-- The word of the magnitude nearest to a decimal. A decimal beyond `decimalReach` is infinite or
    zero without its digits being looked at. -/
def nearestDecimal (f : BinaryFormat) (d : Decimal) : Nat :=
  if d.coefficient = 0 ∨ d.top < -decimalReach then 0
  else if decimalReach < d.top then f.infinity
  else f.nearest d.numerator d.denominator

end BinaryFormat

/-! ### Numerals -/

/-- A written number: a sign, the digits before and after the point, and an exponent if there is
    one. -/
structure Numeral where
  negative : Bool
  whole : Nat
  fraction : List Digit
  exponent : Option Int
deriving DecidableEq

namespace Numeral

/-- A numeral without point and exponent. -/
def ofInt (i : Int) : Numeral := ⟨decide (i < 0), i.natAbs, [], none⟩

/-- Whether the numeral has neither a point nor an exponent. -/
def isIntegral (n : Numeral) : Bool := n.fraction.isEmpty && n.exponent.isNone

/-- The integer that the digits before the point denote. -/
def toInt (n : Numeral) : Int := if n.negative then -(n.whole : Int) else n.whole

def decimal (n : Numeral) : Decimal :=
  ⟨n.whole * Nat.pow 10 n.fraction.length + Digit.value n.fraction,
   n.exponent.getD 0 - n.fraction.length⟩

/-- How the sign of a positive exponent is written. -/
inductive ExponentSign where
  | always
  | whenNegative
deriving DecidableEq

def exponentText (sign : ExponentSign) (e : Int) : List Char :=
  let mark : List Char := if e < 0 then ['-'] else match sign with
    | .always => ['+']
    | .whenNegative => []
  'e' :: mark ++ Nat.toDigits 10 e.natAbs

def text (sign : ExponentSign) (n : Numeral) : List Char :=
  (if n.negative then ['-'] else [])
    ++ Nat.toDigits 10 n.whole
    ++ (if n.fraction.isEmpty then [] else '.' :: n.fraction.map Digit.char)
    ++ (match n.exponent with
      | none => []
      | some e => exponentText sign e)

end Numeral

end FxStack
