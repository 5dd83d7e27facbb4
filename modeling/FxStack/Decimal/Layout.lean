import FxStack.Decimal.Shortest
import FxStack.Float.Double

/-!
# Layouts of numbers

A layout turns the shortest digits of a number into a numeral. Layouts differ in the exponents that
they write without an exponent part, in whether an integral number keeps a zero after the point, and
in how ties between shortest decimals and signs of exponents are settled.
-/

namespace FxStack

/-- How numbers of a binary format are written. -/
structure Layout where
  /-- The least exponent of the first digit that is written without an exponent part. -/
  plainFrom : Int
  /-- The greatest exponent of the first digit that is written without an exponent part. -/
  plainTo : Int
  tie : TieRule
  exponentSign : Numeral.ExponentSign

namespace Layout

/-- Singles in JSON text are plain from `0.000001` to below `10000000000000.0`. -/
def jsonSingle : Layout := ⟨-6, 12, .toEven, .always⟩

/-- Doubles in messages about JSON text are plain from `0.00001` to below `10000000000000000.0`. -/
def jsonDouble : Layout := ⟨-5, 15, .toEven, .always⟩

/-- Singles in descriptions of values are plain from `0.0001` to below `10000000000000000.0`. -/
def description : Layout := ⟨-4, 15, .up, .whenNegative⟩

/-- The significant digits of a decimal, without zeros at the end. -/
def significantDigits (d : Decimal) : List Digit :=
  ((Digit.ofNat d.coefficient).reverse.dropWhile (· = 0)).reverse

/-- The numeral with the given significant digits of which the first has exponent `e`. -/
def plain (negative : Bool) (digits : List Digit) (e : Int) : Numeral :=
  if 0 ≤ e then
    let places := e.toNat + 1
    let whole := digits.take places
    let zeros := places - whole.length
    let rest := digits.drop places
    ⟨negative, Digit.value whole * Nat.pow 10 zeros, if rest.isEmpty then [0] else rest, none⟩
  else ⟨negative, 0, List.replicate (-e - 1).toNat 0 ++ digits, none⟩

/-- The numeral with one digit before the point and the exponent `e`. -/
def scientific (negative : Bool) (digits : List Digit) (e : Int) : Numeral :=
  ⟨negative, Digit.value (digits.take 1), digits.drop 1, some e⟩

def numeral (l : Layout) (negative : Bool) (d : Decimal) : Numeral :=
  if d.coefficient = 0 then ⟨negative, 0, [0], none⟩
  else
    let digits := significantDigits d
    let e := d.top - 1
    if l.plainFrom ≤ e ∧ e ≤ l.plainTo then plain negative digits e else scientific negative digits e

/-- The characters of a finite number of a binary format. -/
def text (l : Layout) (f : BinaryFormat) (negative : Bool) (word : Nat) : List Char :=
  (l.numeral negative (f.shortest l.tie word)).text l.exponentSign

end Layout

namespace Single

/-- The numeral of a finite single in JSON text. -/
def jsonNumeral (x : Single) : Numeral :=
  Layout.jsonSingle.numeral x.negative (BinaryFormat.single.shortest Layout.jsonSingle.tie x.magnitude)

/-- The description of a single; NaN and the infinities have names. -/
def describe (x : Single) : String :=
  if x.isNaN then "NaN"
  else if x.isInfinite then (if x.negative then "-inf" else "inf")
  else String.ofList (Layout.description.text .single x.negative x.magnitude)

end Single

namespace Double

/-- The characters of a double in messages about JSON text. -/
def describe (x : Double) : String :=
  String.ofList (Layout.jsonDouble.text .double x.negative x.magnitude)

end Double

end FxStack
