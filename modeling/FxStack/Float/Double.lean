import FxStack.Float.Single

/-!
# Double-precision numbers

Real numerals are read as doubles before they become singles, so a numeral is rounded more than once.
-/

namespace FxStack

/-- A finite double-precision number, given by its sign and the word of its magnitude. -/
structure Double where
  negative : Bool
  magnitude : Nat
deriving DecidableEq

namespace Double

/-- The single nearest to a double; a magnitude beyond the singles gives infinity. -/
def toSingle (x : Double) : Single :=
  Single.ofRatio x.negative (BinaryFormat.double.numerator x.magnitude)
    (BinaryFormat.double.denominator x.magnitude)

end Double

end FxStack
