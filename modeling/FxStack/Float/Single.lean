import FxStack.Float.Format

/-!
# Single-precision numbers

A single is its 32 bits, so that two singles are equal exactly when they are the same word: the two
zeros differ and every NaN keeps its payload. The comparison of values is `Single.sameValue`.
-/

namespace FxStack

/-- A single-precision number, given by its bits. -/
structure Single where
  bits : UInt32
deriving DecidableEq, Inhabited

namespace Single

/-! ### Parts -/

/-- The word whose only bit set is that of the sign. -/
def signBit : Nat := 0x80000000

def negative (x : Single) : Bool := decide (signBit ≤ x.bits.toNat)

/-- The bits below the sign bit. -/
def magnitude (x : Single) : Nat := x.bits.toNat % signBit

/-- The single with the given sign bit and magnitude word. -/
def pack (negative : Bool) (word : Nat) : Single :=
  ⟨UInt32.ofNat ((if negative then signBit else 0) + word)⟩

def isFinite (x : Single) : Bool := decide (x.magnitude < BinaryFormat.single.infinity)

def isInfinite (x : Single) : Bool := decide (x.magnitude = BinaryFormat.single.infinity)

def isNaN (x : Single) : Bool := decide (BinaryFormat.single.infinity < x.magnitude)

def isZero (x : Single) : Bool := decide (x.magnitude = 0)

/-- Equality of values: a NaN equals nothing, and the two zeros are equal. -/
def sameValue (x y : Single) : Bool :=
  !x.isNaN && !y.isNaN && (decide (x = y) || (x.isZero && y.isZero))

/-! ### Rounding to singles -/

/-- The single nearest to the quotient `n / d` with the given sign. -/
def ofRatio (negative : Bool) (n d : Nat) : Single := pack negative (BinaryFormat.single.nearest n d)

/-- The single nearest to a natural number. -/
def ofNat (n : Nat) : Single := ofRatio false n 1

/-- The single nearest to an integer. -/
def ofInt (i : Int) : Single := ofRatio (decide (i < 0)) i.natAbs 1

def zero : Single := ⟨0⟩

def one : Single := ⟨0x3f800000⟩

/-- The quotient of two finite singles of which the second is not zero. -/
def quotient (x y : Single) : Single :=
  let f := BinaryFormat.single
  ofRatio (x.negative != y.negative) (f.numerator x.magnitude * f.denominator y.magnitude)
    (f.denominator x.magnitude * f.numerator y.magnitude)

/-! ### Rounding to integers -/

/-- The integers of 32-bit words, to which greater and smaller ones are moved. -/
def clampInt32 (i : Int) : Int32 := Int32.ofInt (max (-0x80000000) (min 0x7fffffff i))

/-- The nearest 32-bit integer, a half going away from zero; NaN gives 0, and a value out of range
    gives the nearer end of the range. -/
def toInt32 (x : Single) : Int32 :=
  if x.isNaN then 0
  else
    let n := BinaryFormat.single.numerator x.magnitude
    let d := BinaryFormat.single.denominator x.magnitude
    let rounded : Nat := (2 * n + d) / (2 * d)
    clampInt32 (if x.negative then -(rounded : Int) else rounded)

end Single

end FxStack
