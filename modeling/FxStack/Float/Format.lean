/-!
# Binary floating-point formats

The magnitudes of a binary format are numbered in increasing order: the exponent field followed by
the fraction field, read as one natural number, is the *word* of a magnitude. Rounding a quotient to
the nearest magnitude is therefore a function into the natural numbers, and overflow is the word of
infinity.
-/

namespace FxStack

/-- A binary interchange format: the number of significant bits, of which the leading one is not
    stored, and the number of bits of the exponent field. -/
structure BinaryFormat where
  precision : Nat
  exponentBits : Nat
deriving DecidableEq

namespace BinaryFormat

def single : BinaryFormat := ⟨24, 8⟩

def double : BinaryFormat := ⟨53, 11⟩

variable (f : BinaryFormat)

/-! ### Words and their values -/

/-- The number of words that share one exponent field. -/
def binade : Nat := Nat.pow 2 (f.precision - 1)

/-- The exponent of the least positive magnitude, which is a power of two. -/
def leastExponent : Int := 3 - (Nat.pow 2 (f.exponentBits - 1) : Nat) - f.precision

/-- The word of infinity, which is above the words of all finite magnitudes. -/
def infinity : Nat := (Nat.pow 2 f.exponentBits - 1) * f.binade

/-- The integral significand of the magnitude with word `w`. -/
def significand (w : Nat) : Nat := if w < f.binade then w else w % f.binade + f.binade

/-- The power of two that scales the significand of the magnitude with word `w`. -/
def exponent (w : Nat) : Int := f.leastExponent + (w / f.binade - 1 : Nat)

/-- The numerator of the finite magnitude with word `w`. -/
def numerator (w : Nat) : Nat := f.significand w * Nat.pow 2 (f.exponent w).toNat

/-- The denominator of the finite magnitude with word `w`, a power of two. -/
def denominator (w : Nat) : Nat := Nat.pow 2 (-f.exponent w).toNat

/-! ### Rounding -/

/-- The quotient `n / d` rounded to the nearest integer, a half to the even one. -/
def roundHalfEven (n d : Nat) : Nat :=
  let below := n / d
  if 2 * (n % d) < d ∨ (2 * (n % d) = d ∧ below % 2 = 0) then below else below + 1

/-- The greatest `k` with `2 ^ k ≤ n / d`, for positive `n` and `d`. -/
def floorLog2 (n d : Nat) : Int :=
  let k : Int := (Nat.log2 n : Int) - Nat.log2 d
  if d * Nat.pow 2 k.toNat ≤ n * Nat.pow 2 (-k).toNat then k else k - 1

/-- The exponent at which the quotient `n / d` is rounded. -/
def roundingExponent (n d : Nat) : Int :=
  max f.leastExponent (floorLog2 n d - (f.precision - 1 : Nat))

/-- The word of the magnitude nearest to the quotient `n / d`, a tie going to the even word, and the
    word of infinity for every quotient beyond the greatest finite magnitude. -/
def nearest (n d : Nat) : Nat :=
  if n = 0 then 0
  else
    let q := f.roundingExponent n d
    min ((q - f.leastExponent).toNat * f.binade
      + roundHalfEven (n * Nat.pow 2 (-q).toNat) (d * Nat.pow 2 q.toNat)) f.infinity

/-! ### Arithmetic -/

/-- The word nearest to the product of the finite magnitudes with words `v` and `w`. -/
def product (v w : Nat) : Nat := f.nearest (f.numerator v * f.numerator w) (f.denominator v * f.denominator w)

/-- The word nearest to the quotient of the finite magnitudes with words `v` and `w`, the latter not 0. -/
def quotient (v w : Nat) : Nat := f.nearest (f.numerator v * f.denominator w) (f.denominator v * f.numerator w)

end BinaryFormat

end FxStack
