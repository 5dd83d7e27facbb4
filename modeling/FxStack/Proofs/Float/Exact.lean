import FxStack.Proofs.Float.Error
import FxStack.Proofs.Float.Integer

/-! Quotients that need no rounding. A number of 24 bits over a power of two is a single, so it becomes that single
    whether it is rounded at once or is the quotient of two singles, and a number of 53 bits is a double. What a quotient
    is rounded to depends on its value only. Main statements: `Single.value?_ofRatio`, `Single.quotient_of_value?` and
    `BinaryFormat.value_nearest_one`. -/

namespace FxStack

namespace BinaryFormat

/-! ### Quotients of one value -/

theorem roundHalfEven_mul_right (n d : Nat) {c : Nat} (hc : 0 < c) :
    roundHalfEven (n * c) (d * c) = roundHalfEven n d := by
  unfold roundHalfEven
  dsimp only
  have hlt : 2 * (n % d * c) < d * c ↔ 2 * (n % d) < d := by rw [← Nat.mul_assoc, Nat.mul_lt_mul_right hc]
  have heq : 2 * (n % d * c) = d * c ↔ 2 * (n % d) = d := by rw [← Nat.mul_assoc, Nat.mul_left_inj (Nat.ne_of_gt hc)]
  simp only [Nat.mul_div_mul_right _ _ hc, Nat.mul_mod_mul_right, hlt, heq]

/-- The powers of two on both sides of a quotient determine its binary logarithm. -/
theorem floorLog2_unique {n d : Nat} (hn : n ≠ 0) (hd : d ≠ 0) {k : Int} (hlower : (2 : ℚ) ^ k ≤ n / d)
    (hupper : (n : ℚ) / d < 2 ^ (k + 1)) : floorLog2 n d = k := by
  obtain ⟨hfloor, hceil⟩ := floorLog2_spec hn hd
  have hle : floorLog2 n d < k + 1 := (zpow_lt_zpow_iff_right₀ one_lt_two).mp (hfloor.trans_lt hupper)
  have hge : k < floorLog2 n d + 1 := (zpow_lt_zpow_iff_right₀ one_lt_two).mp (hlower.trans_lt hceil)
  omega

theorem floorLog2_mul_right {n d c : Nat} (hn : n ≠ 0) (hd : d ≠ 0) (hc : c ≠ 0) :
    floorLog2 (n * c) (d * c) = floorLog2 n d := by
  obtain ⟨hlower, hupper⟩ := floorLog2_spec hn hd
  have hvalue : ((n * c : Nat) : ℚ) / (d * c : Nat) = n / d := by
    push_cast
    exact mul_div_mul_right _ _ (by exact_mod_cast hc)
  exact floorLog2_unique (Nat.mul_ne_zero hn hc) (Nat.mul_ne_zero hd hc) (by rwa [hvalue]) (by rwa [hvalue])

/-- Two quotients of one value are rounded to one word. -/
theorem nearest_mul_right (f : BinaryFormat) {n d c : Nat} (hd : d ≠ 0) (hc : c ≠ 0) :
    f.nearest (n * c) (d * c) = f.nearest n d := by
  by_cases hn : n = 0
  · rw [hn, Nat.zero_mul]
    rfl
  have hexponent : f.roundingExponent (n * c) (d * c) = f.roundingExponent n d := by
    rw [roundingExponent, floorLog2_mul_right hn hd hc, ← roundingExponent]
  rw [nearest, nearest, if_neg (Nat.mul_ne_zero hn hc), if_neg hn, hexponent]
  dsimp only
  rw [Nat.mul_right_comm n, Nat.mul_right_comm d, roundHalfEven_mul_right _ _ (Nat.pos_of_ne_zero hc)]

section
variable (f : BinaryFormat) {v w m k : Nat}
  (hv : f.numerator v = m * f.denominator v) (hw : f.numerator w = k * f.denominator w)
include hv hw

/-- A product of whole numbers is rounded once. -/
theorem product_of_numerator : f.product v w = f.nearest (m * k) 1 := by
  have hunit := Nat.mul_ne_zero (f.denominator_ne_zero v) (f.denominator_ne_zero w)
  have hone := f.nearest_mul_right (n := m * k) one_ne_zero hunit
  rwa [Nat.one_mul, Nat.mul_mul_mul_comm, ← hv, ← hw] at hone

/-- A quotient of whole numbers is rounded once. -/
theorem quotient_of_numerator (hk : k ≠ 0) : f.quotient v w = f.nearest m k := by
  have hunit := Nat.mul_ne_zero (f.denominator_ne_zero v) (f.denominator_ne_zero w)
  rw [quotient, hv, hw, Nat.mul_assoc, Nat.mul_left_comm _ k, f.nearest_mul_right hk hunit]

end

/-! ### Numbers of 24 bits over powers of two -/

section
variable {n k : Nat} (hn : n ≠ 0) (hlt : n < 2 ^ 24) (hk : k ≤ 126)
include hn

theorem floorLog2_two_pow : floorLog2 n (2 ^ k) = Nat.log2 n - k := by
  have htwo : (2 : ℚ) ≠ 0 := two_ne_zero
  have hlower : (2 : ℚ) ^ (Nat.log2 n : Int) ≤ n := by exact_mod_cast Nat.log2_self_le hn
  have hupper : (n : ℚ) < 2 ^ ((Nat.log2 n : Int) + 1) := by exact_mod_cast (Nat.lt_log2_self : n < 2 ^ (Nat.log2 n + 1))
  have hcast : ((2 ^ k : Nat) : ℚ) = 2 ^ (k : Int) := by norm_cast
  refine floorLog2_unique hn (by positivity) ?_ ?_
  · rw [hcast, zpow_sub₀ htwo]
    gcongr
  · rw [hcast, sub_add_eq_add_sub, zpow_sub₀ htwo]
    gcongr

include hlt hk

/-- The word of such a quotient has its number as significand, with zeros at the end up to 24 bits. -/
theorem nearest_two_pow : single.nearest n (2 ^ k) = wordOf (Nat.log2 n - 23 - k) (n * 2 ^ (23 - Nat.log2 n)) := by
  have hlog : Nat.log2 n < 24 := (Nat.log2_lt hn).mpr hlt
  have hinfinity : single.infinity = 255 * 2 ^ 23 := by decide
  have hbinade : single.binade = 2 ^ 23 := by decide
  have hleast : single.leastExponent = -149 := by decide
  have hprecision : ((single.precision - 1 : Nat) : Int) = 23 := by decide
  have hexponent : single.roundingExponent n (2 ^ k) = (Nat.log2 n : Int) - 23 - k := by
    unfold roundingExponent
    rw [floorLog2_two_pow hn, hleast, hprecision]
    omega
  have hup : (-((Nat.log2 n : Int) - 23 - k)).toNat = (23 - Nat.log2 n) + k := by omega
  have hdown : ((Nat.log2 n : Int) - 23 - k).toNat = 0 := by omega
  have hround : roundHalfEven (n * 2 ^ ((23 - Nat.log2 n) + k)) (2 ^ k * 2 ^ 0) = n * 2 ^ (23 - Nat.log2 n) := by
    rw [Nat.pow_add, ← Nat.mul_assoc, Nat.pow_zero, Nat.mul_comm (2 ^ k), roundHalfEven_mul_right _ _ (Nat.two_pow_pos k),
      roundHalfEven_one]
  have hpadded := (padded_bounds hn (Nat.le_of_lt_succ hlog)).2
  rw [nearest, if_neg hn]
  dsimp only
  rw [hexponent, hinfinity, hbinade, hleast, Int.sub_neg, hup, hdown, Nat.pow_eq, Nat.pow_eq, hround]
  unfold wordOf
  rw [Nat.min_eq_left]
  omega

/-- Nothing is lost. -/
theorem value_nearest_two_pow :
    (single.numerator (single.nearest n (2 ^ k)) : ℚ) / single.denominator (single.nearest n (2 ^ k)) = n / 2 ^ k := by
  have hlog : Nat.log2 n ≤ 23 := Nat.le_of_lt_succ ((Nat.log2_lt hn).mpr hlt)
  obtain ⟨hlower, hupper⟩ := padded_bounds hn hlog
  have htwo : (2 : ℚ) ≠ 0 := two_ne_zero
  rw [nearest_two_pow hn hlt hk]
  unfold numerator denominator
  rw [significand_wordOf hlower hupper, exponent_wordOf (by omega) hlower hupper, Nat.pow_eq, Nat.pow_eq]
  push_cast
  calc (n : ℚ) * 2 ^ (23 - Nat.log2 n) * 2 ^ ((Nat.log2 n : Int) - 23 - k).toNat / 2 ^ (-((Nat.log2 n : Int) - 23 - k)).toNat
      = n * (2 ^ ((23 - Nat.log2 n : Nat) : Int) * 2 ^ ((Nat.log2 n : Int) - 23 - k)) := by
        rw [zpow_natCast, zpow_eq_div htwo ((Nat.log2 n : Int) - 23 - k)]
        ring
    _ = n * 2 ^ (-(k : Int)) := by
        rw [← zpow_add₀ htwo]
        congr 2
        omega
    _ = n / 2 ^ k := by rw [zpow_neg, zpow_natCast, div_eq_mul_inv]

theorem nearest_two_pow_lt : single.nearest n (2 ^ k) < single.infinity := by
  have hinfinity : single.infinity = 255 * 2 ^ 23 := by decide
  have hlog : Nat.log2 n ≤ 23 := Nat.le_of_lt_succ ((Nat.log2_lt hn).mpr hlt)
  have hpadded := (padded_bounds hn hlog).2
  rw [nearest_two_pow hn hlt hk, hinfinity]
  unfold wordOf
  omega

end

/-! ### Numbers of 53 bits -/

section
variable {n : Nat} (h : n < 2 ^ 53)
include h

/-- The word of such a number has it as significand, with zeros at the end up to 53 bits. -/
theorem nearest_double_one (hn : n ≠ 0) :
    double.nearest n 1 = (1022 + Nat.log2 n) * double.binade + n * 2 ^ (52 - Nat.log2 n) := by
  have hlog : Nat.log2 n < 53 := (Nat.log2_lt hn).mpr h
  have hinfinity : double.infinity = 2047 * 2 ^ 52 := by decide
  have hbinade : double.binade = 2 ^ 52 := by decide
  have hleast : double.leastExponent = -1074 := by decide
  have hprecision : ((double.precision - 1 : Nat) : Int) = 52 := by decide
  have hfloor : floorLog2 n 1 = Nat.log2 n := by simpa using floorLog2_two_pow (k := 0) hn
  have hexponent : double.roundingExponent n 1 = (Nat.log2 n : Int) - 52 := by
    unfold roundingExponent
    rw [hfloor, hleast, hprecision]
    omega
  have hup : (-((Nat.log2 n : Int) - 52)).toNat = 52 - Nat.log2 n := by omega
  have hdown : ((Nat.log2 n : Int) - 52).toNat = 0 := by omega
  have hsteps : ((Nat.log2 n : Int) - 52 - -1074).toNat = 1022 + Nat.log2 n := by omega
  have hpadded := (padded_bounds hn (Nat.le_of_lt_succ hlog)).2
  rw [nearest, if_neg hn]
  dsimp only
  rw [hexponent, hinfinity, hbinade, hleast, hup, hdown, hsteps, Nat.pow_eq, Nat.pow_eq, Nat.pow_zero, roundHalfEven_one,
    Nat.min_eq_left]
  omega

/-- Nothing of it is lost. -/
theorem value_nearest_one : double.value (double.nearest n 1) = n := by
  by_cases hn : n = 0
  · have hzero : double.nearest 0 1 = 0 := rfl
    rw [hn, hzero, value_zero, Nat.cast_zero]
  obtain ⟨hlower, hupper⟩ := padded_bounds hn (Nat.le_of_lt_succ ((Nat.log2_lt hn).mpr h))
  have hbinade : double.binade = 2 ^ 52 := by decide
  have hexponent : double.leastExponent + (1022 + Nat.log2 n : Nat) = -(52 - Nat.log2 n : Nat) := by
    have hleast : double.leastExponent = -1074 := by decide
    have hlog := (Nat.log2_lt hn).mpr h
    omega
  rw [nearest_double_one h hn, double.value_word (by rwa [hbinade]) (by rw [hbinade]; exact hupper.le), hexponent,
    zpow_neg, zpow_natCast, Nat.cast_mul, Nat.cast_pow, Nat.cast_ofNat, mul_inv_cancel_right₀ (by positivity)]

theorem numerator_nearest_one : double.numerator (double.nearest n 1) = n * double.denominator (double.nearest n 1) := by
  have hpos : (double.denominator (double.nearest n 1) : ℚ) ≠ 0 := by exact_mod_cast denominator_ne_zero _ _
  have hvalue := value_nearest_one h
  rw [value, div_eq_iff hpos] at hvalue
  exact_mod_cast hvalue

end

end BinaryFormat

/-! ### Values -/

namespace Single

/-- The number that a finite single is. -/
def value? (x : Single) : Option ℚ :=
  if x.isFinite then
    some ((if x.negative then -1 else 1) *
      (BinaryFormat.single.numerator x.magnitude / BinaryFormat.single.denominator x.magnitude))
  else none

theorem negative_ofRatio (b : Bool) (n d : Nat) : (ofRatio b n d).negative = b :=
  negative_pack (Nat.lt_of_le_of_lt (BinaryFormat.single.nearest_le_infinity n d) (by decide))

theorem magnitude_ofRatio (b : Bool) (n d : Nat) : (ofRatio b n d).magnitude = BinaryFormat.single.nearest n d :=
  magnitude_pack (Nat.lt_of_le_of_lt (BinaryFormat.single.nearest_le_infinity n d) (by decide))

/-- A number of 24 bits over a power of two is a single. -/
theorem value?_ofRatio {n k : Nat} (hlt : n < 2 ^ 24) (hk : k ≤ 126) :
    (ofRatio false n (2 ^ k)).value? = some ((n : ℚ) / 2 ^ k) := by
  unfold value? isFinite
  rw [negative_ofRatio, magnitude_ofRatio]
  by_cases hn : n = 0
  · subst hn
    simp [BinaryFormat.nearest, BinaryFormat.numerator, BinaryFormat.significand, BinaryFormat.infinity,
      BinaryFormat.binade, BinaryFormat.single]
  · rw [decide_eq_true (BinaryFormat.nearest_two_pow_lt hn hlt hk), BinaryFormat.value_nearest_two_pow hn hlt hk]
    simp

/-- A number is its numerator in units of the denominator. -/
theorem numerator_of_value? {x : Single} {n : Nat} (hsign : x.negative = false) (h : x.value? = some (n : ℚ)) :
    BinaryFormat.single.numerator x.magnitude = n * BinaryFormat.single.denominator x.magnitude := by
  have hpos : (BinaryFormat.single.denominator x.magnitude : ℚ) ≠ 0 := by
    exact_mod_cast Nat.ne_of_gt (Nat.two_pow_pos _)
  unfold value? at h
  split at h
  · have hvalue := Option.some.inj h
    rw [hsign, if_neg Bool.false_ne_true, one_mul, div_eq_iff hpos] at hvalue
    exact_mod_cast hvalue
  · cases h

/-- The quotient of two numbers is rounded once. -/
theorem quotient_of_value? {x y : Single} {n d : Nat} (hx : x.negative = false) (hy : y.negative = false)
    (hn : x.value? = some (n : ℚ)) (hd : y.value? = some (d : ℚ)) (hd0 : d ≠ 0) : x.quotient y = ofRatio false n d := by
  have hquotient := BinaryFormat.single.quotient_of_numerator (numerator_of_value? hx hn) (numerator_of_value? hy hd) hd0
  rw [quotient, ofRatio, hx, hy, ← BinaryFormat.quotient, hquotient]
  rfl

end Single
end FxStack
