import FxStack.Proofs.Float.Rounding
import Mathlib.Algebra.Order.AbsoluteValue.Basic

/-! How much rounding changes. A quotient that is rounded to a normal magnitude changes by half a unit in the last place
    at most, so by no more than a share of itself that is fixed by the format. Shares multiply when numbers do. Main
    statements: `BinaryFormat.nearest_error` and, for doubles, `BinaryFormat.nearby_nearest`. -/

namespace FxStack

/-! ### Shares -/

/-- The number `y` is `lo` times `x` at least and `hi` times `x` at most. -/
structure Nearby (lo hi x y : ℚ) : Prop where
  lower : lo * x ≤ y
  upper : y ≤ hi * x

namespace Nearby
variable {lo hi lo' hi' x y x' y' z : ℚ}

theorem of_abs {share : ℚ} (h : |y - x| ≤ share * x) : Nearby (1 - share) (1 + share) x y := by
  obtain ⟨hlower, hupper⟩ := abs_le.mp h
  constructor <;> linarith only [hlower, hupper]

theorem abs {share : ℚ} (h : Nearby (1 - share) (1 + share) x y) : |y - x| ≤ share * x := by
  obtain ⟨hlower, hupper⟩ := h
  rw [abs_le]
  constructor <;> linarith only [hlower, hupper]

theorem mono (h : Nearby lo hi x y) (hx : 0 ≤ x) (hlo : lo' ≤ lo) (hhi : hi ≤ hi') : Nearby lo' hi' x y :=
  ⟨(mul_le_mul_of_nonneg_right hlo hx).trans h.lower, h.upper.trans (mul_le_mul_of_nonneg_right hhi hx)⟩

theorem trans (h : Nearby lo hi x y) (h' : Nearby lo' hi' y z) (hlo : 0 ≤ lo') (hhi : 0 ≤ hi') :
    Nearby (lo * lo') (hi * hi') x z where
  lower := by
    calc lo * lo' * x = lo' * (lo * x) := by ring
      _ ≤ lo' * y := mul_le_mul_of_nonneg_left h.lower hlo
      _ ≤ z := h'.lower
  upper := by
    calc z ≤ hi' * y := h'.upper
      _ ≤ hi' * (hi * x) := mul_le_mul_of_nonneg_left h.upper hhi
      _ = hi * hi' * x := by ring

section
variable (h : Nearby lo hi x y) (h' : Nearby lo' hi' x' y') (hx : 0 ≤ x) (hlo : 0 ≤ lo)
include h h' hx hlo

theorem mul (hx' : 0 ≤ x') (hlo' : 0 ≤ lo') : Nearby (lo * lo') (hi * hi') (x * x') (y * y') := by
  have hy : 0 ≤ y := (mul_nonneg hlo hx).trans h.lower
  have hy' : 0 ≤ y' := (mul_nonneg hlo' hx').trans h'.lower
  constructor
  · rw [mul_mul_mul_comm]
    exact mul_le_mul h.lower h'.lower (mul_nonneg hlo' hx') hy
  · rw [mul_mul_mul_comm]
    exact mul_le_mul h.upper h'.upper hy' (hy.trans h.upper)

theorem div (hx' : 0 < x') (hlo' : 0 < lo') : Nearby (lo / hi') (hi / lo') (x / x') (y / y') := by
  have hleast : 0 < lo' * x' := mul_pos hlo' hx'
  have hy : 0 ≤ y := (mul_nonneg hlo hx).trans h.lower
  have hy' : 0 < y' := hleast.trans_le h'.lower
  constructor
  · rw [div_mul_div_comm]
    exact div_le_div₀ hy h.lower hy' h'.upper
  · rw [div_mul_div_comm]
    exact div_le_div₀ (hy.trans h.upper) h.upper hleast h'.lower

end

end Nearby

namespace BinaryFormat

/-! ### Values of words -/

section
variable (f : BinaryFormat)

/-- The number that a finite magnitude is. -/
def value (w : Nat) : ℚ := (f.numerator w : ℚ) / f.denominator w

theorem binade_pos : 0 < f.binade := Nat.two_pow_pos _

theorem value_zero : f.value 0 = 0 := by
  rw [value, numerator, significand, if_pos f.binade_pos, Nat.zero_mul, Nat.cast_zero, zero_div]

theorem value_eq_significand (w : Nat) : f.value w = f.significand w * 2 ^ f.exponent w := by
  unfold value numerator denominator
  rw [zpow_eq_div two_ne_zero, Nat.pow_eq, Nat.pow_eq, ← mul_div_assoc]
  push_cast
  rfl

/-- The word made of a number of steps and a significand, also if that has grown by a bit. -/
theorem value_word {k r : Nat} (hlower : f.binade ≤ r) (hupper : r ≤ 2 * f.binade) :
    f.value (k * f.binade + r) = r * 2 ^ (f.leastExponent + k) := by
  have hpos := f.binade_pos
  have hlarge : ¬k * f.binade + r < f.binade := Nat.not_lt.mpr (hlower.trans (Nat.le_add_left _ _))
  rw [value_eq_significand, significand, if_neg hlarge, exponent, Nat.mul_comm k, Nat.mul_add_mod, Nat.mul_add_div hpos]
  rcases Nat.lt_or_eq_of_le hupper with hlt | rfl
  · have hdiv : r / f.binade = 1 := Nat.div_eq_of_lt_le (by omega) (by omega)
    have hmod : r % f.binade + f.binade = r := by
      have hsplit := Nat.div_add_mod r f.binade
      rw [hdiv, Nat.mul_one] at hsplit
      omega
    rw [hdiv, hmod, Nat.add_sub_cancel]
  · have htwo : (2 : ℚ) ≠ 0 := two_ne_zero
    have hstep : f.leastExponent + (k + 1 : Nat) = f.leastExponent + k + 1 := by push_cast; ring
    rw [Nat.mul_mod_left, Nat.mul_div_left _ hpos, Nat.zero_add, Nat.add_sub_assoc (by decide : 1 ≤ 2), hstep,
      zpow_add₀ htwo _ 1, zpow_one]
    push_cast
    ring

end

/-! ### Errors -/

/-- Rounding to an integer changes a quotient by a half at most. -/
theorem roundHalfEven_error (a : Nat) {b : Nat} (hb : 0 < b) : |(roundHalfEven a b : ℚ) - a / b| ≤ 1 / 2 := by
  have hb' : (0 : ℚ) < b := by exact_mod_cast hb
  have hsplit : a = b * (a / b) + a % b := (Nat.div_add_mod a b).symm
  have hrest : a % b < b := Nat.mod_lt a hb
  have hbounds : 2 * (roundHalfEven a b * b) ≤ 2 * a + b ∧ 2 * a ≤ 2 * (roundHalfEven a b * b) + b := by
    unfold roundHalfEven
    dsimp only
    generalize a / b = below at *
    generalize a % b = rest at *
    subst hsplit
    have hnext : (below + 1) * b = below * b + b := Nat.succ_mul below b
    rw [Nat.mul_comm b]
    split <;> omega
  obtain ⟨hupper, hlower⟩ := hbounds
  have hupper' : 2 * ((roundHalfEven a b : ℚ) * b) ≤ 2 * a + b := by exact_mod_cast hupper
  have hlower' : 2 * (a : ℚ) ≤ 2 * (roundHalfEven a b * b) + b := by exact_mod_cast hlower
  rw [sub_div' hb'.ne', abs_div, abs_of_pos hb', div_le_iff₀ hb', abs_le]
  constructor <;> linarith

/-- A quotient that is scaled to natural numbers. -/
theorem div_scaled {n d : Nat} (q : Int) :
    ((n * Nat.pow 2 (-q).toNat : Nat) : ℚ) / (d * Nat.pow 2 q.toNat : Nat) = n / d / 2 ^ q := by
  rw [zpow_eq_div two_ne_zero, Nat.pow_eq, Nat.pow_eq]
  push_cast
  rw [div_div_eq_mul_div, div_mul_eq_mul_div, div_div]

section
variable (f : BinaryFormat) {n d : Nat} (hd : d ≠ 0) (hnormal : f.binade * (2 : ℚ) ^ f.leastExponent ≤ n / d)
include hnormal

theorem ne_zero_of_normal : n ≠ 0 := by
  rintro rfl
  have hbinade : (0 : ℚ) < f.binade := by exact_mod_cast f.binade_pos
  have hpos : 0 < f.binade * (2 : ℚ) ^ f.leastExponent := by positivity
  rw [Nat.cast_zero, zero_div] at hnormal
  exact absurd hpos hnormal.not_gt

include hd

/-- A quotient that is not less than the least normal magnitude is rounded at the exponent that leaves all bits of a
    significand. -/
theorem exists_exponent_of_normal : ∃ k : Nat, f.roundingExponent n d = f.leastExponent + k ∧
    (f.binade : ℚ) ≤ n / d / 2 ^ (f.leastExponent + k) ∧ (n : ℚ) / d / 2 ^ (f.leastExponent + k) < 2 * f.binade := by
  have htwo : (2 : ℚ) ≠ 0 := two_ne_zero
  have hbinade : (f.binade : ℚ) = 2 ^ ((f.precision - 1 : Nat) : Int) := by
    rw [zpow_natCast, binade, Nat.pow_eq]
    norm_cast
  obtain ⟨hlower, hupper⟩ := floorLog2_spec (f.ne_zero_of_normal hnormal) hd
  have hexponent : f.leastExponent ≤ floorLog2 n d - (f.precision - 1 : Nat) := by
    have hless := hnormal.trans_lt hupper
    rw [hbinade, ← zpow_add₀ htwo, zpow_lt_zpow_iff_right₀ one_lt_two] at hless
    omega
  obtain ⟨k, hk⟩ := Int.le.dest hexponent
  have hlog : floorLog2 n d = (f.precision - 1 : Nat) + (f.leastExponent + k) := by omega
  rw [hlog] at hlower hupper
  refine ⟨k, ?_, ?_, ?_⟩
  · unfold roundingExponent
    omega
  · rwa [le_div_iff₀ (by positivity), hbinade, ← zpow_add₀ htwo]
  · rw [div_lt_iff₀ (by positivity), hbinade, mul_assoc, ← zpow_add₀ htwo, mul_comm, ← zpow_add_one₀ htwo]
    exact hupper

/-- It changes by a share that is half a unit in the last place of the least significand. -/
theorem nearest_error (hfinite : f.nearest n d < f.infinity) :
    |f.value (f.nearest n d) - n / d| ≤ n / d / (2 * f.binade) := by
  obtain ⟨k, hexponent, hlower, hupper⟩ := f.exists_exponent_of_normal hd hnormal
  have hbinade : (0 : ℚ) < f.binade := by exact_mod_cast f.binade_pos
  have hunit : (0 : ℚ) < 2 ^ (f.leastExponent + (k : Int)) := by positivity
  have hscaled := div_scaled (n := n) (d := d) (f.leastExponent + k)
  have hpos : 0 < d * Nat.pow 2 (f.leastExponent + (k : Int)).toNat :=
    Nat.mul_pos (Nat.pos_of_ne_zero hd) (Nat.two_pow_pos _)
  unfold nearest at hfinite ⊢
  rw [if_neg (f.ne_zero_of_normal hnormal), hexponent] at hfinite ⊢
  dsimp only at hfinite ⊢
  generalize n * Nat.pow 2 (-(f.leastExponent + (k : Int))).toNat = a at *
  generalize d * Nat.pow 2 (f.leastExponent + (k : Int)).toNat = b at *
  have hb : (0 : ℚ) < b := by exact_mod_cast hpos
  rw [← hscaled] at hlower hupper
  have hround := roundHalfEven_error a hpos
  have hleast : f.binade ≤ roundHalfEven a b := by
    rw [le_div_iff₀ hb] at hlower
    exact le_roundHalfEven hpos (by exact_mod_cast hlower)
  have hmost : roundHalfEven a b ≤ 2 * f.binade := by
    rw [div_lt_iff₀ hb] at hupper
    exact roundHalfEven_le hpos (by exact_mod_cast hupper)
  have hword : (f.leastExponent + (k : Int) - f.leastExponent).toNat = k := by omega
  rw [hword] at hfinite ⊢
  rw [min_eq_left (min_lt_iff.mp hfinite |>.resolve_right (lt_irrefl _)).le, f.value_word hleast hmost]
  have hquotient : (n : ℚ) / d = a / b * 2 ^ (f.leastExponent + (k : Int)) := by
    rw [hscaled, div_mul_cancel₀ _ hunit.ne']
  rw [hquotient, ← sub_mul, abs_mul, abs_of_pos hunit, mul_div_right_comm]
  refine mul_le_mul_of_nonneg_right (hround.trans ?_) hunit.le
  rw [div_le_div_iff₀ two_pos (by positivity)]
  linarith only [hlower]

end

/-! ### Doubles -/

/-- The share by which rounding to a double changes a number. -/
def share : ℚ := 1 / 2 ^ 53

theorem one_sub_share_pos : 0 < 1 - share := by norm_num [share]

theorem one_add_share_pos : 0 < 1 + share := by norm_num [share]

theorem nearby_nearest {n d : Nat} (hd : d ≠ 0) (hnormal : (2 : ℚ) ^ (-1022 : Int) ≤ n / d)
    (hfinite : double.nearest n d < double.infinity) :
    Nearby (1 - share) (1 + share) (n / d) (double.value (double.nearest n d)) := by
  have hbinade : (double.binade : ℚ) = 2 ^ (52 : Int) := by
    have hpow : double.binade = 2 ^ 52 := by decide
    rw [hpow]
    norm_cast
  have hleast : double.leastExponent = -1074 := by decide
  have herror := double.nearest_error hd (by rwa [hbinade, hleast, ← zpow_add₀ two_ne_zero]) hfinite
  refine .of_abs (herror.trans_eq ?_)
  rw [hbinade, share]
  ring

theorem tenPower_lt : (10 : ℚ) ^ 308 < 2 ^ 1024 - 2 ^ 970 := by
  have hsum : 10 ^ 308 + 2 ^ 970 < 2 ^ 1024 := by decide +kernel
  rw [lt_sub_iff_add_lt]
  exact_mod_cast hsum

/-- A number that is not greater than the greatest power of ten among the doubles is rounded to a double. -/
theorem nearby_nearest_one {n : Nat} (h : n ≤ 10 ^ 308) :
    Nearby (1 - share) (1 + share) n (double.value (double.nearest n 1)) := by
  rcases Nat.eq_zero_or_pos n with rfl | hpos
  · have hzero : double.nearest 0 1 = 0 := rfl
    rw [hzero, value_zero]
    exact ⟨by simp, by simp⟩
  · have hone : (1 : ℚ) ≤ n := by exact_mod_cast hpos
    have hmost : (n : ℚ) ≤ 10 ^ 308 := by exact_mod_cast h
    have hfinite : double.nearest n 1 < double.infinity := by
      rw [nearest_double_lt_iff one_ne_zero, Nat.cast_one, div_one]
      exact hmost.trans_lt tenPower_lt
    have hnormal : (2 : ℚ) ^ (-1022 : Int) ≤ n / (1 : Nat) := by
      rw [Nat.cast_one, div_one]
      exact (zpow_le_one_of_nonpos₀ one_le_two (by decide)).trans hone
    simpa using nearby_nearest one_ne_zero hnormal hfinite

section
variable (f : BinaryFormat) (v w : Nat)

theorem value_mul : ((f.numerator v * f.numerator w : Nat) : ℚ) / (f.denominator v * f.denominator w : Nat) =
    f.value v * f.value w := by
  unfold value
  push_cast
  rw [div_mul_div_comm]

theorem value_div : ((f.numerator v * f.denominator w : Nat) : ℚ) / (f.denominator v * f.numerator w : Nat) =
    f.value v / f.value w := by
  unfold value
  push_cast
  rw [div_div_div_eq]

theorem denominator_ne_zero : f.denominator w ≠ 0 := (Nat.two_pow_pos _).ne'

end

/-- A product is beyond the doubles from half a step beyond the greatest double on. -/
theorem product_lt_iff {v w : Nat} :
    double.product v w < double.infinity ↔ double.value v * double.value w < 2 ^ 1024 - 2 ^ 970 := by
  rw [product, nearest_double_lt_iff (Nat.mul_ne_zero (denominator_ne_zero _ _) (denominator_ne_zero _ _)), value_mul]

theorem nearby_product {v w : Nat} (hnormal : (2 : ℚ) ^ (-1022 : Int) ≤ double.value v * double.value w)
    (hfinite : double.product v w < double.infinity) :
    Nearby (1 - share) (1 + share) (double.value v * double.value w) (double.value (double.product v w)) := by
  rw [← value_mul] at hnormal ⊢
  exact nearby_nearest (Nat.mul_ne_zero (denominator_ne_zero _ _) (denominator_ne_zero _ _)) hnormal hfinite

theorem nearby_quotient {v w : Nat} (hw : 0 < double.value w)
    (hnormal : (2 : ℚ) ^ (-1022 : Int) ≤ double.value v / double.value w)
    (hfinite : double.value v / double.value w < 2 ^ 1024 - 2 ^ 970) :
    Nearby (1 - share) (1 + share) (double.value v / double.value w) (double.value (double.quotient v w)) := by
  have hnumerator : double.numerator w ≠ 0 := by
    intro hzero
    rw [value, hzero, Nat.cast_zero, zero_div] at hw
    exact lt_irrefl _ hw
  have hd := Nat.mul_ne_zero (denominator_ne_zero double v) hnumerator
  rw [← value_div] at hnormal hfinite ⊢
  exact nearby_nearest hd hnormal ((nearest_double_lt_iff hd).mpr hfinite)

end BinaryFormat
end FxStack
