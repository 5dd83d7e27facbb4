import FxStack.Float.Format
import Mathlib.Algebra.Order.Field.Power
import Mathlib.Data.Rat.Cast.Order
import Mathlib.Tactic.FieldSimp
import Mathlib.Tactic.GCongr
import Mathlib.Tactic.Linarith
import Mathlib.Tactic.NormNum
import Mathlib.Tactic.Positivity
import Mathlib.Tactic.Ring

/-! How far rounding goes. The binary logarithm bounds a quotient from both sides, and the word that a quotient is
    rounded to grows with it. So the quotients that are rounded to infinity are those from some threshold on, which for
    doubles is half a step beyond the greatest of them. Main statements: `BinaryFormat.lt_of_nearest_single` and
    `BinaryFormat.nearest_double_lt_iff`. -/

namespace FxStack.BinaryFormat

/-! ### The binary logarithm -/

theorem zpow_eq_div {b : ℚ} (hb : b ≠ 0) (k : Int) : b ^ k = b ^ k.toNat / b ^ (-k).toNat := by
  rw [← zpow_natCast, ← zpow_natCast, ← zpow_sub₀ hb, Int.toNat_sub_toNat_neg]

section
variable {n d : Nat} (hn : n ≠ 0) (hd : d ≠ 0)
include hn hd

theorem ratio_bounds :
    (2 : ℚ) ^ ((Nat.log2 n : Int) - Nat.log2 d - 1) < n / d ∧ (n : ℚ) / d < 2 ^ ((Nat.log2 n : Int) - Nat.log2 d + 1) := by
  have hnle : (2 : ℚ) ^ (Nat.log2 n : Int) ≤ n := by exact_mod_cast Nat.log2_self_le hn
  have hnlt : (n : ℚ) < 2 ^ ((Nat.log2 n : Int) + 1) := by exact_mod_cast (Nat.lt_log2_self : n < 2 ^ (Nat.log2 n + 1))
  have hdle : (2 : ℚ) ^ (Nat.log2 d : Int) ≤ d := by exact_mod_cast Nat.log2_self_le hd
  have hdlt : (d : ℚ) < 2 ^ ((Nat.log2 d : Int) + 1) := by exact_mod_cast (Nat.lt_log2_self : d < 2 ^ (Nat.log2 d + 1))
  have hdpos : (0 : ℚ) < d := by exact_mod_cast Nat.pos_of_ne_zero hd
  have htwo : (2 : ℚ) ≠ 0 := two_ne_zero
  constructor
  · calc (2 : ℚ) ^ ((Nat.log2 n : Int) - Nat.log2 d - 1)
        = 2 ^ (Nat.log2 n : Int) / 2 ^ ((Nat.log2 d : Int) + 1) := by rw [← zpow_sub₀ htwo, sub_sub]
      _ < 2 ^ (Nat.log2 n : Int) / d := by gcongr
      _ ≤ n / d := by gcongr
  · calc (n : ℚ) / d ≤ n / 2 ^ (Nat.log2 d : Int) := by gcongr
      _ < 2 ^ ((Nat.log2 n : Int) + 1) / 2 ^ (Nat.log2 d : Int) := by gcongr
      _ = 2 ^ ((Nat.log2 n : Int) - Nat.log2 d + 1) := by rw [← zpow_sub₀ htwo, add_sub_right_comm]

theorem floorLog2_spec : (2 : ℚ) ^ floorLog2 n d ≤ n / d ∧ (n : ℚ) / d < 2 ^ (floorLog2 n d + 1) := by
  obtain ⟨hlower, hupper⟩ := ratio_bounds hn hd
  unfold floorLog2
  generalize (Nat.log2 n : Int) - Nat.log2 d = k at hlower hupper ⊢
  -- The two sides are compared after both have been scaled to natural numbers.
  have htest : d * Nat.pow 2 k.toNat ≤ n * Nat.pow 2 (-k).toNat ↔ (2 : ℚ) ^ k ≤ n / d := by
    have hd' : (0 : ℚ) < d := by exact_mod_cast Nat.pos_of_ne_zero hd
    rw [zpow_eq_div two_ne_zero, div_le_div_iff₀ (by positivity) hd', mul_comm]
    norm_cast
  dsimp only
  split
  · next h => exact ⟨htest.mp h, hupper⟩
  · next h => exact ⟨hlower.le, by simpa using lt_of_not_ge (mt htest.mpr h)⟩

end

/-! ### Rounding -/

section
variable {a b m : Nat} (hb : 0 < b)
include hb

theorem le_roundHalfEven (h : m * b ≤ a) : m ≤ roundHalfEven a b := by
  have hdiv : m ≤ a / b := (Nat.le_div_iff_mul_le hb).mpr h
  unfold roundHalfEven
  dsimp only
  split <;> omega

theorem roundHalfEven_le (h : a < m * b) : roundHalfEven a b ≤ m := by
  have hdiv : a / b < m := (Nat.div_lt_iff_lt_mul hb).mpr h
  unfold roundHalfEven
  dsimp only
  split <;> omega

/-- A half below an even number is rounded to this number. -/
theorem roundHalfEven_lt_iff (hm : m % 2 = 0) : roundHalfEven a b < m ↔ 2 * a < (2 * m - 1) * b := by
  have hsplit : a = b * (a / b) + a % b := (Nat.div_add_mod a b).symm
  have hrest : a % b < b := Nat.mod_lt a hb
  unfold roundHalfEven
  dsimp only
  generalize a / b = below at *
  generalize a % b = rest at *
  subst hsplit
  rcases Nat.lt_trichotomy (below + 1) m with hlt | rfl | hgt
  · have hle : b * below + b ≤ (m - 1) * b := by
      rw [← Nat.mul_succ, Nat.mul_comm]
      exact Nat.mul_le_mul_right b (by omega)
    have hdouble : (2 * m - 1) * b = 2 * ((m - 1) * b) + b := by
      obtain ⟨k, rfl⟩ : ∃ k, m = k + 1 := ⟨m - 1, by omega⟩
      rw [show 2 * (k + 1) - 1 = 2 * k + 1 by omega, Nat.add_sub_cancel]
      ring
    have hright : 2 * (b * below + rest) < (2 * m - 1) * b := by omega
    simp only [hright, iff_true]
    split <;> omega
  · have hdouble : (2 * (below + 1) - 1) * b = 2 * (b * below) + b := by
      rw [show 2 * (below + 1) - 1 = 2 * below + 1 by omega]
      ring
    rw [hdouble]
    split <;> omega
  · have hle : m * b ≤ b * below := by
      rw [Nat.mul_comm b]
      exact Nat.mul_le_mul_right b (by omega)
    have hdouble : (2 * m - 1) * b ≤ 2 * (m * b) := by
      rw [← Nat.mul_assoc]
      exact Nat.mul_le_mul_right b (by omega)
    have hright : ¬2 * (b * below + rest) < (2 * m - 1) * b := by omega
    simp only [hright, iff_false]
    split <;> omega

end

/-- A quotient that is not rounded to an infinite single is less than `2 ^ 129`. -/
theorem lt_of_nearest_single {n d : Nat} (hd : d ≠ 0) (h : single.nearest n d < single.infinity) :
    (n : ℚ) / d < 2 ^ 129 := by
  by_cases hn : n = 0
  · simp [hn]
  have hexponent : floorLog2 n d + 1 ≤ 129 := by
    have hinfinity : single.infinity = 255 * 2 ^ 23 := by decide
    have hbinade : single.binade = 2 ^ 23 := by decide
    have hleast : single.leastExponent = -149 := by decide
    have hprecision : ((single.precision - 1 : Nat) : Int) = 23 := by decide
    rw [nearest, if_neg hn, min_lt_iff] at h
    unfold roundingExponent at h
    rw [hinfinity, hbinade, hleast, hprecision] at h
    omega
  calc (n : ℚ) / d < 2 ^ (floorLog2 n d + 1) := (floorLog2_spec hn hd).2
    _ ≤ 2 ^ (129 : Int) := zpow_le_zpow_right₀ one_le_two hexponent
    _ = 2 ^ 129 := by norm_cast

/-- A quotient is compared after it has been scaled to natural numbers. -/
theorem div_lt_iff_scaled {n d : Nat} (hd : d ≠ 0) (q : Int) (k : Nat) {m : Nat} (hm : m ≠ 0) :
    (n : ℚ) / d < k / m * 2 ^ q ↔ m * (n * Nat.pow 2 (-q).toNat) < k * (d * Nat.pow 2 q.toNat) := by
  have hd' : (0 : ℚ) < d := by exact_mod_cast Nat.pos_of_ne_zero hd
  have hm' : (0 : ℚ) < m := by exact_mod_cast Nat.pos_of_ne_zero hm
  have hleft : m * (n * Nat.pow 2 (-q).toNat) = n * (m * 2 ^ (-q).toNat) := Nat.mul_left_comm _ _ _
  have hright : k * (d * Nat.pow 2 q.toNat) = k * 2 ^ q.toNat * d := by
    show k * (d * 2 ^ q.toNat) = _
    ring
  rw [zpow_eq_div two_ne_zero, div_mul_div_comm, div_lt_div_iff₀ hd' (by positivity), hleft, hright]
  norm_cast

/-- The threshold and the powers of two about it, as multiples of half the last step before it. -/
theorem exists_halfStep : ∃ u : ℚ, 1 ≤ u ∧ (2 : ℚ) ^ 1024 - 2 ^ 970 = (2 ^ 54 - 1) * u ∧
    (2 : ℚ) ^ (971 : Int) = u * 2 ∧ (2 : ℚ) ^ (1023 : Int) = 2 ^ 53 * u ∧ (2 : ℚ) ^ (1024 : Int) = 2 ^ 54 * u := by
  have htop : (2 : ℚ) ^ 1024 = 2 ^ 54 * 2 ^ 970 := pow_add 2 54 970
  have hhalf : (2 : ℚ) ^ 1023 = 2 ^ 53 * 2 ^ 970 := pow_add 2 53 970
  have hstep : (2 : ℚ) ^ 971 = 2 ^ 970 * 2 := pow_succ 2 970
  refine ⟨2 ^ 970, one_le_pow₀ one_le_two, ?_, (zpow_natCast 2 971).trans hstep, (zpow_natCast 2 1023).trans hhalf,
    (zpow_natCast 2 1024).trans htop⟩
  rw [htop, sub_mul, one_mul]

/-- A quotient is rounded to an infinite double from half a step beyond the greatest double on. -/
theorem nearest_double_lt_iff {n d : Nat} (hd : d ≠ 0) :
    double.nearest n d < double.infinity ↔ (n : ℚ) / d < 2 ^ 1024 - 2 ^ 970 := by
  have hinfinity : double.infinity = 2047 * 2 ^ 52 := by decide
  obtain ⟨u, hu, hthreshold, hstep, hhalf, htop⟩ := exists_halfStep
  rw [hthreshold]
  by_cases hn : n = 0
  · have hpos : (0 : ℚ) < (2 ^ 54 - 1) * u := mul_pos (by norm_num) (one_pos.trans_le hu)
    simp [nearest, hn, hinfinity, hpos]
  obtain ⟨hlower, hupper⟩ := floorLog2_spec hn hd
  have hbinade : double.binade = 2 ^ 52 := by decide
  have hleast : double.leastExponent = -1074 := by decide
  have hprecision : ((double.precision - 1 : Nat) : Int) = 52 := by decide
  rw [nearest, if_neg hn, min_lt_iff]
  unfold roundingExponent
  rw [hinfinity, hbinade, hleast, hprecision]
  generalize hq : max (-1074 : Int) (floorLog2 n d - 52) = q
  have hpos : 0 < d * Nat.pow 2 q.toNat := Nat.mul_pos (Nat.pos_of_ne_zero hd) (Nat.two_pow_pos _)
  -- Scaled to the exponent that it is rounded at, the quotient has 53 bits at most.
  have hbits : (n : ℚ) / d < 2 ^ (53 + q) :=
    hupper.trans_le (zpow_le_zpow_right₀ one_le_two (by omega))
  have hround : roundHalfEven (n * Nat.pow 2 (-q).toNat) (d * Nat.pow 2 q.toNat) ≤ 2 ^ 53 := by
    have hscaled := (div_lt_iff_scaled hd q (2 ^ 53) one_ne_zero).mp (by
      rw [zpow_add₀ two_ne_zero] at hbits
      norm_num at hbits ⊢
      exact hbits)
    exact roundHalfEven_le hpos (by simpa using hscaled)
  rcases lt_trichotomy q 971 with hless | rfl | hmore
  · have hsmall : (n : ℚ) / d < (2 ^ 54 - 1) * u := by
      have hle : (2 : ℚ) ^ (53 + q) ≤ 2 ^ (1023 : Int) := zpow_le_zpow_right₀ one_le_two (by omega)
      rw [hhalf] at hle
      linarith only [hbits, hle, hu]
    simp only [hsmall, iff_true]
    omega
  · have hscaled : (2 ^ 54 - 1) * u = ((2 * 2 ^ 53 - 1 : Nat) : ℚ) / (2 : Nat) * 2 ^ (971 : Int) := by
      rw [hstep]
      push_cast
      ring
    rw [hscaled, div_lt_iff_scaled hd 971 _ two_ne_zero, ← roundHalfEven_lt_iff hpos (by norm_num)]
    omega
  · have hgreat : ¬(n : ℚ) / d < (2 ^ 54 - 1) * u := by
      have hle : (2 : ℚ) ^ (1024 : Int) ≤ 2 ^ floorLog2 n d := zpow_le_zpow_right₀ one_le_two (by omega)
      rw [htop] at hle
      linarith only [hlower, hle, hu]
    have hleast : 2 ^ 52 ≤ roundHalfEven (n * Nat.pow 2 (-q).toNat) (d * Nat.pow 2 q.toNat) := by
      refine le_roundHalfEven hpos (Nat.le_of_not_lt fun hlt => ?_)
      have hscaled := (div_lt_iff_scaled hd q (2 ^ 52) one_ne_zero).mpr (by simpa using hlt)
      have hexponent : floorLog2 n d = 52 + q := by omega
      rw [hexponent, zpow_add₀ two_ne_zero] at hlower
      norm_num at hscaled hlower
      exact absurd hscaled (not_lt.mpr hlower)
    simp only [hgreat, iff_false]
    omega

end FxStack.BinaryFormat
