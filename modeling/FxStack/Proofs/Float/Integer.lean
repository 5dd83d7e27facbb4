import FxStack.Float.Single
import Mathlib.Tactic.Ring

/-! Integers that go through a single. The nearest single to an integer of more than 24 bits is a multiple of a power of
    two, and that multiple comes back, moved into the range of 32-bit integers. Main statements:
    `Single.toInt32_ofInt`, and `Single.toInt32_ofInt_eq_iff` for the integers that come back themselves. -/

namespace FxStack

/-! ### Words of integers -/

namespace BinaryFormat

theorem floorLog2_one {n : Nat} (hn : n ≠ 0) : floorLog2 n 1 = Nat.log2 n := by
  have hlog : Nat.log2 1 = 0 := by decide
  have hle : 1 * Nat.pow 2 ((Nat.log2 n : Int) - (0 : Nat)).toNat ≤
      n * Nat.pow 2 (-((Nat.log2 n : Int) - (0 : Nat))).toNat := by
    simpa using Nat.log2_self_le hn
  unfold floorLog2
  dsimp only
  rw [hlog, if_pos hle]
  simp

theorem roundHalfEven_one (n : Nat) : roundHalfEven n 1 = n := by
  simp [roundHalfEven, Nat.mod_one]

/-- The multiple of `2 ^ q` that is nearest to a number, of two the one with the even quotient. -/
def nearMultiple (n q : Nat) : Nat := roundHalfEven n (2 ^ q) * 2 ^ q

@[simp] theorem nearMultiple_zero (n : Nat) : nearMultiple n 0 = n := by simp [nearMultiple, roundHalfEven_one]

theorem nearMultiple_eq_self_iff {n q : Nat} : nearMultiple n q = n ↔ 2 ^ q ∣ n := by
  constructor
  · exact fun h => ⟨roundHalfEven n (2 ^ q), by rw [Nat.mul_comm]; exact h.symm⟩
  · rintro ⟨k, rfl⟩
    have hpos : 0 < 2 ^ q := Nat.two_pow_pos q
    simp [nearMultiple, roundHalfEven, hpos, Nat.mul_comm]

/-- The quotient by the power of two that leaves 24 bits, rounded. -/
theorem roundHalfEven_bounds {n q : Nat} (hn : n ≠ 0) (hq : Nat.log2 n = q + 23) :
    2 ^ 23 ≤ roundHalfEven n (2 ^ q) ∧ roundHalfEven n (2 ^ q) ≤ 2 ^ 24 := by
  have hlower : 2 ^ 23 ≤ n / 2 ^ q := by
    rw [Nat.le_div_iff_mul_le (Nat.two_pow_pos q), ← Nat.pow_add, Nat.add_comm, ← hq]
    exact Nat.log2_self_le hn
  have hupper : n / 2 ^ q < 2 ^ 24 := by
    rw [Nat.div_lt_iff_lt_mul (Nat.two_pow_pos q), ← Nat.pow_add]
    have hlt : n < 2 ^ (Nat.log2 n + 1) := Nat.lt_log2_self
    rwa [hq, Nat.add_assoc, Nat.add_comm] at hlt
  unfold roundHalfEven
  dsimp only
  split <;> omega

/-- A number of no more than `p + 1` bits, with zeros at its end up to that many. -/
theorem padded_bounds {n p : Nat} (hn : n ≠ 0) (h : Nat.log2 n ≤ p) :
    2 ^ p ≤ n * 2 ^ (p - Nat.log2 n) ∧ n * 2 ^ (p - Nat.log2 n) < 2 ^ (p + 1) := by
  have hlower := Nat.mul_le_mul_right (2 ^ (p - Nat.log2 n)) (Nat.log2_self_le hn)
  have hupper := Nat.mul_lt_mul_of_pos_right (Nat.lt_log2_self : n < 2 ^ (Nat.log2 n + 1))
    (Nat.two_pow_pos (p - Nat.log2 n))
  rw [← Nat.pow_add] at hlower hupper
  exact ⟨by rwa [Nat.add_sub_cancel' h] at hlower, by rwa [Nat.add_right_comm, Nat.add_sub_cancel' h] at hupper⟩

/-- A word made of an exponent and a significand of 24 bits. -/
def wordOf (e : Int) (m : Nat) : Nat := (e + 149).toNat * 2 ^ 23 + m

section
variable {e : Int} {m : Nat} (he : -149 ≤ e) (hlower : 2 ^ 23 ≤ m) (hupper : m < 2 ^ 24)
include hlower hupper

theorem significand_wordOf : single.significand (wordOf e m) = m := by
  have hbinade : single.binade = 2 ^ 23 := by decide
  unfold significand wordOf
  rw [hbinade]
  split <;> omega

include he in
theorem exponent_wordOf : single.exponent (wordOf e m) = e := by
  have hbinade : single.binade = 2 ^ 23 := by decide
  have hleast : single.leastExponent = -149 := by decide
  unfold exponent wordOf
  rw [hbinade, hleast]
  omega

end

/-- A rounded quotient that has grown by a bit stands for the next exponent. -/
theorem wordOf_carry {e : Int} (he : -149 ≤ e) : wordOf e (2 ^ 24) = wordOf (e + 1) (2 ^ 23) := by
  unfold wordOf
  omega

/-- A magnitude that is the integer `v` is rounded to `v`. -/
theorem rounded_wordOf {e : Int} {m v : Nat} (he : -149 ≤ e) (hlower : 2 ^ 23 ≤ m) (hupper : m < 2 ^ 24)
    (hv : m * 2 ^ e.toNat = v * 2 ^ (-e).toNat) :
    (2 * single.numerator (wordOf e m) + single.denominator (wordOf e m)) / (2 * single.denominator (wordOf e m)) =
      v := by
  have hpos : 0 < 2 ^ (-e).toNat := Nat.two_pow_pos _
  unfold numerator denominator
  rw [significand_wordOf hlower hupper, exponent_wordOf he hlower hupper, Nat.pow_eq, Nat.pow_eq, hv]
  have hsum : 2 * (v * 2 ^ (-e).toNat) + 2 ^ (-e).toNat = 2 ^ (-e).toNat + v * (2 * 2 ^ (-e).toNat) := by ring
  rw [hsum, Nat.add_mul_div_right _ _ (by omega), Nat.div_eq_of_lt (by omega), Nat.zero_add]

/-- The word of an integer is that of its leading 24 bits, rounded if there are more of them. -/
theorem nearest_one {n : Nat} (hn : n ≠ 0) (hlog : Nat.log2 n < 32) {m : Nat} (hm : m ≤ 2 ^ 24)
    (hround : roundHalfEven (n * 2 ^ (23 - Nat.log2 n)) (2 ^ (Nat.log2 n - 23)) = m) :
    single.nearest n 1 = wordOf (Nat.log2 n - 23) m := by
  have hinfinity : single.infinity = 255 * 2 ^ 23 := by decide
  have hbinade : single.binade = 2 ^ 23 := by decide
  have hleast : single.leastExponent = -149 := by decide
  have hprecision : ((single.precision - 1 : Nat) : Int) = 23 := by decide
  have hexponent : single.roundingExponent n 1 = (Nat.log2 n : Int) - 23 := by
    unfold roundingExponent
    rw [floorLog2_one hn, hleast, hprecision]
    omega
  have hup : (-((Nat.log2 n : Int) - 23)).toNat = 23 - Nat.log2 n := by omega
  have hdown : ((Nat.log2 n : Int) - 23).toNat = Nat.log2 n - 23 := by omega
  rw [nearest, if_neg hn]
  dsimp only
  rw [hexponent, hinfinity, hbinade, hleast, Int.sub_neg, hup, hdown, Nat.pow_eq, Nat.pow_eq, Nat.one_mul, hround]
  unfold wordOf
  rw [Nat.min_eq_left]
  omega

/-- What the magnitude nearest to an integer is, rounded to an integer again. -/
theorem rounded_nearest {n : Nat} (hlt : n < 2 ^ 32) :
    (2 * single.numerator (single.nearest n 1) + single.denominator (single.nearest n 1)) /
      (2 * single.denominator (single.nearest n 1)) = nearMultiple n (Nat.log2 n - 23) := by
  by_cases hn : n = 0
  · subst hn
    decide +kernel
  have hlog : Nat.log2 n < 32 := (Nat.log2_lt hn).mpr hlt
  rcases Nat.lt_or_ge (Nat.log2 n) 23 with hsmall | hlarge
  · -- The number has fewer bits and is a single.
    obtain ⟨hlower, hupper⟩ := padded_bounds hn (Nat.le_of_lt hsmall)
    have hnone : Nat.log2 n - 23 = 0 := by omega
    have hup : (-((Nat.log2 n : Int) - 23)).toNat = 23 - Nat.log2 n := by omega
    have hdown : ((Nat.log2 n : Int) - 23).toNat = 0 := by omega
    rw [nearest_one hn hlog (Nat.le_of_lt hupper) (by rw [hnone, Nat.pow_zero, roundHalfEven_one]), hnone,
      nearMultiple_zero]
    exact rounded_wordOf (by omega) hlower hupper (by rw [hup, hdown, Nat.pow_zero, Nat.mul_one])
  · obtain ⟨q, hq⟩ := Nat.exists_eq_add_of_le' hlarge
    obtain ⟨hlower, hupper⟩ := roundHalfEven_bounds hn hq
    have hrest : Nat.log2 n - 23 = q := by omega
    have hexponent : (Nat.log2 n : Int) - 23 = q := by omega
    have hnone : (-(q : Int)).toNat = 0 := by omega
    rw [nearest_one hn hlog hupper (by rw [hrest, Nat.sub_eq_zero_of_le hlarge, Nat.pow_zero, Nat.mul_one]), hrest,
      hexponent]
    unfold nearMultiple
    rcases Nat.lt_or_eq_of_le hupper with hlt | hcarry
    · exact rounded_wordOf (by omega) hlower hlt (by rw [hnone, Int.toNat_natCast, Nat.pow_zero, Nat.mul_one])
    · have hnone' : (-((q : Int) + 1)).toNat = 0 := by omega
      have hnext : ((q : Int) + 1).toNat = q + 1 := by omega
      rw [hcarry, wordOf_carry (by omega)]
      exact rounded_wordOf (by omega) (Nat.le_refl _) (by decide) (by rw [hnone', hnext]; ring)

theorem nearest_le_infinity (f : BinaryFormat) (n d : Nat) : f.nearest n d ≤ f.infinity := by
  unfold nearest
  split
  · exact Nat.zero_le _
  · exact Nat.min_le_right _ _

end BinaryFormat

/-! ### There and back -/

namespace Single

theorem magnitude_pack {b : Bool} {w : Nat} (h : w < signBit) : (pack b w).magnitude = w := by
  unfold signBit at h
  cases b <;> simp [magnitude, pack, signBit] <;> omega

theorem negative_pack {b : Bool} {w : Nat} (h : w < signBit) : (pack b w).negative = b := by
  unfold signBit at h
  cases b <;> simp [negative, pack, signBit] <;> omega

theorem toInt_clampInt32 (i : Int) : (clampInt32 i).toInt = max (-0x80000000) (min 0x7fffffff i) :=
  Int32.toInt_ofInt_of_le (by omega) (by omega)

/-- An integer that has become a single becomes the nearest multiple of a power of two of which the single has all
    bits, or the end of the range that lies before it. -/
theorem toInt32_ofInt {i : Int} (h : i.natAbs < 2 ^ 32) :
    (ofInt i).toInt32 =
      clampInt32 (i.sign * BinaryFormat.nearMultiple i.natAbs (Nat.log2 i.natAbs - 23)) := by
  have hinfinity : BinaryFormat.single.infinity < signBit := by decide
  have hle := BinaryFormat.single.nearest_le_infinity i.natAbs 1
  have hword := Nat.lt_of_le_of_lt hle hinfinity
  have hnan : (ofInt i).isNaN = false := by
    unfold isNaN ofInt ofRatio
    rw [magnitude_pack hword]
    exact decide_eq_false (Nat.not_lt.mpr hle)
  unfold toInt32
  rw [hnan]
  unfold ofInt ofRatio
  rw [magnitude_pack hword, negative_pack hword]
  dsimp only
  rw [BinaryFormat.rounded_nearest h]
  rcases Int.lt_trichotomy i 0 with hneg | rfl | hpos
  · simp [hneg, Int.sign_eq_neg_one_of_neg hneg]
  · rfl
  · simp [Int.not_lt.mpr (Int.le_of_lt hpos), Int.sign_eq_one_of_pos hpos]

/-- The 32-bit integers that come back as they were: those that are singles, and the greatest one, which is moved back
    into the range. -/
theorem toInt32_ofInt_eq_iff (a : Int32) :
    (ofInt a.toInt).toInt32 = a ↔
      a = Int32.maxValue ∨ 2 ^ (Nat.log2 a.toInt.natAbs - 23) ∣ a.toInt.natAbs := by
  have hlower := a.le_toInt
  have hupper := a.toInt_lt
  have hsign := Int.sign_mul_natAbs a.toInt
  rw [toInt32_ofInt (by omega), ← Int32.toInt_inj, toInt_clampInt32]
  constructor
  · intro h
    by_cases hmax : a = Int32.maxValue
    · exact .inl hmax
    right
    by_cases hmin : a = Int32.minValue
    · subst hmin
      decide
    by_cases hzero : a.toInt = 0
    · rw [hzero]
      exact Nat.dvd_zero _
    -- Inside the range nothing is moved, so the multiple is the number itself.
    have hmax' : a.toInt ≠ 0x7fffffff := fun heq => hmax (Int32.toInt_inj.mp heq)
    have hmin' : a.toInt ≠ -0x80000000 := fun heq => hmin (Int32.toInt_inj.mp heq)
    have hexact : a.toInt.sign * BinaryFormat.nearMultiple a.toInt.natAbs (Nat.log2 a.toInt.natAbs - 23) = a.toInt := by
      omega
    have habs := congrArg Int.natAbs hexact
    rw [Int.natAbs_mul, Int.natAbs_sign_of_ne_zero hzero, Nat.one_mul, Int.natAbs_natCast] at habs
    exact BinaryFormat.nearMultiple_eq_self_iff.mp habs
  · rintro (rfl | h)
    · decide +kernel
    · rw [BinaryFormat.nearMultiple_eq_self_iff.mpr h, hsign]
      omega

end Single
end FxStack
