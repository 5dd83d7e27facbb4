import FxStack.Json.Number
import FxStack.Proofs.Decimal
import FxStack.Proofs.Float.Exact

/-! What is read as a number. The digits that are kept of a numeral make it out but for a tiny share, and each of the
    roundings that follow changes it by another one. So a numeral is read up to a few steps below the greatest double, it
    is refused from a few steps above it on, and what is read is close to what is written. A numeral of few digits is even
    rounded only once. Main statement: `Numeral.approximated`. -/

namespace FxStack

/-! ### Digits -/

namespace Digit

theorem value_cons (d : Digit) (ds : List Digit) : value (d :: ds) = d.val * 10 ^ ds.length + value ds := by
  rw [← List.singleton_append, value_append]
  simp [value]

theorem value_lt_pow (ds : List Digit) : value ds < 10 ^ ds.length := by
  induction ds with
  | nil => simp [value]
  | cons d ds ih =>
    have hdigit : d.val * 10 ^ ds.length ≤ 9 * 10 ^ ds.length := Nat.mul_le_mul_right _ (by omega)
    rw [value_cons, List.length_cons, Nat.pow_succ]
    omega

/-- The digits of `n` and as many of the digits behind it as leave 64 bits make the number `m`, and `rest` digits are
    left. -/
structure Taken (n : Nat) (ds : List Digit) (m rest : Nat) : Prop where
  word : m < 2 ^ 64
  rest_le : rest ≤ ds.length
  leads : n * 10 ^ ds.length ≤ m * 10 ^ rest
  lower : m * 10 ^ rest ≤ n * 10 ^ ds.length + value ds
  upper : n * 10 ^ ds.length + value ds < (m + 1) * 10 ^ rest
  full : rest ≠ 0 → 2 ^ 60 ≤ m

theorem taken_takeWord (ds : List Digit) : ∀ {n : Nat}, n < 2 ^ 64 → Taken n ds (takeWord n ds).1 (takeWord n ds).2 := by
  induction ds with
  | nil =>
    intro n hn
    exact ⟨hn, Nat.le_refl _, Nat.le_refl _, by simp [takeWord], by simp [takeWord, value], fun h => absurd rfl h⟩
  | cons d ds ih =>
    intro n hn
    rw [takeWord]
    split
    · next hlt =>
      obtain ⟨hword, hrest, hleads, hlower, hupper, hfull⟩ := ih hlt
      have hsplit : n * 10 ^ (ds.length + 1) + value (d :: ds) = (10 * n + d.val) * 10 ^ ds.length + value ds := by
        rw [value_cons]
        ring
      have hmore : n * 10 ^ (ds.length + 1) ≤ (10 * n + d.val) * 10 ^ ds.length := by
        rw [Nat.pow_succ, Nat.mul_comm _ 10, ← Nat.mul_assoc, Nat.mul_comm n]
        exact Nat.mul_le_mul_right _ (Nat.le_add_right _ _)
      refine ⟨hword, Nat.le_succ_of_le hrest, hmore.trans hleads, ?_, ?_, hfull⟩
      · rwa [List.length_cons, hsplit]
      · rwa [List.length_cons, hsplit]
    · next hge =>
      have hvalue := value_lt_pow (d :: ds)
      refine ⟨hn, Nat.le_refl _, Nat.le_refl _, Nat.le_add_right _ _, ?_, fun _ => ?_⟩
      · rw [Nat.succ_mul]
        exact Nat.add_lt_add_left hvalue _
      · have hdigit := d.isLt
        omega

/-- If they make a number of 60 bits at most, no digits are left. -/
theorem Taken.all {n m rest : Nat} {ds : List Digit} (h : Taken n ds m rest)
    (hless : n * 10 ^ ds.length + value ds < 2 ^ 60) : m = n * 10 ^ ds.length + value ds ∧ rest = 0 := by
  obtain ⟨-, -, -, hlower, hupper, hfull⟩ := h
  have hrest : rest = 0 := by
    by_contra hmore
    have hleast : m ≤ m * 10 ^ rest := Nat.le_mul_of_pos_right m (Nat.pow_pos (by decide))
    exact absurd ((hfull hmore).trans (hleast.trans hlower)) hless.not_ge
  rw [hrest, Nat.pow_zero, Nat.mul_one] at hlower hupper
  exact ⟨by omega, hrest⟩

/-- What is made of whole digits and of those behind the point differs from what they mean by a tiny share. -/
theorem Taken.bounds {ds fs : List Digit} {s m zeros rest : Nat} (hw : Taken 0 ds s zeros) (hf : Taken s fs m rest) :
    2 ^ 60 * (m * 10 ^ (zeros + rest)) ≤ (2 ^ 60 + 1) * (value ds * 10 ^ fs.length + value fs) ∧
      2 ^ 60 * (value ds * 10 ^ fs.length + value fs) ≤ (2 ^ 60 + 1) * (m * 10 ^ (zeros + rest)) := by
  obtain ⟨-, -, -, hwlower, hwupper, hwfull⟩ := hw
  obtain ⟨-, -, hleads, hlower, hupper, hfull⟩ := hf
  have hfraction := value_lt_pow fs
  rw [Nat.zero_mul, Nat.zero_add] at hwlower hwupper
  rw [Nat.pow_add]
  generalize value ds = whole at *
  generalize value fs = part at *
  generalize 10 ^ fs.length = scale at *
  rcases Nat.eq_zero_or_pos zeros with rfl | hzeros
  · -- All whole digits are kept, so only the end of the fraction is missing.
    obtain rfl : s = whole := by omega
    rw [Nat.pow_zero, Nat.one_mul]
    refine ⟨Nat.mul_le_mul (Nat.le_succ _) hlower, ?_⟩
    rcases Nat.eq_zero_or_pos rest with rfl | hrest
    · omega
    · have hshare := Nat.mul_le_mul_right (10 ^ rest) (hfull hrest.ne')
      rw [Nat.succ_mul] at hupper ⊢
      omega
  · -- What is behind the last whole digit that is kept counts for less than one in its place.
    have hshare := Nat.mul_le_mul_right (10 ^ zeros * scale) (hwfull hzeros.ne')
    have hleast : s * (10 ^ zeros * scale) ≤ m * (10 ^ zeros * 10 ^ rest) := by
      calc s * (10 ^ zeros * scale) = 10 ^ zeros * (s * scale) := by ring
        _ ≤ 10 ^ zeros * (m * 10 ^ rest) := Nat.mul_le_mul_left _ hleads
        _ = m * (10 ^ zeros * 10 ^ rest) := by ring
    have hmost : m * (10 ^ zeros * 10 ^ rest) ≤ (s + 1) * (10 ^ zeros * scale) := by
      calc m * (10 ^ zeros * 10 ^ rest) = 10 ^ zeros * (m * 10 ^ rest) := by ring
        _ ≤ 10 ^ zeros * (s * scale + scale) := Nat.mul_le_mul_left _ (by omega)
        _ = (s + 1) * (10 ^ zeros * scale) := by ring
    have hwhole : s * (10 ^ zeros * scale) ≤ whole * scale := by
      rw [← Nat.mul_assoc]
      exact Nat.mul_le_mul_right scale hwlower
    have hwhole' : whole * scale + scale ≤ (s + 1) * (10 ^ zeros * scale) := by
      rw [← Nat.succ_mul, ← Nat.mul_assoc]
      exact Nat.mul_le_mul_right scale hwupper
    rw [Nat.succ_mul] at hmost hwhole' ⊢
    rw [Nat.succ_mul]
    constructor <;> omega

end Digit

/-! ### Decimals -/

namespace Numeral

theorem coefficient_kept_lt (n : Numeral) : n.kept.coefficient < 2 ^ 64 :=
  (Digit.taken_takeWord n.fraction (Digit.taken_takeWord (Digit.ofNat n.whole) (by decide)).word).word

/-- Dropping digits changes a numeral by a share of `1 / 2 ^ 60` at most. -/
theorem nearby_kept (n : Numeral) : Nearby (1 - 1 / 2 ^ 60) (1 + 1 / 2 ^ 60) n.decimal.value n.kept.value := by
  have hwhole := Digit.taken_takeWord (Digit.ofNat n.whole) (by decide : 0 < 2 ^ 64)
  have hall := Digit.taken_takeWord n.fraction hwhole.word
  obtain ⟨hupper, hlower⟩ := hwhole.bounds hall
  have hrest := hall.rest_le
  have hten : (10 : ℚ) ≠ 0 := by norm_num
  rw [Digit.value_ofNat] at hupper hlower
  unfold kept decimal Decimal.value
  dsimp only
  generalize Digit.takeWord 0 (Digit.ofNat n.whole) = whole at *
  generalize Digit.takeWord whole.1 n.fraction = all at *
  -- Both are multiples of the place of the last digit behind the point.
  have hexponent : (whole.2 : Int) - (n.fraction.length - all.2 : Nat) + n.exponent.getD 0 =
      (whole.2 + all.2 : Nat) + (n.exponent.getD 0 - n.fraction.length) := by
    push_cast [hrest]
    ring
  rw [hexponent, zpow_add₀ hten, zpow_natCast, ← mul_assoc, Nat.pow_eq]
  generalize n.exponent.getD 0 - (n.fraction.length : Int) = e
  have hpos : (0 : ℚ) < 10 ^ e := by positivity
  have hupper' : (2 ^ 60 : ℚ) * (all.1 * 10 ^ (whole.2 + all.2)) ≤
      (2 ^ 60 + 1) * (n.whole * 10 ^ n.fraction.length + Digit.value n.fraction : Nat) := by exact_mod_cast hupper
  have hlower' : (2 ^ 60 : ℚ) * (n.whole * 10 ^ n.fraction.length + Digit.value n.fraction : Nat) ≤
      (2 ^ 60 + 1) * (all.1 * 10 ^ (whole.2 + all.2)) := by exact_mod_cast hlower
  have hnonneg : (0 : ℚ) ≤ all.1 * 10 ^ (whole.2 + all.2) := by positivity
  constructor
  · rw [← mul_assoc]
    refine mul_le_mul_of_nonneg_right ?_ hpos.le
    linarith only [hlower', hnonneg]
  · rw [← mul_assoc]
    refine mul_le_mul_of_nonneg_right ?_ hpos.le
    linarith only [hupper']

/-- All digits of a numeral of no more than 60 bits are kept. -/
theorem kept_eq_decimal {n : Numeral} (h : n.decimal.coefficient < 2 ^ 60) : n.kept = n.decimal := by
  have hcoefficient : n.whole * 10 ^ n.fraction.length + Digit.value n.fraction < 2 ^ 60 := h
  have hless : n.whole ≤ n.whole * 10 ^ n.fraction.length := Nat.le_mul_of_pos_right _ (Nat.pow_pos (by decide))
  have hwhole := (Digit.taken_takeWord (Digit.ofNat n.whole) (by decide : 0 < 2 ^ 64)).all (by
    rw [Digit.value_ofNat]
    omega)
  rw [Nat.zero_mul, Nat.zero_add, Digit.value_ofNat] at hwhole
  have hall := (Digit.taken_takeWord n.fraction (hless.trans_lt (by omega : _ < 2 ^ 64))).all hcoefficient
  unfold kept
  dsimp only
  rw [hwhole.1, hwhole.2, hall.1, hall.2, Nat.sub_zero, decimal, Decimal.mk.injEq]
  exact ⟨rfl, by omega⟩

end Numeral

/-! ### Decimals as doubles -/

namespace Double
open BinaryFormat

theorem nearby_tenPower {k : Nat} (h : k ≤ greatestTenPower) :
    Nearby (1 - share) (1 + share) (10 ^ k) (double.value (tenPower k)) := by
  have hle : 10 ^ k ≤ 10 ^ 308 := pow_le_pow_right₀ (by decide) h
  have hcast : ((Nat.pow 10 k : Nat) : ℚ) = 10 ^ k := by rw [Nat.pow_eq]; norm_cast
  rw [← hcast]
  exact nearby_nearest_one hle

/-- A power of ten that is no double is beyond all of them. -/
theorem lt_tenPower {k : Nat} (h : ¬k ≤ greatestTenPower) : (2 : ℚ) ^ 1025 < 10 ^ k := by
  have hlt : 2 ^ 1025 < 10 ^ 309 := by decide +kernel
  have hle : (10 : ℚ) ^ 309 ≤ 10 ^ k := pow_le_pow_right₀ (by norm_num) (Nat.lt_of_not_le h)
  exact lt_of_lt_of_le (by exact_mod_cast hlt) hle

section
variable {d : Decimal} (hd : d.coefficient < 2 ^ 64)
include hd

theorem nearby_coefficient :
    Nearby (1 - share) (1 + share) d.coefficient (double.value (double.nearest d.coefficient 1)) :=
  have hle : 10 ^ 20 ≤ 10 ^ 308 := pow_le_pow_right₀ (by decide) (by decide)
  nearby_nearest_one ((hd.le.trans (by decide)).trans hle)

/-- The product before it is rounded. -/
theorem nearby_factors {k : Nat} (hk : k ≤ greatestTenPower) :
    Nearby ((1 - share) * (1 - share)) ((1 + share) * (1 + share)) (d.coefficient * 10 ^ k)
      (double.value (double.nearest d.coefficient 1) * double.value (tenPower k)) :=
  (nearby_coefficient hd).mul (nearby_tenPower hk) (by positivity) one_sub_share_pos.le (by positivity)
    one_sub_share_pos.le

/-- The quotient before it is rounded. -/
theorem nearby_ratio {k : Nat} (hk : k ≤ greatestTenPower) :
    Nearby ((1 - share) / (1 + share)) ((1 + share) / (1 - share)) (d.coefficient / 10 ^ k)
      (double.value (double.nearest d.coefficient 1) / double.value (tenPower k)) :=
  (nearby_coefficient hd).div (nearby_tenPower hk) (by positivity) one_sub_share_pos.le (by positivity)
    one_sub_share_pos

omit hd in
theorem value_eq_mul {k : Nat} (h : d.exponent = k) : d.value = d.coefficient * 10 ^ k := by
  rw [Decimal.value, h, zpow_natCast]

omit hd in
theorem value_eq_div {k : Nat} (h : d.exponent = -k) : d.value = d.coefficient / 10 ^ k := by
  rw [Decimal.value, h, zpow_neg, zpow_natCast, div_eq_mul_inv]

/-- Only nothing becomes nothing. -/
theorem nearest_coefficient_ne_zero (h : d.coefficient ≠ 0) : double.nearest d.coefficient 1 ≠ 0 := by
  intro hzero
  have hlower := (nearby_coefficient hd).lower
  have hpos : (0 : ℚ) < d.coefficient := by exact_mod_cast Nat.pos_of_ne_zero h
  rw [hzero, value_zero] at hlower
  exact absurd (mul_pos one_sub_share_pos hpos) hlower.not_gt

omit hd in
/-- The powers of two about the greatest double, as multiples of half the step before it. -/
theorem exists_halfStep : ∃ u : ℚ, 2 ^ 64 ≤ u ∧ (2 : ℚ) ^ 970 = u ∧ (2 : ℚ) ^ 973 = 2 ^ 3 * u ∧
    (2 : ℚ) ^ 1024 = 2 ^ 54 * u ∧ (2 : ℚ) ^ 1025 = 2 ^ 55 * u :=
  ⟨2 ^ 970, pow_le_pow_right₀ one_le_two (by decide), rfl, pow_add 2 3 970, pow_add 2 54 970, pow_add 2 55 970⟩

/-- A product that is three steps below the greatest power of two is no infinity. -/
theorem isSome_raised? {k : Nat} (h : (d.coefficient : ℚ) * 10 ^ k ≤ 2 ^ 1024 - 6 * 2 ^ 970) :
    (raised? (double.nearest d.coefficient 1) k).isSome := by
  obtain ⟨u, hu, hstep, -, htop, hbeyond⟩ := exists_halfStep
  rw [hstep, htop] at h
  unfold raised?
  split
  · next hle =>
    have hfinite : double.value (double.nearest d.coefficient 1) * double.value (tenPower k) < 2 ^ 1024 - 2 ^ 970 := by
      calc double.value (double.nearest d.coefficient 1) * double.value (tenPower k)
          ≤ (1 + share) * (1 + share) * (d.coefficient * 10 ^ k) := (nearby_factors hd hle).upper
        _ ≤ (1 + share) * (1 + share) * (2 ^ 54 * u - 6 * u) := mul_le_mul_of_nonneg_left h (by norm_num [share])
        _ < 2 ^ 54 * u - u := by
          norm_num [share]
          linarith only [hu]
        _ = 2 ^ 1024 - 2 ^ 970 := by rw [htop, hstep]
    dsimp only
    rw [if_pos (product_lt_iff.mpr hfinite)]
    rfl
  · next hgreat =>
    by_cases hzero : d.coefficient = 0
    · rw [hzero]
      rfl
    · have hone : (1 : ℚ) ≤ d.coefficient := by exact_mod_cast Nat.one_le_iff_ne_zero.mpr hzero
      have hpow := lt_tenPower hgreat
      have hless : (10 : ℚ) ^ k ≤ d.coefficient * 10 ^ k := le_mul_of_one_le_left (by positivity) hone
      rw [hbeyond] at hpow
      linarith only [h, hpow, hless, hu]

/-- A product that is three steps above the greatest power of two is an infinity. -/
theorem raised?_eq_none {k : Nat} (h : 2 ^ 1024 + 6 * 2 ^ 970 ≤ (d.coefficient : ℚ) * 10 ^ k) :
    raised? (double.nearest d.coefficient 1) k = none := by
  obtain ⟨u, hu, hstep, -, htop, -⟩ := exists_halfStep
  rw [hstep, htop] at h
  unfold raised?
  split
  · next hle =>
    have hinfinite : 2 ^ 1024 - 2 ^ 970 ≤ double.value (double.nearest d.coefficient 1) * double.value (tenPower k) := by
      calc (2 : ℚ) ^ 1024 - 2 ^ 970 = 2 ^ 54 * u - u := by rw [htop, hstep]
        _ ≤ (1 - share) * (1 - share) * (2 ^ 54 * u + 6 * u) := by
          norm_num [share]
          linarith only [hu]
        _ ≤ (1 - share) * (1 - share) * (d.coefficient * 10 ^ k) := mul_le_mul_of_nonneg_left h (by norm_num [share])
        _ ≤ double.value (double.nearest d.coefficient 1) * double.value (tenPower k) := (nearby_factors hd hle).lower
    exact if_neg (mt product_lt_iff.mp hinfinite.not_gt)
  · have hzero : d.coefficient ≠ 0 := by
      intro hzero
      rw [hzero, Nat.cast_zero, zero_mul] at h
      linarith only [h, hu]
    exact if_neg (nearest_coefficient_ne_zero hd hzero)

/-- A decimal with a negative exponent is less than its coefficient can be. -/
theorem value_lt_of_neg (h : d.exponent < 0) : d.value < 2 ^ 64 := by
  have hpow : (10 : ℚ) ^ d.exponent ≤ 1 := zpow_le_one_of_nonpos₀ (by norm_num) h.le
  have hcoefficient : (d.coefficient : ℚ) < 2 ^ 64 := by exact_mod_cast hd
  unfold Decimal.value
  exact (mul_le_of_le_one_right (Nat.cast_nonneg _) hpow).trans_lt hcoefficient

/-- A decimal that is three steps below the greatest power of two is read. -/
theorem isSome_ofDecimal? (h : d.value ≤ 2 ^ 1024 - 6 * 2 ^ 970) : (ofDecimal? d).isSome := by
  unfold ofDecimal?
  dsimp only
  split
  · next hnonneg =>
    obtain ⟨k, hk⟩ := Int.eq_ofNat_of_zero_le hnonneg
    rw [value_eq_mul hk] at h
    rw [hk, Int.toNat_natCast]
    exact isSome_raised? hd h
  · rfl

/-- A decimal that is three steps above the greatest power of two is refused. -/
theorem ofDecimal?_eq_none (h : 2 ^ 1024 + 6 * 2 ^ 970 ≤ d.value) : ofDecimal? d = none := by
  have hnonneg : 0 ≤ d.exponent := by
    obtain ⟨u, hu, hstep, -, htop, -⟩ := exists_halfStep
    by_contra hneg
    have hless := value_lt_of_neg hd (Int.not_le.mp hneg)
    rw [hstep, htop] at h
    linarith only [h, hless, hu]
  obtain ⟨k, hk⟩ := Int.eq_ofNat_of_zero_le hnonneg
  rw [value_eq_mul hk] at h
  unfold ofDecimal?
  rw [hk, if_pos (Int.natCast_nonneg k), Int.toNat_natCast]
  exact raised?_eq_none hd h

omit hd in
/-- Half of a number that is not extremely small is no less than the least normal double. -/
theorem normal_of_half_le {x y : ℚ} (hleast : (2 : ℚ) ^ (-901 : Int) ≤ x) (h : 1 / 2 * x ≤ y) :
    (2 : ℚ) ^ (-1022 : Int) ≤ y := by
  calc (2 : ℚ) ^ (-1022 : Int) ≤ 2 ^ (-901 - 1 : Int) := zpow_le_zpow_right₀ one_le_two (by decide)
    _ = 1 / 2 * 2 ^ (-901 : Int) := by rw [zpow_sub_one₀ two_ne_zero]; ring
    _ ≤ 1 / 2 * x := mul_le_mul_of_nonneg_left hleast (by norm_num)
    _ ≤ y := h

/-- The number, the power of ten and their product are each rounded. -/
theorem nearby_raised? {k w : Nat} (h : raised? (double.nearest d.coefficient 1) k = some w)
    (hleast : (2 : ℚ) ^ (-901 : Int) ≤ d.coefficient * 10 ^ k) :
    Nearby (1 - 7 / 2 ^ 54) (1 + 7 / 2 ^ 54) (d.coefficient * 10 ^ k) (double.value w) := by
  have hpos : (0 : ℚ) < d.coefficient * 10 ^ k := lt_of_lt_of_le (by positivity) hleast
  unfold raised? at h
  split at h
  · next hle =>
    dsimp only at h
    split at h
    · next hfinite =>
      cases h
      have hfactors := nearby_factors hd hle
      have hnormal := normal_of_half_le hleast (hfactors.mono hpos.le (by norm_num [share]) le_rfl).lower
      have hround := nearby_product hnormal hfinite
      exact (hfactors.trans hround one_sub_share_pos.le one_add_share_pos.le).mono hpos.le (by norm_num [share])
        (by norm_num [share])
    · cases h
  · split at h
    · next hzero =>
      have hcoefficient : d.coefficient ≠ 0 := by
        intro hnone
        rw [hnone, Nat.cast_zero, zero_mul] at hpos
        exact lt_irrefl _ hpos
      exact absurd hzero (nearest_coefficient_ne_zero hd hcoefficient)
    · cases h

/-- The number, the power of ten and their quotient are each rounded. -/
theorem nearby_lowered {k : Nat} (hleast : (2 : ℚ) ^ (-901 : Int) ≤ d.coefficient / 10 ^ k) :
    Nearby (1 - 7 / 2 ^ 54) (1 + 7 / 2 ^ 54) (d.coefficient / 10 ^ k)
      (double.value (lowered (double.nearest d.coefficient 1) k)) := by
  have hpos : (0 : ℚ) < d.coefficient / 10 ^ k := lt_of_lt_of_le (by positivity) hleast
  have hcoefficient : (d.coefficient : ℚ) < 2 ^ 64 := by exact_mod_cast hd
  have hle : k ≤ greatestTenPower := by
    by_contra hgreat
    have hmore : (2 : ℚ) ^ (-901 : Int) * 2 ^ 1025 ≤ d.coefficient / 10 ^ k * 10 ^ k :=
      mul_le_mul hleast (lt_tenPower hgreat).le (by positivity) hpos.le
    rw [div_mul_cancel₀ _ (by positivity), ← zpow_natCast, ← zpow_add₀ two_ne_zero] at hmore
    have hless : (2 : ℚ) ^ (64 : Int) ≤ 2 ^ (-901 + (1025 : Nat) : Int) := zpow_le_zpow_right₀ one_le_two (by decide)
    exact absurd (hless.trans hmore) (by exact_mod_cast hcoefficient.not_ge)
  have hratio := nearby_ratio hd hle
  have hpower : 0 < double.value (tenPower k) :=
    lt_of_lt_of_le (mul_pos one_sub_share_pos (by positivity)) (nearby_tenPower hle).lower
  have hfinite : double.value (double.nearest d.coefficient 1) / double.value (tenPower k) < 2 ^ 1024 - 2 ^ 970 := by
    obtain ⟨u, hu, hstep, -, htop, -⟩ := exists_halfStep
    have hless : (d.coefficient : ℚ) / 10 ^ k ≤ d.coefficient :=
      div_le_self (Nat.cast_nonneg _) (one_le_pow₀ (by norm_num))
    calc double.value (double.nearest d.coefficient 1) / double.value (tenPower k)
        ≤ (1 + share) / (1 - share) * (d.coefficient / 10 ^ k) := hratio.upper
      _ ≤ 2 * (d.coefficient / 10 ^ k) := mul_le_mul_of_nonneg_right (by norm_num [share]) hpos.le
      _ < 2 ^ 54 * u - u := by linarith only [hless, hcoefficient, hu]
      _ = 2 ^ 1024 - 2 ^ 970 := by rw [htop, hstep]
  have hnormal := normal_of_half_le hleast (hratio.mono hpos.le (by norm_num [share]) le_rfl).lower
  have hround := nearby_quotient hpower hnormal hfinite
  rw [lowered, if_pos hle]
  exact (hratio.trans hround one_sub_share_pos.le one_add_share_pos.le).mono hpos.le (by norm_num [share])
    (by norm_num [share])

/-- What is read of a decimal that is not extremely small has been rounded three times. -/
theorem nearby_ofDecimal? {w : Nat} (h : ofDecimal? d = some w) (hleast : (2 : ℚ) ^ (-901 : Int) ≤ d.value) :
    Nearby (1 - 7 / 2 ^ 54) (1 + 7 / 2 ^ 54) d.value (double.value w) := by
  unfold ofDecimal? at h
  dsimp only at h
  split at h
  · next hnonneg =>
    obtain ⟨k, hk⟩ := Int.eq_ofNat_of_zero_le hnonneg
    rw [hk, Int.toNat_natCast] at h
    rw [value_eq_mul hk] at hleast ⊢
    exact nearby_raised? hd h hleast
  · next hneg =>
    obtain ⟨k, hk⟩ : ∃ k : Nat, d.exponent = -k := ⟨(-d.exponent).toNat, by omega⟩
    rw [hk, Int.neg_neg, Int.toNat_natCast] at h
    cases h
    rw [value_eq_div hk] at hleast ⊢
    exact nearby_lowered hd hleast

end

/-- The powers of ten of which no bit is lost. -/
theorem numerator_tenPower {k : Nat} (h : k ≤ 22) :
    double.numerator (tenPower k) = 10 ^ k * double.denominator (tenPower k) := by
  have hall : ∀ k ≤ 22, double.numerator (tenPower k) = 10 ^ k * double.denominator (tenPower k) := by decide +kernel
  exact hall k h

/-- A decimal of 53 bits is rounded once if no bit of its power of ten is lost either. -/
theorem ofDecimal?_eq_nearest {d : Decimal} (hcoefficient : d.coefficient < 2 ^ 53) (hexponent : d.exponent.natAbs ≤ 22) :
    ofDecimal? d = some (double.nearest d.numerator d.denominator) := by
  have hpower := numerator_tenPower hexponent
  have hnumber := numerator_nearest_one hcoefficient
  have hle : d.exponent.natAbs ≤ greatestTenPower := hexponent.trans (by decide)
  unfold ofDecimal? Decimal.numerator Decimal.denominator
  dsimp only
  split
  · have hup : d.exponent.toNat = d.exponent.natAbs := by omega
    have hdown : (-d.exponent).toNat = 0 := by omega
    have hfinite : double.nearest (d.coefficient * 10 ^ d.exponent.natAbs) 1 < double.infinity := by
      have hless : d.coefficient * 10 ^ d.exponent.natAbs ≤ 2 ^ 53 * 10 ^ 22 :=
        Nat.mul_le_mul hcoefficient.le (Nat.pow_le_pow_right (by decide) hexponent)
      have hmost : 2 ^ 53 * 10 ^ 22 ≤ 10 ^ 308 := by decide +kernel
      have hless' : ((d.coefficient * 10 ^ d.exponent.natAbs : Nat) : ℚ) ≤ 10 ^ 308 := by exact_mod_cast hless.trans hmost
      rw [nearest_double_lt_iff one_ne_zero, Nat.cast_one, div_one]
      exact hless'.trans_lt tenPower_lt
    rw [hup, hdown, raised?, if_pos hle, double.product_of_numerator hnumber hpower]
    exact if_pos hfinite
  · have hup : d.exponent.toNat = 0 := by omega
    have hdown : (-d.exponent).toNat = d.exponent.natAbs := by omega
    have hten : 10 ^ d.exponent.natAbs ≠ 0 := by positivity
    rw [hup, hdown, lowered, if_pos hle, double.quotient_of_numerator hnumber hpower hten, Nat.pow_eq, Nat.pow_eq,
      Nat.pow_zero, Nat.mul_one]

end Double

/-! ### Numerals as doubles -/

namespace Numeral

/-- The double stands for the numeral, where there is one. Between the two bounds, which are four steps below and above
    the greatest power of two, the digits decide whether there is. -/
structure Approximated (n : Numeral) (x? : Option Double) : Prop where
  read : n.decimal.value ≤ 2 ^ 1024 - 2 ^ 973 → x?.isSome
  refused : 2 ^ 1024 + 2 ^ 973 ≤ n.decimal.value → x? = none
  signed : ∀ x ∈ x?, x.negative = n.negative
  close : (2 : ℚ) ^ (-900 : Int) ≤ n.decimal.value → ∀ x ∈ x?,
    |BinaryFormat.double.value x.magnitude - n.decimal.value| ≤ 1 / 2 ^ 51 * n.decimal.value
  nearest : n.decimal.coefficient < 2 ^ 53 → n.decimal.exponent.natAbs ≤ 22 →
    x? = some ⟨n.negative, BinaryFormat.double.nearest n.decimal.numerator n.decimal.denominator⟩

variable {n : Numeral}

/-- A numeral that is four steps below the greatest power of two is read. -/
theorem isSome_double? (h : n.decimal.value ≤ 2 ^ 1024 - 2 ^ 973) : n.double?.isSome := by
  obtain ⟨u, hu, hstep, hmargin, htop, -⟩ := Double.exists_halfStep
  have hkept : n.kept.value ≤ 2 ^ 1024 - 6 * 2 ^ 970 := by
    rw [hmargin, htop] at h
    rw [hstep, htop]
    linarith only [(nearby_kept n).upper, h, hu]
  rw [double?, Option.isSome_map]
  exact Double.isSome_ofDecimal? n.coefficient_kept_lt hkept

/-- A numeral that is four steps above the greatest power of two is refused. -/
theorem double?_eq_none (h : 2 ^ 1024 + 2 ^ 973 ≤ n.decimal.value) : n.double? = none := by
  obtain ⟨u, hu, hstep, hmargin, htop, -⟩ := Double.exists_halfStep
  have hkept : 2 ^ 1024 + 6 * 2 ^ 970 ≤ n.kept.value := by
    rw [hmargin, htop] at h
    rw [hstep, htop]
    linarith only [(nearby_kept n).lower, h, hu]
  rw [double?, Double.ofDecimal?_eq_none n.coefficient_kept_lt hkept, Option.map_none]

/-- What is read of a numeral that is not extremely small has at least 51 bits right. -/
theorem double?_error {x : Double} (h : n.double? = some x) (hleast : (2 : ℚ) ^ (-900 : Int) ≤ n.decimal.value) :
    |BinaryFormat.double.value x.magnitude - n.decimal.value| ≤ 1 / 2 ^ 51 * n.decimal.value := by
  obtain ⟨w, hw, rfl⟩ := Option.map_eq_some_iff.mp h
  have hvalue : 0 < n.decimal.value := lt_of_lt_of_le (by positivity) hleast
  have hkept := nearby_kept n
  have hleast' : (2 : ℚ) ^ (-901 : Int) ≤ n.kept.value := by
    calc (2 : ℚ) ^ (-901 : Int) = 1 / 2 * 2 ^ (-900 : Int) := by
          rw [show (-901 : Int) = -900 - 1 from rfl, zpow_sub_one₀ two_ne_zero]
          ring
      _ ≤ 1 / 2 * n.decimal.value := mul_le_mul_of_nonneg_left hleast (by norm_num)
      _ ≤ n.kept.value := (hkept.mono hvalue.le (by norm_num) le_rfl).lower
  have hread := Double.nearby_ofDecimal? n.coefficient_kept_lt hw hleast'
  exact ((hkept.trans hread (by norm_num) (by norm_num)).mono hvalue.le (by norm_num) (by norm_num)).abs

/-- What is read of a numeral of few digits whose power of ten is small is the nearest double. -/
theorem double?_eq_nearest (hdigits : n.decimal.coefficient < 2 ^ 53) (hexponent : n.decimal.exponent.natAbs ≤ 22) :
    n.double? = some ⟨n.negative, BinaryFormat.double.nearest n.decimal.numerator n.decimal.denominator⟩ := by
  rw [double?, kept_eq_decimal (hdigits.trans (by decide)), Double.ofDecimal?_eq_nearest hdigits hexponent]
  rfl

/-- What a numeral is read as stands for it. -/
theorem approximated (n : Numeral) : n.Approximated n.double? where
  read := isSome_double?
  refused := double?_eq_none
  signed x hx := by
    obtain ⟨w, -, rfl⟩ := Option.map_eq_some_iff.mp hx
    rfl
  close hleast x hx := double?_error hx hleast
  nearest := double?_eq_nearest

-- Of more than 22 places behind the point, not always the nearest double is read.
example : (⟨false, 7, [0, 3, 8, 5, 3, 1], some (-26)⟩ : Numeral).double? = some ⟨false, 0x3ab5c87fafffffff⟩ ∧
    BinaryFormat.double.nearest 7038531 (Nat.pow 10 32) = 0x3ab5c87fb0000000 := by
  decide +kernel

theorem isSome_number?_of_isSome_double? (h : n.double?.isSome) : n.number?.isSome := by
  unfold number?
  generalize (if n.negative then _ else _ : Bool) = isInteger
  dsimp only
  split
  · rfl
  · rwa [Option.isSome_map]

end Numeral

/-- The text of a finite single is the text of a number. -/
theorem Single.isSome_number? {x : Single} (h : x.isFinite = true) : x.jsonNumeral.number?.isSome := by
  have hsingle := BinaryFormat.value_shortest_lt (by simpa [isFinite] using h) Layout.jsonSingle.tie
  have hrange : (2 : ℚ) ^ 129 ≤ 2 ^ 1024 - 2 ^ 973 := by
    obtain ⟨u, hu, hstep, hmargin, htop, -⟩ := Double.exists_halfStep
    have hless : (2 : ℚ) ^ 129 ≤ 2 ^ 970 := pow_le_pow_right₀ one_le_two (by decide)
    rw [hstep] at hless
    rw [htop, hmargin]
    linarith only [hless, hu]
  refine Numeral.isSome_number?_of_isSome_double? (Numeral.isSome_double? ?_)
  unfold jsonNumeral
  rw [Layout.value_numeral]
  exact hsingle.le.trans hrange

end FxStack
