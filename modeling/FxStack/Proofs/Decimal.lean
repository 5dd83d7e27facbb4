import FxStack.Decimal.Layout
import FxStack.Proofs.Float.Rounding
import FxStack.Proofs.Json.Numeral
import Mathlib.Data.List.TakeWhile

/-! Decimals as numbers. A layout writes the number that it is given, and the decimal that a finite single is written
    as is not much greater than the single. Main statements: `Layout.value_numeral` and
    `BinaryFormat.value_shortest_lt`. -/

namespace FxStack

/-! ### Digits -/

namespace Digit

theorem foldl_eq (ds : List Digit) : ∀ n : Nat,
    ds.foldl (fun n d => 10 * n + d.val) n = n * 10 ^ ds.length + value ds := by
  induction ds with
  | nil => simp [value]
  | cons d ds ih =>
    intro n
    unfold value
    rw [List.foldl_cons, List.foldl_cons, ih, ih (10 * 0 + d.val), List.length_cons]
    ring

theorem value_append (ds es : List Digit) : value (ds ++ es) = value ds * 10 ^ es.length + value es := by
  rw [← foldl_eq]
  unfold value
  rw [List.foldl_append]

theorem value_zeros {ds : List Digit} (h : ∀ d ∈ ds, d = 0) : value ds = 0 := by
  induction ds with
  | nil => rfl
  | cons d ds ih =>
    obtain rfl := h d List.mem_cons_self
    rw [← List.singleton_append, value_append, ih fun e he => h e (List.mem_cons_of_mem _ he)]
    simp [value]

theorem length_ofNat (n : Nat) : (ofNat n).length = (Nat.toDigits 10 n).length := by
  rw [← map_char_ofNat, List.length_map]

theorem lt_pow_length_ofNat (n : Nat) : n < 10 ^ (ofNat n).length := by
  rw [length_ofNat]
  exact (Nat.length_toDigits_le_iff (by decide) Nat.length_toDigits_pos).mp le_rfl

end Digit

/-! ### Decimals -/

namespace Decimal

/-- The number that a decimal is. -/
def value (d : Decimal) : ℚ := d.coefficient * 10 ^ d.exponent

variable (d : Decimal)

theorem denominator_ne_zero : d.denominator ≠ 0 := (Nat.pow_pos (by decide)).ne'

theorem value_eq : d.value = (d.numerator : ℚ) / d.denominator := by
  unfold value numerator denominator
  rw [BinaryFormat.zpow_eq_div (by norm_num)]
  simp [mul_div_assoc]

theorem value_lt : d.value < 10 ^ d.top := by
  have hcoefficient : (d.coefficient : ℚ) < 10 ^ ((Digit.ofNat d.coefficient).length : Int) := by
    exact_mod_cast Digit.lt_pow_length_ofNat d.coefficient
  unfold value top
  rw [zpow_add₀ (by norm_num)]
  gcongr

end Decimal

namespace BinaryFormat

/-- A decimal that is not rounded to an infinite single is less than `2 ^ 129`. -/
theorem value_lt_of_nearestDecimal {d : Decimal} (h : single.nearestDecimal d < single.infinity) :
    d.value < 2 ^ 129 := by
  unfold nearestDecimal at h
  split at h
  · next hzero =>
    rcases hzero with hzero | hsmall
    · simp [Decimal.value, hzero]
    · calc d.value < 10 ^ d.top := d.value_lt
        _ ≤ 10 ^ (0 : Int) := zpow_le_zpow_right₀ (by norm_num) (by unfold decimalReach at hsmall; omega)
        _ ≤ 2 ^ 129 := by norm_num
  · split at h
    · exact absurd h (Nat.lt_irrefl _)
    · rw [d.value_eq]
      exact lt_of_nearest_single d.denominator_ne_zero h

/-! ### Shortest decimals -/

/-- A decimal on the grid is rounded to the magnitude that it is for. -/
theorem nearestDecimal_of_onGrid {f : BinaryFormat} {tie : TieRule} {w digits : Nat} {d : Decimal}
    (h : f.onGrid tie w digits = some d) : f.nearestDecimal d = w := by
  unfold onGrid at h
  dsimp only at h
  split at h
  · next hbelow habove =>
    simp only [decide_eq_true_eq] at hbelow habove
    cases tie <;> grind
  · next hbelow _ =>
    simp only [decide_eq_true_eq] at hbelow
    cases h
    exact hbelow
  · next _ habove =>
    simp only [decide_eq_true_eq] at habove
    cases h
    exact habove
  · cases h

theorem numerator_lt {w : Nat} (h : w < single.infinity) : single.numerator w < 2 ^ 128 := by
  have hbinade : single.binade = 2 ^ 23 := by decide
  have hinfinity : single.infinity = 255 * 2 ^ 23 := by decide
  have hleast : single.leastExponent = -149 := by decide
  rw [hinfinity] at h
  have hsignificand : single.significand w < 2 ^ 24 := by
    unfold significand
    rw [hbinade]
    split <;> omega
  have hexponent : (single.exponent w).toNat ≤ 104 := by
    unfold exponent
    rw [hbinade, hleast]
    omega
  calc single.numerator w < 2 ^ 24 * Nat.pow 2 (single.exponent w).toNat :=
        Nat.mul_lt_mul_of_pos_right hsignificand (Nat.two_pow_pos _)
    _ ≤ 2 ^ 24 * 2 ^ 104 := Nat.mul_le_mul_left _ (Nat.pow_le_pow_right (by decide) hexponent)
    _ = 2 ^ 128 := by norm_num

theorem value_exactDecimal_lt {w : Nat} (h : w < single.infinity) : (single.exactDecimal w).value < 2 ^ 129 := by
  have hexponent : min 0 (single.exponent w) = -((-single.exponent w).toNat : Int) := by omega
  have hnumerator : (single.numerator w : ℚ) < 2 ^ 128 := by exact_mod_cast numerator_lt h
  unfold Decimal.value exactDecimal
  rw [hexponent]
  generalize (-single.exponent w).toNat = k
  calc ((single.numerator w * Nat.pow 5 k : Nat) : ℚ) * 10 ^ (-(k : Int))
      = single.numerator w * (5 / 10) ^ k := by
        rw [zpow_neg, zpow_natCast, div_pow]
        simp [mul_assoc, div_eq_mul_inv]
    _ ≤ single.numerator w * 1 := by
        gcongr
        exact pow_le_one₀ (by norm_num) (by norm_num)
    _ < 2 ^ 129 := by linarith

theorem value_shortest_lt {w : Nat} (h : w < single.infinity) (tie : TieRule) : (single.shortest tie w).value < 2 ^ 129 := by
  unfold shortest
  split
  · simp [Decimal.value]
  · cases hfind : (List.range sufficientDigits).findSome? fun k => single.onGrid tie w (k + 1) with
    | none => exact value_exactDecimal_lt h
    | some d =>
      obtain ⟨k, -, hk⟩ := List.exists_of_findSome?_eq_some hfind
      exact value_lt_of_nearestDecimal (nearestDecimal_of_onGrid hk ▸ h)

end BinaryFormat

/-! ### Layouts -/

namespace Layout

/-- A decimal is its significant digits, with the point where its first digit says. -/
theorem value_eq_significantDigits (d : Decimal) :
    d.value = Digit.value (significantDigits d) * 10 ^ (d.top - (significantDigits d).length) := by
  obtain ⟨zeros, hzeros, hdigits⟩ : ∃ zeros : List Digit, (∀ z ∈ zeros, z = 0) ∧
      Digit.ofNat d.coefficient = significantDigits d ++ zeros := by
    refine ⟨((Digit.ofNat d.coefficient).reverse.takeWhile (· = 0)).reverse, fun z hz => ?_, ?_⟩
    · simpa using List.mem_takeWhile_imp (List.mem_reverse.mp hz)
    · unfold significantDigits
      rw [← List.reverse_append, List.takeWhile_append_dropWhile, List.reverse_reverse]
  have hcoefficient : d.coefficient = Digit.value (significantDigits d) * 10 ^ zeros.length := by
    rw [← Digit.value_ofNat d.coefficient, hdigits, Digit.value_append, Digit.value_zeros hzeros, Nat.add_zero]
  have htop : d.top - (significantDigits d).length = zeros.length + d.exponent := by
    unfold Decimal.top
    rw [hdigits, List.length_append]
    push_cast
    ring
  unfold Decimal.value
  rw [htop, zpow_add₀ (by norm_num), zpow_natCast, ← mul_assoc, hcoefficient]
  push_cast
  rfl

theorem significantDigits_ne_nil {d : Decimal} (h : d.coefficient ≠ 0) : significantDigits d ≠ [] := by
  intro hnil
  have hzeros : ∀ e ∈ Digit.ofNat d.coefficient, e = 0 := by
    simpa [significantDigits, List.dropWhile_eq_nil_iff] using hnil
  exact h ((Digit.value_ofNat _).symm.trans (Digit.value_zeros hzeros))

section
variable (negative : Bool) (digits : List Digit) (e : Int)

theorem value_take_drop (n : Nat) :
    Digit.value (digits.take n) * 10 ^ (digits.drop n).length + Digit.value (digits.drop n) = Digit.value digits := by
  rw [← Digit.value_append, List.take_append_drop]

theorem value_scientific (h : digits ≠ []) :
    (scientific negative digits e).decimal.value = Digit.value digits * 10 ^ (e + 1 - digits.length) := by
  have hlength := List.length_pos_iff.mpr h
  have hexponent : e - (digits.drop 1).length = e + 1 - digits.length := by
    rw [List.length_drop]
    omega
  unfold Decimal.value
  rw [← value_take_drop digits 1, ← hexponent]
  rfl

theorem value_plain :
    (plain negative digits e).decimal.value = Digit.value digits * 10 ^ (e + 1 - digits.length) := by
  unfold plain
  split
  · next he =>
    dsimp only
    split
    · next hrest =>
      have hall : digits.length ≤ e.toNat + 1 := by simpa using hrest
      have hexponent : e + 1 - digits.length = (e.toNat + 1 - digits.length : Nat) := by omega
      simp only [List.take_of_length_le hall, Numeral.decimal, Decimal.value, Digit.value_zeros, List.mem_singleton,
        forall_eq, List.length_singleton, hexponent, zpow_natCast]
      push_cast
      norm_num [mul_assoc]
    · next hrest =>
      have hmore : e.toNat + 1 < digits.length := by simpa using hrest
      have hzeros : e.toNat + 1 - (digits.take (e.toNat + 1)).length = 0 := by
        rw [List.length_take]
        omega
      have hexponent : (0 : Int) - (digits.drop (e.toNat + 1)).length = e + 1 - digits.length := by
        rw [List.length_drop]
        omega
      unfold Decimal.value
      rw [hzeros, ← value_take_drop digits (e.toNat + 1), ← hexponent]
      simp [Numeral.decimal]
  · next he =>
    have hexponent : (0 : Int) - (List.replicate (-e - 1).toNat (0 : Digit) ++ digits).length = e + 1 - digits.length := by
      rw [List.length_append, List.length_replicate]
      omega
    have hvalue : Digit.value (List.replicate (-e - 1).toNat 0 ++ digits) = Digit.value digits := by
      rw [Digit.value_append, Digit.value_zeros fun z hz => List.eq_of_mem_replicate hz, Nat.zero_mul, Nat.zero_add]
    unfold Decimal.value
    rw [← hexponent, ← hvalue]
    simp [Numeral.decimal]

end

/-- A layout writes the number that it is given. -/
theorem value_numeral (l : Layout) (negative : Bool) (d : Decimal) : (l.numeral negative d).decimal.value = d.value := by
  unfold numeral
  split
  · next h => simp [Numeral.decimal, Decimal.value, Digit.value, h]
  · next h =>
    have htop : d.top - 1 + 1 - (significantDigits d).length = d.top - (significantDigits d).length := by ring
    dsimp only
    rw [value_eq_significantDigits d, ← htop]
    split
    · exact value_plain negative _ _
    · exact value_scientific negative _ _ (significantDigits_ne_nil h)

/-- Every layout writes a point or an exponent. -/
theorem isIntegral_numeral (l : Layout) (negative : Bool) (d : Decimal) : (l.numeral negative d).isIntegral = false := by
  unfold numeral
  split
  · rfl
  next h =>
  have hdigits := significantDigits_ne_nil h
  dsimp only
  split
  · unfold plain
    split
    · dsimp only
      split <;> simp_all [Numeral.isIntegral]
    · simp [Numeral.isIntegral, hdigits]
  · simp [scientific, Numeral.isIntegral]

end Layout

end FxStack
