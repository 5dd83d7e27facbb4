import FxStack.Proofs.Float.Exact
import FxStack.Random
import Mathlib.Data.FinEnum
import Mathlib.Data.UInt
import Mathlib.Logic.Function.Iterate
import Mathlib.Order.Interval.Set.Defs

/-! The words behind the values of a seeded generator, one for each draw and two draws for each pair. Every step by which a
    word is mixed can be taken back, so draws share no word before the counter has gone round, and seeds share none at
    one draw. The value of a word is its 24 high bits over `2 ^ 24`, of which nothing is rounded away. Main statement:
    `Generator.draws_exact`. -/

namespace FxStack.Generator

/-! ### Words -/

/-- The highest bits are not changed, and each bit is given back by those above it. -/
theorem bits_injective {w s : Nat} (hs : 0 < s) : Function.Injective fun x : BitVec w => x ^^^ (x >>> s) := by
  intro x y h
  have hbit (i : Nat) : (x.getLsbD i ^^ x.getLsbD (s + i)) = (y.getLsbD i ^^ y.getLsbD (s + i)) := by
    simpa only [BitVec.getLsbD_xor, BitVec.getLsbD_ushiftRight] using congrArg (·.getLsbD i) h
  -- The induction goes down from the top: `n` bits from `i` on are still to be compared.
  have hbits (n : Nat) : ∀ i, w ≤ i + n → x.getLsbD i = y.getLsbD i := by
    induction n with
    | zero =>
      intro i hi
      rw [BitVec.getLsbD_of_ge x i hi, BitVec.getLsbD_of_ge y i hi]
    | succ n ih =>
      intro i hi
      have hbit := hbit i
      rwa [ih (s + i) (by omega), Bool.xor_left_inj] at hbit
  exact BitVec.eq_of_getLsbD_eq fun i _ => hbits w i (Nat.le_add_left w i)

/-- A word to which its own bits have been added further down can be taken back. -/
theorem xorShift_injective {s : UInt64} (hs : 0 < (s.toBitVec % 64).toNat) :
    Function.Injective fun x : UInt64 => x ^^^ (x >>> s) := by
  intro x y h
  have hwords := congrArg UInt64.toBitVec h
  simp only [UInt64.toBitVec_xor, UInt64.toBitVec_shiftRight] at hwords
  exact UInt64.toBitVec_inj.mp (bits_injective hs hwords)

/-- Both factors have an inverse, so that the multiplications can be taken back too. -/
theorem mix_injective : Function.Injective mix := by
  have hfirst : IsUnit (0xbf58476d1ce4e5b9 : UInt64) := .of_mul_eq_one 0x96de1b173f119089 (by decide)
  have hsecond : IsUnit (0x94d049bb133111eb : UInt64) := .of_mul_eq_one 0x319642b2d24d8ec3 (by decide)
  exact (xorShift_injective (s := 31) (by decide)).comp (hsecond.mul_left_injective.comp
    ((xorShift_injective (s := 27) (by decide)).comp (hfirst.mul_left_injective.comp
      (xorShift_injective (s := 30) (by decide)))))

/-- No word is missed, since none comes from two. -/
theorem mix_bijective : Function.Bijective mix := Finite.injective_iff_bijective.mp mix_injective

theorem word_injective (seed : UInt64) : Function.Injective (word seed) := by
  have hstride : IsUnit stride := .of_mul_eq_one 0xf1de83e19937733d (by decide)
  intro counter counter' h
  exact hstride.mul_left_injective ((UInt64.xor_right_inj seed).mp (mix_injective h))

theorem word_injective_seed (counter : UInt64) : Function.Injective fun seed => word seed counter := fun _ _ h =>
  (UInt64.xor_left_inj _).mp (mix_injective h)

/-! ### Draws -/

/-- The generator after some pairs. -/
def after (g : Generator) (pairs : Nat) : Generator := (fun g => g.next.2)^[pairs] g

/-- The word of a draw, the first of which has number 0. The counter goes on before each. -/
def drawn (seed : UInt64) (draw : Nat) : UInt64 := word seed (UInt64.ofNat (draw + 1))

theorem after_ofSeed (seed : UInt64) (pairs : Nat) : (ofSeed seed).after pairs = .seeded seed (UInt64.ofNat (2 * pairs)) := by
  unfold after
  induction pairs with
  | zero => rfl
  | succ pairs ih =>
    rw [Function.iterate_succ_apply', ih, Nat.mul_succ, UInt64.ofNat_add]
    rfl

/-- The values of a pair come from two draws, one after the other. -/
theorem next_after (seed : UInt64) (pairs : Nat) :
    ((ofSeed seed).after pairs).next.1 = (unit (drawn seed (2 * pairs)), unit (drawn seed (2 * pairs + 1))) := by
  rw [after_ofSeed, next, drawn, drawn, Nat.add_assoc, UInt64.ofNat_add, UInt64.ofNat_add]
  rfl

/-- Counters are apart until they have gone round. -/
theorem drawn_injOn (seed : UInt64) (start : Nat) : Set.InjOn (drawn seed) (Set.Ico start (start + 2 ^ 64)) := by
  intro i hi j hj h
  have hcounter : UInt64.ofNat (i + 1) = UInt64.ofNat (j + 1) := word_injective seed h
  have hmod : (i + 1) % 2 ^ 64 = (j + 1) % 2 ^ 64 := by
    rw [← UInt64.toNat_ofNat', ← UInt64.toNat_ofNat', hcounter]
  obtain ⟨hi, hi'⟩ := Set.mem_Ico.mp hi
  obtain ⟨hj, hj'⟩ := Set.mem_Ico.mp hj
  omega

/-! ### Values -/

/-- The 24 bits of a word that its value is made of. -/
def fraction (w : UInt64) : Nat := (w >>> 40).toNat

theorem fraction_lt (w : UInt64) : fraction w < 2 ^ 24 := by
  have hlt := w.toNat_lt
  have hshift : fraction w = w.toNat / 2 ^ 40 := by
    rw [fraction, UInt64.toNat_shiftRight, Nat.shiftRight_eq_div_pow]
    rfl
  rw [hshift]
  omega

theorem unit_eq_ofRatio (w : UInt64) : unit w = Single.ofRatio false (fraction w) (2 ^ 24) := rfl

/-- The number of a word's bits is a single itself, and so is the value of the word. -/
theorem value?_ofNat_fraction (w : UInt64) : (Single.ofNat (fraction w)).value? = some (fraction w : ℚ) := by
  have hvalue := Single.value?_ofRatio (k := 0) (fraction_lt w) (by decide)
  rwa [pow_zero, pow_zero, div_one] at hvalue

theorem value?_ofNat_two_pow : (Single.ofNat (2 ^ 24)).value? = some ((2 ^ 24 : Nat) : ℚ) := by decide +kernel

theorem value?_unit (w : UInt64) : (unit w).value? = some ((fraction w : ℚ) / 2 ^ 24) := by
  rw [unit_eq_ofRatio, Single.value?_ofRatio (fraction_lt w) (by decide)]

/-- The quotient of the two numbers is rounded to the value that is made at once. -/
theorem unit_eq_quotient (w : UInt64) : unit w = (Single.ofNat (fraction w)).quotient (Single.ofNat (2 ^ 24)) := by
  have hnumber := Single.negative_ofRatio false (fraction w) 1
  have hunits := Single.negative_ofRatio false (2 ^ 24) 1
  rw [unit_eq_ofRatio]
  exact (Single.quotient_of_value? hnumber hunits (value?_ofNat_fraction w) value?_ofNat_two_pow (by decide)).symm

/-- The pairs of a seeded generator are the values of its draws, two by two. A value is a number of 24 bits over `2 ^ 24`,
    both of which are singles, as is their quotient. Words are mixed one to one, so that no word comes twice among `2 ^ 64`
    draws in a row, nor at one draw from two seeds. -/
theorem draws_exact (seed : UInt64) :
    (∀ pairs, ((ofSeed seed).after pairs).next.1 =
      (unit (drawn seed (2 * pairs)), unit (drawn seed (2 * pairs + 1)))) ∧
    (∀ draw, ∃ n < 2 ^ 24, n = (drawn seed draw >>> 40).toNat ∧
      (Single.ofNat n).value? = some (n : ℚ) ∧ (Single.ofNat (2 ^ 24)).value? = some ((2 ^ 24 : Nat) : ℚ) ∧
      unit (drawn seed draw) = (Single.ofNat n).quotient (Single.ofNat (2 ^ 24)) ∧
      (unit (drawn seed draw)).value? = some ((n : ℚ) / 2 ^ 24) ∧ (0 : ℚ) ≤ n / 2 ^ 24 ∧ (n : ℚ) / 2 ^ 24 < 1) ∧
    Function.Bijective mix ∧
    (∀ start, Set.InjOn (drawn seed) (Set.Ico start (start + 2 ^ 64))) ∧
    ∀ draw, Function.Injective fun seed => drawn seed draw := by
  refine ⟨next_after seed, fun draw => ?_, mix_bijective, drawn_injOn seed, fun draw => word_injective_seed _⟩
  generalize drawn seed draw = w
  have hlt : (fraction w : ℚ) < 2 ^ 24 := by exact_mod_cast fraction_lt w
  refine ⟨fraction w, fraction_lt w, rfl, value?_ofNat_fraction w, value?_ofNat_two_pow, unit_eq_quotient w,
    value?_unit w, by positivity, ?_⟩
  rwa [div_lt_one (by positivity)]

/-- The draw at which the counter has gone round and the one after it. -/
theorem draws_exact_round :
    drawn 7 (2 ^ 64 - 1) = mix 7 ∧ drawn 7 (2 ^ 64 - 1) ≠ drawn 7 (2 ^ 64) ∧ drawn 7 (2 ^ 64) = drawn 7 0 ∧
    drawn 7 0 ≠ drawn 8 0 ∧ ((ofSeed 7).after 0).next.1 = (unit (drawn 7 0), unit (drawn 7 1)) := by
  obtain ⟨hpairs, -, -, hwords, hseeds⟩ := draws_exact 7
  refine ⟨by decide +kernel, fun h => ?_, by decide +kernel, fun h => ?_, hpairs 0⟩
  · exact absurd (hwords (2 ^ 64 - 1) (by simp) (by simp) h) (by decide)
  · exact absurd (hseeds 0 h) (by decide)

end FxStack.Generator
