import FxStack.Json.Reader
import Mathlib.Data.List.Basic

/-! Numerals in JSON text. The digits of a number are read back as they were written, and no digit but the
    one of zero itself is a leading zero, so a numeral is found in every text that spells it whatever may follow
    that is no part of a number. Main statement: `Json.readNumeral_of_spells`. -/

namespace FxStack

/-! ### Digits -/

namespace Digit

theorem ofChar?_char (d : Digit) : ofChar? d.char = some d := by
  revert d
  decide

theorem char_of_ofChar? {c : Char} {d : Digit} (h : ofChar? c = some d) : d.char = c := by
  unfold ofChar? at h
  split at h
  · next hc =>
    obtain rfl := Option.some.inj h
    have hval := Nat.toNat_digitChar_of_lt_ten hc.2
    have hzero : '0'.toNat = 48 := rfl
    exact Char.toNat_inj.mp (by simp only [char]; omega)
  · cases h

theorem exists_of_isDigit {c : Char} (h : c.isDigit = true) : ∃ d : Digit, ofChar? c = some d := by
  simp only [Char.isDigit, Bool.and_eq_true, decide_eq_true_eq, ge_iff_le, UInt32.le_iff_toNat_le] at h
  have hrange : 48 ≤ c.toNat ∧ c.toNat ≤ 57 := h
  have hzero : '0'.toNat = 48 := rfl
  unfold ofChar?
  rw [dif_pos ⟨by omega, by omega⟩]
  exact ⟨_, rfl⟩

theorem map_char_filterMap {cs : List Char} (h : ∀ c ∈ cs, c.isDigit = true) :
    (cs.filterMap ofChar?).map char = cs := by
  induction cs with
  | nil => rfl
  | cons c cs ih =>
    obtain ⟨d, hd⟩ := exists_of_isDigit (h c List.mem_cons_self)
    rw [List.filterMap_cons_some hd, List.map_cons, char_of_ofChar? hd,
      ih fun x hx => h x (List.mem_cons_of_mem _ hx)]

theorem map_char_ofNat (n : Nat) : (ofNat n).map char = Nat.toDigits 10 n :=
  map_char_filterMap fun _ hc => Nat.isDigit_of_mem_toDigits (by decide) (by decide) hc

theorem ofDigitChars_map_char (ds : List Digit) : ∀ n,
    Nat.ofDigitChars 10 (ds.map char) n = ds.foldl (fun n d => 10 * n + d.val) n := by
  induction ds with
  | nil => exact fun _ => rfl
  | cons d ds ih =>
    intro n
    rw [List.map_cons, List.foldl_cons, ← ih]
    exact Nat.ofDigitChars_cons_digitChar_of_lt_ten d.isLt

theorem value_ofNat (n : Nat) : value (ofNat n) = n := by
  unfold value
  rw [← ofDigitChars_map_char, map_char_ofNat, Nat.ofDigitChars_ten_toDigits]

theorem ofNat_ne_nil (n : Nat) : ofNat n ≠ [] := by
  intro h
  have hchars := map_char_ofNat n
  rw [h] at hchars
  exact Nat.toDigits_ne_nil hchars.symm

theorem ofNat_of_lt {n : Nat} (h : n < 10) : ofNat n = [⟨n, h⟩] := by
  have hd : ofChar? (Nat.digitChar n) = some ⟨n, h⟩ := ofChar?_char ⟨n, h⟩
  unfold ofNat
  rw [Nat.toDigits_of_lt_base h, List.filterMap_cons_some hd]
  rfl

theorem ofNat_of_le {n : Nat} (h : 10 ≤ n) : ofNat n = ofNat (n / 10) ++ ofNat (n % 10) := by
  unfold ofNat
  rw [Nat.toDigits_of_base_le (by decide) h, List.filterMap_append,
    Nat.toDigits_of_lt_base (Nat.mod_lt n (by decide))]

/-- Only the number 0 starts with the digit 0. -/
theorem head_ofNat {n : Nat} {d : Digit} {ds : List Digit} (h : ofNat n = d :: ds) : n = 0 ∨ d.val ≠ 0 := by
  induction n using Nat.strongRecOn generalizing ds with
  | ind n ih =>
    by_cases hn : n < 10
    · rw [ofNat_of_lt hn] at h
      cases h
      exact Classical.em _
    · obtain ⟨e, es, he⟩ := List.exists_cons_of_ne_nil (ofNat_ne_nil (n / 10))
      rw [ofNat_of_le (by omega), he] at h
      cases h
      rcases ih (n / 10) (by omega) he with hzero | hd
      · omega
      · exact Or.inr hd

end Digit

/-! ### Numerals -/

namespace Numeral

/-- The digits after the point with the point, if there are any. -/
def fractionText (ds : List Digit) : List Char := if ds.isEmpty then [] else '.' :: ds.map Digit.char

/-- The text spells an exponent: a letter of either case, a sign or none, and digits. -/
inductive SpellsExponent : Option Int → List Char → Prop
  | none : SpellsExponent none []
  | plain {c : Char} {ds : List Digit} : c = 'e' ∨ c = 'E' → ds ≠ [] →
      SpellsExponent (some (Digit.value ds)) (c :: ds.map Digit.char)
  | plus {c : Char} {ds : List Digit} : c = 'e' ∨ c = 'E' → ds ≠ [] →
      SpellsExponent (some (Digit.value ds)) (c :: '+' :: ds.map Digit.char)
  | minus {c : Char} {ds : List Digit} : c = 'e' ∨ c = 'E' → ds ≠ [] →
      SpellsExponent (some (-(Digit.value ds : Int))) (c :: '-' :: ds.map Digit.char)

/-- The text spells the numeral but for its sign. -/
inductive SpellsUnsigned (n : Numeral) : List Char → Prop
  | intro {es : List Char} : SpellsExponent n.exponent es →
      SpellsUnsigned n ((Digit.ofNat n.whole).map Digit.char ++ (fractionText n.fraction ++ es))

/-- The text spells the numeral. -/
inductive Spells (n : Numeral) : List Char → Prop
  | intro {cs : List Char} : SpellsUnsigned n cs → Spells n ((if n.negative then ['-'] else []) ++ cs)

theorem spellsExponent_exponentText (e : Int) : SpellsExponent (some e) (exponentText .always e) := by
  have hvalue := Digit.value_ofNat e.natAbs
  unfold exponentText
  rw [← Digit.map_char_ofNat]
  by_cases he : e < 0
  · have hminus : e = -(Digit.value (Digit.ofNat e.natAbs) : Int) := by omega
    simp only [he, if_true]
    nth_rewrite 1 [hminus]
    exact .minus (.inl rfl) (Digit.ofNat_ne_nil _)
  · have hplus : e = (Digit.value (Digit.ofNat e.natAbs) : Int) := by omega
    simp only [he, if_false]
    nth_rewrite 1 [hplus]
    exact .plus (.inl rfl) (Digit.ofNat_ne_nil _)

/-- A numeral is spelled as it is written. -/
theorem spells_text (n : Numeral) : n.Spells (n.text .always) := by
  obtain ⟨negative, whole, fraction, exponent⟩ := n
  have htext : (⟨negative, whole, fraction, exponent⟩ : Numeral).text .always = (if negative then ['-'] else []) ++
      ((Digit.ofNat whole).map Digit.char ++ (fractionText fraction ++ (exponent.map (exponentText .always)).getD [])) := by
    unfold text fractionText
    rw [Digit.map_char_ofNat]
    cases exponent <;> simp only [List.append_assoc, Option.map_none, Option.map_some, Option.getD_none, Option.getD_some]
  rw [htext]
  refine .intro (.intro ?_)
  cases exponent with
  | none => exact .none
  | some e => exact spellsExponent_exponentText e

theorem SpellsUnsigned.exists_eq_cons {n : Numeral} {cs : List Char} (h : n.SpellsUnsigned cs) :
    ∃ (d : Digit) (ds : List Char), cs = d.char :: ds := by
  cases h with
  | intro h =>
    obtain ⟨d, ds, hd⟩ := List.exists_cons_of_ne_nil (Digit.ofNat_ne_nil n.whole)
    rw [hd]
    exact ⟨d, _, rfl⟩

/-- The text starts with a sign or a digit. -/
theorem Spells.exists_eq_cons {n : Numeral} {cs : List Char} (h : n.Spells cs) : ∃ c ds, cs = c :: ds ∧
    (c = '-' ∧ n.negative = true ∧ n.SpellsUnsigned ds ∨
      (∃ d : Digit, c = d.char) ∧ n.negative = false ∧ n.SpellsUnsigned (c :: ds)) := by
  cases h with
  | @intro cs h =>
    cases n.negative with
    | true => exact ⟨'-', cs, rfl, Or.inl ⟨rfl, rfl, h⟩⟩
    | false =>
      obtain ⟨d, ds, rfl⟩ := h.exists_eq_cons
      exact ⟨d.char, ds, rfl, Or.inr ⟨⟨d, rfl⟩, rfl, h⟩⟩

end Numeral

namespace Json

/-- The text goes on with nothing that could be part of a number. -/
def EndsNumeral (rest : List Char) : Prop :=
  ∀ c ∈ rest.head?, Digit.ofChar? c = none ∧ c ≠ '.' ∧ c ≠ 'e' ∧ c ≠ 'E'

theorem endsNumeral_nil : EndsNumeral [] := nofun

theorem spanDigits_append (ds : List Digit) {rest : List Char} (h : ∀ c ∈ rest.head?, Digit.ofChar? c = none) :
    spanDigits (ds.map Digit.char ++ rest) = (ds, rest) := by
  induction ds with
  | nil =>
    cases rest with
    | nil => rfl
    | cons c cs => simp [spanDigits, h c rfl]
  | cons d ds ih => simp [spanDigits, Digit.ofChar?_char, ih]

theorem readFraction_append (ds : List Digit) {rest : List Char}
    (h : ∀ c ∈ rest.head?, Digit.ofChar? c = none ∧ c ≠ '.') :
    readFraction (Numeral.fractionText ds ++ rest) = .ok (ds, rest) := by
  unfold Numeral.fractionText
  cases ds with
  | nil =>
    cases rest with
    | nil => rfl
    | cons c cs =>
      have hc := (h c rfl).2
      unfold readFraction
      simp [hc]
  | cons d ds =>
    have hspan := spanDigits_append (d :: ds) fun c hc => (h c hc).1
    simp only [List.map_cons, List.cons_append] at hspan
    simp [readFraction, hspan]

theorem readExponentSign_digit (d : Digit) (cs : List Char) : readExponentSign (d.char :: cs) = (false, d.char :: cs) := by
  have hsign : d.char ≠ '+' ∧ d.char ≠ '-' := by
    revert d
    decide
  unfold readExponentSign
  split <;> simp_all

theorem readExponent_of_spells {e : Option Int} {es rest : List Char} (h : Numeral.SpellsExponent e es)
    (hrest : EndsNumeral rest) : readExponent (es ++ rest) = .ok (e, rest) := by
  have hspan (ds : List Digit) := spanDigits_append ds fun c hc => (hrest c hc).1
  cases h with
  | none =>
    cases rest with
    | nil => rfl
    | cons c cs =>
      obtain ⟨-, -, he, hE⟩ := hrest c rfl
      simp [readExponent, he, hE]
  | @plain c ds hc hds =>
    obtain ⟨d, ds, rfl⟩ := List.exists_cons_of_ne_nil hds
    have hdigits := hspan (d :: ds)
    simp only [List.map_cons, List.cons_append] at hdigits ⊢
    simp only [readExponent, hc, if_true, readExponentSign_digit, hdigits]
    rfl
  | @plus c ds hc hds =>
    obtain ⟨d, ds, rfl⟩ := List.exists_cons_of_ne_nil hds
    have hdigits := hspan (d :: ds)
    simp only [List.cons_append, readExponent, hc, if_true, readExponentSign, hdigits]
    rfl
  | @minus c ds hc hds =>
    obtain ⟨d, ds, rfl⟩ := List.exists_cons_of_ne_nil hds
    have hdigits := hspan (d :: ds)
    simp only [List.cons_append, readExponent, hc, if_true, readExponentSign, hdigits]

/-- A numeral is read from every text that spells it, after the sign. -/
theorem readNumeral_of_spells {n : Numeral} {cs rest : List Char} (h : n.SpellsUnsigned cs) (hrest : EndsNumeral rest) :
    readNumeral n.negative (cs ++ rest) = .ok (n, rest) := by
  cases h with
  | @intro es hes =>
    obtain ⟨d, ds, hd⟩ := List.exists_cons_of_ne_nil (Digit.ofNat_ne_nil n.whole)
    have hletter {c : Char} (hc : c = 'e' ∨ c = 'E') : Digit.ofChar? c = none ∧ c ≠ '.' := by
      rcases hc with rfl | rfl <;> decide
    have hexponent : ∀ c ∈ (es ++ rest).head?, Digit.ofChar? c = none ∧ c ≠ '.' := by
      intro c hc
      cases hexp : n.exponent with
      | none =>
        rw [hexp] at hes
        cases hes
        exact ⟨(hrest c hc).1, (hrest c hc).2.1⟩
      | some e =>
        rw [hexp] at hes
        cases hes with
        | plain hl => exact Option.some.inj hc ▸ hletter hl
        | plus hl => exact Option.some.inj hc ▸ hletter hl
        | minus hl => exact Option.some.inj hc ▸ hletter hl
    have hfraction : ∀ c ∈ (Numeral.fractionText n.fraction ++ (es ++ rest)).head?, Digit.ofChar? c = none := by
      unfold Numeral.fractionText
      split
      · exact fun c hc => (hexponent c hc).1
      · intro c hc
        obtain rfl : '.' = c := by simpa using hc
        rfl
    have hspan := spanDigits_append (Digit.ofNat n.whole) hfraction
    have hvalue := Digit.value_ofNat n.whole
    unfold readNumeral
    rw [List.append_assoc, List.append_assoc, hspan, hd]
    dsimp only
    rw [if_neg, readFraction_append _ hexponent]
    · simp only [bind, Except.bind, readExponent_of_spells hes hrest, pure, Except.pure, ← hd, hvalue]
    · rintro ⟨hzero, hmore⟩
      rcases Digit.head_ofNat hd with hn | hne
      · rw [hn, Digit.ofNat_of_lt (by decide)] at hd
        cases hd
        exact hmore rfl
      · exact hne hzero

end Json
end FxStack
