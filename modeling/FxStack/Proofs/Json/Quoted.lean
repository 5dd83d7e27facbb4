import FxStack.Json.Printer
import FxStack.Json.Reader
import Mathlib.Data.List.Basic

/-! The texts that spell a string. A character stands for itself or is escaped, by one character, by its code unit or,
    above all code units, by the two halves of a surrogate pair; the reader takes all of these for the character.
    Main statement: `readString_of_spells`. -/

namespace FxStack.Json

/-! ### Code units -/

/-- The character is a hex digit of value `n`, as a small or as a capital letter above 9. -/
def HexDigit (n : Nat) (c : Char) : Prop := n < 16 ∧ (c = Nat.digitChar n ∨ c = (Nat.digitChar n).toUpper)

theorem HexDigit.hexDigit? {n : Nat} {c : Char} (h : HexDigit n c) : hexDigit? c = some n := by
  have hread : ∀ n < 16, Json.hexDigit? (Nat.digitChar n) = some n ∧ Json.hexDigit? (Nat.digitChar n).toUpper = some n := by
    decide
  obtain ⟨hn, rfl | rfl⟩ := h
  · exact (hread n hn).1
  · exact (hread n hn).2

theorem hexDigit_digitChar {n : Nat} (h : n < 16) : HexDigit n (Nat.digitChar n) := ⟨h, .inl rfl⟩

/-- Four hex digits spell a code unit. -/
inductive SpellsUnit (unit : Nat) : List Char → Prop
  | intro {a b c d : Char} : HexDigit (unit / 0x1000) a → HexDigit (unit / 0x100 % 16) b →
      HexDigit (unit / 0x10 % 16) c → HexDigit (unit % 16) d → SpellsUnit unit [a, b, c, d]

theorem readString_unit {unit : Nat} {us : List Char} (h : SpellsUnit unit us) (s : StringState) (rest : List Char) :
    readString s .plain ('\\' :: 'u' :: (us ++ rest)) = readString (s.pushUnit unit) .plain rest := by
  cases h with
  | intro ha hb hc hd =>
    have hvalue : 16 * (16 * (16 * (unit / 0x1000) + unit / 0x100 % 16) + unit / 0x10 % 16) + unit % 16 = unit := by
      omega
    simp [readString, ha.hexDigit?, hb.hexDigit?, hc.hexDigit?, hd.hexDigit?, hvalue]

/-! ### Characters -/

/-- The characters after a backslash and what they stand for. -/
def shortEscapes : List (Char × Char) :=
  [('"', '"'), ('\\', '\\'), ('/', '/'), ('b', '\x08'), ('f', '\x0c'), ('n', '\n'), ('r', '\r'), ('t', '\t')]

/-- The text spells a character of a string. -/
inductive SpellsChar (c : Char) : List Char → Prop
  | plain : c ≠ '"' → c ≠ '\\' → 0x20 ≤ c.toNat → SpellsChar c [c]
  | short {e : Char} : (e, c) ∈ shortEscapes → SpellsChar c ['\\', e]
  | unit {us : List Char} : SpellsUnit c.toNat us → SpellsChar c ('\\' :: 'u' :: us)
  | pair {us vs : List Char} : 0x10000 ≤ c.toNat → SpellsUnit (0xd800 + (c.toNat - 0x10000) / 0x400) us →
      SpellsUnit (0xdc00 + (c.toNat - 0x10000) % 0x400) vs → SpellsChar c ('\\' :: 'u' :: us ++ '\\' :: 'u' :: vs)

/-- The text spells the characters of a string one after the other. -/
inductive SpellsChars : List Char → List Char → Prop
  | nil : SpellsChars [] []
  | cons {c : Char} {cs us vs : List Char} : SpellsChar c us → SpellsChars cs vs → SpellsChars (c :: cs) (us ++ vs)

/-- The text spells the string, between quotes. -/
inductive SpellsString (s : String) : List Char → Prop
  | intro {us : List Char} : SpellsChars s.toList us → SpellsString s ('"' :: us ++ ['"'])

/-! ### Reading -/

/-- No character is half of a surrogate pair. -/
theorem toNat_bounds (c : Char) : c.toNat < 0xd800 ∨ 0xdfff < c.toNat ∧ c.toNat < 0x110000 := by
  have h := c.valid
  simp only [UInt32.isValidChar, Nat.isValidChar] at h
  show c.val.toNat < _ ∨ _ < c.val.toNat ∧ c.val.toNat < _
  omega

theorem pushUnit_char (c : Char) (acc : List Char) :
    StringState.pushUnit ⟨some acc, none⟩ c.toNat = ⟨some (c :: acc), none⟩ := by
  have hvalid := toNat_bounds c
  have hlead : isLead c.toNat = false := by
    rw [isLead, Bool.and_eq_false_iff, decide_eq_false_iff_not, decide_eq_false_iff_not]
    omega
  have htrail : isTrail c.toNat = false := by
    rw [isTrail, Bool.and_eq_false_iff, decide_eq_false_iff_not, decide_eq_false_iff_not]
    omega
  unfold StringState.pushUnit
  simp only [hlead, htrail, Bool.false_eq_true, if_false, Option.map_some, Char.ofNat_toNat]

/-- The first half of a surrogate pair waits for the second. -/
theorem pushUnit_pushUnit {lead trail : Nat} (hlead : isLead lead = true) (htrail : isTrail trail = true)
    (acc : List Char) : (StringState.pushUnit ⟨some acc, none⟩ lead).pushUnit trail =
      ⟨some (Char.ofNat ((lead - 0xd800) * 0x400 + (trail - 0xdc00) + 0x10000) :: acc), none⟩ := by
  simp only [StringState.pushUnit, hlead, htrail, if_true, Option.map_some]

/-- The halves of a pair that names the character, and the character that they name. -/
theorem pair_bounds {c : Char} (h : 0x10000 ≤ c.toNat) {lead trail : Nat}
    (hl : lead = 0xd800 + (c.toNat - 0x10000) / 0x400) (ht : trail = 0xdc00 + (c.toNat - 0x10000) % 0x400) :
    isLead lead = true ∧ isTrail trail = true ∧ (lead - 0xd800) * 0x400 + (trail - 0xdc00) + 0x10000 = c.toNat := by
  have hvalid := toNat_bounds c
  rw [isLead, isTrail, Bool.and_eq_true, Bool.and_eq_true, decide_eq_true_eq, decide_eq_true_eq, decide_eq_true_eq,
    decide_eq_true_eq]
  omega

theorem readString_char {c : Char} {us : List Char} (h : SpellsChar c us) (acc rest : List Char) :
    readString ⟨some acc, none⟩ .plain (us ++ rest) = readString ⟨some (c :: acc), none⟩ .plain rest := by
  cases h with
  | plain hquote hbackslash hcontrol =>
    have hplain : ¬c.toNat < 0x20 := by omega
    rw [List.singleton_append, readString]
    simp only [hquote, hbackslash, hplain, if_false]
    rfl
  | @short e he =>
    have hescapes : ∀ p ∈ shortEscapes, p.1 ≠ 'u' ∧ escapedChar? p.1 = some p.2 := by decide
    obtain ⟨hu, hread⟩ := hescapes _ he
    dsimp only at hu hread
    simp [readString, hu, hread, StringState.push]
  | unit hus =>
    rw [List.cons_append, List.cons_append, readString_unit hus, pushUnit_char]
  | pair hgreat hus hvs =>
    obtain ⟨hlead, htrail, hvalue⟩ := pair_bounds hgreat rfl rfl
    rw [List.append_assoc, List.cons_append, List.cons_append, readString_unit hus, List.cons_append, List.cons_append,
      readString_unit hvs, pushUnit_pushUnit hlead htrail, hvalue, Char.ofNat_toNat]

theorem readString_chars {cs us : List Char} (h : SpellsChars cs us) (rest : List Char) : ∀ acc,
    readString ⟨some acc, none⟩ .plain (us ++ '"' :: rest) = (.closed (some (String.ofList (acc.reverse ++ cs))), rest) := by
  induction h with
  | nil => exact fun acc => by simp [readString, StringState.close]
  | cons hc _ ih =>
    intro acc
    rw [List.append_assoc, readString_char hc, ih]
    simp

/-- A string is read from every text that spells it. -/
theorem readString_of_spells {s : String} {ts : List Char} (h : SpellsString s ts) : ∃ us, ts = '"' :: us ∧
    ∀ rest, readString .start .plain (us ++ rest) = (.closed (some s), rest) := by
  cases h with
  | @intro us h =>
    refine ⟨us ++ ['"'], rfl, fun rest => ?_⟩
    have hread := readString_chars h rest []
    simpa [StringState.start] using hread

/-! ### Writing -/

theorem spellsChar_stringChar (c : Char) : SpellsChar c (stringChar c) := by
  unfold stringChar
  split
  · next h => exact .short (by simp [h, shortEscapes])
  split
  · next h => exact .short (by simp [h, shortEscapes])
  split
  · next h => exact .short (by simp [h, shortEscapes])
  split
  · next h => exact .short (by simp [h, shortEscapes])
  split
  · next h => exact .short (by simp [h, shortEscapes])
  split
  · next h => exact .short (by simp [h, shortEscapes])
  split
  · next h => exact .short (by simp [h, shortEscapes])
  split
  · next hcontrol =>
    have hzero : HexDigit 0 '0' := ⟨by decide, .inl rfl⟩
    have hhigh : c.toNat / 0x1000 = 0 ∧ c.toNat / 0x100 % 16 = 0 ∧ c.toNat / 0x10 % 16 = c.toNat / 16 := by omega
    refine .unit (.intro ?_ ?_ ?_ ?_)
    · exact hhigh.1 ▸ hzero
    · exact hhigh.2.1 ▸ hzero
    · rw [hhigh.2.2]
      exact hexDigit_digitChar (by omega)
    · exact hexDigit_digitChar (Nat.mod_lt _ (by decide))
  · next hquote hbackslash _ _ _ _ _ hcontrol => exact .plain hquote hbackslash (by omega)

theorem spellsChars_flatMap (cs : List Char) : SpellsChars cs (cs.flatMap stringChar) := by
  induction cs with
  | nil => exact .nil
  | cons c cs ih => exact .cons (spellsChar_stringChar c) ih

/-- A string is spelled as it is written. -/
theorem spellsString_stringText (s : String) : SpellsString s (stringText s) := .intro (spellsChars_flatMap s.toList)

end FxStack.Json
