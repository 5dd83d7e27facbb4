import FxStack.Proofs.Uniform.Text

/-! The shapes of uniform values. A value is read from every tree that has one of the seven shapes, it is the one
    value that the tree has the shape of, and from no other tree is a value read, whether it is whole or not. Main
    statement: `Value.decode_eq_ok_iff`. -/

namespace FxStack

/-! ### Numerals -/

namespace Numeral

/-- The numeral is an integer from `lo` on and below `hi`, written without point and exponent. Minus zero is none. -/
structure IsInteger (n : Numeral) (lo hi : Int) : Prop where
  integral : n.fraction = [] ∧ n.exponent = none
  signed : n.negative = true → n.whole ≠ 0
  lower : lo ≤ n.toInt
  upper : n.toInt < hi

/-- The numeral is converted to this single: an integer of 64 bits at once, with sign or without, and any other number
    by way of the double that it is read as, if there is one. -/
inductive Denotes (n : Numeral) : Single → Prop
  | integer : n.IsInteger (-2 ^ 63) (2 ^ 64) → n.Denotes (Single.ofInt n.toInt)
  | real {x : Double} : ¬n.IsInteger (-2 ^ 63) (2 ^ 64) → n.double? = some x → n.Denotes x.toSingle

variable {n : Numeral}

theorem IsInteger.mono {lo hi lo' hi' : Int} (h : n.IsInteger lo hi) (hlo : lo' ≤ lo) (hhi : hi ≤ hi') :
    n.IsInteger lo' hi' :=
  ⟨h.integral, h.signed, hlo.trans h.lower, h.upper.trans_le hhi⟩

theorem isIntegral_iff : n.isIntegral = true ↔ n.fraction = [] ∧ n.exponent = none := by
  simp [isIntegral]

/-- The test of the reader for integers of 64 bits. -/
theorem isInteger_iff : (n.isIntegral && if n.negative then 0 < n.whole && n.whole ≤ 0x8000000000000000
    else decide (n.whole < 0x10000000000000000)) = true ↔ n.IsInteger (-2 ^ 63) (2 ^ 64) := by
  rw [Bool.and_eq_true, isIntegral_iff]
  cases hnegative : n.negative with
  | true =>
    have hint : n.toInt = -(n.whole : Int) := by simp [toInt, hnegative]
    simp only [if_true, Bool.and_eq_true, decide_eq_true_eq]
    constructor
    · rintro ⟨hintegral, hpos, hle⟩
      exact ⟨hintegral, fun _ => hpos.ne', by omega, by omega⟩
    · rintro ⟨hintegral, hsigned, hlower, -⟩
      exact ⟨hintegral, Nat.pos_of_ne_zero (hsigned hnegative), by omega⟩
  | false =>
    have hint : n.toInt = n.whole := by simp [toInt, hnegative]
    simp only [Bool.false_eq_true, if_false, decide_eq_true_eq]
    constructor
    · rintro ⟨hintegral, hlt⟩
      exact ⟨hintegral, fun h => absurd (hnegative.symm.trans h) nofun, by omega, by omega⟩
    · rintro ⟨hintegral, -, -, hupper⟩
      exact ⟨hintegral, by omega⟩

theorem number?_of_isInteger (h : n.IsInteger (-2 ^ 63) (2 ^ 64)) : n.number? = some (.integer n.toInt) :=
  if_pos (isInteger_iff.mpr h)

theorem number?_of_not_isInteger (h : ¬n.IsInteger (-2 ^ 63) (2 ^ 64)) : n.number? = n.double?.map .real :=
  if_neg fun htest => h (isInteger_iff.mp htest)

/-- The number that a numeral means is converted to the single that the numeral denotes. -/
theorem toSingle_number? {x : Single} : n.number?.map Number.toSingle = some x ↔ n.Denotes x := by
  by_cases hinteger : n.IsInteger (-2 ^ 63) (2 ^ 64)
  · rw [number?_of_isInteger hinteger]
    constructor
    · rintro ⟨⟩
      exact .integer hinteger
    · rintro (- | hreal)
      · rfl
      · exact absurd hinteger hreal
  · rw [number?_of_not_isInteger hinteger]
    constructor
    · intro h
      obtain ⟨k, hk, rfl⟩ := Option.map_eq_some_iff.mp h
      obtain ⟨x, hx, rfl⟩ := Option.map_eq_some_iff.mp hk
      exact .real hinteger hx
    · rintro (h | ⟨-, hx⟩)
      · exact absurd h hinteger
      · rw [hx]
        rfl

end Numeral

/-! ### Values -/

namespace Value

/-- The tree has the shape of the value. The components of a vector are converted like any number, integers among
    them. -/
inductive Shaped : Json → Value → Prop
  | bool (b : Bool) : Shaped (.bool b) (.bool b)
  | int {n : Numeral} {i : Int32} : n.IsInteger (-2 ^ 31) (2 ^ 31) → i.toInt = n.toInt → Shaped (.number n) (.int i)
  | float {n : Numeral} {x : Single} : ¬n.IsInteger (-2 ^ 31) (2 ^ 31) → n.Denotes x → Shaped (.number n) (.float x)
  | vec2 {k l : Numeral} {x y : Single} : k.Denotes x → l.Denotes y →
      Shaped (.list [.number k, .number l]) (.vec2 x y)
  | vec3 {k l m : Numeral} {x y z : Single} : k.Denotes x → l.Denotes y → m.Denotes z →
      Shaped (.list [.number k, .number l, .number m]) (.vec3 x y z)
  | vec4 {k l m n : Numeral} {x y z w : Single} : k.Denotes x → l.Denotes y → m.Denotes z → n.Denotes w →
      Shaped (.list [.number k, .number l, .number m, .number n]) (.vec4 x y z w)
  | texture (name : String) : Shaped (.string name) (.texture name)

theorem component?_eq_some_iff {j : Json} {x : Single} :
    component? j = some x ↔ ∃ n : Numeral, j = .number n ∧ n.Denotes x := by
  constructor
  · intro h
    unfold component? at h
    split at h
    · next n => exact ⟨n, rfl, Numeral.toSingle_number?.mp h⟩
    · cases h
  · rintro ⟨n, rfl, hn⟩
    exact Numeral.toSingle_number?.mpr hn

/-- The items that are components are numbers up to the closing bracket. -/
theorem components?_eq_some_iff : ∀ {is : Items} {xs : List Single}, components? is = some xs ↔
    ∃ ns : List Numeral, is = Json.itemsOf (ns.map .number) ∧ List.Forall₂ Numeral.Denotes ns xs
  | .done, xs => by
    constructor
    · rintro ⟨⟩
      exact ⟨[], rfl, .nil⟩
    · rintro ⟨ns, hns, hxs⟩
      cases hxs with
      | nil => rfl
      | cons => cases hns
  | .cut b, xs => by
    constructor
    · rintro ⟨⟩
    · rintro ⟨ns, hns, -⟩
      cases ns <;> cases hns
  | .item j rest, xs => by
    have ih := @components?_eq_some_iff rest
    simp only [components?, Option.bind_eq_bind, Option.bind_eq_some_iff, component?_eq_some_iff, ih]
    constructor
    · rintro ⟨x, ⟨n, rfl, hn⟩, ys, ⟨ns, rfl, hns⟩, ⟨⟩⟩
      exact ⟨n :: ns, rfl, .cons hn hns⟩
    · rintro ⟨ns, hns, hxs⟩
      cases hxs with
      | nil => cases hns
      | cons hn hrest =>
        cases hns
        exact ⟨_, ⟨_, rfl, hn⟩, _, ⟨_, rfl, hrest⟩, rfl⟩

theorem ofNumber_of_number? {n : Numeral} {k : Number} (hint : ¬n.IsInteger (-2 ^ 31) (2 ^ 31)) (hk : n.number? = some k) :
    ofNumber k = .float k.toSingle := by
  by_cases hinteger : n.IsInteger (-2 ^ 63) (2 ^ 64)
  · rw [Numeral.number?_of_isInteger hinteger] at hk
    cases hk
    exact if_neg fun hrange => hint ⟨hinteger.integral, hinteger.signed, hrange.1, hrange.2⟩
  · rw [Numeral.number?_of_not_isInteger hinteger] at hk
    obtain ⟨x, -, rfl⟩ := Option.map_eq_some_iff.mp hk
    rfl

theorem ofShape?_number {n : Numeral} {v : Value} : ofShape? (.number n) = some v ↔ Shaped (.number n) v := by
  by_cases hint : n.IsInteger (-2 ^ 31) (2 ^ 31)
  · have hvalue : ofShape? (.number n) = some (.int (Int32.ofInt n.toInt)) := by
      rw [ofShape?, Numeral.number?_of_isInteger (hint.mono (by decide) (by decide)), Option.map_some, ofNumber,
        if_pos ⟨hint.lower, hint.upper⟩]
    have hfits : (Int32.ofInt n.toInt).toInt = n.toInt := Int32.toInt_ofInt_of_le hint.lower hint.upper
    rw [hvalue]
    constructor
    · rintro ⟨⟩
      exact .int hint hfits
    · rintro (- | ⟨-, hi⟩ | hfloat)
      · rw [← hi, Int32.ofInt_toInt]
      · exact absurd hint hfloat
  · have hfloat : ofShape? (.number n) = some v ↔ ∃ x, n.Denotes x ∧ Value.float x = v := by
      simp only [ofShape?, ← Numeral.toSingle_number?, Option.map_eq_some_iff]
      constructor
      · rintro ⟨k, hk, hv⟩
        exact ⟨_, ⟨k, hk, rfl⟩, (ofNumber_of_number? hint hk).symm.trans hv⟩
      · rintro ⟨_, ⟨k, hk, rfl⟩, hv⟩
        exact ⟨k, hk, (ofNumber_of_number? hint hk).trans hv⟩
    rw [hfloat]
    constructor
    · rintro ⟨x, hx, rfl⟩
      exact .float hint hx
    · rintro (- | hinteger | ⟨-, hx⟩)
      · exact absurd hinteger hint
      · exact ⟨_, hx, rfl⟩

theorem ofShape?_array {is : Items} {v : Value} : ofShape? (.array is) = some v ↔ Shaped (.array is) v := by
  constructor
  · intro h
    rw [ofShape?] at h
    split at h
    · next hxs =>
      obtain ⟨ns, rfl, _ | ⟨hx, _ | ⟨hy, - | -⟩⟩⟩ := components?_eq_some_iff.mp hxs
      cases h
      exact .vec2 hx hy
    · next hxs =>
      obtain ⟨ns, rfl, _ | ⟨hx, _ | ⟨hy, _ | ⟨hz, - | -⟩⟩⟩⟩ := components?_eq_some_iff.mp hxs
      cases h
      exact .vec3 hx hy hz
    · next hxs =>
      obtain ⟨ns, rfl, _ | ⟨hx, _ | ⟨hy, _ | ⟨hz, _ | ⟨hw, - | -⟩⟩⟩⟩⟩ := components?_eq_some_iff.mp hxs
      cases h
      exact .vec4 hx hy hz hw
    · cases h
  · intro h
    cases h with
    | vec2 hx hy => exact ofShape?_vec2.mpr (components?_eq_some_iff.mpr ⟨_, rfl, .cons hx (.cons hy .nil)⟩)
    | vec3 hx hy hz =>
      exact ofShape?_vec3.mpr (components?_eq_some_iff.mpr ⟨_, rfl, .cons hx (.cons hy (.cons hz .nil))⟩)
    | vec4 hx hy hz hw =>
      exact ofShape?_vec4.mpr (components?_eq_some_iff.mpr ⟨_, rfl, .cons hx (.cons hy (.cons hz (.cons hw .nil)))⟩)

/-- The value of a tree is the one that the tree has the shape of. -/
theorem ofShape?_eq_some_iff {j : Json} {v : Value} : ofShape? j = some v ↔ Shaped j v := by
  cases j with
  | bool b =>
    constructor
    · rintro ⟨⟩
      exact .bool b
    · rintro ⟨⟩
      rfl
  | string s =>
    constructor
    · rintro ⟨⟩
      exact .texture s
    · rintro ⟨⟩
      rfl
  | number n => exact ofShape?_number
  | array is => exact ofShape?_array
  | null | garbled | object ms | broken b => exact ⟨nofun, nofun⟩

theorem keep_number {n : Numeral} (h : n.number?.isSome) (depth : Nat) : (Json.number n).keep depth = .ok () :=
  if_pos h

/-- What has a shape is kept, since it is nested one deep at most. -/
theorem Shaped.keep {j : Json} {v : Value} (h : Shaped j v) {depth : Nat} (hdepth : depth < Json.depthLimit) :
    j.keep depth = .ok () := by
  have hnumber : ∀ {n : Numeral} {x : Single}, n.Denotes x → ∀ depth, (Json.number n).keep depth = .ok () := by
    intro n x hx
    obtain ⟨k, hk, -⟩ := Option.map_eq_some_iff.mp (Numeral.toSingle_number?.mpr hx)
    exact keep_number (Option.isSome_of_eq_some hk)
  cases h with
  | bool b => rfl
  | texture name => rfl
  | int hint => exact keep_number (by simp [Numeral.number?_of_isInteger (hint.mono (by decide) (by decide))]) depth
  | float _ hx => exact hnumber hx depth
  | vec2 hx hy => exact Json.keep_list hdepth (by simp [hnumber hx, hnumber hy])
  | vec3 hx hy hz => exact Json.keep_list hdepth (by simp [hnumber hx, hnumber hy, hnumber hz])
  | vec4 hx hy hz hw => exact Json.keep_list hdepth (by simp [hnumber hx, hnumber hy, hnumber hz, hnumber hw])

/-- From a tree that has the shape of a value this value is read, and from any other tree none is. -/
theorem decode_eq_ok_iff {depth : Nat} (hdepth : depth < Json.depthLimit) {j : Json} {v : Value} :
    decode depth j = .ok v ↔ Shaped j v := by
  rw [← ofShape?_eq_some_iff]
  unfold decode
  constructor
  · intro h
    split at h
    · cases h
    · split at h
      · next hshape => rw [hshape, Except.ok.inj h]
      · cases h
  · intro h
    simp [(ofShape?_eq_some_iff.mp h).keep hdepth, h]

end Value

end FxStack
