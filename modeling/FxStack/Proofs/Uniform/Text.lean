import FxStack.Proofs.Json.Decoding
import FxStack.Proofs.Json.Number
import FxStack.Uniform.Json

/-! Uniform values in JSON text. The shapes in which the values of different types are written have nothing in
    common: a single always has a point or an exponent, which an integer never has. So a value is read back as
    itself, of the same type, as long as its singles are, and it is read at all as long as they are finite. Main
    statements: `Value.ofShape?_toJson` and `Value.exists_ofShape?_toJson`. -/

namespace FxStack

/-! ### Singles -/

namespace Single

/-- The single is finite, and its text is read as the same single. -/
def ReadsBack (x : Single) : Prop := x.isFinite = true ∧ x.jsonNumeral.number?.map Number.toSingle = some x

instance (x : Single) : Decidable x.ReadsBack := inferInstanceAs (Decidable (_ ∧ _))

/-- A numeral with a point or an exponent is not read as an integer. -/
theorem number?_jsonNumeral {x : Single} {n : Number} (h : x.jsonNumeral.number? = some n) : ∃ y, n = .real y := by
  have hintegral : x.jsonNumeral.isIntegral = false := Layout.isIntegral_numeral _ _ _
  unfold Numeral.number? at h
  simp only [hintegral, Bool.false_and, Bool.false_eq_true, if_false] at h
  obtain ⟨y, -, hy⟩ := Option.map_eq_some_iff.mp h
  exact ⟨y, hy.symm⟩

end Single

/-! ### Values -/

namespace Value

def singles : Value → List Single
  | .bool _ | .int _ | .texture _ => []
  | .float x => [x]
  | .vec2 x y => [x, y]
  | .vec3 x y z => [x, y, z]
  | .vec4 x y z w => [x, y, z, w]

theorem component?_ofSingle {x y : Single} :
    component? (.ofSingle x) = some y ↔ x.isFinite = true ∧ x.jsonNumeral.number?.map Number.toSingle = some y := by
  unfold Json.ofSingle
  split
  · next h => simp [component?, h]
  · next h => simp [component?, h]

theorem exists_component?_ofSingle {x : Single} : (∃ y, component? (.ofSingle x) = some y) ↔ x.isFinite = true := by
  simp only [component?_ofSingle, exists_and_left, Option.map_eq_some_iff]
  refine and_iff_left_of_imp fun hfinite => ?_
  obtain ⟨n, hn⟩ := Option.isSome_iff_exists.mp (Single.isSome_number? hfinite)
  exact ⟨_, n, hn, rfl⟩

theorem ofShape?_ofSingle (x : Single) : ofShape? (.ofSingle x) = (component? (.ofSingle x)).map .float := by
  unfold Json.ofSingle
  split
  · simp only [ofShape?, component?]
    cases h : x.jsonNumeral.number? with
    | none => rfl
    | some n =>
      obtain ⟨y, rfl⟩ := Single.number?_jsonNumeral h
      rfl
  · rfl

theorem toInt_ofInt (k : Int) : (Numeral.ofInt k).toInt = k := by
  unfold Numeral.ofInt Numeral.toInt
  simp only [decide_eq_true_eq]
  split <;> omega

theorem number?_ofInt {k : Int} (hle : -0x80000000 ≤ k) (hlt : k < 0x80000000) :
    (Numeral.ofInt k).number? = some (.integer k) := by
  have hintegral : (Numeral.ofInt k).isIntegral = true := rfl
  have hnegative : (Numeral.ofInt k).negative = decide (k < 0) := rfl
  have hwhole : (Numeral.ofInt k).whole = k.natAbs := rfl
  unfold Numeral.number?
  rw [hintegral, toInt_ofInt, hnegative, hwhole, if_pos]
  by_cases hk : k < 0
  · simp only [hk, decide_true, if_true, Bool.true_and, Bool.and_eq_true, decide_eq_true_eq]
    omega
  · simp only [hk, decide_false, Bool.false_eq_true, if_false, Bool.true_and, decide_eq_true_eq]
    omega

theorem ofShape?_ofInt (i : Int32) : ofShape? (.number (.ofInt i.toInt)) = some (.int i) := by
  rw [ofShape?, number?_ofInt i.le_toInt i.toInt_lt, Option.map_some, ofNumber, if_pos ⟨i.le_toInt, i.toInt_lt⟩,
    Int32.ofInt_toInt]

theorem components?_itemsOf {xs : List Single} : ∀ {ys : List Single},
    components? (Json.itemsOf (xs.map .ofSingle)) = some ys ↔
      List.Forall₂ (fun x y => component? (.ofSingle x) = some y) xs ys := by
  induction xs with
  | nil => simp [components?, eq_comm]
  | cons x xs ih =>
    intro ys
    simp only [List.map_cons, Json.itemsOf_cons, components?, Option.bind_eq_bind, Option.bind_eq_some_iff, ih,
      List.forall₂_cons_left_iff]
    simp [pure, eq_comm]

theorem components?_readsBack (xs : List Single) :
    components? (Json.itemsOf (xs.map .ofSingle)) = some xs ↔ ∀ x ∈ xs, x.ReadsBack := by
  rw [components?_itemsOf, List.forall₂_same]
  exact forall₂_congr fun _ _ => component?_ofSingle

section Vectors

variable {is : Items} {x y z w : Single}

theorem ofShape?_vec2 : ofShape? (.array is) = some (.vec2 x y) ↔ components? is = some [x, y] := by
  rw [ofShape?]
  split <;> simp_all

theorem ofShape?_vec3 : ofShape? (.array is) = some (.vec3 x y z) ↔ components? is = some [x, y, z] := by
  rw [ofShape?]
  split <;> simp_all

theorem ofShape?_vec4 : ofShape? (.array is) = some (.vec4 x y z w) ↔ components? is = some [x, y, z, w] := by
  rw [ofShape?]
  split <;> simp_all

/-- An array is a vector if it is two to four numbers. -/
theorem exists_ofShape?_array : (∃ v, ofShape? (.array is) = some v) ↔
    ∃ xs, components? is = some xs ∧ 2 ≤ xs.length ∧ xs.length ≤ 4 := by
  constructor
  · rintro ⟨v, hv⟩
    rw [ofShape?] at hv
    split at hv
    · next h => exact ⟨_, h, by simp⟩
    · next h => exact ⟨_, h, by simp⟩
    · next h => exact ⟨_, h, by simp⟩
    · cases hv
  · rintro ⟨xs, hxs, htwo, hfour⟩
    match xs, htwo, hfour with
    | [_, _], _, _ => exact ⟨_, ofShape?_vec2.mpr hxs⟩
    | [_, _, _], _, _ => exact ⟨_, ofShape?_vec3.mpr hxs⟩
    | [_, _, _, _], _, _ => exact ⟨_, ofShape?_vec4.mpr hxs⟩

theorem exists_ofShape?_list (xs : List Single) (h : 2 ≤ xs.length ∧ xs.length ≤ 4) :
    (∃ v, ofShape? (.list (xs.map .ofSingle)) = some v) ↔ ∀ x ∈ xs, x.isFinite = true := by
  rw [Json.list, exists_ofShape?_array, ← forall₂_congr fun _ _ => exists_component?_ofSingle, ← Json.exists_forall₂]
  refine exists_congr fun ys => ?_
  rw [components?_itemsOf]
  exact and_iff_left_of_imp fun hys => hys.length_eq ▸ h

end Vectors

/-- A value is read back if its singles are. -/
theorem ofShape?_toJson {v : Value} : ofShape? v.toJson = some v ↔ ∀ x ∈ v.singles, x.ReadsBack := by
  cases v with
  | bool b => simp [toJson, ofShape?, singles]
  | int i => simp [toJson, ofShape?_ofInt, singles]
  | texture name => simp [toJson, ofShape?, singles]
  | float x => simp [toJson, ofShape?_ofSingle, singles, component?_ofSingle, Single.ReadsBack]
  | vec2 x y => exact ofShape?_vec2.trans (components?_readsBack [x, y])
  | vec3 x y z => exact ofShape?_vec3.trans (components?_readsBack [x, y, z])
  | vec4 x y z w => exact ofShape?_vec4.trans (components?_readsBack [x, y, z, w])

/-- A value is read if its singles are finite. -/
theorem exists_ofShape?_toJson {v : Value} : (∃ w, ofShape? v.toJson = some w) ↔ ∀ x ∈ v.singles, x.isFinite = true := by
  cases v with
  | bool b => simp [toJson, ofShape?, singles]
  | int i => simp [toJson, ofShape?_ofInt, singles]
  | texture name => simp [toJson, ofShape?, singles]
  | float x => simp [toJson, ofShape?_ofSingle, singles, ← exists_component?_ofSingle]
  | vec2 x y => exact exists_ofShape?_list [x, y] (by simp)
  | vec3 x y z => exact exists_ofShape?_list [x, y, z] (by simp)
  | vec4 x y z w => exact exists_ofShape?_list [x, y, z, w] (by simp)

/-! ### Depth -/

theorem keep_ofSingle {x : Single} (h : x.isFinite = true) (depth : Nat) : (Json.ofSingle x).keep depth = .ok () := by
  simp [Json.ofSingle, h, Json.keep, Single.isSome_number? h]

theorem keep_vector {xs : List Single} (h : ∀ x ∈ xs, x.isFinite = true) {depth : Nat} (hdepth : depth < Json.depthLimit) :
    (Json.list (xs.map .ofSingle)).keep depth = .ok () :=
  Json.keep_list hdepth (List.forall_mem_map.mpr fun x hx => keep_ofSingle (h x hx) (depth + 1))

/-- A value is nested one deep at most. -/
theorem keep_toJson {v : Value} (h : ∀ x ∈ v.singles, x.isFinite = true) {depth : Nat} (hdepth : depth < Json.depthLimit) :
    v.toJson.keep depth = .ok () := by
  cases v with
  | bool b => rfl
  | int i => simp [toJson, Json.keep, number?_ofInt i.le_toInt i.toInt_lt]
  | texture name => rfl
  | float x => exact keep_ofSingle (h x List.mem_cons_self) depth
  | vec2 x y => exact keep_vector h hdepth
  | vec3 x y z => exact keep_vector h hdepth
  | vec4 x y z w => exact keep_vector h hdepth

theorem whole_ofSingle (x : Single) : (Json.ofSingle x).Whole := by
  unfold Json.ofSingle
  split <;> trivial

theorem whole_toJson (v : Value) : v.toJson.Whole := by
  cases v with
  | bool b => trivial
  | int i => trivial
  | texture name => trivial
  | float x => exact whole_ofSingle x
  | vec2 x y => simp [toJson, Json.whole_list, whole_ofSingle]
  | vec3 x y z => simp [toJson, Json.whole_list, whole_ofSingle]
  | vec4 x y z w => simp [toJson, Json.whole_list, whole_ofSingle]

end Value

end FxStack
