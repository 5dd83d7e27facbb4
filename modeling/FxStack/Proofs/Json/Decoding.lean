import FxStack.Json.Decode
import FxStack.Proofs.Json.Spelling
import FxStack.Proofs.Lookup
import Mathlib.Data.List.Forall2

/-! What decoders answer to trees that are written. A list decodes to the list of what its items decode to, a record
    field by field, and a map is rebuilt from its entries, which stand in the order of their keys. -/

namespace FxStack.Json

/-! ### Results -/

section Results

variable {ε α β : Type} {x : Except ε α} {b : β}

theorem bind_eq_ok {f : α → Except ε β} : (x >>= f) = .ok b ↔ ∃ a, x = .ok a ∧ f a = .ok b := by
  cases x <;> simp [bind, Except.bind]

theorem map_eq_ok {f : α → β} : x.map f = .ok b ↔ ∃ a, x = .ok a ∧ f a = b := by
  cases x <;> simp [Except.map]

end Results

theorem decodeBool_eq_ok {j : Json} {b : Bool} : decodeBool j = .ok b ↔ j = .bool b := by
  cases j <;> simp [decodeBool]

theorem decodeString_eq_ok {j : Json} {s : String} : decodeString j = .ok s ↔ j = .string s := by
  cases j <;> simp [decodeString]

/-- A text between blanks decodes to what its tree decodes to. -/
theorem decodeDocument_of_read {α : Type} {decode : Json → Except Error α} {text : String} {j : Json}
    (h : read text = ⟨j, false⟩) : decodeDocument decode text = decode j := by
  unfold decodeDocument
  cases hj : decode j <;> simp [h, hj, bind, Except.bind, pure, Except.pure]

/-- What a text decodes to is what some tree decodes to. -/
theorem exists_of_decodeDocument {α : Type} {decode : Json → Except Error α} {text : String} {x : α}
    (h : decodeDocument decode text = .ok x) : ∃ j, decode j = .ok x := by
  obtain ⟨y, hy, h⟩ := bind_eq_ok.mp h
  split at h
  · cases h
  · cases h
    exact ⟨_, hy⟩

/-- A list is kept if its items are. -/
theorem keep_list {depth : Nat} (hdepth : depth < depthLimit) {js : List Json}
    (h : ∀ j ∈ js, j.keep (depth + 1) = .ok ()) : (list js).keep depth = .ok () := by
  refine (if_pos hdepth).trans ?_
  induction js with
  | nil => rfl
  | cons j js ih =>
    rw [itemsOf_cons, keepItems, h j List.mem_cons_self]
    exact ih fun d hd => h d (List.mem_cons_of_mem j hd)

mutual

/-- What is whole can be skipped, however deep it is nested. -/
theorem Whole.skip : (j : Json) → Whole j → j.skip = .ok ()
  | .null, _ | .bool _, _ | .number _, _ | .string _, _ => rfl
  | .array is, h => WholeItems.skip is h
  | .object ms, h => WholeMembers.skip ms h

theorem WholeItems.skip : (is : Items) → WholeItems is → skipItems is = .ok ()
  | .done, _ => rfl
  | .item j is, h => by rw [skipItems, Whole.skip j h.1, WholeItems.skip is h.2]

theorem WholeMembers.skip : (ms : Members) → WholeMembers ms → skipMembers ms = .ok ()
  | .done, _ => rfl
  | .member k j ms, h => by rw [skipMembers, Whole.skip j h.2.1, WholeMembers.skip ms h.2.2]

end

theorem of_decodeOption {α : Type} {decode : Json → Except Error α} {j : Json} {x : α}
    (h : decodeOption decode j = .ok (some x)) : decode j = .ok x := by
  unfold decodeOption at h
  split at h
  · cases h
  · obtain ⟨y, hy, hyx⟩ := map_eq_ok.mp h
    rwa [← Option.some.inj hyx]

/-! ### Lists and maps -/

theorem exists_forall₂ {α β : Type} {R : α → β → Prop} {xs : List α} :
    (∃ ys, List.Forall₂ R xs ys) ↔ ∀ x ∈ xs, ∃ y, R x y := by
  induction xs with
  | nil => simp
  | cons x xs ih =>
    rw [List.forall_mem_cons, ← ih]
    simp only [List.forall₂_cons_left_iff]
    constructor
    · rintro ⟨_, y, ys, hy, hys, rfl⟩
      exact ⟨⟨y, hy⟩, ys, hys⟩
    · rintro ⟨⟨y, hy⟩, ys, hys⟩
      exact ⟨y :: ys, y, ys, hy, hys, rfl⟩

theorem map_fst_of_forall₂ {α β : Type} {R : α → β → Prop} {es : List (String × α)} {ds : List (String × β)}
    (h : List.Forall₂ (fun e d => e.1 = d.1 ∧ R e.2 d.2) es ds) : es.map (·.1) = ds.map (·.1) := by
  rw [← List.forall₂_eq_eq_eq, List.forall₂_map_left_iff, List.forall₂_map_right_iff]
  exact h.imp fun _ _ he => he.1

/-- The entries of a map with other values are in the order of their keys. -/
theorem toList_ofList_of_forall₂ {α β : Type} {R : α → β → Prop} {m : KeyMap α} {ds : List (String × β)}
    (h : List.Forall₂ (fun e d => e.1 = d.1 ∧ R e.2 d.2) m.toList ds) : (KeyMap.ofList ds).toList = ds := by
  have hsorted := m.sorted
  rw [← List.pairwise_map (R := fun a b : String => a < b), map_fst_of_forall₂ h, List.pairwise_map] at hsorted
  exact KeyMap.toList_ofList hsorted

/-- A map is rebuilt from its entries. -/
theorem exists_eq_ofList {α β : Type} {R : β → α → Prop} {f : α → β} {m : KeyMap α} :
    (∃ ds, List.Forall₂ (fun e d => e.1 = d.1 ∧ R e.2 d.2) (m.map f).toList ds ∧ m = KeyMap.ofList ds) ↔
      ∀ e ∈ m.toList, R (f e.2) e.2 := by
  have hmap : List.Forall₂ (fun e d => e.1 = d.1 ∧ R e.2 d.2) (m.map f).toList m.toList ↔
      ∀ e ∈ m.toList, R (f e.2) e.2 := by
    unfold KeyMap.map
    simp [List.forall₂_map_left_iff, List.forall₂_same]
  rw [← hmap]
  constructor
  · rintro ⟨ds, hds, hm⟩
    have hlist : m.toList = ds := (congrArg KeyMap.toList hm).trans (toList_ofList_of_forall₂ hds)
    rwa [hlist]
  · intro h
    exact ⟨m.toList, h, KeyMap.ext (KeyMap.toList_ofList m.sorted).symm⟩

section Lists

variable {α : Type} {decode : Json → Except Error α}

theorem decodeItems_itemsOf {js : List Json} : ∀ {xs : List α},
    decodeItems decode (itemsOf js) = .ok xs ↔ List.Forall₂ (fun j x => decode j = .ok x) js xs := by
  induction js with
  | nil => simp [decodeItems, eq_comm]
  | cons j js ih =>
    intro xs
    simp only [itemsOf_cons, decodeItems, bind_eq_ok, ih, List.forall₂_cons_left_iff]
    simp [pure, Except.pure, eq_comm]

theorem exists_itemsOf_of_decodeItems : ∀ (is : Items) {xs : List α}, decodeItems decode is = .ok xs → ∃ js, is = itemsOf js
  | .done, _, _ => ⟨[], rfl⟩
  | .item j rest, xs, h => by
    obtain ⟨y, -, h⟩ := bind_eq_ok.mp h
    obtain ⟨ys, hys, -⟩ := bind_eq_ok.mp h
    obtain ⟨js, rfl⟩ := exists_itemsOf_of_decodeItems rest hys
    exact ⟨j :: js, rfl⟩

/-- A list is read from an array of trees from each of which an item is read. -/
theorem decodeList_eq_ok {j : Json} {xs : List α} :
    decodeList decode j = .ok xs ↔ ∃ js, j = list js ∧ List.Forall₂ (fun j x => decode j = .ok x) js xs := by
  constructor
  · intro h
    unfold decodeList at h
    split at h
    · next is =>
      obtain ⟨js, rfl⟩ := exists_itemsOf_of_decodeItems is h
      exact ⟨js, rfl, decodeItems_itemsOf.mp h⟩
    · cases h
  · rintro ⟨js, rfl, hxs⟩
    exact decodeItems_itemsOf.mpr hxs

/-- A list is read back if its items are. -/
theorem decodeList_list {toJson : α → Json} {xs : List α} :
    decodeList decode (list (xs.map toJson)) = .ok xs ↔ ∀ x ∈ xs, decode (toJson x) = .ok x := by
  unfold list decodeList
  rw [decodeItems_itemsOf, List.forall₂_map_left_iff, List.forall₂_same]

/-- Every item of a list that has been read is what some tree decodes to. -/
theorem exists_of_decodeList {j : Json} {xs : List α} (h : decodeList decode j = .ok xs) :
    ∀ x ∈ xs, ∃ j, decode j = .ok x := by
  obtain ⟨js, -, hjs⟩ := decodeList_eq_ok.mp h
  exact exists_forall₂.mp ⟨js, hjs.flip⟩

theorem decodeEntries_membersOf {es : List (String × Json)} : ∀ {m m' : KeyMap α},
    decodeEntries decode m (membersOf es) = .ok m' ↔
      ∃ ds : List (String × α), List.Forall₂ (fun e d => e.1 = d.1 ∧ decode e.2 = .ok d.2) es ds ∧
        m' = ds.foldl (fun m d => m.insert d.1 d.2) m := by
  induction es with
  | nil => simp [decodeEntries, eq_comm]
  | cons e es ih =>
    intro m m'
    simp only [membersOf_cons, decodeEntries, bind_eq_ok, ih, List.forall₂_cons_left_iff]
    constructor
    · rintro ⟨x, hx, ds, hds, rfl⟩
      exact ⟨(e.1, x) :: ds, ⟨(e.1, x), ds, ⟨rfl, hx⟩, hds, rfl⟩, rfl⟩
    · rintro ⟨_, ⟨⟨k, x⟩, ds, ⟨rfl, hx⟩, hds, rfl⟩, rfl⟩
      exact ⟨x, hx, ds, hds, rfl⟩

/-- A map is read back if its values are. -/
theorem decodeMap_record {toJson : α → Json} {m : KeyMap α} :
    decodeMap decode (record (m.map toJson).toList) = .ok m ↔ ∀ e ∈ m.toList, decode (toJson e.2) = .ok e.2 :=
  decodeEntries_membersOf.trans (exists_eq_ofList (R := fun j x => decode j = .ok x))

theorem exists_of_decodeEntries : ∀ (ms : Members) {m m' : KeyMap α}, decodeEntries decode m ms = .ok m' →
    ∀ e ∈ m'.toList, e ∈ m.toList ∨ ∃ j, decode j = .ok e.2
  | .done, m, m', h, e, he => by
    cases h
    exact Or.inl he
  | .member (some k) j rest, m, m', h, e, he => by
    obtain ⟨x, hx, h⟩ := bind_eq_ok.mp h
    rcases exists_of_decodeEntries rest h e he with hm | hj
    · rcases KeyMap.key_of_mem_insertEntry hm with rfl | hm
      · exact Or.inr ⟨j, hx⟩
      · exact Or.inl hm
    · exact Or.inr hj

/-- Every value of a map that has been read is what some tree decodes to. -/
theorem exists_of_decodeMap {j : Json} {m : KeyMap α} (h : decodeMap decode j = .ok m) :
    ∀ e ∈ m.toList, ∃ j, decode j = .ok e.2 := by
  intro e he
  unfold decodeMap at h
  split at h
  · next ms => exact (exists_of_decodeEntries ms h e he).resolve_left List.not_mem_nil
  · cases h

end Lists

/-! ### Records -/

/-- The values under a key, in the order in which they stand. -/
def valuesOf (key : String) (ms : List (String × Json)) : List Json := (ms.filter (·.1 = key)).map (·.2)

@[simp] theorem valuesOf_nil (key : String) : valuesOf key [] = [] := rfl

theorem valuesOf_cons (key : String) (m : String × Json) (ms : List (String × Json)) :
    valuesOf key (m :: ms) = if m.1 = key then m.2 :: valuesOf key ms else valuesOf key ms := by
  by_cases h : m.1 = key <;> simp [valuesOf, h]

/-- What members say of a field that was `x` before they were read and is `x'` afterwards: none has its name, or it had
    not been given and the only one that has its name is decoded. -/
def FieldRead {α : Type} (decode : Json → Except Error α) (name : String) (ms : List (String × Json)) (x x' : Option α) :
    Prop :=
  (valuesOf name ms = [] ∧ x' = x) ∨ ∃ j y, valuesOf name ms = [j] ∧ x = none ∧ decode j = .ok y ∧ x' = some y

/-- What members say of a field with a default: none has its name, and it has the default, or the only one that has its
    name is related to it. -/
def Given {α : Type} (name : String) (R : Json → α → Prop) (fallback : α) (ms : List (String × Json)) (x : α) : Prop :=
  (valuesOf name ms = [] ∧ x = fallback) ∨ ∃ j, valuesOf name ms = [j] ∧ R j x

section Fields

variable {α : Type} {decode : Json → Except Error α} {name : String} {ms : List (String × Json)} {x x' : Option α}

@[simp] theorem fieldRead_nil : FieldRead decode name [] x x' ↔ x' = x := by simp [FieldRead]

theorem fieldRead_cons_of_ne {k : String} {j : Json} (h : k ≠ name) :
    FieldRead decode name ((k, j) :: ms) x x' ↔ FieldRead decode name ms x x' := by
  simp [FieldRead, valuesOf_cons, h]

theorem fieldRead_cons {j : Json} : FieldRead decode name ((name, j) :: ms) x x' ↔
    x = none ∧ ∃ y, decode j = .ok y ∧ FieldRead decode name ms (some y) x' := by
  have hvalues : valuesOf name ((name, j) :: ms) = j :: valuesOf name ms := (valuesOf_cons name _ ms).trans (if_pos rfl)
  unfold FieldRead
  rw [hvalues]
  constructor
  · rintro (⟨⟨⟩, -⟩ | ⟨j, y, hone, hx, hy, rfl⟩)
    obtain ⟨rfl, hrest⟩ := List.cons_eq_cons.mp hone
    exact ⟨hx, y, hy, .inl ⟨hrest, rfl⟩⟩
  · rintro ⟨rfl, y, hy, ⟨hrest, rfl⟩ | ⟨-, -, -, ⟨⟩, -⟩⟩
    exact .inr ⟨j, y, by rw [hrest], rfl, hy, rfl⟩

theorem exists_fieldRead {R : Json → α → Prop} (hR : ∀ j y, decode j = .ok y ↔ R j y) {fallback y : α} :
    (∃ x', FieldRead decode name ms none x' ∧ x'.getD fallback = y) ↔ Given name R fallback ms y := by
  constructor
  · rintro ⟨x', ⟨hnone, rfl⟩ | ⟨j, z, hone, -, hz, rfl⟩, rfl⟩
    · exact .inl ⟨hnone, rfl⟩
    · exact .inr ⟨j, hone, (hR j z).mp hz⟩
  · rintro (⟨hnone, rfl⟩ | ⟨j, hone, hy⟩)
    · exact ⟨none, .inl ⟨hnone, rfl⟩, rfl⟩
    · exact ⟨some y, .inr ⟨j, y, hone, rfl, (hR j y).mpr hy, rfl⟩, rfl⟩

end Fields

namespace RecordDecoder

variable {σ α : Type} {r : RecordDecoder σ} {s s' : σ} {name : String} {given : σ → Option α} {put : σ → α → σ}
  {decode : Json → Except Error α} {j : Json} {ms : List (String × Json)}

theorem decodeMembers_nil : r.decodeMembers s (membersOf []) = .ok s' ↔ s = s' := by
  simp [decodeMembers]

theorem field_eq_ok : (field name given put decode).2 s j = .ok s' ↔
    given s = none ∧ ∃ x, decode j = .ok x ∧ put s x = s' := by
  unfold field
  cases h : given s <;> simp [h, map_eq_ok]

theorem decodeMembers_cons (h : r.fields.lookup name = some (field name given put decode).2) :
    r.decodeMembers s (membersOf ((name, j) :: ms)) = .ok s' ↔
      given s = none ∧ ∃ x, decode j = .ok x ∧ r.decodeMembers (put s x) (membersOf ms) = .ok s' := by
  simp only [membersOf_cons, decodeMembers, h, bind_eq_ok, field_eq_ok]
  constructor
  · rintro ⟨_, ⟨hs, x, hx, rfl⟩, hms⟩
    exact ⟨hs, x, hx, hms⟩
  · rintro ⟨hs, x, hx, hms⟩
    exact ⟨_, ⟨hs, x, hx, rfl⟩, hms⟩

theorem decodeMembers_field (h : r.fields.lookup name = some (field name given put decode).2) (hs : given s = none) :
    r.decodeMembers s (membersOf ((name, j) :: ms)) = .ok s' ↔
      ∃ x, decode j = .ok x ∧ r.decodeMembers (put s x) (membersOf ms) = .ok s' :=
  (decodeMembers_cons h).trans (and_iff_right hs)

/-- A member that is no field is skipped. -/
theorem decodeMembers_skip (h : r.fields.lookup name = none) :
    r.decodeMembers s (membersOf ((name, j) :: ms)) = .ok s' ↔
      j.skip = .ok () ∧ r.decodeMembers s (membersOf ms) = .ok s' := by
  simp only [membersOf_cons, decodeMembers, h]
  cases j.skip <;> simp

/-- An array is read like the object that has its items under the names of the fields, in their order. -/
theorem decodeItems_eq_ok {js : List Json} : ∀ {fields : List (String × (σ → Json → Except Error σ))} {s : σ},
    (∀ f ∈ fields, r.fields.lookup f.1 = some f.2) →
      (RecordDecoder.decodeItems s fields (itemsOf js) = .ok s' ↔
        js.length ≤ fields.length ∧ r.decodeMembers s (membersOf ((fields.map (·.1)).zip js)) = .ok s') := by
  induction js with
  | nil => simp [RecordDecoder.decodeItems, decodeMembers]
  | cons j js ih =>
    intro fields s hfields
    cases fields with
    | nil => simp [RecordDecoder.decodeItems]
    | cons f fields =>
      have hf := hfields f List.mem_cons_self
      have hrest := fun s => @ih fields s fun g hg => hfields g (List.mem_cons_of_mem f hg)
      simp only [itemsOf_cons, RecordDecoder.decodeItems, bind_eq_ok, hrest, List.map_cons, List.zip_cons_cons,
        membersOf_cons, decodeMembers, hf, List.length_cons, Nat.add_le_add_iff_right]
      constructor
      · rintro ⟨s₁, hs₁, hlength, hms⟩
        exact ⟨hlength, s₁, hs₁, hms⟩
      · rintro ⟨hlength, s₁, hs₁, hms⟩
        exact ⟨s₁, hs₁, hlength, hms⟩

section Induction

variable {P : σ → Prop} (hfields : ∀ f ∈ r.fields, ∀ s j s', P s → f.2 s j = .ok s' → P s')
include hfields

theorem decodeMembers_induction : ∀ (ms : Members) {s s' : σ}, P s → r.decodeMembers s ms = .ok s' → P s'
  | .done, s, s', hs, h => by
    cases h
    exact hs
  | .member (some k) j rest, s, s', hs, h => by
    rw [decodeMembers] at h
    split at h
    · next take htake =>
      obtain ⟨s₁, hs₁, h⟩ := bind_eq_ok.mp h
      exact decodeMembers_induction rest (hfields (k, take) (mem_of_lookup htake) s j s₁ hs hs₁) h
    · split at h
      · exact decodeMembers_induction rest hs h
      · cases h

theorem decodeItems_induction : ∀ (is : Items) {fields : List (String × (σ → Json → Except Error σ))} {s s' : σ},
    fields ⊆ r.fields → P s → RecordDecoder.decodeItems s fields is = .ok s' → P s'
  | .done, _, s, s', _, hs, h => by
    rw [RecordDecoder.decodeItems] at h
    cases h
    exact hs
  | .cut b, _, s, s', _, hs, h => by
    rw [RecordDecoder.decodeItems] at h
    cases h
  | .item j rest, f :: fields, s, s', hsub, hs, h => by
    obtain ⟨s₁, hs₁, h⟩ := bind_eq_ok.mp h
    have hf := hsub List.mem_cons_self
    exact decodeItems_induction rest (fun g hg => hsub (List.mem_cons_of_mem f hg)) (hfields f hf s j s₁ hs hs₁) h

/-- What every field keeps holds of every record that has been read. -/
theorem decode_induction {blank : σ} (hblank : P blank) (h : r.decode blank j = .ok s) : P s := by
  unfold RecordDecoder.decode at h
  split at h
  · next ms => exact decodeMembers_induction hfields ms hblank h
  · next is => exact decodeItems_induction hfields is (List.Subset.refl _) hblank h
  · cases h

end Induction

end RecordDecoder

end FxStack.Json
