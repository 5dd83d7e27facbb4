import FxStack.Proofs.Stack.Saving
import FxStack.Proofs.Uniform.Shape

/-! The shapes of saved stacks. An entry is an object in which exactly one member, a string, has the key of the name and
    every other member has the shape of a value, and of the members with one key the last counts. Main statement:
    `SavedStack.shapes_decide`. -/

namespace FxStack

/-! ### Entries -/

namespace SavedEntry

/-- The tree has the shape of the entry. -/
inductive Shaped : Json → SavedEntry → Prop
  | record {ms : List (String × Json)} {e : SavedEntry} {vs : List (String × Value)} :
      Json.valuesOf Wording.entryNameKey ms = [.string e.name] →
      List.Forall₂ (fun m v => m.1 = v.1 ∧ Value.Shaped m.2 v.2) (ms.filter (·.1 ≠ Wording.entryNameKey)) vs →
      (∀ key, e.overrides.get? key = vs.reverse.lookup key) → Shaped (.record ms) e

theorem decodeOverrides_eq_ok_iff {es : List (String × Json)} {m : KeyMap Value} : decodeOverrides .empty es = .ok m ↔
    ∃ vs : List (String × Value), List.Forall₂ (fun e v => e.1 = v.1 ∧ Value.Shaped e.2 v.2) es vs ∧
      ∀ key, m.get? key = vs.reverse.lookup key := by
  have hlast : ∀ (vs : List (String × Value)) (key : String), (KeyMap.ofList vs).get? key = vs.reverse.lookup key := by
    intro vs key
    rw [KeyMap.ofList, KeyMap.get?_foldl_insert_reverse, KeyMap.get?_empty, Option.or_none]
  simp only [decodeOverrides_eq_ok, Value.ofShape?_eq_some_iff]
  refine exists_congr fun vs => and_congr_right fun _ => ?_
  constructor
  · rintro rfl key
    exact hlast vs key
  · intro h
    exact KeyMap.ext_get? fun key => (h key).trans (hlast vs key).symm

/-- From a tree that has the shape of an entry this entry is read, and from any other tree none is. -/
theorem decode_eq_ok_iff {depth : Nat} (hdepth : depth + 1 < Json.depthLimit) {j : Json} {e : SavedEntry} :
    decode depth j = .ok e ↔ Shaped j e := by
  constructor
  · intro h
    obtain ⟨ms, rfl⟩ := exists_record h
    obtain ⟨hname, -, hoverrides⟩ := decode_record.mp h
    obtain ⟨vs, hvs, hlast⟩ := decodeOverrides_eq_ok_iff.mp hoverrides
    exact .record hname hvs hlast
  · rintro ⟨hname, hvs, hlast⟩
    refine decode_record.mpr ⟨hname, fun m hm hkey => ?_, decodeOverrides_eq_ok_iff.mpr ⟨_, hvs, hlast⟩⟩
    have hshaped := Json.exists_forall₂.mp ⟨_, hvs⟩ m (List.mem_filter.mpr ⟨hm, by simpa using hkey⟩)
    obtain ⟨v, -, hv⟩ := hshaped
    exact hv.keep hdepth

end SavedEntry

/-! ### Stacks -/

namespace SavedStack

/-- The members give the fields of the stack. Those with other names are not looked at. -/
structure Fields (ms : List (String × Json)) (c : SavedStack) : Prop where
  antialias : Json.Given "antialias" (fun j b => j = .bool b) false ms c.antialias
  filter : Json.Given "filter" (fun j b => j = .bool b) true ms c.filter
  entries : Json.Given "entries" (fun j es => ∃ js, j = .list js ∧ List.Forall₂ SavedEntry.Shaped js es) [] ms c.entries

/-- The tree has the shape of the stack: an object, or an array of the first of its fields. -/
inductive Shaped : Json → SavedStack → Prop
  | record {ms : List (String × Json)} {c : SavedStack} : Fields ms c → Shaped (.record ms) c
  | list {js : List Json} {c : SavedStack} : js.length ≤ 3 → Fields (["antialias", "filter", "entries"].zip js) c →
      Shaped (.list js) c

theorem Draft.decodeMembers_eq_ok {ms : List (String × Json)} (hwhole : ∀ m ∈ ms, m.2.Whole) : ∀ {d d' : Draft},
    Draft.decoder.decodeMembers d (Json.membersOf ms) = .ok d' ↔
      Json.FieldRead Json.decodeBool "antialias" ms d.antialias d'.antialias ∧
        Json.FieldRead Json.decodeBool "filter" ms d.filter d'.filter ∧
        Json.FieldRead (Json.decodeList (SavedEntry.decode 2)) "entries" ms d.entries d'.entries := by
  induction ms with
  | nil =>
    rintro ⟨a, f, es⟩ ⟨a', f', es'⟩
    simp [Json.RecordDecoder.decodeMembers, eq_comm]
  | cons m ms ih =>
    intro d d'
    have ih := @ih fun n hn => hwhole n (List.mem_cons_of_mem m hn)
    obtain ⟨k, j⟩ := m
    -- The fields may come in any order, so the first member is any one of them or none.
    by_cases hantialias : k = "antialias"
    · subst hantialias
      rw [Json.RecordDecoder.decodeMembers_cons rfl, Json.fieldRead_cons, Json.fieldRead_cons_of_ne (by decide),
        Json.fieldRead_cons_of_ne (by decide)]
      simp only [ih]
      grind
    by_cases hfilter : k = "filter"
    · subst hfilter
      rw [Json.RecordDecoder.decodeMembers_cons rfl, Json.fieldRead_cons, Json.fieldRead_cons_of_ne (by decide),
        Json.fieldRead_cons_of_ne (by decide)]
      simp only [ih]
      grind
    by_cases hentries : k = "entries"
    · subst hentries
      rw [Json.RecordDecoder.decodeMembers_cons rfl, Json.fieldRead_cons, Json.fieldRead_cons_of_ne (by decide),
        Json.fieldRead_cons_of_ne (by decide)]
      simp only [ih]
      grind
    · have hunknown : decoder.fields.lookup k = none := by
        simp [decoder, Json.field, lookup_cons_ite, hantialias, hfilter, hentries]
      have hskip := (hwhole (k, j) List.mem_cons_self).skip
      rw [Json.RecordDecoder.decodeMembers_skip hunknown, ih, Json.fieldRead_cons_of_ne hantialias,
        Json.fieldRead_cons_of_ne hfilter, Json.fieldRead_cons_of_ne hentries]
      exact and_iff_right hskip

theorem Draft.decode_list {js : List Json} {d : Draft} : Draft.decoder.decode .blank (.list js) = .ok d ↔
    js.length ≤ 3 ∧ Draft.decoder.decodeMembers .blank (Json.membersOf (["antialias", "filter", "entries"].zip js)) = .ok d :=
  Json.RecordDecoder.decodeItems_eq_ok fun _ hf => lookup_of_mem (by decide) hf

theorem exists_draft {ms : List (String × Json)} (hwhole : ∀ m ∈ ms, m.2.Whole) {c : SavedStack} :
    (∃ d, Draft.decoder.decodeMembers .blank (Json.membersOf ms) = .ok d ∧
      (⟨d.antialias.getD false, d.filter.getD true, d.entries.getD []⟩ : SavedStack) = c) ↔ Fields ms c := by
  have hentries : ∀ j es, Json.decodeList (SavedEntry.decode 2) j = .ok es ↔
      ∃ js, j = .list js ∧ List.Forall₂ SavedEntry.Shaped js es := by
    intro j es
    simp only [Json.decodeList_eq_ok, SavedEntry.decode_eq_ok_iff (show 2 + 1 < Json.depthLimit by decide)]
  constructor
  · rintro ⟨d, hd, rfl⟩
    obtain ⟨ha, hf, he⟩ := (Draft.decodeMembers_eq_ok hwhole).mp hd
    exact ⟨(Json.exists_fieldRead fun _ _ => Json.decodeBool_eq_ok).mp ⟨_, ha, rfl⟩,
      (Json.exists_fieldRead fun _ _ => Json.decodeBool_eq_ok).mp ⟨_, hf, rfl⟩,
      (Json.exists_fieldRead hentries).mp ⟨_, he, rfl⟩⟩
  · rintro ⟨hantialias, hfilter, hlist⟩
    obtain ⟨a, ha, haeq⟩ := (Json.exists_fieldRead fun _ _ => Json.decodeBool_eq_ok).mpr hantialias
    obtain ⟨f, hf, hfeq⟩ := (Json.exists_fieldRead fun _ _ => Json.decodeBool_eq_ok).mpr hfilter
    obtain ⟨es, he, heeq⟩ := (Json.exists_fieldRead hentries).mpr hlist
    refine ⟨⟨a, f, es⟩, (Draft.decodeMembers_eq_ok hwhole).mpr ⟨ha, hf, he⟩, ?_⟩
    rw [haeq, hfeq, heeq]

/-- From a whole tree that has the shape of a stack this stack is read, and from any other whole tree none is. -/
theorem decode_eq_ok_iff {j : Json} (hj : j.Whole) {c : SavedStack} : decode j = .ok c ↔ Shaped j c := by
  have hdecode : decode j = .ok c ↔ ∃ d, Draft.decoder.decode .blank j = .ok d ∧
      (⟨d.antialias.getD false, d.filter.getD true, d.entries.getD []⟩ : SavedStack) = c := by
    simp [decode, Json.bind_eq_ok, pure, Except.pure]
  have hzip : ∀ js : List Json, (Json.list js).Whole → ∀ m ∈ ["antialias", "filter", "entries"].zip js, m.2.Whole :=
    fun js hjs m hm => Json.whole_list.mp hjs m.2 (List.of_mem_zip hm).2
  rw [hdecode]
  constructor
  · rintro ⟨d, hd, hc⟩
    cases j with
    | null | bool b | number n | string s | garbled | broken b => cases hd
    | object ms =>
      obtain ⟨es, rfl⟩ := Json.WholeMembers.exists_membersOf hj
      exact .record ((exists_draft (Json.whole_record.mp hj)).mp ⟨d, hd, hc⟩)
    | array is =>
      obtain ⟨js, rfl⟩ := Json.WholeItems.exists_itemsOf hj
      obtain ⟨hlength, hd⟩ := Draft.decode_list.mp hd
      exact .list hlength ((exists_draft (hzip js hj)).mp ⟨d, hd, hc⟩)
  · intro h
    cases h with
    | record hfields => exact (exists_draft (Json.whole_record.mp hj)).mpr hfields
    | @list js _ hlength hfields =>
      obtain ⟨d, hd, hc⟩ := (exists_draft (hzip js hj)).mpr hfields
      exact ⟨d, Draft.decode_list.mpr ⟨hlength, hd⟩, hc⟩

/-- A tree is read as a value, as an entry or as a stack if it has the shape of one, and only then: values and entries as
    parts of a text, where the tree may be cut short and other trees be open around it, values and stacks as whole
    texts. The doubles by way of which numbers are converted stand for what is written. -/
theorem shapes_decide :
    (∀ depth < Json.depthLimit, ∀ j v, Value.decode depth j = .ok v ↔ Value.Shaped j v) ∧
      (∀ depth, depth + 1 < Json.depthLimit → ∀ j e, SavedEntry.decode depth j = .ok e ↔ SavedEntry.Shaped j e) ∧
      (∀ j text, Json.Spelled j text →
        (∀ v, Value.ofText text = .ok v ↔ Value.Shaped j v) ∧ ∀ c, ofText text = .ok c ↔ Shaped j c) ∧
      ∀ n : Numeral, n.Approximated n.double? := by
  refine ⟨fun depth hdepth j v => Value.decode_eq_ok_iff hdepth,
    fun depth hdepth j e => SavedEntry.decode_eq_ok_iff hdepth, fun j text h => ⟨fun v => ?_, fun c => ?_⟩,
    Numeral.approximated⟩
  · rw [Value.ofText, Json.decodeDocument_of_read (Json.read_of_spelled h)]
    exact Value.decode_eq_ok_iff (by decide)
  · rw [ofText, Json.decodeDocument_of_read (Json.read_of_spelled h)]
    exact decode_eq_ok_iff h.whole

/-- A stack with one entry, in which one override is given twice and another one is an integer of more than 32 bits. -/
def regained : Json :=
  .record [("entries", .list [.record [("gain", .bool true), ("name", .string "glow"), ("size", .number (.ofInt 0x80000000)),
    ("gain", .list [.number (.ofInt 1), .number ⟨true, 0, [], none⟩])]]), ("filter", .bool false)]

theorem shapes_decide_regained :
    0 < Json.depthLimit ∧ 2 + 1 < Json.depthLimit ∧ Json.Spelled regained regained.compact ∧
      Shaped regained ⟨false, false,
        [⟨"glow", .ofList [("gain", .vec2 .one ⟨0x80000000⟩), ("size", .float ⟨0x4f000000⟩)]⟩]⟩ ∧
      (∀ v, ¬Value.Shaped (.list [.list []]) v) ∧ (∀ e, ¬SavedEntry.Shaped (.record [("gain", .bool true)]) e) ∧
      (∃ x, (⟨true, 1, [], some 300⟩ : Numeral).double? = some x ∧ x.negative = true ∧
        |BinaryFormat.double.value x.magnitude - 10 ^ 300| ≤ 1 / 2 ^ 51 * 10 ^ 300) ∧
      (⟨false, 2, [], some 308⟩ : Numeral).double? = none ∧
      (⟨false, 0, [1], none⟩ : Numeral).double? = some ⟨false, 0x3fb999999999999a⟩ := by
  obtain ⟨values, entries, texts, doubles⟩ := shapes_decide
  have hwhole : regained.Whole := by
    simp [regained, Json.whole_record, Json.whole_list, Json.Whole]
  have hspelled := (Json.spells_compactChars regained hwhole).spelled
  have hgreat : (⟨true, 1, [], some 300⟩ : Numeral).decimal.value = 10 ^ 300 := by
    show ((1 : Nat) : ℚ) * 10 ^ ((300 : Nat) : Int) = 10 ^ 300
    rw [Nat.cast_one, one_mul, zpow_natCast]
  have htwice : (⟨false, 2, [], some 308⟩ : Numeral).decimal.value = 2 * 10 ^ 308 := by
    show ((2 : Nat) : ℚ) * 10 ^ ((308 : Nat) : Int) = 2 * 10 ^ 308
    rw [Nat.cast_ofNat, zpow_natCast]
  have hbelow : 10 ^ 300 + 2 ^ 973 ≤ 2 ^ 1024 := by decide +kernel
  have habove : 2 ^ 1024 + 2 ^ 973 ≤ 2 * 10 ^ 308 := by decide +kernel
  refine ⟨by decide, by decide, hspelled, ((texts regained _ hspelled).2 _).mp (by decide +kernel), fun v hv => ?_,
    fun e he => ?_, ?_, ?_, ?_⟩
  · have hread := (values 0 (by decide) _ v).mpr hv
    cases hread
  · have hread := (entries 2 (by decide) _ e).mpr he
    cases hread
  · have hgreater := doubles ⟨true, 1, [], some 300⟩
    have hmost := hgreater.read (by
      rw [hgreat, le_sub_iff_add_le]
      exact_mod_cast hbelow)
    obtain ⟨x, hx⟩ := Option.isSome_iff_exists.mp hmost
    have hclose := hgreater.close (by
      rw [hgreat]
      exact (zpow_le_one_of_nonpos₀ one_le_two (by decide)).trans (one_le_pow₀ (by norm_num))) x hx
    rw [hgreat] at hclose
    exact ⟨x, hx, hgreater.signed x hx, hclose⟩
  · refine (doubles _).refused ?_
    rw [htwice]
    exact_mod_cast habove
  · rw [(doubles ⟨false, 0, [1], none⟩).nearest (by decide) (by decide)]
    decide +kernel

end SavedStack

/-! ### A number that is refused -/

namespace Value

/-- A numeral between the two greatest doubles. -/
def belowGreatest : Numeral := ⟨false, 1, Digit.ofNat 797693134862315708, some 308⟩

/-- It is not beyond the doubles, but no value is read from it, since the product of its digits and their power of ten
    is. -/
theorem belowGreatest_refused :
    Json.Spelled (.number belowGreatest) "1.797693134862315708e+308" ∧ ¬belowGreatest.IsInteger (-2 ^ 31) (2 ^ 31) ∧
      belowGreatest.decimal.value < BinaryFormat.double.value (BinaryFormat.double.infinity - 1) ∧
      ofText "1.797693134862315708e+308" = .error .malformed := by
  refine ⟨(Json.spells_compactChars (.number belowGreatest) trivial).spelled, fun h => ?_, ?_, by decide +kernel⟩
  · cases h.integral.1
  · have hcross : belowGreatest.decimal.numerator * BinaryFormat.double.denominator (BinaryFormat.double.infinity - 1) <
        BinaryFormat.double.numerator (BinaryFormat.double.infinity - 1) * belowGreatest.decimal.denominator := by
      decide +kernel
    have hdecimal : (0 : ℚ) < belowGreatest.decimal.denominator := by
      exact_mod_cast Nat.pos_of_ne_zero belowGreatest.decimal.denominator_ne_zero
    have hdouble : (0 : ℚ) < BinaryFormat.double.denominator (BinaryFormat.double.infinity - 1) := by
      exact_mod_cast Nat.pos_of_ne_zero (BinaryFormat.denominator_ne_zero _ _)
    rw [Decimal.value_eq, BinaryFormat.value, div_lt_div_iff₀ hdecimal hdouble]
    exact_mod_cast hcross

end Value

end FxStack
