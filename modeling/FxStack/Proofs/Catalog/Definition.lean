import FxStack.Proofs.Catalog.Registration
import FxStack.Proofs.Template
import FxStack.Proofs.Uniform.Text

/-! Definitions of effects in JSON text. A member that may be left out is read as what was left out, and templates
    that come from a text are read again from their source form. So the definition of an effect of a catalog text is
    read back from its own text if the singles of its uniforms are. Main statement: `Catalog.ofText_toJson`. -/

namespace FxStack

open Json (RecordDecoder decodeOption)

/-! ### Members that may be left out -/

section Optional

variable {α σ : Type} {decode : Json → Except Json.Error α} {toJson : α → Json} {o : Option α}

/-- The field of the member is read as `x`: not at all if the member is left out. -/
def ReadAs (decode : Json → Except Json.Error α) (toJson : α → Json) : Option α → Option (Option α) → Prop
  | none, x => x = none
  | some a, x => ∃ y, decodeOption decode (toJson a) = .ok y ∧ x = some y

theorem exists_readAs : (∃ x, ReadAs decode toJson o x ∧ x.join = o) ↔
    ∀ a, o = some a → decodeOption decode (toJson a) = .ok (some a) := by
  cases o with
  | none => simp [ReadAs]
  | some a => simp [ReadAs]

theorem decodeMembers_optional {r : RecordDecoder σ} {name : String} {given : σ → Option (Option α)}
    {put : σ → Option α → σ} {ms : List (String × Json)} {s' : σ} (set : Option (Option α) → σ)
    (h : r.fields.lookup name = some (Json.field name given put (decodeOption decode)).2) (hnone : given (set none) = none)
    (hput : ∀ y, put (set none) y = set (some y)) :
    r.decodeMembers (set none) (Json.membersOf (Uniform.optionalMember name toJson o ++ ms)) = .ok s' ↔
      ∃ x, ReadAs decode toJson o x ∧ r.decodeMembers (set x) (Json.membersOf ms) = .ok s' := by
  cases o with
  | none => simp [Uniform.optionalMember, ReadAs]
  | some a =>
    rw [Uniform.optionalMember, List.singleton_append, RecordDecoder.decodeMembers_field h hnone]
    simp [ReadAs, hput]

theorem whole_optionalMember {name : String} (h : ∀ a, (toJson a).Whole) :
    ∀ m ∈ Uniform.optionalMember name toJson o, m.2.Whole := by
  cases o with
  | none => nofun
  | some a => simpa [Uniform.optionalMember] using h a

end Optional

/-! ### Uniforms -/

theorem ShaderType.decode_toJson (t : ShaderType) : decode t.toJson = .ok t := by
  cases t <;> rfl

theorem Json.decodeOption_ofSingle {x : Single} : decodeOption decodeSingle (ofSingle x) = .ok (some x) ↔ x.ReadsBack := by
  unfold ofSingle Single.ReadsBack
  split
  · next h =>
    cases hn : x.jsonNumeral.number? <;> simp [decodeOption, decodeSingle, hn, h, Except.map]
  · next h => simp [decodeOption, h]

theorem Value.decodeOption_toJson {v : Value} {depth : Nat} (hdepth : depth < Json.depthLimit) :
    decodeOption (decode depth) v.toJson = .ok (some v) ↔ ∀ x ∈ v.singles, x.ReadsBack := by
  have hdecode : decode depth v.toJson = .ok v ↔ ∀ x ∈ v.singles, x.ReadsBack := by
    rw [← ofShape?_toJson]
    constructor
    · intro h
      unfold decode at h
      split at h
      · cases h
      · split at h
        · next w hw =>
          cases h
          exact hw
        · cases h
    · intro h
      simp [decode, keep_toJson (exists_ofShape?_toJson.mp ⟨v, h⟩) hdepth, h]
  rw [← hdecode]
  unfold decodeOption
  split
  · next hnull => simp [hnull, decode, Json.keep, ofShape?]
  · simp [Json.map_eq_ok]

namespace Uniform

def singles (u : Uniform) : List Single :=
  u.defaultValue.toList.flatMap Value.singles ++ u.min.toList ++ u.max.toList ++ u.step.toList

section
variable {u : Uniform} {depth : Nat}

theorem decodeMembers_toJson {d : Draft} : (Draft.decoder depth).decode .blank u.toJson = .ok d ↔
    ∃ v, ReadAs (Value.decode (depth + 1)) Value.toJson u.defaultValue v ∧
      ∃ a, ReadAs Json.decodeSingle Json.ofSingle u.min a ∧ ∃ b, ReadAs Json.decodeSingle Json.ofSingle u.max b ∧
        ∃ c, ReadAs Json.decodeSingle Json.ofSingle u.step c ∧ ∃ w, ReadAs Json.decodeString Json.string u.widget w ∧
          ⟨some u.baseName, some u.type, v, a, b, c, w, some u.nearest, some u.clampToEdge⟩ = d := by
  unfold toJson
  simp only [Draft.blank, Json.record, RecordDecoder.decode, List.append_assoc, List.cons_append, List.nil_append]
  rw [RecordDecoder.decodeMembers_field rfl rfl]
  simp only [Json.decodeString, Except.ok.injEq, exists_eq_left']
  rw [RecordDecoder.decodeMembers_field rfl rfl]
  simp only [ShaderType.decode_toJson, Except.ok.injEq, exists_eq_left']
  rw [decodeMembers_optional (fun v => (⟨some u.baseName, some u.type, v, none, none, none, none, none, none⟩ : Draft)) rfl rfl fun _ => rfl]
  refine exists_congr fun v => and_congr_right fun _ => ?_
  rw [decodeMembers_optional (fun a => (⟨some u.baseName, some u.type, v, a, none, none, none, none, none⟩ : Draft)) rfl rfl fun _ => rfl]
  refine exists_congr fun a => and_congr_right fun _ => ?_
  rw [decodeMembers_optional (fun b => (⟨some u.baseName, some u.type, v, a, b, none, none, none, none⟩ : Draft)) rfl rfl fun _ => rfl]
  refine exists_congr fun b => and_congr_right fun _ => ?_
  rw [decodeMembers_optional (fun c => (⟨some u.baseName, some u.type, v, a, b, c, none, none, none⟩ : Draft)) rfl rfl fun _ => rfl]
  refine exists_congr fun c => and_congr_right fun _ => ?_
  rw [decodeMembers_optional (fun w => (⟨some u.baseName, some u.type, v, a, b, c, w, none, none⟩ : Draft)) rfl rfl fun _ => rfl]
  refine exists_congr fun w => and_congr_right fun _ => ?_
  rw [RecordDecoder.decodeMembers_field rfl rfl]
  simp only [Json.decodeBool, Except.ok.injEq, exists_eq_left']
  rw [RecordDecoder.decodeMembers_field rfl rfl]
  simp only [Json.decodeBool, Except.ok.injEq, exists_eq_left']
  exact RecordDecoder.decodeMembers_nil

/-- A declaration is read back if its singles are. -/
theorem decode_toJson (hdepth : depth + 1 < Json.depthLimit) :
    decode depth u.toJson = .ok u ↔ ∀ x ∈ u.singles, x.ReadsBack := by
  have hreads : decode depth u.toJson = .ok u ↔
      (∃ v, ReadAs (Value.decode (depth + 1)) Value.toJson u.defaultValue v ∧ v.join = u.defaultValue) ∧
        (∃ a, ReadAs Json.decodeSingle Json.ofSingle u.min a ∧ a.join = u.min) ∧
        (∃ b, ReadAs Json.decodeSingle Json.ofSingle u.max b ∧ b.join = u.max) ∧
        (∃ c, ReadAs Json.decodeSingle Json.ofSingle u.step c ∧ c.join = u.step) ∧
        ∃ w, ReadAs Json.decodeString Json.string u.widget w ∧ w.join = u.widget := by
    unfold decode
    simp only [Json.bind_eq_ok, decodeMembers_toJson]
    constructor
    · rintro ⟨_, ⟨v, hv, a, ha, b, hb, c, hc, w, hw, rfl⟩, _, -, _, -, hu⟩
      have hu := Except.ok.inj hu
      exact ⟨⟨v, hv, congrArg defaultValue hu⟩, ⟨a, ha, congrArg Uniform.min hu⟩, ⟨b, hb, congrArg Uniform.max hu⟩,
        ⟨c, hc, congrArg step hu⟩, w, hw, congrArg widget hu⟩
    · rintro ⟨⟨v, hv, hv'⟩, ⟨a, ha, ha'⟩, ⟨b, hb, hb'⟩, ⟨c, hc, hc'⟩, w, hw, hw'⟩
      refine ⟨_, ⟨v, hv, a, ha, b, hb, c, hc, w, hw, rfl⟩, _, rfl, _, rfl, ?_⟩
      simp only [hv', ha', hb', hc', hw']
      rfl
  have hwidget : ∀ a, decodeOption Json.decodeString (.string a) = .ok (some a) := fun _ => rfl
  simp only [hreads, exists_readAs, Value.decodeOption_toJson hdepth, Json.decodeOption_ofSingle, hwidget, implies_true,
    and_true, singles, List.forall_mem_append, List.forall_mem_flatMap, Option.mem_toList, and_assoc]

end

theorem whole_toJson (u : Uniform) : u.toJson.Whole := by
  refine Json.whole_record.mpr ?_
  simp only [List.forall_mem_append, List.forall_mem_cons]
  exact ⟨⟨⟨⟨⟨⟨⟨trivial, trivial, nofun⟩, whole_optionalMember Value.whole_toJson⟩,
    whole_optionalMember Value.whole_ofSingle⟩, whole_optionalMember Value.whole_ofSingle⟩,
    whole_optionalMember Value.whole_ofSingle⟩, whole_optionalMember fun _ => trivial⟩, trivial, trivial, nofun⟩

end Uniform

/-! ### Effects -/

/-- The template is what its source form is parsed to. -/
def Template.Canonical (t : Template) : Prop := parse t.source = .ok t

theorem Template.canonical_empty : empty.Canonical := by
  simp [Canonical, parse, source, empty, readItems, ofItems, Except.map]

theorem Template.canonical_of_decode {j : Json} {t : Template} (h : Json.decodeTemplate j = .ok t) : t.Canonical := by
  obtain ⟨s, -, h⟩ := Json.bind_eq_ok.mp h
  cases hparse : parse s with
  | error e =>
    rw [hparse] at h
    cases h
  | ok u =>
    rw [hparse] at h
    cases h
    exact parse_source hparse

theorem Template.Canonical.decode {t : Template} (h : t.Canonical) :
    Json.decodeTemplate (Effect.templateJson t) = .ok t := by
  unfold Canonical at h
  simp [Json.decodeTemplate, Effect.templateJson, Json.decodeString, h, Except.mapError, bind, Except.bind]

namespace Effect

def singles (e : Effect) : List Single := e.uniforms.toList.flatMap fun u => u.2.singles

/-- All templates of the effect are canonical. -/
def Canonical (e : Effect) : Prop := e.code.Canonical ∧ ∀ t, e.uvCode = some t → t.Canonical

section
variable {e : Effect} {depth : Nat}

theorem decodeMembers_toJson {d : Draft} : (Draft.decoder depth).decode .blank e.toJson = .ok d ↔
    ∃ us, Json.decodeMap (Uniform.decode (depth + 2)) (.record (e.uniforms.map Uniform.toJson).toList) = .ok us ∧
      ∃ t, Json.decodeTemplate (templateJson e.code) = .ok t ∧ ∃ v, ReadAs Json.decodeTemplate templateJson e.uvCode v ∧
        ⟨some e.name, some e.displayName, some us, some t, v, some e.functions, some e.breaksPass⟩ = d := by
  have hfunctions : Json.decodeList Json.decodeString (.list (e.functions.map .string)) = .ok e.functions :=
    Json.decodeList_list.mpr fun _ _ => rfl
  unfold toJson
  conv_lhs => rw [Json.record]
  simp only [Draft.blank, RecordDecoder.decode, List.cons_append, List.nil_append]
  rw [RecordDecoder.decodeMembers_field rfl rfl]
  simp only [Json.decodeString, Except.ok.injEq, exists_eq_left']
  rw [RecordDecoder.decodeMembers_field rfl rfl]
  simp only [Json.decodeString, Except.ok.injEq, exists_eq_left']
  rw [RecordDecoder.decodeMembers_field rfl rfl]
  refine exists_congr fun us => and_congr_right fun _ => ?_
  rw [RecordDecoder.decodeMembers_field rfl rfl]
  refine exists_congr fun t => and_congr_right fun _ => ?_
  rw [decodeMembers_optional
    (fun v => (⟨some e.name, some e.displayName, some us, some t, v, none, none⟩ : Draft)) rfl rfl fun _ => rfl]
  refine exists_congr fun v => and_congr_right fun _ => ?_
  rw [RecordDecoder.decodeMembers_field rfl rfl]
  simp only [hfunctions, Except.ok.injEq, exists_eq_left']
  rw [RecordDecoder.decodeMembers_field rfl rfl]
  simp only [Json.decodeBool, Except.ok.injEq, exists_eq_left']
  exact RecordDecoder.decodeMembers_nil

/-- The definition of an effect is read back if its singles are. -/
theorem decode_toJson (h : e.Canonical) (hdepth : depth + 3 < Json.depthLimit) :
    decode depth e.toJson = .ok e ↔ ∀ x ∈ e.singles, x.ReadsBack := by
  have huniforms : Json.decodeMap (Uniform.decode (depth + 2)) (.record (e.uniforms.map Uniform.toJson).toList) =
      .ok e.uniforms ↔ ∀ x ∈ e.singles, x.ReadsBack := by
    rw [Json.decodeMap_record, singles, List.forall_mem_flatMap]
    exact forall₂_congr fun u _ => Uniform.decode_toJson hdepth
  have huvCode : ∃ v, ReadAs Json.decodeTemplate templateJson e.uvCode v ∧ v.join = e.uvCode :=
    exists_readAs.mpr fun t ht => congrArg (Except.map some) (h.2 t ht).decode
  rw [← huniforms]
  unfold decode
  simp only [Json.bind_eq_ok, decodeMembers_toJson]
  constructor
  · rintro ⟨_, ⟨us, hus, t, ht, v, hv, rfl⟩, he⟩
    exact hus.trans (congrArg (Except.ok ∘ uniforms) (Except.ok.inj he))
  · intro hus
    obtain ⟨v, hv, hv'⟩ := huvCode
    refine ⟨_, ⟨_, hus, _, h.1.decode, v, hv, rfl⟩, ?_⟩
    simp only [hv']
    rfl

end

theorem whole_toJson (e : Effect) : e.toJson.Whole := by
  refine Json.whole_record.mpr ?_
  have huniforms : (Json.record (e.uniforms.map Uniform.toJson).toList).Whole := by
    refine Json.whole_record.mpr fun m hm => ?_
    obtain ⟨u, -, rfl⟩ := List.mem_map.mp hm
    exact u.2.whole_toJson
  have hfunctions : (Json.list (e.functions.map .string)).Whole :=
    Json.whole_list.mpr (List.forall_mem_map.mpr fun _ _ => trivial)
  simp only [List.forall_mem_append, List.forall_mem_cons]
  exact ⟨⟨⟨trivial, trivial, huniforms, trivial, nofun⟩, whole_optionalMember fun _ => trivial⟩,
    hfunctions, trivial, nofun⟩

/-- Templates that come from a text are canonical. -/
theorem canonical_of_decode {depth : Nat} {j : Json} {e : Effect} (h : decode depth j = .ok e) : e.Canonical := by
  let Read (d : Draft) : Prop := (∀ t ∈ d.code, t.Canonical) ∧ ∀ o ∈ d.uvCode, ∀ t ∈ o, t.Canonical
  obtain ⟨d, hd, he⟩ := Json.bind_eq_ok.mp h
  have read : Read d := by
    refine RecordDecoder.decode_induction (P := Read) (fun f hf s j s' hs hs' => ?_)
      ⟨fun _ ht => (by cases ht), fun _ ho => (by cases ho)⟩ hd
    simp only [Draft.decoder, List.mem_cons, List.not_mem_nil, or_false] at hf
    rcases hf with rfl | rfl | rfl | rfl | rfl | rfl | rfl <;> obtain ⟨-, x, hx, rfl⟩ := RecordDecoder.field_eq_ok.mp hs'
    · exact hs
    · exact hs
    · exact hs
    · refine ⟨fun t ht => ?_, hs.2⟩
      cases ht
      exact Template.canonical_of_decode hx
    · refine ⟨hs.1, fun o ho t ht => ?_⟩
      cases ho
      cases ht
      exact Template.canonical_of_decode (Json.of_decodeOption hx)
    · exact hs
    · exact hs
  cases he
  refine ⟨?_, fun t ht => ?_⟩
  · cases hcode : d.code with
    | none => exact Template.canonical_empty
    | some t => exact read.1 t hcode
  · exact read.2 _ (Option.join_eq_some_iff.mp ht) t rfl

end Effect

/-! ### Catalogs -/

theorem CatalogExtension.canonical_of_ofText {text : String} {file : CatalogExtension} (h : ofText text = .ok file) :
    ∀ e ∈ file.effects.toList, e.2.Canonical := by
  let Read (d : Draft) : Prop := ∀ m ∈ d.effects, ∀ e ∈ m.toList, e.2.Canonical
  obtain ⟨j, hj⟩ := Json.exists_of_decodeDocument h
  obtain ⟨d, hd, hfile⟩ := Json.bind_eq_ok.mp hj
  have read : Read d := by
    refine RecordDecoder.decode_induction (P := Read) (fun f hf s j s' hs hs' => ?_) (fun _ hm => by cases hm) hd
    simp only [Draft.decoder, List.mem_cons, List.not_mem_nil, or_false] at hf
    rcases hf with rfl | rfl <;> obtain ⟨-, x, hx, rfl⟩ := RecordDecoder.field_eq_ok.mp hs'
    · exact hs
    · intro m hm e he
      cases hm
      obtain ⟨j, hj⟩ := Json.exists_of_decodeMap hx e he
      exact Effect.canonical_of_decode hj
  cases hfile
  cases heffects : d.effects with
  | none => exact fun e he => by cases he
  | some m => exact read m heffects

namespace Catalog
variable {id : CatalogId} {text : String} {c : Catalog} {name : String} {e : Effect}

/-- The templates of all effects are canonical. -/
def Canonical (c : Catalog) : Prop := ∀ name e, c.effect? name = some e → e.Canonical

theorem Canonical.register (hc : c.Canonical) (he : e.Canonical) {old : Option Effect} {c' : Catalog}
    (h : c.register name e = .ok (old, c')) : c'.Canonical := by
  obtain ⟨-, -, rfl⟩ := register_eq_ok.mp h
  intro n d hd
  simp only [effect?, KeyMap.get?_insert] at hd
  split at hd
  · cases hd
    exact he
  · exact hc n d hd

theorem Canonical.extendWith (hc : c.Canonical) {file : CatalogExtension} (hfile : ∀ e ∈ file.effects.toList, e.2.Canonical)
    {c' : Catalog} (h : c.extendWith file = .ok c') : c'.Canonical :=
  extendWith_induction (P := Canonical) h hc (fun _ _ _ hd => hd) fun _ _ e he _ hd hr => hd.register (hfile e he) hr

theorem Canonical.extend (hc : c.Canonical) {c' : Catalog} (h : c.extend text = .ok c') : c'.Canonical := by
  obtain ⟨file, hfile, h⟩ := extend_eq_ok h
  exact hc.extendWith (CatalogExtension.canonical_of_ofText hfile) h

theorem canonical_of_ofText (h : ofText id text = .ok c) (he : c.effect? name = some e) : e.Canonical :=
  Canonical.extend (c := empty id) nofun h name e he

/-- The definition of an effect of a catalog text is read back from its text if its singles are. -/
theorem ofText_toJson (h : ofText id text = .ok c) (he : c.effect? name = some e) :
    Effect.ofText e.toJson.compact = .ok e ↔ ∀ x ∈ e.singles, x.ReadsBack := by
  unfold Effect.ofText
  rw [Json.decodeDocument_of_read (Json.read_compact e.whole_toJson)]
  exact e.decode_toJson (canonical_of_ofText h he) (by decide)

end Catalog

end FxStack
