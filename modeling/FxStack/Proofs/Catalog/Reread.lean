import FxStack.Proofs.Catalog.Definition
import FxStack.Proofs.Catalog.Schema

/-! Definitions of effects that catalogs hold, written and read again. Templates are made by reading a source form only,
    so those of a catalog are canonical however it was put together, and its effects are valid, so what is read is
    registered again. Main statement: `Catalog.effect_reread`. -/

namespace FxStack

/-! ### Templates that have been read -/

theorem Template.canonical_of_parse {s : String} {t : Template} (h : parse s = .ok t) : t.Canonical := parse_source h

/-- The templates of the effect come from source forms. -/
def Effect.Parsed (e : Effect) : Prop :=
  (∃ s, Template.parse s = .ok e.code) ∧ ∀ t, e.uvCode = some t → ∃ s, Template.parse s = .ok t

theorem Effect.Parsed.canonical {e : Effect} (h : e.Parsed) : e.Canonical := by
  obtain ⟨⟨s, hs⟩, huv⟩ := h
  refine ⟨Template.canonical_of_parse hs, fun t ht => ?_⟩
  obtain ⟨s, hs⟩ := huv t ht
  exact Template.canonical_of_parse hs

theorem Effect.named_named (e : Effect) (name : String) : (e.named name).named name = e.named name := by
  unfold named
  dsimp only
  split
  · simp
  · rfl

/-! ### The built-in effects -/

namespace Builtin

theorem canonical_code (s : String) : (code s).Canonical := Template.parse_source_ofItems _

theorem canonical_of_color {e : Effect} {s : String} (hcode : e.code = code s) (huv : e.uvCode = none) : e.Canonical :=
  ⟨hcode ▸ canonical_code s, fun t ht => by cases huv.symm.trans ht⟩

theorem canonical_of_coordinate {e : Effect} {s r : String} (hcode : e.code = code s) (huv : e.uvCode = some (code r)) :
    e.Canonical := by
  refine ⟨hcode ▸ canonical_code s, fun t ht => ?_⟩
  obtain rfl := Option.some.inj (huv.symm.trans ht)
  exact canonical_code r

theorem canonical_effects : ∀ e ∈ effects.toList, e.2.Canonical := by
  intro e he
  have hmem := KeyMap.mem_of_mem_ofList he
  simp only [List.mem_cons, List.not_mem_nil, or_false] at hmem
  rcases hmem with rfl | rfl | rfl | rfl | rfl | rfl | rfl | rfl | rfl | rfl | rfl <;>
    first
    | exact canonical_of_color rfl rfl
    | exact canonical_of_coordinate rfl rfl

end Builtin

/-! ### Catalogs that are put together -/

namespace Catalog

/-- The effects that a call gives as they are have templates that come from source forms. -/
def Call.Parsed : Call → Prop
  | .register _ e => e.Parsed
  | _ => True

/-- The catalog is put together by calls that may fail, from nothing or from the built-in effects. -/
inductive Assembled : Catalog → Prop
  | empty (id : CatalogId) : Assembled (.empty id)
  | builtin {id : CatalogId} {c : Catalog} : Catalog.builtin id = .ok c → Assembled c
  | copy {c : Catalog} (id : CatalogId) : Assembled c → Assembled (c.copy id)
  | call {c c' : Catalog} {k : Call} : Assembled c → k.Parsed →
      (k.update.run c = .ok () c' ∨ ∃ error, k.update.run c = .error error c') → Assembled c'

theorem Assembled.built {c : Catalog} (h : c.Assembled) : c.Built := by
  induction h with
  | empty id => exact .empty id
  | builtin h => exact .extendWith (.empty _) h
  | copy id _ ih => exact .copy id ih
  | call _ _ hk ih => exact ih.call hk

theorem Assembled.canonical {c : Catalog} (h : c.Assembled) : c.Canonical := by
  induction h with
  | empty id => nofun
  | builtin h => exact Canonical.extendWith (c := .empty _) nofun Builtin.canonical_effects h
  | copy id _ ih => exact ih
  | @call c c' k _ parsed hk ih =>
    rcases hk with hk | ⟨error, hk⟩
    · have happly := Call.run_eq_ok.mp hk
      cases k with
      | extend text => exact ih.extend happly
      | register name e =>
        obtain ⟨old, hr⟩ := map_register_eq_ok happly
        exact ih.register (Effect.Parsed.canonical parsed) hr
      | registerFunction name body =>
        cases happly
        exact ih
    · rwa [(Call.run_eq_error.mp hk).2]

/-- A definition that a catalog holds is read from its text as what it is, as far as its numbers are finite and their
    texts are read as the same numbers. What is read is registered again under any name, and under its own name it is
    kept as it is. -/
theorem effect_reread {c : Catalog} (h : c.Assembled) {name : String} {e : Effect} (he : c.effect? name = some e)
    (hfinite : ∀ x ∈ e.singles, x.isFinite = true)
    (hread : ∀ x ∈ e.singles, x.jsonNumeral.number?.map Number.toSingle = some x) :
    Effect.ofText e.toJson.compact = .ok e ∧ Effect.ofText e.toJson.pretty = .ok e ∧
      (∀ (d : Catalog) (other : String), ∃ d', d.register other e = .ok (d.effect? other, d') ∧
        d'.effect? other = some (e.named other)) ∧
      e.named name = e := by
  have hback : Effect.decode 0 e.toJson = .ok e :=
    (e.decode_toJson (h.canonical name e he) (by decide)).mpr fun x hx => ⟨hfinite x hx, hread x hx⟩
  obtain ⟨d, valid, rfl⟩ := h.built.registered name e he
  refine ⟨?_, ?_, fun d' other => ?_, d.named_named name⟩
  · exact (Json.decodeDocument_of_read (Json.read_compact (Effect.whole_toJson _))).trans hback
  · exact (Json.decodeDocument_of_read (Json.read_pretty (Effect.whole_toJson _))).trans hback
  · refine ⟨_, register_eq_ok.mpr ⟨valid.named name, rfl, rfl⟩, ?_⟩
    rw [effect?, KeyMap.get?_insert, if_pos rfl]

/-- An effect with a default of every kind, an escaped dollar sign in its code and empty code for coordinates. -/
def shimmer : Effect where
  name := "other"
  displayName := ""
  uniforms := .ofList [
    ("amount", { Uniform.plain "u_amount" .float with
      defaultValue := some (.float ⟨0x80000000⟩), min := some ⟨0x00000001⟩, max := some ⟨0x7f7fffff⟩, widget := some "" }),
    ("count", { Uniform.plain "u_count" .float with defaultValue := some (.int (-3)), step := some ⟨0x3dcccccd⟩ }),
    ("map", { Uniform.plain "u_map" .sampler2D with defaultValue := some (.texture "a\"b"), nearest := true })]
  code := ⟨[.text ['$', 'x'], .position]⟩
  uvCode := some .empty
  functions := ["wave", "wave"]
  breaksPass := true

theorem effect_reread_shimmer :
    ∃ c : Catalog, (Call.register "shimmer" shimmer).update.run (.empty ⟨0⟩) = .ok () c ∧ c.Assembled ∧
      let e := shimmer.named "shimmer"
      c.effect? "shimmer" = some e ∧ (∀ x ∈ e.singles, x.isFinite = true) ∧
        (∀ x ∈ e.singles, x.jsonNumeral.number?.map Number.toSingle = some x) ∧
        Effect.ofText e.toJson.compact = .ok e ∧ Effect.ofText e.toJson.pretty = .ok e ∧
        ∃ c', c.register "shimmer" e = .ok (some e, c') ∧ c'.effect? "shimmer" = some e := by
  have valid : shimmer.Valid := Effect.validate_eq_ok.mp (by decide +kernel)
  have parsed : shimmer.Parsed := by
    refine ⟨⟨"$$x$\x7b id \x7d", by decide +kernel⟩, fun t ht => ⟨"", ?_⟩⟩
    obtain rfl := Option.some.inj ht
    decide +kernel
  obtain ⟨c, hc⟩ : ∃ c, (Call.register "shimmer" shimmer).apply (.empty ⟨0⟩) = .ok c :=
    ⟨_, congrArg (Except.map Prod.snd) (register_eq_ok.mpr ⟨valid, rfl, rfl⟩)⟩
  have run := Call.run_eq_ok.mpr hc
  have assembled : c.Assembled := .call (k := .register "shimmer" shimmer) (.empty ⟨0⟩) parsed (.inl run)
  have kept : c.effect? "shimmer" = some (shimmer.named "shimmer") := by
    have hregister : ((empty ⟨0⟩).register "shimmer" shimmer).map (·.2) = .ok c := hc
    obtain ⟨old, hr⟩ := map_register_eq_ok hregister
    obtain ⟨-, -, rfl⟩ := register_eq_ok.mp hr
    rfl
  have hfinite : ∀ x ∈ (shimmer.named "shimmer").singles, x.isFinite = true := by decide +kernel
  have hread : ∀ x ∈ (shimmer.named "shimmer").singles, x.jsonNumeral.number?.map Number.toSingle = some x := by
    decide +kernel
  obtain ⟨hcompact, hpretty, again, hname⟩ := effect_reread assembled kept hfinite hread
  obtain ⟨c', hagain, hkept⟩ := again c "shimmer"
  exact ⟨c, run, assembled, kept, hfinite, hread, hcompact, hpretty, c', kept ▸ hagain, hname ▸ hkept⟩

end Catalog
end FxStack
