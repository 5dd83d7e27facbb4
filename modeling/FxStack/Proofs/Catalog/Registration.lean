import FxStack.Catalog.Builtin
import FxStack.Proofs.Lookup

/-! What registration leaves in a catalog. Validation accepts exactly the effects with a well-formed
    schema, and every effect of a catalog made by the operations of `FxStack.Catalog` is such an effect
    under its own name. Operations only ever raise the generation, and one that does not leaves the
    catalog as it was. -/

namespace FxStack

/-! ### Valid effects -/

/-- What validation asks of the schema of an effect. -/
structure Effect.Valid (e : Effect) : Prop where
  keys : ∀ u ∈ e.uniforms.toList, u.1 ≠ Wording.entryNameKey
  identifiers : ∀ u ∈ e.uniforms.toList, isIdentifier u.2.baseName = true
  digits : ∀ u ∈ e.uniforms.toList, endsWithDigit u.2.baseName = false
  defaults : ∀ u ∈ e.uniforms.toList, ∀ v, u.2.defaultValue = some v → (v.coerce u.2.type).isSome
  distinct : (e.uniforms.toList.map (·.2.baseName)).Nodup

namespace Effect

theorem uniformFault?_eq_none {seen : List String} {key : String} {spec : Uniform} :
    uniformFault? seen key spec = none ↔ key ≠ Wording.entryNameKey ∧ spec.baseName ∉ seen ∧
      isIdentifier spec.baseName = true ∧ endsWithDigit spec.baseName = false ∧
      ∀ v, spec.defaultValue = some v → (v.coerce spec.type).isSome := by
  unfold uniformFault?
  by_cases hk : key = Wording.entryNameKey
  · simp [hk]
  by_cases hs : spec.baseName ∈ seen
  · simp [hk, hs]
  cases hi : isIdentifier spec.baseName
  · simp [hk, hs]
  cases hd : endsWithDigit spec.baseName
  · cases spec.defaultValue with
    | none => simp [hk, hs]
    | some v => cases hv : v.coerce spec.type <;> simp [hk, hs, hv]
  · simp [hk, hs]

/-- The names `seen` are those of the uniforms before: none may come again. -/
theorem validateUniforms_eq_ok {us : List (String × Uniform)} :
    ∀ {seen : List String}, validateUniforms seen us = .ok () ↔
      (∀ u ∈ us, u.1 ≠ Wording.entryNameKey ∧ u.2.baseName ∉ seen ∧ isIdentifier u.2.baseName = true ∧
        endsWithDigit u.2.baseName = false ∧
        ∀ v, u.2.defaultValue = some v → (v.coerce u.2.type).isSome) ∧
      (us.map (·.2.baseName)).Nodup := by
  induction us with
  | nil => simp [validateUniforms]
  | cons u us ih =>
    intro seen
    obtain ⟨key, spec⟩ := u
    unfold validateUniforms
    cases hf : uniformFault? seen key spec with
    | some fault =>
      have hne : ¬uniformFault? seen key spec = none := by simp [hf]
      rw [uniformFault?_eq_none] at hne
      simp only [reduceCtorEq, false_iff, not_and]
      intro h
      exact absurd (h _ List.mem_cons_self) hne
    | none =>
      have hok := uniformFault?_eq_none.mp hf
      simp only [ih, List.map_cons, List.nodup_cons, List.mem_map, not_exists, not_and, List.mem_cons]
      constructor
      · rintro ⟨h, hn⟩
        refine ⟨fun v hv => ?_, fun v hv heq => (h v hv).2.1 (Or.inl heq), hn⟩
        rcases hv with rfl | hv
        · exact hok
        · obtain ⟨h1, h2, h3⟩ := h v hv
          exact ⟨h1, fun hm => h2 (Or.inr hm), h3⟩
      · rintro ⟨h, hfresh, hn⟩
        refine ⟨fun v hv => ?_, hn⟩
        obtain ⟨h1, h2, h3⟩ := h v (Or.inr hv)
        refine ⟨h1, ?_, h3⟩
        rintro (heq | hm)
        · exact hfresh v hv heq
        · exact h2 hm

theorem validate_eq_ok {e : Effect} : e.validate = .ok () ↔ e.Valid := by
  unfold validate
  rw [validateUniforms_eq_ok]
  constructor
  · rintro ⟨h, hn⟩
    exact ⟨fun u hu => (h u hu).1, fun u hu => (h u hu).2.2.1, fun u hu => (h u hu).2.2.2.1,
      fun u hu => (h u hu).2.2.2.2, hn⟩
  · intro h
    exact ⟨fun u hu => ⟨h.keys u hu, List.not_mem_nil, h.identifiers u hu, h.digits u hu, h.defaults u hu⟩,
      h.distinct⟩

theorem Valid.named {e : Effect} (h : e.Valid) (name : String) : (e.named name).Valid :=
  ⟨h.keys, h.identifiers, h.digits, h.defaults, h.distinct⟩

end Effect

/-! ### Registering -/

namespace Catalog
variable {c c' : Catalog}

theorem register_eq_ok {name : String} {e : Effect} {old : Option Effect} :
    c.register name e = .ok (old, c') ↔ e.Valid ∧ old = c.effect? name ∧
      c' = { c with effects := c.effects.insert name (e.named name), generation := c.generation + 1 } := by
  rw [← Effect.validate_eq_ok]
  unfold register
  cases he : e.validate with
  | error fault => simp [bind, Except.bind]
  | ok =>
    simp only [bind, Except.bind, pure, Except.pure, Except.ok.injEq, Prod.mk.injEq, true_and]
    exact ⟨fun ⟨h1, h2⟩ => ⟨h1.symm, h2.symm⟩, fun ⟨h1, h2⟩ => ⟨h1.symm, h2.symm⟩⟩

/-- Effects are kept under their own name and have a valid schema. -/
def Sound (c : Catalog) : Prop := ∀ name e, c.effect? name = some e → e.Valid ∧ e.name = name

/-- The catalog is the same one, and only its generation tells whether anything was registered. -/
def Grows (c c' : Catalog) : Prop := c'.id = c.id ∧ (c' = c ∨ c.generation < c'.generation)

theorem Grows.refl (c : Catalog) : Grows c c := ⟨rfl, Or.inl rfl⟩

theorem Grows.trans {c'' : Catalog} (h : Grows c c') (h' : Grows c' c'') : Grows c c'' := by
  refine ⟨h'.1.trans h.1, ?_⟩
  rcases h.2 with rfl | hlt
  · exact h'.2
  · rcases h'.2 with rfl | hlt'
    · exact Or.inr hlt
    · exact Or.inr (Nat.lt_trans hlt hlt')

theorem Grows.registerFunction (c : Catalog) (name body : String) : Grows c (c.registerFunction name body) :=
  ⟨rfl, Or.inr (Nat.lt_succ_self _)⟩

theorem Grows.register {name : String} {e : Effect} {old : Option Effect}
    (h : c.register name e = .ok (old, c')) : Grows c c' := by
  obtain ⟨-, -, rfl⟩ := register_eq_ok.mp h
  exact ⟨rfl, Or.inr (Nat.lt_succ_self _)⟩

/-- Every effect is one that was valid, named for the place where it is kept. -/
def Registered (c : Catalog) : Prop := ∀ name e, c.effect? name = some e → ∃ d : Effect, d.Valid ∧ e = d.named name

theorem Registered.sound (h : c.Registered) : c.Sound := by
  intro name e he
  obtain ⟨d, hd, rfl⟩ := h name e he
  exact ⟨hd.named name, rfl⟩

theorem Registered.empty (id : CatalogId) : (Catalog.empty id).Registered := fun name e h => by
  simp [effect?, Catalog.empty] at h

theorem Registered.registerFunction (h : c.Registered) (name body : String) :
    (c.registerFunction name body).Registered := h

theorem Registered.register (h : c.Registered) {name : String} {e : Effect} {old : Option Effect}
    (hr : c.register name e = .ok (old, c')) : c'.Registered := by
  obtain ⟨hv, -, rfl⟩ := register_eq_ok.mp hr
  intro n x hx
  simp only [effect?, KeyMap.get?_insert] at hx
  by_cases hn : n = name
  · simp only [hn, if_true, Option.some.injEq] at hx
    exact ⟨e, hv, by rw [hn, hx]⟩
  · simp only [hn, if_false] at hx
    exact h n x hx

/-! ### Extending -/

theorem map_register_eq_ok {name : String} {e : Effect} (h : (c.register name e).map (·.2) = .ok c') :
    ∃ old, c.register name e = .ok (old, c') := by
  cases hr : c.register name e with
  | error fault => simp [hr, Except.map] at h
  | ok r =>
    simp only [hr, Except.map, Except.ok.injEq] at h
    exact ⟨r.1, by rw [← h]⟩

theorem foldl_registerFunction_induction {P : Catalog → Prop}
    (hf : ∀ c name body, P c → P (c.registerFunction name body)) (fs : List (String × String)) :
    ∀ {c : Catalog}, P c → P (fs.foldl (fun c f => c.registerFunction f.1 f.2) c) := by
  induction fs with
  | nil => exact fun h => h
  | cons f fs ih => exact fun hc => ih (hf _ f.1 f.2 hc)

theorem foldlM_register_induction {P : Catalog → Prop} (es : List (String × Effect))
    (he : ∀ c c', ∀ e ∈ es, ∀ old, P c → c.register e.1 e.2 = .ok (old, c') → P c') :
    ∀ {c : Catalog}, P c → es.foldlM (fun c e => (c.register e.1 e.2).map (·.2)) c = .ok c' → P c' := by
  induction es with
  | nil =>
    intro c hc h
    cases h
    exact hc
  | cons e es ih =>
    intro c hc h
    simp only [List.foldlM_cons, bind, Except.bind] at h
    split at h
    · cases h
    · next d hd =>
      obtain ⟨old, hr⟩ := map_register_eq_ok hd
      exact ih (fun c c' x hx => he c c' x (List.mem_cons_of_mem e hx)) (he c d e List.mem_cons_self old hc hr) h

/-- What holds of a catalog and is kept by registration holds after a file has been registered. -/
theorem extendWith_induction {P : Catalog → Prop} {file : CatalogExtension} (h : c.extendWith file = .ok c')
    (h0 : P c) (hf : ∀ c name body, P c → P (c.registerFunction name body))
    (he : ∀ c c', ∀ e ∈ file.effects.toList, ∀ old, P c → c.register e.1 e.2 = .ok (old, c') → P c') : P c' := by
  unfold extendWith at h
  simp only [bind, Except.bind] at h
  split at h
  · cases h
  -- First the functions are registered one after the other, then the effects.
  have functions := foldl_registerFunction_induction hf file.functions.toList h0
  exact foldlM_register_induction file.effects.toList he functions h

theorem Grows.extendWith {file : CatalogExtension} (h : c.extendWith file = .ok c') : Grows c c' :=
  extendWith_induction (P := Grows c) h (Grows.refl c) (fun d _ _ hd => hd.trans (Grows.registerFunction d _ _))
    fun _ _ _ _ _ hd hr => hd.trans (Grows.register hr)

theorem Registered.extendWith (hc : c.Registered) {file : CatalogExtension} (h : c.extendWith file = .ok c') :
    c'.Registered :=
  extendWith_induction h hc (fun _ name body hd => hd.registerFunction name body)
    fun _ _ _ _ _ hd hr => hd.register hr

theorem extend_eq_ok {text : String} (h : c.extend text = .ok c') :
    ∃ file, CatalogExtension.ofText text = .ok file ∧ c.extendWith file = .ok c' := by
  unfold extend at h
  cases hf : CatalogExtension.ofText text with
  | error e => simp [hf, Except.mapError, bind, Except.bind] at h
  | ok file => exact ⟨file, rfl, by simpa [hf, Except.mapError, bind, Except.bind] using h⟩

/-! ### Catalogs that can be made -/

/-- The catalog is made by the operations of `FxStack.Catalog`; nothing else sees its fields. -/
inductive Built : Catalog → Prop
  | empty (id : CatalogId) : Built (Catalog.empty id)
  | copy {c : Catalog} (id : CatalogId) : Built c → Built (c.copy id)
  | extendWith {c c' : Catalog} {file : CatalogExtension} : Built c → c.extendWith file = .ok c' → Built c'
  | registerFunction {c : Catalog} (name body : String) : Built c → Built (c.registerFunction name body)
  | register {c c' : Catalog} {name : String} {e : Effect} {old : Option Effect} :
      Built c → c.register name e = .ok (old, c') → Built c'

theorem Built.extend (hc : c.Built) {text : String} (h : c.extend text = .ok c') : c'.Built := by
  obtain ⟨file, -, hfile⟩ := extend_eq_ok h
  exact .extendWith hc hfile

theorem Built.registered (h : c.Built) : c.Registered := by
  induction h with
  | empty id => exact Registered.empty id
  | copy id _ ih => exact ih
  | extendWith _ h ih => exact ih.extendWith h
  | registerFunction name body _ ih => exact ih.registerFunction name body
  | register _ h ih => exact ih.register h

theorem Built.sound (h : c.Built) : c.Sound := h.registered.sound

end Catalog

/-! ### A catalog with one effect -/

/-- An effect with a number and a texture, which starts a pass. -/
def Effect.ripple : Effect where
  name := ""
  displayName := ""
  uniforms := .ofList [("amount", .plain "u_amount" .float), ("map", .plain "u_map" .sampler2D)]
  code := .empty
  uvCode := none
  functions := ["wave"]
  breaksPass := true

theorem Effect.ripple_valid : Effect.ripple.Valid := validate_eq_ok.mp rfl

/-- The catalog of that effect alone. -/
def Catalog.rippling (id : CatalogId) : Catalog :=
  { Catalog.empty id with effects := KeyMap.empty.insert "ripple" (Effect.ripple.named "ripple"), generation := 1 }

theorem Catalog.register_ripple (id : CatalogId) :
    (Catalog.empty id).register "ripple" Effect.ripple = .ok (none, Catalog.rippling id) :=
  register_eq_ok.mpr ⟨Effect.ripple_valid, rfl, rfl⟩

theorem Catalog.rippling_built (id : CatalogId) : (Catalog.rippling id).Built :=
  .register (.empty id) (register_ripple id)

end FxStack
