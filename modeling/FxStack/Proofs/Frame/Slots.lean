import FxStack.Frame.Uniforms
import FxStack.Proofs.Device.Reference
import FxStack.Proofs.Uniform.Typing

/-! What is gathered for the draw of a pass on the reference device. A slot is one declared uniform of one
    member; slots are bound one after the other, and those that take a texture take the texture units in
    order. Main statement: `Pass.gathers_slots`. -/

namespace FxStack

/-! ### Slots -/

/-- A declared uniform of a member. -/
structure Slot where
  member : Member
  key : String
  spec : Uniform

def Member.slots (m : Member) : List Slot := m.effect.uniforms.toList.map fun u => ⟨m, u.1, u.2⟩

def Pass.slots (p : Pass) : List Slot := p.members.flatMap Member.slots

namespace Slot
variable (s : Slot)

/-- The name in the program of the pass. -/
def name : String := s.spec.nameAt s.member.index

def isSampler : Bool := s.spec.type.isSampler

variable (entries : List Entry)

/-- What the entry of the member has for the slot. -/
def override? : Option Value := (s.member.currentEntry? entries).bind (·.override? s.key)

/-- The override, converted to the declared type, or else what the uniform falls back to. -/
def value : Value := ((s.override? entries).bind (·.coerce s.spec.type)).getD s.spec.fallback

theorem type_value : (s.value entries).type = s.spec.type := by
  unfold value
  cases h : (s.override? entries).bind (·.coerce s.spec.type) with
  | none => exact s.spec.type_fallback
  | some v =>
    obtain ⟨w, -, hw⟩ := Option.bind_eq_some_iff.mp h
    exact Value.type_coerce hw

variable (resolve : Resolver)

/-- The texture that the value names. -/
def texture? : Option TextureId := (s.value entries).textureName?.bind resolve

/-- The name that the value gives, if nothing is known of it. -/
def missing : List String := ((s.value entries).textureName?.filter fun name => (resolve name).isNone).toList

/-- The name of the slot, if it takes a texture and there is none for it. -/
def unresolved : List String := if s.isSampler && (s.texture? entries resolve).isNone then [s.name] else []

/-- The binding is the value of the slot, or the texture for it at a texture unit. -/
structure Bound (placeholder : Option TextureId) (unit : Nat) (b : Binding) : Prop where
  type : b.type = s.spec.type
  value : s.isSampler = false → Binding.ofValue? (s.value entries) = some b
  texture : s.isSampler = true → ∃ t, b = .sampler unit t ∧ (s.texture? entries resolve).or placeholder = some t

variable {s entries resolve}

theorem Bound.mono {p q : Option TextureId} {unit : Nat} {b : Binding} (h : s.Bound entries resolve p unit b)
    (hpq : ∀ t, p = some t → q = some t) : s.Bound entries resolve q unit b := by
  refine ⟨h.type, h.value, fun hs => ?_⟩
  obtain ⟨t, hb, ht⟩ := h.texture hs
  refine ⟨t, hb, ?_⟩
  cases htexture : s.texture? entries resolve with
  | none =>
    rw [htexture] at ht
    exact hpq t ht
  | some u =>
    rw [htexture] at ht
    exact ht

theorem missing_of_not_isSampler (h : s.isSampler = false) : s.missing entries resolve = [] := by
  have htype := s.type_value entries
  unfold missing
  unfold isSampler at h
  rw [← htype] at h
  cases hv : s.value entries <;> rw [hv] at h <;> first | rfl | cases h

end Slot

/-! ### Gathering one slot -/

namespace Slot
variable (s : Slot) (entries : List Entry) (resolve : Resolver)

/-- One more slot gathered. -/
def gather {δ : Type} [Device δ] (g : Gathering δ) : Gathering δ :=
  Member.gatherUniform resolve s.member (s.member.currentEntry? entries) g (s.key, s.spec)

/-- What gathering one slot does. -/
structure Gathers (g g' : Gathering ReferenceDevice) : Prop where
  bindings : ∃ b, s.Bound entries resolve g'.device.placeholder g.unit b ∧ g'.bindings = g.bindings ++ [(s.name, b)]
  unit : g'.unit = g.unit + if s.isSampler then 1 else 0
  device : ReferenceDevice.Quiet g.device g'.device
  missingTextures : g'.missingTextures = g.missingTextures ++ s.missing entries resolve
  placeholderUniforms : g'.placeholderUniforms = g.placeholderUniforms ++ s.unresolved entries resolve

end Slot

namespace Member

theorem valueOf_fst (m : Member) (entry : Option Entry) (key : String) (spec : Uniform) :
    (m.valueOf entry key spec).1 = ((entry.bind (·.override? key)).bind (·.coerce spec.type)).getD spec.fallback := by
  unfold valueOf
  split
  · next hnone =>
    rw [hnone]
    rfl
  · next v hv =>
    rw [hv]
    dsimp only [Option.bind_some]
    split
    · next w hw =>
      rw [hw]
      rfl
    · next hnone =>
      rw [hnone]
      rfl

/-- A texture is always found: the one of the name, or the placeholder. -/
theorem findTexture_eq (resolve : Resolver) (uniform : String) (v : Value) (g : Gathering ReferenceDevice) :
    ∃ t g', findTexture resolve uniform v g = (some t, g') ∧
      (v.textureName?.bind resolve).or g'.device.placeholder = some t ∧
      g'.unit = g.unit ∧ g'.bindings = g.bindings ∧
      ReferenceDevice.Quiet g.device g'.device ∧
      g'.missingTextures =
        g.missingTextures ++ (v.textureName?.filter fun name => (resolve name).isNone).toList ∧
      g'.placeholderUniforms =
        g.placeholderUniforms ++ if (v.textureName?.bind resolve).isNone then [uniform] else [] := by
  unfold findTexture
  cases hfound : v.textureName?.bind resolve with
  | some t =>
    obtain ⟨name, hname, ht⟩ := Option.bind_eq_some_iff.mp hfound
    refine ⟨t, g, by simp only [hfound], rfl, rfl, rfl, .refl _, ?_, by simp⟩
    simp [hname, Option.filter, ht]
  | none =>
    obtain ⟨t, d, hp, hplaceholder, hquiet⟩ := ReferenceDevice.placeholderTexture_eq g.device
    cases hname : v.textureName? with
    | none =>
      refine ⟨t, { g with device := d, placeholderUniforms := g.placeholderUniforms ++ [uniform] }, ?_, hplaceholder,
        rfl, rfl, hquiet, by simp, by simp⟩
      simp only [Option.bind_none, hp]
    | some name =>
      rw [hname, Option.bind_some] at hfound
      let g' : Gathering ReferenceDevice :=
        { g with
          device := d
          missingTextures := g.missingTextures ++ [name]
          placeholderUniforms := g.placeholderUniforms ++ [uniform]
          notices := g.notices ++ [.missingTexture name] }
      refine ⟨t, g', ?_, hplaceholder, rfl, rfl, hquiet, ?_, by simp [g']⟩
      · simp only [Option.bind_some, hfound, Gathering.note, hp, g']
      · simp [g', Option.filter, hfound]

theorem quiet_bindTexture (spec : Uniform) (uniform : String) (t : TextureId) (g : Gathering ReferenceDevice) :
    ReferenceDevice.Quiet g.device (bindTexture spec uniform t g).device ∧
      (bindTexture spec uniform t g).device.placeholder = g.device.placeholder := by
  unfold bindTexture Gathering.bind
  dsimp only
  split
  · exact ⟨.setSampler g.device t spec.sampling, rfl⟩
  · exact ⟨.refl _, rfl⟩

end Member

namespace Slot
variable (s : Slot) (entries : List Entry) (resolve : Resolver)

variable {s entries resolve}

/-- Gathering goes on from what is bound, whatever has been noted. -/
theorem Gathers.of_noted {g h g' : Gathering ReferenceDevice} (n : Option Notice) (hh : n.elim g g.note = h)
    (hg : s.Gathers entries resolve h g') : s.Gathers entries resolve g g' := by
  subst hh
  cases n with
  | none => exact hg
  | some n => exact ⟨hg.bindings, hg.unit, hg.device, hg.missingTextures, hg.placeholderUniforms⟩

theorem gathers_sampler (hs : s.isSampler = true) {g g' : Gathering ReferenceDevice} {t : TextureId}
    (h : Member.findTexture resolve s.name (s.value entries) g = (some t, g')) :
    s.Gathers entries resolve g (Member.bindTexture s.spec s.name t g') := by
  obtain ⟨u, g'', hfind, htexture, hunit, hbindings, hquiet, hmissing, hunresolved⟩ :=
    Member.findTexture_eq resolve s.name (s.value entries) g
  obtain ⟨rfl, rfl⟩ : t = u ∧ g' = g'' := by simpa using h.symm.trans hfind
  obtain ⟨hsampling, hplaceholder⟩ := Member.quiet_bindTexture s.spec s.name t g'
  have htype : s.spec.type = .sampler2D := by simpa [isSampler, ShaderType.isSampler] using hs
  refine ⟨⟨.sampler g'.unit t, ⟨htype.symm, fun hf => ?_, fun _ => ⟨t, ?_, ?_⟩⟩, ?_⟩, ?_, hquiet.trans hsampling, ?_, ?_⟩
  · exact absurd (hs.symm.trans hf) (by simp)
  · rw [hunit]
  · rw [hplaceholder]
    exact htexture
  · simp only [Member.bindTexture, Gathering.bind, hbindings]
  · simp only [Member.bindTexture, Gathering.bind, hunit, hs, if_true]
  · simp only [Member.bindTexture, Gathering.bind, hmissing, missing]
  · simp only [Member.bindTexture, Gathering.bind, hunresolved, unresolved, hs, Bool.true_and, texture?]

theorem gathers_plain (hs : s.isSampler = false) {g : Gathering ReferenceDevice} {b : Binding}
    (h : Binding.ofValue? (s.value entries) = some b) : s.Gathers entries resolve g (g.bind (s.name, b)) := by
  have htype : b.type = s.spec.type := by rw [Binding.type_ofValue? h, type_value]
  refine ⟨⟨b, ⟨htype, fun _ => h, fun ht => ?_⟩, rfl⟩, ?_, .refl _, ?_, ?_⟩
  · exact absurd (hs.symm.trans ht) (by simp)
  · simp only [Gathering.bind, hs, Bool.false_eq_true, if_false, Nat.add_zero]
  · simp only [Gathering.bind, missing_of_not_isSampler hs, List.append_nil]
  · simp only [Gathering.bind, unresolved, hs, Bool.false_and, Bool.false_eq_true, if_false, List.append_nil]

variable (s entries resolve)

theorem gathers_gather (g : Gathering ReferenceDevice) : s.Gathers entries resolve g (s.gather entries resolve g) := by
  have hvalue : (s.member.valueOf (s.member.currentEntry? entries) s.key s.spec).1 = s.value entries :=
    s.member.valueOf_fst _ s.key s.spec
  obtain ⟨h, hh⟩ : ∃ h, Option.elim (s.member.valueOf (s.member.currentEntry? entries) s.key s.spec).2 g g.note = h :=
    ⟨_, rfl⟩
  refine .of_noted _ hh ?_
  unfold gather Member.gatherUniform
  simp only [hvalue, hh]
  cases hs : s.spec.type.isSampler with
  | true =>
    obtain ⟨t, g', hfind, -⟩ := Member.findTexture_eq resolve s.name (s.value entries) h
    have hfind' : Member.findTexture resolve (s.spec.nameAt s.member.index) (s.value entries) h = (some t, g') := hfind
    simp only [hfind', if_true]
    exact gathers_sampler hs hfind
  | false =>
    have hplain : (s.value entries).type.isSampler = false := by rw [type_value, hs]
    obtain ⟨b, hb⟩ := Option.isSome_iff_exists.mp (Binding.isSome_ofValue? hplain)
    simp only [hb, Bool.false_eq_true, if_false]
    exact gathers_plain hs hb

/-! ### Gathering all slots -/

/-- Slots bound one after the other, from texture unit `unit` on. -/
inductive Binds (placeholder : Option TextureId) : Nat → List Slot → List NamedBinding → Prop
  | nil (unit : Nat) : Binds placeholder unit [] []
  | cons {unit : Nat} {s : Slot} {b : Binding} {slots : List Slot} {bs : List NamedBinding} :
      s.Bound entries resolve placeholder unit b →
      Binds placeholder (unit + if s.isSampler then 1 else 0) slots bs →
      Binds placeholder unit (s :: slots) ((s.name, b) :: bs)

variable {entries resolve}

theorem Binds.mono {p q : Option TextureId} (hpq : ∀ t, p = some t → q = some t) {unit : Nat} {slots : List Slot}
    {bs : List NamedBinding} (h : Binds entries resolve p unit slots bs) : Binds entries resolve q unit slots bs := by
  induction h with
  | nil unit => exact .nil unit
  | cons hb _ ih => exact .cons (hb.mono hpq) ih

theorem Binds.map_fst {p : Option TextureId} {unit : Nat} {slots : List Slot} {bs : List NamedBinding}
    (h : Binds entries resolve p unit slots bs) : bs.map (·.1) = slots.map name := by
  induction h with
  | nil => rfl
  | cons _ _ ih => exact congrArg _ ih

/-- The unit of a slot is the number of slots before it that take one. -/
theorem Binds.getElem? {p : Option TextureId} {unit : Nat} {slots : List Slot} {bs : List NamedBinding}
    (h : Binds entries resolve p unit slots bs) : ∀ {i : Nat} {s : Slot}, slots[i]? = some s →
      ∃ b, bs[i]? = some (s.name, b) ∧
        s.Bound entries resolve p (unit + (slots.take i).countP isSampler) b := by
  induction h with
  | nil => exact fun hs => by simp at hs
  | @cons unit s b slots bs hb _ ih =>
    intro i s' hs
    cases i with
    | zero =>
      obtain rfl : s = s' := by simpa using hs
      exact ⟨b, rfl, by simpa using hb⟩
    | succ i =>
      obtain ⟨b', hb', hbound⟩ := ih (by simpa using hs)
      refine ⟨b', by simpa using hb', ?_⟩
      rw [List.take_succ_cons, List.countP_cons, Nat.add_comm (List.countP _ _), ← Nat.add_assoc]
      exact hbound

variable (entries resolve)

theorem gathers_foldl (slots : List Slot) : ∀ g : Gathering ReferenceDevice,
    let g' := slots.foldl (fun g s => s.gather entries resolve g) g
    (∃ bs, Binds entries resolve g'.device.placeholder g.unit slots bs ∧ g'.bindings = g.bindings ++ bs) ∧
      ReferenceDevice.Quiet g.device g'.device ∧
      g'.missingTextures = g.missingTextures ++ slots.flatMap (·.missing entries resolve) ∧
      g'.placeholderUniforms = g.placeholderUniforms ++ slots.flatMap (·.unresolved entries resolve) := by
  induction slots with
  | nil => exact fun g => ⟨⟨[], .nil _, by simp⟩, .refl _, by simp, by simp⟩
  | cons s slots ih =>
    intro g
    have first := s.gathers_gather entries resolve g
    obtain ⟨⟨bs, hbs, hbindings⟩, hquiet, hmissing, hplaceholders⟩ := ih (s.gather entries resolve g)
    obtain ⟨b, hb, hfirst⟩ := first.bindings
    refine ⟨⟨(s.name, b) :: bs, .cons (hb.mono hquiet.keeps.placeholder) (first.unit ▸ hbs), ?_⟩,
      first.device.trans hquiet, ?_, ?_⟩
    · rw [List.foldl_cons, hbindings, hfirst, List.append_assoc, List.singleton_append]
    · rw [List.foldl_cons, hmissing, first.missingTextures, List.flatMap_cons, List.append_assoc]
    · rw [List.foldl_cons, hplaceholders, first.placeholderUniforms, List.flatMap_cons, List.append_assoc]

end Slot

namespace Pass
variable (p : Pass) (resolve : Resolver) (entries : List Entry)

theorem gather_eq_foldl {δ : Type} [Device δ] (device : δ) :
    p.gather resolve entries device = p.slots.foldl (fun g s => s.gather entries resolve g) (.start device) := by
  unfold gather slots
  rw [List.foldl_flatMap]
  refine congrArg (fun f => p.members.foldl f (Gathering.start device)) (funext fun g => funext fun m => ?_)
  unfold Member.gather Member.slots
  rw [List.foldl_map]
  rfl

/-- A pass binds its slots in order, from the first texture unit of effects on. -/
theorem gathers_slots (device : ReferenceDevice) :
    let g := p.gather resolve entries device
    Slot.Binds entries resolve g.device.placeholder GlobalUniform.firstEffectUnit p.slots g.bindings ∧
      ReferenceDevice.Quiet device g.device ∧
      g.missingTextures = p.slots.flatMap (·.missing entries resolve) ∧
      g.placeholderUniforms = p.slots.flatMap (·.unresolved entries resolve) := by
  intro g
  have hg : g = p.slots.foldl (fun g s => s.gather entries resolve g) (.start device) :=
    p.gather_eq_foldl resolve entries device
  obtain ⟨⟨bs, hbs, hbindings⟩, hquiet, hmissing, hplaceholders⟩ :=
    Slot.gathers_foldl entries resolve p.slots (.start device)
  rw [← hg] at hbs hbindings hquiet hmissing hplaceholders
  obtain rfl : g.bindings = bs := by simpa [Gathering.start] using hbindings
  exact ⟨hbs, hquiet, by simpa [Gathering.start] using hmissing, by simpa [Gathering.start] using hplaceholders⟩

end Pass
end FxStack
