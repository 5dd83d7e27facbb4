import FxStack.Proofs.Frame.Alternation
import FxStack.Proofs.Frame.Bindings

/-! What the draws of passes sample. How a texture is sampled is a state of the texture, and a slot whose
    declaration asks for a sampling of its own sets it for all. So each draw samples a texture as the last such
    slot has asked, be it one of this draw or of one before. Main statement: `Stack.sampling_issued`. -/

namespace FxStack

/-! ### Sampling under the operations -/

namespace ReferenceDevice
variable {d d' : ReferenceDevice} {resolve : Resolver} {t : TextureId}

/-- How a texture is sampled; one that is not live, as it will be at first. -/
def samplerOf (d : ReferenceDevice) (t : TextureId) : Sampler := (d.sampler? t).getD .initial

/-- All textures are sampled as before, and none is lost. -/
structure KeepsSampling (d d' : ReferenceDevice) : Prop where
  samplerOf : ∀ t, d'.samplerOf t = d.samplerOf t
  live : ∀ t, (d.texture? t).isSome → (d'.texture? t).isSome
  placeholder : d'.placeholder = d.placeholder

namespace KeepsSampling

theorem refl (d : ReferenceDevice) : KeepsSampling d d := ⟨fun _ => rfl, fun _ h => h, rfl⟩

theorem trans {d'' : ReferenceDevice} (h : KeepsSampling d d') (h' : KeepsSampling d' d'') : KeepsSampling d d'' :=
  ⟨fun t => (h'.samplerOf t).trans (h.samplerOf t), fun t ht => h'.live t (h.live t ht),
    h'.placeholder.trans h.placeholder⟩

theorem of_eq (ht : d'.textures = d.textures) (hp : d'.placeholder = d.placeholder) : KeepsSampling d d' := by
  have htexture : ∀ t, d'.texture? t = d.texture? t := fun t => congrArg (List.lookup t) ht
  exact ⟨fun t => by simp [ReferenceDevice.samplerOf, sampler?, htexture], fun t h => htexture t ▸ h, hp⟩

theorem addTexture {x : Texture} (hx : x.sampler = .initial) : KeepsSampling d (d.addTexture x).2 := by
  refine ⟨fun t => ?_, fun t ht => ?_, rfl⟩
  · simp only [ReferenceDevice.samplerOf, sampler?, texture?_addTexture]
    cases d.texture? t with
    | some y => rfl
    | none =>
      split
      · exact hx
      · rfl
  · rw [texture?_addTexture, Option.isSome_or, ht, Bool.true_or]

theorem setPixels (target : Target) (i : Image) : KeepsSampling d (d.setPixels target i) := by
  cases target with
  | display => exact .of_eq rfl rfl
  | texture t =>
    refine ⟨fun u => ?_, fun u hu => ?_, rfl⟩ <;> simp only [ReferenceDevice.setPixels]
    · simp only [ReferenceDevice.samplerOf, sampler?, texture?_updateTexture]
      cases d.texture? u <;> split <;> rfl
    · rw [texture?_updateTexture]
      split
      · rwa [Option.isSome_map]
      · exact hu

theorem write {target : Target} {source : TextureId} (h : d.write target source = .ok d') : KeepsSampling d d' := by
  obtain ⟨x, size, -, -, rfl⟩ := write_eq_ok.mp h
  exact .setPixels target _

theorem draw {call : DrawCall} {r : Except DeviceError Unit} (h : Device.draw d call = (r, d')) : KeepsSampling d d' := by
  cases r with
  | error e =>
    obtain rfl := draw_error h
    exact .refl _
  | ok =>
    obtain ⟨program, w, -, hw, rfl⟩ := draw_eq_ok.mp h
    have hwritten : KeepsSampling d w := by
      unfold writeInput at hw
      split at hw
      · exact .write hw
      · cases hw
        exact .refl _
    exact hwritten.trans (.of_eq rfl rfl)

theorem copy {source : TextureId} {target : Target} {r : Except DeviceError Unit}
    (h : Device.copy d source target = (r, d')) : KeepsSampling d d' := by
  change d.copy source target = _ at h
  unfold ReferenceDevice.copy at h
  split at h
  · cases h
    exact .refl _
  · split at h
    · cases h
      exact .refl _
    · next w hw =>
      cases h
      exact (KeepsSampling.write hw).trans (.of_eq rfl rfl)

theorem createTexture {kind : TextureKind} {r : Except DeviceError TextureId}
    (h : Device.createTexture d kind = (r, d')) : KeepsSampling d d' := by
  cases r with
  | error e =>
    obtain rfl := createTexture_error h
    exact .refl _
  | ok t =>
    obtain ⟨-, he⟩ := createTexture_eq_ok.mp h
    rw [show d' = _ from congrArg Prod.snd he]
    exact .addTexture rfl

theorem compileProgram {label source : String} {r : Except DeviceError ProgramId}
    (h : Device.compileProgram d label source = (r, d')) : KeepsSampling d d' := by
  change d.compileProgram label source = _ at h
  unfold ReferenceDevice.compileProgram at h
  split at h <;> cases h
  · exact .refl _
  · exact .of_eq rfl rfl

theorem run {op : DeviceOp} (h : op.SparesSampling) (d : ReferenceDevice) : KeepsSampling d (op.run d) := by
  cases op with
  | compileProgram label source => exact .compileProgram rfl
  | deleteProgram p => exact .of_eq rfl rfl
  | createTexture kind => exact .createTexture rfl
  | setFixedFunction state => exact .of_eq rfl rfl
  | draw call => exact .draw rfl
  | copy source target => exact .copy rfl
  | destroyTexture | placeholderTexture | setSampler => exact h.elim

theorem of_reaches (h : Device.Reaches DeviceOp.SparesSampling d d') : KeepsSampling d d' :=
  h.keeps (.refl d) fun _ e hop hd => hd.trans (.run hop e)

end KeepsSampling

/-! ### Settled textures -/

/-- The texture is live, or no draw of slots gets to it before it has been created as the placeholder. -/
def Settled (d : ReferenceDevice) (resolve : Resolver) (t : TextureId) : Prop :=
  (d.texture? t).isSome ∨ d.placeholder ≠ some t ∧ ∀ name, resolve name ≠ some t

theorem Settled.mono (h : d.Settled resolve t) (hd : KeepsSampling d d') : d'.Settled resolve t := by
  rcases h with live | ⟨hplaceholder, hresolve⟩
  · exact Or.inl (hd.live t live)
  · exact Or.inr ⟨hd.placeholder ▸ hplaceholder, hresolve⟩

/-- The placeholder is sampled as it was, or as a new texture. -/
theorem Settled.placeholderTexture (h : d.Settled resolve t) :
    (Device.placeholderTexture d).2.Settled resolve t ∧
      (Device.placeholderTexture d).2.samplerOf t = d.samplerOf t := by
  have hdevice : (Device.placeholderTexture d).2 = d.placeholderTexture.2 := rfl
  rw [hdevice]
  unfold ReferenceDevice.placeholderTexture
  split
  · exact ⟨h, rfl⟩
  · have added : KeepsSampling d (d.upload (.solid 1 1 .white)).2 := .addTexture rfl
    refine ⟨?_, added.samplerOf t⟩
    by_cases hlive : ((d.upload (.solid 1 1 .white)).2.texture? t).isSome
    · exact Or.inl hlive
    · rcases h with live | ⟨-, hresolve⟩
      · exact absurd (added.live t live) hlive
      · refine Or.inr ⟨fun hnew => hlive ?_, hresolve⟩
        obtain rfl : (⟨d.nextNumber⟩ : TextureId) = t := Option.some.inj hnew
        simp [upload, texture?_addTexture]

theorem Settled.setSampler (h : d.Settled resolve t) (u : TextureId) (sampler : Sampler) :
    (Device.setSampler d u sampler).Settled resolve t := by
  rcases h with live | hidle
  · refine Or.inl ?_
    rw [texture?_setSampler]
    split
    · rwa [Option.isSome_map]
    · exact live
  · exact Or.inr hidle

theorem samplerOf_setSampler (h : (d.texture? t).isSome) (sampler : Sampler) :
    (Device.setSampler d t sampler).samplerOf t = sampler := by
  obtain ⟨x, hx⟩ := Option.isSome_iff_exists.mp h
  simp [samplerOf, sampler?, texture?_setSampler, hx]

theorem samplerOf_setSampler_ne {u : TextureId} (h : t ≠ u) (sampler : Sampler) :
    (Device.setSampler d u sampler).samplerOf t = d.samplerOf t := by
  simp [samplerOf, sampler?, texture?_setSampler, h]

end ReferenceDevice

/-! ### Gathering -/

theorem Member.device_findTexture (resolve : Resolver) (uniform : String) (v : Value) (g : Gathering ReferenceDevice) :
    (findTexture resolve uniform v g).2.device = g.device ∨
      (findTexture resolve uniform v g).2.device = (Device.placeholderTexture g.device).2 := by
  unfold findTexture
  dsimp only
  split
  · exact Or.inl rfl
  · refine Or.inr ?_
    cases v.textureName? <;> rfl

theorem getLastD_append {α : Type} (l l' : List α) (a : α) : (l ++ l').getLastD a = l'.getLastD (l.getLastD a) := by
  simp [List.getLastD_eq_getLast?, List.getLast?_append, Option.getD_or]

theorem getLastD_of_forall {α : Type} {l : List α} {a : α} (ha : a ∈ l) (h : ∀ b ∈ l, b = a) (c : α) : l.getLastD c = a := by
  obtain ⟨l', b, rfl⟩ := l.eq_nil_or_concat'.resolve_left (List.ne_nil_of_mem ha)
  rw [List.getLastD_concat]
  exact h b (by simp)

namespace Slot

/-- The sampling that the slot asks of the texture `t`, if it is bound to it. -/
def asked (s : Slot) (t : TextureId) : Binding → Option Sampler
  | .sampler _ u => if u = t ∧ s.spec.overridesSampling then some s.spec.sampling else none
  | _ => none

/-- What the slots ask of the texture `t`, one after the other. -/
def asks (t : TextureId) (slots : List Slot) (bs : List NamedBinding) : List Sampler :=
  (slots.zip bs).filterMap fun e => e.1.asked t e.2.2

section
variable (s : Slot) (entries : List Entry) (resolve : Resolver)

/-- A slot that is bound leaves all settled textures sampled as before, but for what it asks itself. -/
theorem samples_gather (g : Gathering ReferenceDevice) :
    ∃ b, (s.gather entries resolve g).bindings = g.bindings ++ [(s.name, b)] ∧
      ∀ t, g.device.Settled resolve t → (s.gather entries resolve g).device.Settled resolve t ∧
        (s.gather entries resolve g).device.samplerOf t = (s.asked t b).getD (g.device.samplerOf t) := by
  have hvalue : (s.member.valueOf (s.member.currentEntry? entries) s.key s.spec).1 = s.value entries :=
    s.member.valueOf_fst _ s.key s.spec
  obtain ⟨h, hh⟩ : ∃ h, Option.elim (s.member.valueOf (s.member.currentEntry? entries) s.key s.spec).2 g g.note = h :=
    ⟨_, rfl⟩
  have hnoted : h.device = g.device ∧ h.bindings = g.bindings := by
    rw [← hh]
    cases (s.member.valueOf (s.member.currentEntry? entries) s.key s.spec).2 <;> exact ⟨rfl, rfl⟩
  unfold gather Member.gatherUniform
  simp only [hvalue, hh]
  rw [← hnoted.1, ← hnoted.2]
  cases hs : s.spec.type.isSampler with
  | false =>
    have hplain : (s.value entries).type.isSampler = false := by rw [type_value, hs]
    obtain ⟨b, hb⟩ := Option.isSome_iff_exists.mp (Binding.isSome_ofValue? hplain)
    simp only [hb, Bool.false_eq_true, if_false]
    refine ⟨b, rfl, fun t ht => ⟨ht, ?_⟩⟩
    cases hv : s.value entries <;> rw [hv] at hb <;> cases hb <;> rfl
  | true =>
    obtain ⟨t, g', hfind, htexture, -, hbindings, -⟩ := Member.findTexture_eq resolve s.name (s.value entries) h
    have hdevice := Member.device_findTexture resolve s.name (s.value entries) h
    have hfind' : Member.findTexture resolve (s.spec.nameAt s.member.index) (s.value entries) h = (some t, g') := hfind
    rw [hfind] at hdevice
    have found : ∀ u, h.device.Settled resolve u →
        g'.device.Settled resolve u ∧ g'.device.samplerOf u = h.device.samplerOf u := by
      rcases hdevice with hd | hd <;> dsimp only at hd <;> rw [hd]
      · exact fun u hu => ⟨hu, rfl⟩
      · exact fun u hu => hu.placeholderTexture
    -- What a slot is bound to is not idle, so it is live if it is settled.
    have live : g'.device.Settled resolve t → (g'.device.texture? t).isSome := by
      rintro (live | ⟨hplaceholder, hresolve⟩)
      · exact live
      · rcases Option.or_eq_some_iff.mp htexture with hname | ⟨-, hplaceholder'⟩
        · obtain ⟨name, -, hname⟩ := Option.bind_eq_some_iff.mp hname
          exact absurd hname (hresolve name)
        · exact absurd hplaceholder' hplaceholder
    simp only [hfind', if_true]
    refine ⟨.sampler g'.unit t, by simp only [Member.bindTexture, Gathering.bind, hbindings]; rfl, fun u hu => ?_⟩
    obtain ⟨settled, hsampler⟩ := found u hu
    unfold Member.bindTexture Gathering.bind asked
    dsimp only
    cases hasks : s.spec.overridesSampling with
    | false => simpa using ⟨settled, hsampler⟩
    | true =>
      refine ⟨settled.setSampler t _, ?_⟩
      by_cases htu : t = u
      · subst htu
        simp [ReferenceDevice.samplerOf_setSampler (live settled)]
      · simp [htu, ReferenceDevice.samplerOf_setSampler_ne (Ne.symm htu), hsampler]

theorem samples_foldl {t : TextureId} (slots : List Slot) :
    ∀ g : Gathering ReferenceDevice, g.device.Settled resolve t →
      let g' := slots.foldl (fun g s => s.gather entries resolve g) g
      ∃ bs, g'.bindings = g.bindings ++ bs ∧ g'.device.Settled resolve t ∧
        g'.device.samplerOf t = (asks t slots bs).getLastD (g.device.samplerOf t) := by
  induction slots with
  | nil => exact fun g hg => ⟨[], by simp, hg, rfl⟩
  | cons s slots ih =>
    intro g hg
    obtain ⟨b, hb, hfirst⟩ := s.samples_gather entries resolve g
    obtain ⟨settled, hsampler⟩ := hfirst t hg
    obtain ⟨bs, hbs, hrest, hlast⟩ := ih _ settled
    refine ⟨(s.name, b) :: bs, by rw [List.foldl_cons, hbs, hb, List.append_assoc, List.singleton_append], hrest, ?_⟩
    rw [List.foldl_cons, hlast, hsampler]
    unfold asks
    rw [List.zip_cons_cons, List.filterMap_cons]
    cases s.asked t b with
    | none => rfl
    | some m => exact (List.getLastD_cons ..).symm

end

end Slot

/-! ### Drawing -/

namespace IssuedDraw
variable {δ : Type} [Device δ]

/-- What has been gathered for the draw. -/
def gathered (x : IssuedDraw δ) (resolve : Resolver) (entries : List Entry) : Gathering δ :=
  x.pass.gather resolve entries x.frame.device

/-- What the slots of the draw ask of the texture `t`. -/
def asks (x : IssuedDraw δ) (t : TextureId) (resolve : Resolver) (entries : List Entry) : List Sampler :=
  Slot.asks t x.pass.slots (x.gathered resolve entries).bindings

end IssuedDraw

/-- Gathering for a pass leaves a texture sampled as the last slot has asked. -/
theorem Pass.samples_gather (p : Pass) (resolve : Resolver) (entries : List Entry) {d : ReferenceDevice} {t : TextureId}
    (h : d.Settled resolve t) :
    (p.gather resolve entries d).device.Settled resolve t ∧
      (p.gather resolve entries d).device.samplerOf t =
        (Slot.asks t p.slots (p.gather resolve entries d).bindings).getLastD (d.samplerOf t) := by
  obtain ⟨bs, hbs, settled, hsampler⟩ := Slot.samples_foldl entries resolve p.slots (.start d) h
  rw [← p.gather_eq_foldl resolve entries d] at hbs settled hsampler
  obtain rfl : (p.gather resolve entries d).bindings = bs := hbs
  exact ⟨settled, hsampler⟩

namespace FrameContext
variable (c : FrameContext)

/-- A draw samples a texture as the last slot of the draws so far has asked, or else as the frame did. -/
theorem samples_issued {t : TextureId} (ps : List Pass) : ∀ {index : Nat} {f : Frame ReferenceDevice} {i : Nat}
    {x : IssuedDraw ReferenceDevice}, f.device.Settled c.resolve t → (c.issued index f ps)[i]? = some x →
    (x.gathered c.resolve c.entries).device.samplerOf t =
      (((c.issued index f ps).take (i + 1)).flatMap (·.asks t c.resolve c.entries)).getLastD (f.device.samplerOf t) := by
  induction ps with
  | nil => exact fun _ hx => by simp [issued] at hx
  | cons p ps ih =>
    intro index f i x settled hx
    obtain ⟨settled', hsampler⟩ := p.samples_gather c.resolve c.entries settled
    unfold issued at hx ⊢
    split at hx
    · simp at hx
    · next program hp =>
      cases i with
      | zero =>
        obtain rfl := Option.some.inj hx
        simpa [IssuedDraw.asks, IssuedDraw.gathered] using hsampler
      | succ i =>
        rw [List.getElem?_cons_succ] at hx
        split at hx
        · next g hg =>
          obtain ⟨_, -, hdraw, -⟩ := c.runPass_drawn hg
          have drawn := ReferenceDevice.KeepsSampling.draw hdraw
          rw [ih (settled'.mono drawn) hx, drawn.samplerOf, hsampler, List.take_succ_cons, List.flatMap_cons,
            getLastD_append]
          rfl
        · simp at hx

end FrameContext

/-! ### Over a whole application -/

namespace Stack

/-- Until the first pass is drawn all textures are sampled as before. -/
theorem issued_keepsSampling (s : Stack) (catalog : Catalog) (device : ReferenceDevice) (pool : ScratchPool)
    (resolve : Resolver) (input : FrameInput) : s.issued catalog device pool resolve input = [] ∨
      ∃ (c : FrameContext) (f : Frame ReferenceDevice) (ps : List Pass), c.entries = s.entries ∧ c.resolve = resolve ∧
        ReferenceDevice.KeepsSampling device f.device ∧ s.issued catalog device pool resolve input = c.issued 0 f ps := by
  have prepared := ReferenceDevice.KeepsSampling.of_reaches
    ((s.course_prepare catalog device pool).reaches.mono fun _ prepares => prepares.sampling)
  cases hkind : Device.textureKind? device input.source with
  | none =>
    refine Or.inl ?_
    unfold issued
    rw [hkind]
  | some kind =>
    rw [issued_of_live hkind]
    rcases hpair : (s.prepare catalog device pool).pool.acquirePair (s.prepare catalog device pool).device
      (kind.resized (frameSize device input kind)) with ⟨e | pair, pool', d, ns⟩
    · exact Or.inl (Application.issued_of_noScratch hpair)
    · have asked := ((s.prepare catalog device pool).pool.course_acquirePair (s.prepare catalog device pool).device
        (kind.resized (frameSize device input kind)) []).reaches
      rw [hpair] at asked
      have borrowed := ReferenceDevice.KeepsSampling.of_reaches (asked.mono fun _ creates => creates.spares.2)
      rcases hcopy : Device.copy d input.source (.texture pair.1) with ⟨e | _, d'⟩
      · exact Or.inl (Application.issued_of_copyFailed hpair hcopy)
      · exact Or.inr ⟨_, _, _, entries_prepare s catalog device pool, rfl,
          (prepared.trans borrowed).trans (.copy hcopy), Application.issued_of_borrowed hpair hcopy⟩

variable {s : Stack} {catalog : Catalog} {device : ReferenceDevice} {pool : ScratchPool} {resolve : Resolver}
  {input : FrameInput}

/-- At a draw, the texture of a slot is sampled as the last of the slots so far has asked that are bound to it, in
    this draw or in one before, and as it was before the application if none has asked. So a slot sees the sampling
    that its declaration asks for where the slots of its own draw agree on it. One that asks for nothing sees what
    the texture had before only where no other slot has asked. -/
theorem sampling_issued {i : Nat} {x : IssuedDraw ReferenceDevice}
    (hx : (s.issued catalog device pool resolve input)[i]? = some x) {u : Slot} (hu : u ∈ x.pass.slots)
    (hs : u.spec.type = .sampler2D) :
    let drawn := (s.issued catalog device pool resolve input).take (i + 1)
    ∃ unit t, (u.name, .sampler unit t) ∈ x.call.uniforms ∧
      ∀ y, (x.gathered resolve s.entries).device.texture? t = some y → device.Settled resolve t →
        y.sampler = (drawn.flatMap (·.asks t resolve s.entries)).getLastD (device.samplerOf t) ∧
          (u.spec.overridesSampling = true → (∀ m ∈ x.asks t resolve s.entries, m = u.spec.sampling) →
            y.sampler = u.spec.sampling) ∧
          (u.spec.overridesSampling = false → (∀ z ∈ drawn, z.asks t resolve s.entries = []) →
            y.sampler = device.samplerOf t) := by
  intro drawn
  obtain ⟨_, -, -, -, hcall⟩ := of_mem_issued (List.mem_of_getElem? hx)
  obtain ⟨gathered, -⟩ := x.pass.gathers_slots resolve s.entries x.frame.device
  obtain ⟨j, hj⟩ := List.getElem?_of_mem hu
  obtain ⟨b, hb, bound⟩ := gathered.getElem? hj
  obtain ⟨t, rfl, -⟩ := bound.texture (by simp [Slot.isSampler, ShaderType.isSampler, hs])
  refine ⟨GlobalUniform.firstEffectUnit + (x.pass.slots.take j).countP Slot.isSampler, t, ?_, fun y hy settled => ?_⟩
  · rw [hcall]
    exact List.mem_append_right _ (List.mem_of_getElem? hb)
  have hsampler : (x.gathered resolve s.entries).device.samplerOf t = y.sampler := by
    simp [ReferenceDevice.samplerOf, ReferenceDevice.sampler?, hy]
  have hlast : y.sampler = (drawn.flatMap (·.asks t resolve s.entries)).getLastD (device.samplerOf t) := by
    rcases issued_keepsSampling s catalog device pool resolve input with hnil | ⟨c, f, ps, hc, rfl, kept, hissued⟩
    · rw [hnil] at hx
      simp at hx
    · rw [hissued] at hx
      rw [← hsampler, ← kept.samplerOf, ← hc, c.samples_issued ps (settled.mono kept) hx, ← hissued]
  refine ⟨hlast, fun hasks hagree => ?_, fun _ hnone => ?_⟩
  · have bind : (u, u.name, _) ∈ x.pass.slots.zip (x.gathered resolve s.entries).bindings :=
      List.mem_of_getElem? (List.getElem?_zip_eq_some.mpr ⟨hj, hb⟩)
    have own : u.spec.sampling ∈ x.asks t resolve s.entries :=
      List.mem_filterMap.mpr ⟨_, bind, by simp [Slot.asked, hasks]⟩
    rw [hlast, show drawn = _ from List.take_add_one, hx, List.flatMap_append, getLastD_append]
    simpa using getLastD_of_forall own hagree _
  · rw [hlast, List.flatMap_eq_nil_iff.mpr hnone]
    rfl

end Stack

/-! ### Two effects with one texture -/

/-- A device that takes every program for `p`, and shows nothing. -/
@[reducible] def Device.handing (p : ProgramId) : Device Unit :=
  { Device.accepting with compileProgram := fun _ _ _ => (.ok p, ()) }

/-- An effect with a texture, which starts a pass. -/
def Effect.grain (nearest : Bool) : Effect :=
  { Effect.ofCode .empty with
    uniforms := .ofList
      [("map", { Uniform.plain "u_map" .sampler2D with defaultValue := some (.texture "grain"), nearest })]
    breaksPass := true }

/-- A catalog with two effects, of which one asks to sample the texture without interpolation. -/
def Catalog.grained : Catalog :=
  { Catalog.empty ⟨0⟩ with
    effects := .ofList [("sharp", (Effect.grain true).named "sharp"), ("soft", (Effect.grain false).named "soft")]
    generation := 2 }

/-- A device with two textures and a program. -/
def ReferenceDevice.sheet : ReferenceDevice := (Device.compileProgram Rig.pair.device "own" "void main()").2

namespace Stack

def grains : Resolver := fun name => if name = "grain" then some ⟨2⟩ else none

/-- A stack of the two effects, compiled to two passes with the program of the device. -/
def grained : Stack :=
  (@compile Unit (Device.handing ⟨3⟩) (((new (.fixed (.zero, .zero))).add "sharp").2.add "soft").2 Catalog.grained ()).1

/-- The draws of the two passes. -/
def grainedDraws : List (IssuedDraw ReferenceDevice) :=
  grained.issued Catalog.grained ReferenceDevice.sheet .empty grains ⟨⟨1⟩, none, none⟩

theorem sampling_issued_grained :
    grainedDraws.flatMap (·.asks ⟨2⟩ grains grained.entries) = [⟨.nearest, .repeated⟩] ∧
      ∃ x u, grainedDraws[1]? = some x ∧ u ∈ x.pass.slots ∧ u.spec.type = .sampler2D ∧
        ∃ unit t, (u.name, .sampler unit t) ∈ x.call.uniforms ∧
          ∀ y, (x.gathered grains grained.entries).device.texture? t = some y →
            ReferenceDevice.sheet.Settled grains t →
              y.sampler = ((grainedDraws.take 2).flatMap (·.asks t grains grained.entries)).getLastD
                (ReferenceDevice.sheet.samplerOf t) := by
  obtain ⟨x, hx, u, hu, hs⟩ : ∃ x, grainedDraws[1]? = some x ∧ ∃ u, u ∈ x.pass.slots ∧ u.spec.type = .sampler2D := by
    refine ⟨_, rfl, ?_⟩
    exact ⟨_, List.mem_cons_self, rfl⟩
  obtain ⟨unit, t, hbound, hsampler⟩ := sampling_issued hx hu hs
  exact ⟨rfl, x, u, hx, hu, hs, unit, t, hbound, fun y hy settled => (hsampler y hy settled).1⟩

/-- The second effect asks for no sampling of its own, and sees that of the first. -/
theorem sampling_leaks :
    ReferenceDevice.sheet.sampler? ⟨2⟩ = some .initial ∧
      ∃ x u, grainedDraws[1]? = some x ∧ u ∈ x.pass.slots ∧ u.spec.overridesSampling = false ∧
        (u.name, .sampler 2 ⟨2⟩) ∈ x.call.uniforms ∧
        (x.gathered grains grained.entries).device.sampler? ⟨2⟩ = some ⟨.nearest, .repeated⟩ := by
  refine ⟨rfl, _, ⟨⟨1, ⟨2⟩, (Effect.grain false).named "soft"⟩, "map", _⟩, rfl, List.mem_cons_self, rfl, ?_, rfl⟩
  exact List.mem_append_right _ List.mem_cons_self

end Stack
end FxStack
