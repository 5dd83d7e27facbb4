import FxStack.Device.Reference
import FxStack.Proofs.Lookup

/-! The reference device, operation by operation. A texture keeps the kind it was made with, its pixels
    have the size of that kind, and only what is written to changes its pixels. Main definitions:
    `WellFormed`, what holds of every device, and `Keeps`, what an operation leaves as it was. -/

namespace FxStack

theorem Image.size_resample (i : Image) (f : Filter) (size : Nat × Nat) : (i.resample f size).size = size := by
  unfold resample
  split
  · assumption
  · split <;> rfl

theorem Image.resample_size (i : Image) (f : Filter) : i.resample f i.size = i := by
  unfold resample
  rw [if_pos rfl]

namespace ReferenceDevice
variable {d d' : ReferenceDevice}

/-! ### Textures under the operations -/

theorem texture?_updateTexture (d : ReferenceDevice) (t u : TextureId) (f : Texture → Texture) :
    (d.updateTexture t f).texture? u = if u = t then (d.texture? u).map f else d.texture? u :=
  lookup_map_ite t u f d.textures

theorem texture?_destroyTexture (d : ReferenceDevice) (t u : TextureId) :
    (d.destroyTexture t).texture? u = if u = t then none else d.texture? u :=
  lookup_filter_ne t u d.textures

theorem texture?_addTexture (d : ReferenceDevice) (x : Texture) (u : TextureId) :
    (d.addTexture x).2.texture? u = (d.texture? u).or (if u = ⟨d.nextNumber⟩ then some x else none) := by
  unfold addTexture texture?
  rw [List.lookup_append, lookup_cons_ite]
  rfl

/-! ### Well-formed devices -/

/-- Handles have been given out before they are used, and textures hold images of their size. -/
structure WellFormed (d : ReferenceDevice) : Prop where
  issued : ∀ t x, d.texture? t = some x → t.number < d.nextNumber
  sized : ∀ t x, d.texture? t = some x → x.pixels.size = x.kind.size

theorem WellFormed.fresh (h : d.WellFormed) : d.texture? ⟨d.nextNumber⟩ = none := by
  cases hx : d.texture? ⟨d.nextNumber⟩ with
  | none => rfl
  | some x => exact absurd (h.issued _ x hx) (Nat.lt_irrefl _)

theorem WellFormed.new (size : Nat × Nat) : (ReferenceDevice.new size).WellFormed := ⟨nofun, nofun⟩

theorem WellFormed.addTexture (h : d.WellFormed) {x : Texture} (hx : x.pixels.size = x.kind.size) :
    (d.addTexture x).2.WellFormed := by
  have found : ∀ t y, (d.addTexture x).2.texture? t = some y → d.texture? t = some y ∨ t = ⟨d.nextNumber⟩ ∧ x = y := by
    intro t y hy
    rw [texture?_addTexture] at hy
    cases ht : d.texture? t with
    | some z => exact Or.inl (by simpa [ht] using hy)
    | none => exact Or.inr (by simpa [ht] using hy)
  refine ⟨fun t y hy => ?_, fun t y hy => ?_⟩
  · rcases found t y hy with hd | ⟨rfl, -⟩
    · exact Nat.lt_succ_of_lt (h.issued t y hd)
    · exact Nat.lt_succ_self _
  · rcases found t y hy with hd | ⟨-, rfl⟩
    · exact h.sized t y hd
    · exact hx

theorem WellFormed.updateTexture (h : d.WellFormed) {t : TextureId} {f : Texture → Texture}
    (hf : ∀ x, d.texture? t = some x → (f x).pixels.size = (f x).kind.size) : (d.updateTexture t f).WellFormed := by
  refine ⟨fun u y hy => ?_, fun u y hy => ?_⟩ <;> rw [texture?_updateTexture] at hy <;> split at hy
  · obtain ⟨x, hx, -⟩ := Option.map_eq_some_iff.mp hy
    exact h.issued u x hx
  · exact h.issued u y hy
  · next hut =>
    obtain ⟨x, hx, rfl⟩ := Option.map_eq_some_iff.mp hy
    exact hf x (hut ▸ hx)
  · exact h.sized u y hy

theorem WellFormed.destroyTexture (h : d.WellFormed) (t : TextureId) : (d.destroyTexture t).WellFormed := by
  refine ⟨fun u y hy => ?_, fun u y hy => ?_⟩ <;> rw [texture?_destroyTexture] at hy <;> split at hy
  · cases hy
  · exact h.issued u y hy
  · cases hy
  · exact h.sized u y hy

/-! ### What operations leave as it was -/

/-- Textures stay with their kinds, the display with its size, the placeholder once there is one, and what
    is not written to keeps its pixels. -/
structure Keeps (written : Target → Prop) (d d' : ReferenceDevice) : Prop where
  nextNumber : d.nextNumber ≤ d'.nextNumber
  wellFormed : d.WellFormed → d'.WellFormed
  textures : ∀ t x, d.texture? t = some x →
    ∃ x', d'.texture? t = some x' ∧ x'.kind = x.kind ∧ (¬written (.texture t) → x'.pixels = x.pixels)
  display : ¬written .display → d'.display = d.display
  displaySize : d'.display.size = d.display.size
  placeholder : ∀ t, d.placeholder = some t → d'.placeholder = some t

namespace Keeps
variable {written written' : Target → Prop} {d'' : ReferenceDevice}

theorem of_eq (hn : d'.nextNumber = d.nextNumber) (ht : d'.textures = d.textures) (hd : d'.display = d.display)
    (hp : d'.placeholder = d.placeholder) : Keeps written d d' := by
  have htexture : ∀ t, d'.texture? t = d.texture? t := fun t => congrArg (List.lookup t) ht
  refine ⟨Nat.le_of_eq hn.symm, fun h => ⟨?_, ?_⟩, fun t x hx => ⟨x, ?_, rfl, fun _ => rfl⟩, fun _ => hd,
    by rw [hd], fun t h => hp.trans h⟩
  · intro t x hx
    rw [hn]
    exact h.issued t x (htexture t ▸ hx)
  · intro t x hx
    exact h.sized t x (htexture t ▸ hx)
  · rw [htexture, hx]

theorem refl (written : Target → Prop) (d : ReferenceDevice) : Keeps written d d := .of_eq rfl rfl rfl rfl

theorem trans (h : Keeps written d d') (h' : Keeps written d' d'') : Keeps written d d'' := by
  refine ⟨Nat.le_trans h.nextNumber h'.nextNumber, fun hd => h'.wellFormed (h.wellFormed hd), fun t x hx => ?_,
    fun hw => (h'.display hw).trans (h.display hw), h'.displaySize.trans h.displaySize,
    fun t ht => h'.placeholder t (h.placeholder t ht)⟩
  obtain ⟨y, hy, hkind, hpixels⟩ := h.textures t x hx
  obtain ⟨z, hz, hkind', hpixels'⟩ := h'.textures t y hy
  exact ⟨z, hz, hkind'.trans hkind, fun hw => (hpixels' hw).trans (hpixels hw)⟩

theorem mono (h : Keeps written d d') (hw : ∀ t, written t → written' t) : Keeps written' d d' := by
  refine ⟨h.nextNumber, h.wellFormed, fun t x hx => ?_, fun hn => h.display fun hd => hn (hw _ hd), h.displaySize,
    h.placeholder⟩
  obtain ⟨y, hy, hkind, hpixels⟩ := h.textures t x hx
  exact ⟨y, hy, hkind, fun hn => hpixels fun ht => hn (hw _ ht)⟩

theorem targetSize? (h : Keeps written d d') {target : Target} {size : Nat × Nat}
    (ht : d.targetSize? target = some size) : d'.targetSize? target = some size := by
  cases target with
  | display =>
    rw [← ht]
    exact congrArg some h.displaySize
  | texture t =>
    obtain ⟨x, hx, hsize⟩ := Option.map_eq_some_iff.mp ht
    obtain ⟨y, hy, hkind, -⟩ := h.textures t x hx
    simp only [ReferenceDevice.targetSize?, hy, Option.map_some, hkind, hsize]

theorem addTexture {x : Texture} (hx : x.pixels.size = x.kind.size) :
    Keeps written d (d.addTexture x).2 := by
  refine ⟨Nat.le_succ _, fun wf => wf.addTexture hx, fun t y hy => ⟨y, ?_, rfl, fun _ => rfl⟩, fun _ => rfl, rfl,
    fun _ h => h⟩
  rw [texture?_addTexture, hy]
  rfl

theorem updateTexture {t : TextureId} {f : Texture → Texture} (hk : ∀ x, (f x).kind = x.kind)
    (hs : d.WellFormed → ∀ x, d.texture? t = some x → (f x).pixels.size = x.kind.size)
    (hp : ∀ x, ¬written (.texture t) → (f x).pixels = x.pixels) : Keeps written d (d.updateTexture t f) := by
  refine ⟨Nat.le_refl _, fun wf => wf.updateTexture fun x hx => ?_, fun u x hx => ?_, fun _ => rfl, rfl, fun _ h => h⟩
  · rw [hk]
    exact hs wf x hx
  · rw [texture?_updateTexture]
    split
    · next hut =>
      subst hut
      exact ⟨f x, by rw [hx]; rfl, hk x, hp x⟩
    · exact ⟨x, hx, rfl, fun _ => rfl⟩

theorem setPixels {target : Target} {i : Image} (h : d.targetSize? target = some i.size) :
    Keeps (· = target) d (d.setPixels target i) := by
  cases target with
  | display =>
    have hsize : d.display.size = i.size := Option.some.inj h
    exact ⟨Nat.le_refl _, fun wf => ⟨wf.issued, wf.sized⟩, fun t x hx => ⟨x, hx, rfl, fun _ => rfl⟩,
      fun hn => absurd rfl hn, hsize.symm, fun _ h => h⟩
  | texture t =>
    refine Keeps.updateTexture (f := fun x => { x with pixels := i }) (fun _ => rfl) (fun _ x hx => ?_)
      fun x hn => absurd rfl hn
    rw [ReferenceDevice.targetSize?, hx] at h
    exact (Option.some.inj h).symm

end Keeps

/-! ### Images -/

/-- The image that a target shows. -/
def imageOf? (d : ReferenceDevice) : Target → Option Image
  | .display => some d.display
  | .texture t => d.pixels? t

theorem imageOf?_texture {t : TextureId} {x : Texture} (hx : d.texture? t = some x) :
    d.imageOf? (.texture t) = some x.pixels :=
  congrArg (Option.map Texture.pixels) hx

theorem imageOf?_setPixels {target : Target} {size : Nat × Nat} (h : d.targetSize? target = some size) (i : Image) :
    (d.setPixels target i).imageOf? target = some i := by
  cases target with
  | display => rfl
  | texture t =>
    obtain ⟨x, hx, -⟩ := Option.map_eq_some_iff.mp h
    simp only [imageOf?, setPixels, pixels?, texture?_updateTexture, if_true, hx, Option.map_some]

theorem Keeps.imageOf? {written : Target → Prop} (h : Keeps written d d') {target : Target} {i : Image}
    (hi : d.imageOf? target = some i) (hn : ¬written target) : d'.imageOf? target = some i := by
  cases target with
  | display =>
    rw [← hi]
    exact congrArg some (h.display hn)
  | texture t =>
    obtain ⟨x, hx, rfl⟩ := Option.map_eq_some_iff.mp hi
    obtain ⟨y, hy, -, hpixels⟩ := h.textures t x hx
    simp only [ReferenceDevice.imageOf?, pixels?, hy, Option.map_some, hpixels hn]

/-- A target of a well-formed device shows an image of its size. -/
theorem WellFormed.size_imageOf? (wf : d.WellFormed) {target : Target} {i : Image} (h : d.imageOf? target = some i) :
    d.targetSize? target = some i.size := by
  cases target with
  | display =>
    cases h
    rfl
  | texture t =>
    obtain ⟨x, hx, rfl⟩ := Option.map_eq_some_iff.mp h
    simp only [ReferenceDevice.targetSize?, hx, Option.map_some, wf.sized t x hx]

/-! ### Writing -/

theorem write_eq_ok {target : Target} {source : TextureId} :
    d.write target source = .ok d' ↔ ∃ x size, d.texture? source = some x ∧ d.targetSize? target = some size ∧
      d' = d.setPixels target (x.pixels.resample x.sampler.filter size) := by
  unfold write
  cases hx : d.texture? source with
  | none => simp
  | some x =>
    cases target with
    | display => simp [targetSize?, eq_comm]
    | texture t =>
      cases hs : d.targetSize? (.texture t) with
      | none => simp
      | some size => simp [eq_comm]

theorem Keeps.write {target : Target} {source : TextureId} (h : d.write target source = .ok d') :
    Keeps (· = target) d d' := by
  obtain ⟨x, size, -, hsize, rfl⟩ := write_eq_ok.mp h
  exact .setPixels (by rw [hsize, Image.size_resample])

/-- A target written from a live texture shows the texture at its own size. -/
theorem imageOf?_write {target : Target} {source : TextureId} {x : Texture} {size : Nat × Nat}
    (hx : d.texture? source = some x) (hsize : d.targetSize? target = some size) (h : d.write target source = .ok d') :
    d'.imageOf? target = some (x.pixels.resample x.sampler.filter size) := by
  obtain ⟨y, size', hy, hsize', rfl⟩ := write_eq_ok.mp h
  obtain rfl := Option.some.inj (hx.symm.trans hy)
  obtain rfl := Option.some.inj (hsize.symm.trans hsize')
  exact imageOf?_setPixels hsize _

/-! ### Drawing and copying -/

theorem draw_eq_ok {call : DrawCall} :
    Device.draw d call = (.ok (), d') ↔ ∃ program written, d.program? call.program = some program ∧
      d.writeInput call = .ok written ∧
      d' = { written with draws := written.draws ++ [recordOf call program.label] } := by
  have hdraw : Device.draw d call = d.draw call := rfl
  rw [hdraw]
  unfold draw
  cases d.program? call.program with
  | none => simp
  | some program =>
    cases hw : d.writeInput call with
    | error e => simp
    | ok written => simp [eq_comm]

theorem draw_error {call : DrawCall} {e : DeviceError} (h : Device.draw d call = (.error e, d')) : d' = d := by
  change d.draw call = _ at h
  unfold draw at h
  split at h
  · cases h
    rfl
  · split at h
    · cases h
      rfl
    · cases h

theorem Keeps.draw {call : DrawCall} {r : Except DeviceError Unit} (h : Device.draw d call = (r, d')) :
    Keeps (· = call.target) d d' := by
  cases r with
  | error e =>
    obtain rfl := draw_error h
    exact .refl _ _
  | ok =>
    obtain ⟨program, w, -, hw, rfl⟩ := draw_eq_ok.mp h
    have hwritten : Keeps (· = call.target) d w := by
      unfold writeInput at hw
      split at hw
      · exact .write hw
      · cases hw
        exact .refl _ _
    exact hwritten.trans (.of_eq rfl rfl rfl rfl)

/-- A draw that is made shows the texture bound to unit 0. -/
theorem imageOf?_draw {call : DrawCall} {t : TextureId} {x : Texture} {size : Nat × Nat}
    (hin : inputOf call.uniforms = some t) (hx : d.texture? t = some x) (hsize : d.targetSize? call.target = some size)
    (h : Device.draw d call = (.ok (), d')) :
    d'.imageOf? call.target = some (x.pixels.resample x.sampler.filter size) := by
  obtain ⟨program, w, -, hw, rfl⟩ := draw_eq_ok.mp h
  simp only [writeInput, hin] at hw
  have himage := imageOf?_write hx hsize hw
  cases htarget : call.target <;> rw [htarget] at himage <;> exact himage

theorem Keeps.copy {source : TextureId} {target : Target} {r : Except DeviceError Unit}
    (h : Device.copy d source target = (r, d')) : Keeps (· = target) d d' := by
  change d.copy source target = _ at h
  unfold ReferenceDevice.copy at h
  split at h
  · cases h
    exact .refl _ _
  · split at h
    · cases h
      exact .refl _ _
    · next w hw =>
      cases h
      exact (Keeps.write hw).trans (.of_eq rfl rfl rfl rfl)

/-- A copy of a live texture to a live target is always made. A texture copied to itself stays as it is,
    which is what resampling to its own size would give. -/
theorem copy_live (wf : d.WellFormed) {source : TextureId} {target : Target} {x : Texture} {size : Nat × Nat}
    (hx : d.texture? source = some x) (hsize : d.targetSize? target = some size) :
    ∃ d', Device.copy d source target = (.ok (), d') ∧
      d'.imageOf? target = some (x.pixels.resample x.sampler.filter size) := by
  have hcopy : Device.copy d source target = d.copy source target := rfl
  rw [hcopy]
  unfold ReferenceDevice.copy
  split
  · next htarget =>
    subst htarget
    simp only [targetSize?, hx, Option.map_some, Option.some.injEq] at hsize
    refine ⟨d, rfl, ?_⟩
    rw [← hsize, ← wf.sized source x hx, Image.resample_size]
    exact imageOf?_texture hx
  · have hw : d.write target source = .ok (d.setPixels target (x.pixels.resample x.sampler.filter size)) :=
      write_eq_ok.mpr ⟨x, size, hx, hsize, rfl⟩
    rw [hw]
    refine ⟨_, rfl, ?_⟩
    have himage := imageOf?_write hx hsize hw
    cases target <;> exact himage

/-! ### Operations that write nothing -/

/-- Nothing is drawn or written to. -/
structure Quiet (d d' : ReferenceDevice) : Prop where
  keeps : Keeps (fun _ => False) d d'
  draws : d'.draws = d.draws

namespace Quiet

theorem refl (d : ReferenceDevice) : Quiet d d := ⟨.refl _ d, rfl⟩

theorem trans {d'' : ReferenceDevice} (h : Quiet d d') (h' : Quiet d' d'') : Quiet d d'' :=
  ⟨h.keeps.trans h'.keeps, h'.draws.trans h.draws⟩

theorem keeps' (h : Quiet d d') (written : Target → Prop) : Keeps written d d' := h.keeps.mono nofun

theorem setSampler (d : ReferenceDevice) (t : TextureId) (sampler : Sampler) :
    Quiet d (Device.setSampler d t sampler) := by
  refine ⟨.updateTexture (f := fun x => { x with sampler }) (fun _ => rfl) ?_ fun _ _ => rfl, rfl⟩
  exact fun wf x hx => wf.sized t x hx

end Quiet

/-- The textures stay just as they are, though new ones may join them. -/
structure Still (d d' : ReferenceDevice) : Prop extends Quiet d d' where
  textures : ∀ t x, d.texture? t = some x → d'.texture? t = some x

namespace Still

theorem refl (d : ReferenceDevice) : Still d d := ⟨.refl d, fun _ _ h => h⟩

theorem trans {d'' : ReferenceDevice} (h : Still d d') (h' : Still d' d'') : Still d d'' :=
  ⟨h.toQuiet.trans h'.toQuiet, fun t x hx => h'.textures t x (h.textures t x hx)⟩

theorem deleteProgram (d : ReferenceDevice) (p : ProgramId) : Still d (Device.deleteProgram d p) :=
  ⟨⟨.of_eq rfl rfl rfl rfl, rfl⟩, fun _ _ h => h⟩

theorem setFixedFunction (d : ReferenceDevice) (s : FixedFunction) : Still d (Device.setFixedFunction d s) :=
  ⟨⟨.of_eq rfl rfl rfl rfl, rfl⟩, fun _ _ h => h⟩

theorem compileProgram {label source : String} {r : Except DeviceError ProgramId}
    (h : Device.compileProgram d label source = (r, d')) : Still d d' := by
  change d.compileProgram label source = _ at h
  unfold ReferenceDevice.compileProgram at h
  split at h
  · cases h
    exact .refl d
  · cases h
    refine ⟨⟨⟨Nat.le_succ _, fun wf => ⟨fun t x hx => ?_, wf.sized⟩, fun t x hx => ⟨x, hx, rfl, fun _ => rfl⟩,
      fun _ => rfl, rfl, fun _ h => h⟩, rfl⟩, fun _ _ h => h⟩
    exact Nat.lt_succ_of_lt (wf.issued t x hx)

end Still

theorem texture?_setSampler (d : ReferenceDevice) (t u : TextureId) (sampler : Sampler) :
    (Device.setSampler d t sampler).texture? u =
      if u = t then (d.texture? u).map fun x => { x with sampler } else d.texture? u :=
  texture?_updateTexture d t u _

theorem createTexture_eq_ok {kind : TextureKind} {t : TextureId} :
    Device.createTexture d kind = (.ok t, d') ↔ (kind.width ≠ 0 ∧ kind.height ≠ 0) ∧
      (t, d') = d.addTexture ⟨kind, .blank kind.width kind.height, .initial⟩ := by
  have hcreate : Device.createTexture d kind = d.createTexture kind := rfl
  rw [hcreate]
  unfold createTexture
  split
  · next h =>
    simp only [Prod.mk.injEq, reduceCtorEq, false_and, false_iff]
    rintro ⟨⟨hw, hh⟩, -⟩
    exact h.elim hw hh
  · next h =>
    constructor
    · rintro ⟨⟩
      exact ⟨not_or.mp h, rfl⟩
    · rintro ⟨-, he⟩
      cases he
      rfl

theorem createTexture_error {kind : TextureKind} {e : DeviceError} (h : Device.createTexture d kind = (.error e, d')) :
    d' = d := by
  change d.createTexture kind = _ at h
  unfold createTexture at h
  split at h
  · cases h
    rfl
  · cases h

theorem Still.createTexture {kind : TextureKind} {r : Except DeviceError TextureId}
    (h : Device.createTexture d kind = (r, d')) : Still d d' := by
  cases r with
  | error e =>
    obtain rfl := createTexture_error h
    exact .refl _
  | ok t =>
    obtain ⟨-, he⟩ := createTexture_eq_ok.mp h
    rw [show d' = _ from congrArg Prod.snd he]
    refine ⟨⟨.addTexture rfl, rfl⟩, fun u x hx => ?_⟩
    rw [texture?_addTexture, hx]
    rfl

/-- A created texture is new, and of the kind that was asked for. -/
theorem WellFormed.texture?_created (wf : d.WellFormed) {kind : TextureKind} {t : TextureId}
    (h : Device.createTexture d kind = (.ok t, d')) :
    d.texture? t = none ∧ ∃ x, d'.texture? t = some x ∧ x.kind = kind := by
  obtain ⟨-, he⟩ := createTexture_eq_ok.mp h
  have ht : t = ⟨d.nextNumber⟩ := congrArg Prod.fst he
  have hd : d' = (d.addTexture ⟨kind, .blank kind.width kind.height, .initial⟩).2 := congrArg Prod.snd he
  refine ⟨ht ▸ wf.fresh, ⟨kind, .blank kind.width kind.height, .initial⟩, ?_, rfl⟩
  rw [hd, texture?_addTexture, ht, wf.fresh, if_pos rfl]
  rfl

/-- There is always a placeholder to be had, the same from then on. -/
theorem placeholderTexture_eq (d : ReferenceDevice) :
    ∃ t d', Device.placeholderTexture d = (.ok t, d') ∧ d'.placeholder = some t ∧ Quiet d d' := by
  refine ⟨d.placeholderTexture.1, d.placeholderTexture.2, rfl, ?_⟩
  unfold placeholderTexture
  split
  · next t ht => exact ⟨ht, .refl _⟩
  · next hnone =>
    have added : Keeps (fun _ => False) d (d.addTexture ⟨.rgba8 1 1, .solid 1 1 .white, .initial⟩).2 := .addTexture rfl
    refine ⟨rfl, ⟨added.nextNumber, fun wf => ?_, added.textures, added.display, added.displaySize, fun t ht => ?_⟩, rfl⟩
    · exact ⟨(added.wellFormed wf).issued, (added.wellFormed wf).sized⟩
    · rw [hnone] at ht
      cases ht

/-! ### Recorded draws -/

theorem draws_setPixels (d : ReferenceDevice) (target : Target) (i : Image) : (d.setPixels target i).draws = d.draws := by
  cases target <;> rfl

theorem draws_write {target : Target} {source : TextureId} (h : d.write target source = .ok d') :
    d'.draws = d.draws := by
  obtain ⟨x, size, -, -, rfl⟩ := write_eq_ok.mp h
  exact draws_setPixels d target _

theorem draws_draw {call : DrawCall} (h : Device.draw d call = (.ok (), d')) :
    ∃ label, d'.draws = d.draws ++ [recordOf call label] := by
  obtain ⟨program, w, -, hw, rfl⟩ := draw_eq_ok.mp h
  refine ⟨program.label, ?_⟩
  unfold writeInput at hw
  split at hw
  · rw [← draws_write hw]
  · cases hw
    rfl

theorem draws_copy {source : TextureId} {target : Target} {r : Except DeviceError Unit}
    (h : Device.copy d source target = (r, d')) : d'.draws = d.draws := by
  change d.copy source target = _ at h
  unfold ReferenceDevice.copy at h
  split at h
  · cases h
    rfl
  · split at h
    · cases h
      rfl
    · next w hw =>
      cases h
      have hdraws := draws_write hw
      exact hdraws

end ReferenceDevice
end FxStack
