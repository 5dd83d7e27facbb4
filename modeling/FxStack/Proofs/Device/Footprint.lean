import FxStack.Proofs.Device.Front

/-! What operations leave as it was on the reference device. A texture that is live stays live with its kind unless it
    is destroyed, and its pixels, its sampling, the display and the programs change only by operations that say so.
    Main statement: `Reaches.texture`, for a whole course of operations. -/

namespace FxStack

open Device (Reaches)

/-! ### Footprints -/

namespace DeviceOp

/-- What operations may change: the programs that may be deleted, the targets that may be written, and the textures
    that may be sampled in another way. -/
structure Footprint where
  deleted : ProgramId → Prop
  written : Target → Prop
  sampled : TextureId → Prop

/-- The operation changes nothing outside the footprint, and destroys no texture. -/
def Inside (f : Footprint) : DeviceOp → Prop
  | deleteProgram p => f.deleted p
  | destroyTexture _ => False
  | setSampler t _ => f.sampled t
  | draw call => f.written call.target
  | copy _ target => f.written target
  | _ => True

end DeviceOp

/-! ### Images -/

namespace ReferenceDevice
variable {d d' : ReferenceDevice} {t : TextureId} {x : Texture}

/-- Nothing is different but the image of the target and the records. -/
def Painted (target : Target) (d d' : ReferenceDevice) : Prop :=
  ∃ e draws copies, (e = d ∨ ∃ i, e = d.setPixels target i) ∧ d' = { e with draws, copies }

theorem Painted.refl (target : Target) (d : ReferenceDevice) : Painted target d d :=
  ⟨d, d.draws, d.copies, Or.inl rfl, rfl⟩

theorem painted_draw (d : ReferenceDevice) (call : DrawCall) : Painted call.target d (Device.draw d call).2 := by
  rcases hd : Device.draw d call with ⟨e | _, d'⟩
  · obtain rfl := draw_error hd
    exact .refl _ _
  · obtain ⟨program, w, -, hw, rfl⟩ := draw_eq_ok.mp hd
    unfold writeInput at hw
    split at hw
    · obtain ⟨y, size, -, -, rfl⟩ := write_eq_ok.mp hw
      exact ⟨_, _, _, Or.inr ⟨_, rfl⟩, rfl⟩
    · cases hw
      exact ⟨d, _, _, Or.inl rfl, rfl⟩

theorem painted_copy (d : ReferenceDevice) (source : TextureId) (target : Target) :
    Painted target d (Device.copy d source target).2 := by
  have hcopy : Device.copy d source target = d.copy source target := rfl
  rw [hcopy]
  unfold ReferenceDevice.copy
  split
  · exact .refl _ _
  · split
    · exact .refl _ _
    · next w hw =>
      obtain ⟨y, size, -, -, rfl⟩ := write_eq_ok.mp hw
      exact ⟨_, _, _, Or.inr ⟨_, rfl⟩, rfl⟩

theorem Painted.texture? {target : Target} (h : Painted target d d') (hx : d.texture? t = some x) :
    ∃ i, d'.texture? t = some { x with pixels := i } ∧ (target ≠ .texture t → i = x.pixels) := by
  obtain ⟨e, draws, copies, he, rfl⟩ := h
  change ∃ i, e.texture? t = _ ∧ _
  rcases he with rfl | ⟨i, rfl⟩
  · exact ⟨x.pixels, hx, fun _ => rfl⟩
  · cases target with
    | display => exact ⟨x.pixels, hx, fun _ => rfl⟩
    | texture u =>
      simp only [setPixels, texture?_updateTexture]
      by_cases htu : t = u
      · exact ⟨i, by rw [if_pos htu, hx]; rfl, fun hne => absurd (congrArg Target.texture htu.symm) hne⟩
      · exact ⟨x.pixels, by rw [if_neg htu, hx], fun _ => rfl⟩

theorem Painted.display {target : Target} (h : Painted target d d') (hne : target ≠ .display) : d'.display = d.display := by
  obtain ⟨e, draws, copies, he, rfl⟩ := h
  rcases he with rfl | ⟨i, rfl⟩
  · rfl
  · cases target with
    | display => exact absurd rfl hne
    | texture u => rfl

/-! ### Operations -/

theorem wellFormed_run (op : DeviceOp) (h : d.WellFormed) : (op.run d).WellFormed := by
  cases op with
  | compileProgram label source => exact (Still.compileProgram rfl).keeps.wellFormed h
  | deleteProgram p => exact (Still.deleteProgram d p).keeps.wellFormed h
  | createTexture kind => exact (Still.createTexture rfl).keeps.wellFormed h
  | destroyTexture t => exact h.destroyTexture t
  | placeholderTexture =>
    obtain ⟨t, d', hd, -, quiet⟩ := placeholderTexture_eq d
    simp only [DeviceOp.run, hd]
    exact quiet.keeps.wellFormed h
  | setSampler t sampler => exact (Quiet.setSampler d t sampler).keeps.wellFormed h
  | setFixedFunction state => exact (Still.setFixedFunction d state).keeps.wellFormed h
  | draw call => exact (Keeps.draw rfl).wellFormed h
  | copy source target => exact (Keeps.copy rfl).wellFormed h

theorem texture?_placeholderTexture (hx : d.texture? t = some x) :
    (Device.placeholderTexture d).2.texture? t = some x := by
  have hdevice : (Device.placeholderTexture d).2 = d.placeholderTexture.2 := rfl
  rw [hdevice]
  unfold ReferenceDevice.placeholderTexture
  split
  · exact hx
  · have hadded := texture?_addTexture d ⟨.rgba8 1 1, .solid 1 1 .white, .initial⟩ t
    rw [hx] at hadded
    exact hadded

variable {f : DeviceOp.Footprint} {op : DeviceOp}

/-- An operation leaves a texture as it was where its footprint does not reach. -/
theorem texture?_run (h : op.Inside f) (hx : d.texture? t = some x) :
    ∃ y, (op.run d).texture? t = some y ∧ y.kind = x.kind ∧ (¬f.written (.texture t) → y.pixels = x.pixels) ∧
      (¬f.sampled t → y.sampler = x.sampler) := by
  have same : (op.run d).texture? t = some x → ∃ y, (op.run d).texture? t = some y ∧ y.kind = x.kind ∧
      (¬f.written (.texture t) → y.pixels = x.pixels) ∧ (¬f.sampled t → y.sampler = x.sampler) :=
    fun hy => ⟨x, hy, rfl, fun _ => rfl, fun _ => rfl⟩
  have painted : ∀ target, f.written target → Painted target d (op.run d) →
      ∃ y, (op.run d).texture? t = some y ∧ y.kind = x.kind ∧ (¬f.written (.texture t) → y.pixels = x.pixels) ∧
        (¬f.sampled t → y.sampler = x.sampler) := by
    intro target hwritten hpainted
    obtain ⟨i, hi, hpixels⟩ := hpainted.texture? hx
    exact ⟨_, hi, rfl, fun hnot => hpixels fun htarget => hnot (htarget ▸ hwritten), fun _ => rfl⟩
  cases op with
  | compileProgram label source => exact same ((Still.compileProgram rfl).textures t x hx)
  | deleteProgram p => exact same hx
  | createTexture kind => exact same ((Still.createTexture rfl).textures t x hx)
  | destroyTexture u => exact h.elim
  | placeholderTexture => exact same (texture?_placeholderTexture hx)
  | setSampler u sampler =>
    have hset := texture?_setSampler d u t sampler
    by_cases htu : t = u
    · rw [if_pos htu, hx] at hset
      exact ⟨_, hset, rfl, fun _ => rfl, fun hnot => absurd (htu ▸ h) hnot⟩
    · rw [if_neg htu, hx] at hset
      exact same hset
  | setFixedFunction state => exact same hx
  | draw call => exact painted call.target h (painted_draw d call)
  | copy source target => exact painted target h (painted_copy d source target)

theorem display_run (h : op.Inside f) (hnot : ¬f.written .display) : (op.run d).display = d.display := by
  cases op with
  | compileProgram label source => exact (Still.compileProgram rfl).keeps.display id
  | deleteProgram p => rfl
  | createTexture kind => exact (Still.createTexture rfl).keeps.display id
  | destroyTexture u => exact h.elim
  | placeholderTexture =>
    obtain ⟨t, d', hd, -, quiet⟩ := placeholderTexture_eq d
    simp only [DeviceOp.run, hd]
    exact quiet.keeps.display id
  | setSampler u sampler => rfl
  | setFixedFunction state => rfl
  | draw call => exact (painted_draw d call).display fun htarget => hnot (htarget ▸ h)
  | copy source target => exact (painted_copy d source target).display fun htarget => hnot (htarget ▸ h)

theorem program?_run (h : op.Inside f) {p : ProgramId} (hnot : ¬f.deleted p) {program : CompiledProgram}
    (hp : d.program? p = some program) : (op.run d).program? p = some program := by
  have spared : op.SparesPrograms → (op.run d).program? p = some program := fun hop => by
    rw [← hp]
    exact congrArg (List.lookup p) (programs_run hop d)
  cases op with
  | compileProgram label source =>
    rcases hc : Device.compileProgram d label source with ⟨e | q, d'⟩ <;> simp only [DeviceOp.run, hc]
    · rw [compileProgram_eq_error hc, hp]
    · obtain ⟨-, rfl⟩ := compileProgram_eq_ok hc
      unfold ReferenceDevice.program? at hp ⊢
      rw [List.lookup_append, hp]
      rfl
  | deleteProgram q =>
    have hne : p ≠ q := fun heq => hnot (heq ▸ h)
    have hfilter := lookup_filter_ne q p d.programs
    rw [if_neg hne] at hfilter
    exact hfilter.trans hp
  | _ => exact spared trivial

end ReferenceDevice

/-! ### Courses of operations -/

namespace Device.Reaches
variable {δ : Type} [Front δ] {P : DeviceOp → Prop} {f : DeviceOp.Footprint} {d d' : δ}

theorem wellFormed (h : Reaches P d d') (wf : (Front.reference d).WellFormed) : (Front.reference d').WellFormed :=
  h.reference.keeps wf fun op _ _ hd => ReferenceDevice.wellFormed_run op hd

theorem texture (h : Reaches (·.Inside f) d d') {t : TextureId} {x : Texture}
    (hx : (Front.reference d).texture? t = some x) :
    ∃ y, (Front.reference d').texture? t = some y ∧ y.kind = x.kind ∧ (¬f.written (.texture t) → y.pixels = x.pixels) ∧
      (¬f.sampled t → y.sampler = x.sampler) := by
  refine h.reference.keeps (I := fun e => ∃ y, e.texture? t = some y ∧ y.kind = x.kind ∧
    (¬f.written (.texture t) → y.pixels = x.pixels) ∧ (¬f.sampled t → y.sampler = x.sampler))
    ⟨x, hx, rfl, fun _ => rfl, fun _ => rfl⟩ ?_
  rintro op e hop ⟨y, hy, hkind, hpixels, hsampler⟩
  obtain ⟨z, hz, hkind', hpixels', hsampler'⟩ := ReferenceDevice.texture?_run hop hy
  exact ⟨z, hz, hkind'.trans hkind, fun hnot => (hpixels' hnot).trans (hpixels hnot),
    fun hnot => (hsampler' hnot).trans (hsampler hnot)⟩

theorem display (h : Reaches (·.Inside f) d d') (hnot : ¬f.written .display) :
    (Front.reference d').display = (Front.reference d).display :=
  h.reference.keeps (I := fun e => e.display = (Front.reference d).display) rfl
    fun _ _ hop he => (ReferenceDevice.display_run hop hnot).trans he

theorem program? (h : Reaches (·.Inside f) d d') {p : ProgramId} (hnot : ¬f.deleted p) {program : CompiledProgram}
    (hp : (Front.reference d).program? p = some program) : (Front.reference d').program? p = some program :=
  h.reference.keeps (I := fun e => e.program? p = some program) hp
    fun _ _ hop he => ReferenceDevice.program?_run hop hnot he

end Device.Reaches
end FxStack
