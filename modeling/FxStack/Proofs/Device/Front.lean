import FxStack.Device.Faulty
import FxStack.Proofs.Device.Operation
import FxStack.Proofs.Device.Reference

/-! Devices that stand in front of a reference device. Such a device hands each call on or refuses it, so
    handles are those of the reference device, and new ones have new numbers. A device that fails on purpose
    is one, and so is a device that keeps a record of its calls. Main definition: `Front`. -/

namespace FxStack

/-! ### Devices that record their calls -/

/-- A device with all the calls that have been made. -/
structure Watched (δ : Type) where
  inner : δ
  calls : List DeviceOp

namespace Watched
variable {δ : Type}

/-- What an inner device gives for a call, which is noted. -/
def passOn {α : Type} (d : Watched δ) (op : DeviceOp) (r : α × δ) : α × Watched δ := (r.1, ⟨r.2, d.calls ++ [op]⟩)

instance [Device δ] : Device (Watched δ) where
  compileProgram d label source :=
    d.passOn (.compileProgram label source) (Device.compileProgram d.inner label source)
  deleteProgram d p := ⟨Device.deleteProgram d.inner p, d.calls ++ [.deleteProgram p]⟩
  hasUniform d p name := Device.hasUniform d.inner p name
  createTexture d kind := d.passOn (.createTexture kind) (Device.createTexture d.inner kind)
  destroyTexture d t := ⟨Device.destroyTexture d.inner t, d.calls ++ [.destroyTexture t]⟩
  textureKind? d t := Device.textureKind? d.inner t
  placeholderTexture d := d.passOn .placeholderTexture (Device.placeholderTexture d.inner)
  setSampler d t s := ⟨Device.setSampler d.inner t s, d.calls ++ [.setSampler t s]⟩
  setFixedFunction d s := ⟨Device.setFixedFunction d.inner s, d.calls ++ [.setFixedFunction s]⟩
  displaySize d := Device.displaySize d.inner
  draw d call := d.passOn (.draw call) (Device.draw d.inner call)
  copy d source target := d.passOn (.copy source target) (Device.copy d.inner source target)

theorem run_eq [Device δ] (op : DeviceOp) (d : Watched δ) : op.run d = ⟨op.run d.inner, d.calls ++ [op]⟩ := by
  cases op <;> rfl

end Watched

/-! ### Devices in front of a reference device -/

/-- A device whose calls come through to a reference device or do nothing there. What it makes, that device
    has made. -/
class Front (δ : Type) extends Device δ where
  reference : δ → ReferenceDevice
  reference_run (op : DeviceOp) (d : δ) :
    reference (op.run d) = reference d ∨ reference (op.run d) = op.run (reference d)
  reference_deleteProgram (d : δ) (p : ProgramId) :
    reference (Device.deleteProgram d p) = Device.deleteProgram (reference d) p
  compileProgram_ok {d d' : δ} {label source : String} {p : ProgramId} :
    Device.compileProgram d label source = (.ok p, d') →
      Device.compileProgram (reference d) label source = (.ok p, reference d')
  compileProgram_error {d d' : δ} {label source : String} {e : DeviceError} :
    Device.compileProgram d label source = (.error e, d') → reference d' = reference d
  createTexture_ok {d d' : δ} {kind : TextureKind} {t : TextureId} :
    Device.createTexture d kind = (.ok t, d') → Device.createTexture (reference d) kind = (.ok t, reference d')

namespace ReferenceDevice
variable {d d' : ReferenceDevice}

theorem compileProgram_eq_ok {label source : String} {p : ProgramId}
    (h : Device.compileProgram d label source = (.ok p, d')) :
    p = ⟨d.nextNumber⟩ ∧
      d' = { d with
        nextNumber := d.nextNumber + 1
        programs := d.programs ++ [(p, ⟨label, source, ActiveUniforms.ofText source.toList⟩)] } := by
  change d.compileProgram label source = _ at h
  unfold compileProgram at h
  split at h
  · cases h
  · cases h
    exact ⟨rfl, rfl⟩

theorem createTexture_number {kind : TextureKind} {t : TextureId} (h : Device.createTexture d kind = (.ok t, d')) :
    t = ⟨d.nextNumber⟩ ∧ d'.nextNumber = d.nextNumber + 1 := by
  obtain ⟨-, hcreated⟩ := createTexture_eq_ok.mp h
  exact ⟨congrArg Prod.fst hcreated, congrArg (fun r => r.2.nextNumber) hcreated⟩

theorem compileProgram_eq_error {label source : String} {e : DeviceError}
    (h : Device.compileProgram d label source = (.error e, d')) : d' = d := by
  change d.compileProgram label source = _ at h
  unfold compileProgram at h
  split at h
  · cases h
    rfl
  · cases h

end ReferenceDevice

instance : Front ReferenceDevice where
  reference := id
  reference_run _ _ := Or.inr rfl
  reference_deleteProgram _ _ := rfl
  compileProgram_ok := id
  compileProgram_error := ReferenceDevice.compileProgram_eq_error
  createTexture_ok := id

theorem Watched.of_passOn {δ α : Type} {d d' : Watched δ} {op : DeviceOp} {r : α × δ} {x : α}
    (h : d.passOn op r = (x, d')) : r = (x, d'.inner) := by
  cases h
  rfl

instance {δ : Type} [Front δ] : Front (Watched δ) where
  reference d := Front.reference d.inner
  reference_run op d := by
    rw [Watched.run_eq]
    exact Front.reference_run op d.inner
  reference_deleteProgram d p := Front.reference_deleteProgram d.inner p
  compileProgram_ok h := Front.compileProgram_ok (Watched.of_passOn h)
  compileProgram_error h := Front.compileProgram_error (Watched.of_passOn h)
  createTexture_ok h := Front.createTexture_ok (Watched.of_passOn h)

namespace Faulty
variable {δ α : Type} {d d' : Faulty δ} {call : DeviceCall} {f : δ → Except DeviceError α × δ}

/-- A call that fails on purpose does nothing to the inner device. -/
theorem guarded_cases {r : Except DeviceError α} (h : d.guarded call f = (r, d')) :
    r = .error (.injected call) ∧ d'.inner = d.inner ∨ f d.inner = (r, d'.inner) := by
  unfold guarded at h
  dsimp only at h
  split at h
  · cases h
    exact Or.inl ⟨rfl, rfl⟩
  · cases h
    exact Or.inr rfl

theorem guarded_ok {x : α} (h : d.guarded call f = (.ok x, d')) : f d.inner = (.ok x, d'.inner) := by
  rcases guarded_cases h with ⟨hr, -⟩ | hf
  · cases hr
  · exact hf

variable [Device δ]

theorem inner_run (op : DeviceOp) (d : Faulty δ) : (op.run d).inner = d.inner ∨ (op.run d).inner = op.run d.inner := by
  have through : ∀ {α : Type} (call : DeviceCall) (f : δ → Except DeviceError α × δ),
      (d.guarded call f).2.inner = d.inner ∨ (d.guarded call f).2.inner = (f d.inner).2 := by
    intro α call f
    have called : d.guarded call f = ((d.guarded call f).1, (d.guarded call f).2) := rfl
    rcases guarded_cases called with ⟨-, hd⟩ | hf
    · exact Or.inl hd
    · exact Or.inr (congrArg Prod.snd hf).symm
  cases op with
  | compileProgram label source => exact through _ _
  | createTexture kind => exact through _ _
  | placeholderTexture => exact through _ _
  | draw call => exact through _ _
  | copy source target => exact through _ _
  | deleteProgram p => exact Or.inr rfl
  | destroyTexture t => exact Or.inr rfl
  | setSampler t s => exact Or.inr rfl
  | setFixedFunction s => exact Or.inr rfl

end Faulty

instance {δ : Type} [Front δ] : Front (Faulty δ) where
  reference d := Front.reference d.inner
  reference_run op d := by
    rcases Faulty.inner_run op d with h | h
    · exact Or.inl (congrArg Front.reference h)
    · rw [h]
      exact Front.reference_run op d.inner
  reference_deleteProgram d p := Front.reference_deleteProgram d.inner p
  compileProgram_ok h := Front.compileProgram_ok (Faulty.guarded_ok h)
  compileProgram_error h := by
    rcases Faulty.guarded_cases h with ⟨-, hd⟩ | hf
    · exact congrArg Front.reference hd
    · exact Front.compileProgram_error hf
  createTexture_ok h := Front.createTexture_ok (Faulty.guarded_ok h)

/-! ### Numbers and programs under the operations -/

namespace ReferenceDevice

theorem nextNumber_run (op : DeviceOp) (d : ReferenceDevice) : d.nextNumber ≤ (op.run d).nextNumber := by
  cases op with
  | compileProgram label source => exact (Still.compileProgram rfl).keeps.nextNumber
  | deleteProgram p => exact Nat.le_refl _
  | createTexture kind => exact (Still.createTexture rfl).keeps.nextNumber
  | destroyTexture t => exact Nat.le_refl _
  | placeholderTexture =>
    obtain ⟨t, d', hd, -, quiet⟩ := placeholderTexture_eq d
    simp only [DeviceOp.run, hd]
    exact quiet.keeps.nextNumber
  | setSampler t sampler => exact Nat.le_refl _
  | setFixedFunction state => exact Nat.le_refl _
  | draw call => exact (Keeps.draw rfl).nextNumber
  | copy source target => exact (Keeps.copy rfl).nextNumber

theorem programs_write {d d' : ReferenceDevice} {target : Target} {source : TextureId}
    (h : d.write target source = .ok d') : d'.programs = d.programs := by
  obtain ⟨x, size, -, -, rfl⟩ := write_eq_ok.mp h
  cases target <;> rfl

theorem programs_draw {d d' : ReferenceDevice} {call : DrawCall} {r : Except DeviceError Unit}
    (h : Device.draw d call = (r, d')) : d'.programs = d.programs := by
  cases r with
  | error e => rw [draw_error h]
  | ok =>
    obtain ⟨program, w, -, hw, rfl⟩ := draw_eq_ok.mp h
    unfold writeInput at hw
    split at hw
    · have hprograms := programs_write hw
      exact hprograms
    · cases hw
      rfl

theorem programs_copy {d d' : ReferenceDevice} {source : TextureId} {target : Target} {r : Except DeviceError Unit}
    (h : Device.copy d source target = (r, d')) : d'.programs = d.programs := by
  change d.copy source target = _ at h
  unfold ReferenceDevice.copy at h
  split at h
  · cases h
    rfl
  · split at h
    · cases h
      rfl
    · next w hw =>
      cases h
      have hprograms := programs_write hw
      exact hprograms

theorem programs_run {op : DeviceOp} (h : op.SparesPrograms) (d : ReferenceDevice) :
    (op.run d).programs = d.programs := by
  cases op with
  | compileProgram label source => exact h.elim
  | deleteProgram p => exact h.elim
  | createTexture kind =>
    change (d.createTexture kind).2.programs = _
    unfold createTexture
    split <;> rfl
  | destroyTexture t => rfl
  | placeholderTexture =>
    change d.placeholderTexture.2.programs = _
    unfold placeholderTexture
    split <;> rfl
  | setSampler t sampler => rfl
  | setFixedFunction state => rfl
  | draw call => exact programs_draw rfl
  | copy source target => exact programs_copy rfl

end ReferenceDevice

namespace Device.Reaches
variable {δ : Type} [Front δ] {P : DeviceOp → Prop} {d d' : δ}

theorem reference (h : Reaches P d d') : Reaches P (Front.reference d) (Front.reference d') := by
  induction h with
  | refl => exact .refl
  | @step d' op _ hop ih =>
    rcases Front.reference_run op d' with hd | hd <;> rw [hd]
    · exact ih
    · exact .step op ih hop

theorem nextNumber (h : Reaches P d d') : (Front.reference d).nextNumber ≤ (Front.reference d').nextNumber :=
  h.reference.keeps (I := fun x => (Front.reference d).nextNumber ≤ x.nextNumber) (Nat.le_refl _)
    fun op x _ hx => Nat.le_trans hx (ReferenceDevice.nextNumber_run op x)

theorem programs (h : Reaches DeviceOp.SparesPrograms d d') :
    (Front.reference d').programs = (Front.reference d).programs :=
  h.reference.keeps (I := fun x => x.programs = (Front.reference d).programs) rfl
    fun _ x hop hx => (ReferenceDevice.programs_run hop x).trans hx

end Device.Reaches
end FxStack
