import FxStack.Device

/-!
# Failing devices

A device that fails on purpose, to see what its users make of it: some calls of an operation go
through, the next ones fail without doing anything, and all later ones go through again.
-/

namespace FxStack

/-- Which of the coming calls of an operation fail: after `skip` calls, the next `count`. -/
structure Fault where
  skip : Nat
  count : Nat
deriving DecidableEq

namespace Fault

def never : Fault := ⟨0, 0⟩

/-- Whether the next call fails, and what holds after it. -/
def step (f : Fault) : Bool × Fault :=
  if 0 < f.skip then (false, ⟨f.skip - 1, f.count⟩)
  else if 0 < f.count then (true, ⟨0, f.count - 1⟩)
  else (false, f)

end Fault

/-- A device with a fault for each operation that may fail. -/
structure Faulty (δ : Type) where
  inner : δ
  fault : DeviceCall → Fault

namespace Faulty

variable {δ : Type}

def of (d : δ) : Faulty δ := ⟨d, fun _ => .never⟩

/-- The device with a fault for one operation, in the place of the one it had. -/
def setFault (d : Faulty δ) (call : DeviceCall) (f : Fault) : Faulty δ :=
  { d with fault := fun c => if c = call then f else d.fault c }

/-- The device with `f` done to the inner one. -/
def modify (d : Faulty δ) (f : δ → δ) : Faulty δ := { d with inner := f d.inner }

/-- A call that may be made to fail. -/
def guarded {α : Type} (d : Faulty δ) (call : DeviceCall) (f : δ → Except DeviceError α × δ) :
    Except DeviceError α × Faulty δ :=
  let (fails, fault) := (d.fault call).step
  let d := d.setFault call fault
  if fails then (.error (.injected call), d)
  else
    let (result, inner) := f d.inner
    (result, { d with inner })

instance [Device δ] : Device (Faulty δ) where
  compileProgram d label source :=
    d.guarded .compileProgram fun d => Device.compileProgram d label source
  deleteProgram d p := d.modify fun d => Device.deleteProgram d p
  hasUniform d p name := Device.hasUniform d.inner p name
  createTexture d kind := d.guarded .createTexture fun d => Device.createTexture d kind
  destroyTexture d t := d.modify fun d => Device.destroyTexture d t
  textureKind? d t := Device.textureKind? d.inner t
  placeholderTexture d := d.guarded .placeholderTexture Device.placeholderTexture
  setSampler d t s := d.modify fun d => Device.setSampler d t s
  setFixedFunction d s := d.modify fun d => Device.setFixedFunction d s
  displaySize d := Device.displaySize d.inner
  draw d call := d.guarded .draw fun d => Device.draw d call
  copy d source target := d.guarded .copy fun d => Device.copy d source target

end Faulty

end FxStack
