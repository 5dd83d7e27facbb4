import FxStack.Device.Texture
import FxStack.Program.Brackets
import FxStack.Uniform.Binding

/-!
# Devices

A device compiles programs, holds textures and draws. It is a value that each operation takes and
gives back, so that what an operation changes is part of its result.
-/

namespace FxStack

/-! ### Problems -/

/-- The operations that a device may fail to do. -/
inductive DeviceCall where
  | compileProgram | createTexture | placeholderTexture | draw | copy
deriving DecidableEq

def DeviceCall.name : DeviceCall → String
  | .compileProgram => "compile_program"
  | .createTexture => "create_texture"
  | .placeholderTexture => "placeholder_texture"
  | .draw => "draw_fullscreen"
  | .copy => "copy_texture"

/-- Why a device does not do what it is asked to. -/
inductive DeviceError where
  | rejectedProgram (label marker : String)
  | noMainFunction (label : String)
  | brackets (label : String) (e : BracketError)
  | emptyTexture (width height : Nat)
  | unknownSource (t : TextureId)
  | unknownTarget (t : TextureId)
  | unknownProgram (p : ProgramId)
  | injected (call : DeviceCall)
deriving DecidableEq

def DeviceError.message : DeviceError → String
  | .rejectedProgram label marker => label ++ ": rejected program containing `" ++ marker ++ "`"
  | .noMainFunction label => label ++ ": missing `void main()`"
  | .brackets label e => label ++ ": " ++ e.message
  | .emptyTexture width height =>
    "cannot create a " ++ toString width ++ "x" ++ toString height ++ " texture"
  | .unknownSource t => "unknown source texture " ++ t.text
  | .unknownTarget t => "unknown target texture " ++ t.text
  | .unknownProgram p => "unknown program " ++ p.text
  | .injected call => call.name ++ " failed: injected fault"

/-! ### Operations -/

/-- The state of the fixed stages of drawing. -/
structure FixedFunction where
  depthTest : Bool
  blend : Bool
  cullFace : Bool
deriving DecidableEq

def FixedFunction.fullscreen : FixedFunction := ⟨false, false, false⟩

/-- A named value of a draw. -/
abbrev NamedBinding := String × Binding

/-- A draw over the full screen. -/
structure DrawCall where
  program : ProgramId
  target : Target
  uniforms : List NamedBinding
deriving DecidableEq

/-- What a stack needs of a device. -/
class Device (δ : Type) where
  compileProgram : δ → String → String → Except DeviceError ProgramId × δ
  deleteProgram : δ → ProgramId → δ
  hasUniform : δ → ProgramId → String → Bool
  createTexture : δ → TextureKind → Except DeviceError TextureId × δ
  destroyTexture : δ → TextureId → δ
  textureKind? : δ → TextureId → Option TextureKind
  /-- A small texture to be used where one is missing. -/
  placeholderTexture : δ → Except DeviceError TextureId × δ
  setSampler : δ → TextureId → Sampler → δ
  setFixedFunction : δ → FixedFunction → δ
  displaySize : δ → Nat × Nat
  draw : δ → DrawCall → Except DeviceError Unit × δ
  /-- Writes a texture to a target, resampled if the sizes differ. -/
  copy : δ → TextureId → Target → Except DeviceError Unit × δ

end FxStack
