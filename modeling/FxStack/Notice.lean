import FxStack.Device
import FxStack.Pass

/-!
# Notices

What the library tells about its work besides its results.
-/

namespace FxStack

/-- How much a notice matters. -/
inductive Level where
  | warn | debug | trace
deriving DecidableEq

def Level.name : Level → String
  | .warn => "WARN"
  | .debug => "DEBUG"
  | .trace => "TRACE"

/-- Whether notices of this level are shown when those down to `least` are. -/
def Level.isShownAt (l least : Level) : Bool :=
  match l, least with
  | .warn, _ => true
  | .debug, .warn => false
  | .debug, _ => true
  | .trace, .trace => true
  | .trace, _ => false

/-- Something that has happened. -/
inductive Notice where
  | issue (i : Issue)
  | droppedOverride (entry : String)
  | programCompiled (label : String) (program : ProgramId)
  | programFailed (pass : Nat) (e : DeviceError)
  | stackCompiled (entries passes : Nat)
  | antialiasFailed (e : DeviceError)
  | deadSource (source : TextureId)
  | noScratch (e : DeviceError)
  | sourceCopyFailed (e : DeviceError)
  | unbuiltPass (pass : Nat)
  | passDrawn (pass : Nat) (input output : TextureId) (uniforms : Nat)
  | passDrawFailed (pass : Nat) (e : DeviceError)
  | antialiasDrawFailed (e : DeviceError)
  | finalCopyFailed (e : DeviceError)
  | unfitOverride (key : String) (value : Value) (type : ShaderType) (uniform : String)
  | missingTexture (name : String)
  | noPlaceholder (uniform : String) (e : DeviceError)
  | notOnLoan (texture : TextureId)
deriving DecidableEq

namespace Notice

def level : Notice → Level
  | .programCompiled .. | .stackCompiled .. => .debug
  | .passDrawn .. => .trace
  | _ => .warn

/-- The problem of a source texture that is not live. -/
def deadSourceText (source : TextureId) : String :=
  Wording.device ("source " ++ source.text ++ " is not a live texture")

def message : Notice → String
  | .issue (.unknownEffect i name) =>
    "effect `" ++ name ++ "` at stack index " ++ toString i ++ " is not in the catalog; skipping"
  | .issue (.missingFunction i effect function) =>
    "effect `" ++ effect ++ "` at stack index " ++ toString i ++ " needs unknown function `"
      ++ function ++ "`"
  | .droppedOverride entry =>
    "entry `" ++ entry ++ "`: dropped override `" ++ Wording.entryNameKey ++ "`"
  | .programCompiled label program => "compiled " ++ label ++ " as " ++ program.text
  | .programFailed pass e => Wording.compile pass e.message
  | .stackCompiled entries passes =>
    "compiled " ++ toString entries ++ " entries into " ++ toString passes ++ " passes"
  | .antialiasFailed e =>
    "antialias program failed to compile, blitting without it: " ++ e.message
  | .deadSource source => deadSourceText source
  | .noScratch e =>
    "could not borrow scratch textures (" ++ e.message ++ "); copying source through"
  | .sourceCopyFailed e => "copy into scratch failed (" ++ e.message ++ "); copying source through"
  | .unbuiltPass pass => "pass " ++ toString pass ++ " has no program; skipping the remaining passes"
  | .passDrawn pass input output uniforms =>
    "pass " ++ toString pass ++ ": " ++ input.text ++ " -> " ++ output.text ++ " with "
      ++ toString uniforms ++ " uniforms"
  | .passDrawFailed pass e =>
    "pass " ++ toString pass ++ " draw failed (" ++ e.message ++ "); skipping the remaining passes"
  | .antialiasDrawFailed e => "antialias draw failed (" ++ e.message ++ "); copying instead"
  | .finalCopyFailed e => "final copy failed: " ++ e.message
  | .unfitOverride key value type uniform =>
    "override `" ++ key ++ "` = " ++ value.describe ++ " does not fit " ++ type.name ++ " `"
      ++ uniform ++ "`; using the default"
  | .missingTexture name => Wording.missingTexture name
  | .noPlaceholder uniform e => "no placeholder texture for `" ++ uniform ++ "`: " ++ e.message
  | .notOnLoan texture => "released " ++ texture.text ++ " which is not on loan from this pool"

def line (n : Notice) : String := n.level.name ++ " " ++ n.message

end Notice

end FxStack
