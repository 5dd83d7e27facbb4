import FxStack.Notice

/-!
# Reports

What came of applying a stack to an image once.
-/

namespace FxStack

/-- A failure that an image was shown in spite of. -/
inductive Failure where
  | deadSource (t : TextureId)
  | device (e : DeviceError)
deriving DecidableEq

def Failure.text : Failure → String
  | .deadSource t => Notice.deadSourceText t
  | .device e => e.message

/-- What one application of a stack did. -/
structure Report where
  recompiled : Bool
  passCount : Nat
  passesExecuted : Nat
  /-- The pass at which the application stopped early. -/
  abortedAt : Option Nat
  /-- The number of scratch textures that were borrowed. -/
  scratchAcquired : Nat
  /-- The names of textures that nothing is known of. -/
  missingTextures : List String
  /-- The uniforms that were bound to the placeholder texture. -/
  placeholderUniforms : List String
  random : Single × Single
  errors : List Failure
deriving DecidableEq

namespace Report

def empty : Report := ⟨false, 0, 0, none, 0, [], [], (.zero, .zero), []⟩

def fail (r : Report) (f : Failure) : Report := { r with errors := r.errors ++ [f] }

end Report

end FxStack
