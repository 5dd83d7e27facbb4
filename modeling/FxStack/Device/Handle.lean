/-!
# Handles

Numbers by which textures and programs of a device are known.
-/

namespace FxStack

/-- The handle of a texture. -/
structure TextureId where
  number : Nat
deriving DecidableEq, Inhabited

/-- The handle of a program. -/
structure ProgramId where
  number : Nat
deriving DecidableEq, Inhabited

def TextureId.text (t : TextureId) : String := "tex#" ++ toString t.number

def ProgramId.text (p : ProgramId) : String := "prog#" ++ toString p.number

end FxStack
