import FxStack.Device.Handle

/-!
# Textures as devices see them

Kinds, sampling and targets of textures.
-/

namespace FxStack

/-- The channels of a texture. -/
inductive TextureFormat where
  | rgb | rgba
deriving DecidableEq

/-- How a channel of a texture is stored. -/
inductive PixelType where
  | unsignedByte | halfFloat | float
deriving DecidableEq

/-- The size and the storage of a texture. -/
structure TextureKind where
  width : Nat
  height : Nat
  format : TextureFormat
  pixelType : PixelType
deriving DecidableEq

namespace TextureKind

/-- A texture with four bytes a pixel. -/
def rgba8 (width height : Nat) : TextureKind := ⟨width, height, .rgba, .unsignedByte⟩

def size (d : TextureKind) : Nat × Nat := (d.width, d.height)

def resized (d : TextureKind) (size : Nat × Nat) : TextureKind :=
  ⟨size.1, size.2, d.format, d.pixelType⟩

@[simp] theorem size_resized (d : TextureKind) (size : Nat × Nat) : (d.resized size).size = size := rfl

end TextureKind

/-- How a texture is read between its pixels. -/
inductive Filter where
  | linear | nearest
deriving DecidableEq

/-- How a texture is read outside its edges. -/
inductive Wrap where
  | repeated | clampToEdge
deriving DecidableEq

/-- How a texture is sampled. -/
structure Sampler where
  filter : Filter
  wrap : Wrap
deriving DecidableEq

namespace Sampler

def initial : Sampler := ⟨.linear, .repeated⟩

/-- The sampling that a declaration with these two flags asks for. -/
def ofFlags (nearest clampToEdge : Bool) : Sampler :=
  ⟨if nearest then .nearest else .linear, if clampToEdge then .clampToEdge else .repeated⟩

end Sampler

/-- Where a draw or a copy writes. -/
inductive Target where
  | display
  | texture (t : TextureId)
deriving DecidableEq

/-- The target of a destination that may be left out. -/
def Target.ofDestination : Option TextureId → Target
  | none => .display
  | some t => .texture t

end FxStack
