/-!
# Images

Images with four bytes a pixel, row by row.
-/

namespace FxStack

/-- A color with transparency. -/
structure Pixel where
  red : UInt8
  green : UInt8
  blue : UInt8
  alpha : UInt8
deriving DecidableEq, Inhabited

namespace Pixel

def transparent : Pixel := ⟨0, 0, 0, 0⟩

def white : Pixel := ⟨255, 255, 255, 255⟩

def bytes (p : Pixel) : List UInt8 := [p.red, p.green, p.blue, p.alpha]

end Pixel

/-- An image, row by row. -/
structure Image where
  width : Nat
  height : Nat
  pixels : Array Pixel
  size_pixels : pixels.size = width * height
deriving DecidableEq

namespace Image

def size (i : Image) : Nat × Nat := (i.width, i.height)

/-- The image whose pixel in column `x` of row `y` is `f x y`. -/
def ofFn (width height : Nat) (f : Nat → Nat → Pixel) : Image :=
  ⟨width, height, Array.ofFn fun i : Fin (width * height) => f (i.val % width) (i.val / width),
   Array.size_ofFn⟩

def solid (width height : Nat) (p : Pixel) : Image := ofFn width height fun _ _ => p

/-- The image without any color. -/
def blank (width height : Nat) : Image := solid width height .transparent

instance : Inhabited Image := ⟨blank 0 0⟩

/-- The pixel in column `x` of row `y`, transparent outside the image. -/
def get (i : Image) (x y : Nat) : Pixel := i.pixels.getD (y * i.width + x) .transparent

/-- The bytes of the image, row by row. -/
def bytes (i : Image) : List UInt8 := i.pixels.toList.flatMap Pixel.bytes

@[simp] theorem size_ofFn (width height : Nat) (f : Nat → Nat → Pixel) :
    (ofFn width height f).size = (width, height) := rfl

end Image

end FxStack
