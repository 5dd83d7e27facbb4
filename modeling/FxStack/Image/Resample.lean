import FxStack.Device.Texture
import FxStack.Image

/-!
# Resampling

An image is brought to another size first vertically and then horizontally. Every pixel of the result
is a weighted mean of the pixels in a window of the old ones; the weights fall off linearly with the
distance, or are equal where the nearest pixel is taken.
-/

namespace FxStack.Resample

/-! ### Windows -/

/-- The old pixels that a new one is a mean of: the first one, and the weights from it on. -/
structure Window where
  left : Nat
  weights : List Float32

/-- How far a window reaches, in old pixels when enlarging. -/
def reach : Filter → Float32
  | .linear => 1
  | .nearest => 0

def kernel (f : Filter) (x : Float32) : Float32 :=
  match f with
  | .linear => if x.abs < 1 then 1 - x.abs else 0
  | .nearest => 1

def clampInt (i low high : Int) : Int := max low (min high i)

/-- The window of new pixel `o` when `n` pixels become `m`. The weights are scaled to sum 1. -/
def window (f : Filter) (n m o : Nat) : Window :=
  let ratio := n.toFloat32 / m.toFloat32
  let scale := if ratio < 1 then 1 else ratio
  let support := reach f * scale
  let center := (o.toFloat32 + 0.5) * ratio
  let left := (clampInt (center - support).floor.toInt64.toInt 0 (n - 1)).toNat
  let right := (clampInt (center + support).ceil.toInt64.toInt (left + 1) n).toNat
  let middle := center - 0.5
  let weights := (List.range (right - left)).map fun k =>
    kernel f (((left + k).toFloat32 - middle) / scale)
  let sum := weights.foldl (· + ·) 0
  ⟨left, weights.map (· / sum)⟩

def Window.mean (w : Window) (value : Nat → Float32) : Float32 :=
  (w.weights.foldl (fun (t, k) weight => (t + value k * weight, k + 1)) ((0 : Float32), w.left)).1

/-! ### Channels -/

/-- One channel of an image with its width and height. -/
structure Channel where
  width : Nat
  height : Nat
  values : Array Float32

namespace Channel

def get (c : Channel) (x y : Nat) : Float32 := c.values.getD (y * c.width + x) 0

def ofFn (width height : Nat) (f : Nat → Nat → Float32) : Channel :=
  ⟨width, height, Array.ofFn fun i : Fin (width * height) => f (i.val % width) (i.val / width)⟩

def toHeight (c : Channel) (f : Filter) (height : Nat) : Channel :=
  let windows := Array.ofFn fun y : Fin height => window f c.height height y
  ofFn c.width height fun x y =>
    match windows[y]? with
    | some w => w.mean fun k => c.get x k
    | none => 0

def toWidth (c : Channel) (f : Filter) (width : Nat) : Channel :=
  let windows := Array.ofFn fun x : Fin width => window f c.width width x
  ofFn width c.height fun x y =>
    match windows[x]? with
    | some w => w.mean fun k => c.get k y
    | none => 0

/-- The byte nearest to a value. -/
def byte (x : Float32) : UInt8 :=
  (if x < 0 then (0 : Float32) else if x > 255 then 255 else x).round.toUInt8

end Channel

def channel (i : Image) (f : Filter) (width height : Nat) (part : Pixel → UInt8) : Channel :=
  ((Channel.ofFn i.width i.height fun x y => (part (i.get x y)).toNat.toFloat32).toHeight f height).toWidth
    f width

end FxStack.Resample

namespace FxStack

/-- An image at another size. An image of that size is kept as it is, and nothing can be seen of an
    image without pixels. -/
def Image.resample (i : Image) (f : Filter) (size : Nat × Nat) : Image :=
  if i.size = size then i
  else if i.width = 0 ∨ i.height = 0 then .blank size.1 size.2
  else
    let part := Resample.channel i f size.1 size.2
    let red := part Pixel.red
    let green := part Pixel.green
    let blue := part Pixel.blue
    let alpha := part Pixel.alpha
    .ofFn size.1 size.2 fun x y =>
      ⟨Resample.Channel.byte (red.get x y), Resample.Channel.byte (green.get x y),
       Resample.Channel.byte (blue.get x y), Resample.Channel.byte (alpha.get x y)⟩

end FxStack
