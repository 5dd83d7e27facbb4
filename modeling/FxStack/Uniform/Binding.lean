import FxStack.Uniform.Value
import FxStack.Device.Handle

/-!
# Bindings

What a draw hands to the device for one uniform, and its packed form.
-/

namespace FxStack

/-- The value of a uniform in a draw. A texture is bound through a texture unit. -/
inductive Binding where
  | bool (b : Bool)
  | int (i : Int32)
  | float (x : Single)
  | vec2 (x y : Single)
  | vec3 (x y z : Single)
  | vec4 (x y z w : Single)
  | sampler (unit : Nat) (texture : TextureId)
deriving DecidableEq

namespace Binding

/-- The binding of a value that is not a texture. -/
def ofValue? : Value → Option Binding
  | .bool b => some (.bool b)
  | .int i => some (.int i)
  | .float x => some (.float x)
  | .vec2 x y => some (.vec2 x y)
  | .vec3 x y z => some (.vec3 x y z)
  | .vec4 x y z w => some (.vec4 x y z w)
  | .texture _ => none

/-- The texture bound to unit `unit`, if the binding is of that unit. -/
def textureAt? (unit : Nat) : Binding → Option TextureId
  | .sampler u t => if u = unit then some t else none
  | _ => none

/-! ### Packing -/

/-- The 32-bit words of a binding; truth values and texture units are words too. -/
def words : Binding → List UInt32
  | .bool b => [if b then 1 else 0]
  | .int i => [i.toUInt32]
  | .float x => [x.bits]
  | .vec2 x y => [x.bits, y.bits]
  | .vec3 x y z => [x.bits, y.bits, z.bits]
  | .vec4 x y z w => [x.bits, y.bits, z.bits, w.bits]
  | .sampler unit _ => [UInt32.ofNat unit]

/-- The bytes of a word, least significant first. -/
def wordBytes (w : UInt32) : List UInt8 :=
  [w.toUInt8, (w >>> 8).toUInt8, (w >>> 16).toUInt8, (w >>> 24).toUInt8]

/-- The bytes of a binding in a packed block. -/
def bytes (b : Binding) : List UInt8 := b.words.flatMap wordBytes

end Binding

end FxStack
