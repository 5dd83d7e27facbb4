import FxStack.Decimal.Layout
import FxStack.Text.Quoted

/-!
# Uniform types and values

The types that an effect may declare for its uniforms, the values that entries and declarations hold,
and the conversion of a value to a declared type.
-/

namespace FxStack

/-! ### Types -/

/-- The type of a uniform in shading-language code. -/
inductive ShaderType where
  | float | int | bool | vec2 | vec3 | vec4 | sampler2D
deriving DecidableEq

namespace ShaderType

/-- The name of the type in code and in JSON text. -/
def name : ShaderType → String
  | .float => "float"
  | .int => "int"
  | .bool => "bool"
  | .vec2 => "vec2"
  | .vec3 => "vec3"
  | .vec4 => "vec4"
  | .sampler2D => "sampler2D"

def all : List ShaderType := [.float, .int, .bool, .vec2, .vec3, .vec4, .sampler2D]

def ofName? (s : String) : Option ShaderType := all.find? (·.name = s)

def isSampler (t : ShaderType) : Bool := t = .sampler2D

end ShaderType

/-! ### Values -/

/-- An override of an entry or a declared default. A texture is given by its name. -/
inductive Value where
  | bool (b : Bool)
  | int (i : Int32)
  | float (x : Single)
  | vec2 (x y : Single)
  | vec3 (x y z : Single)
  | vec4 (x y z w : Single)
  | texture (name : String)
deriving DecidableEq

namespace Value

/-- The value of a uniform for which nothing else is given. -/
def zero : ShaderType → Value
  | .float => .float .zero
  | .int => .int 0
  | .bool => .bool false
  | .vec2 => .vec2 .zero .zero
  | .vec3 => .vec3 .zero .zero .zero
  | .vec4 => .vec4 .zero .zero .zero .zero
  | .sampler2D => .texture ""

/-- The type that a value has without conversion. -/
def type : Value → ShaderType
  | .bool _ => .bool
  | .int _ => .int
  | .float _ => .float
  | .vec2 .. => .vec2
  | .vec3 .. => .vec3
  | .vec4 .. => .vec4
  | .texture _ => .sampler2D

def scalar? : Value → Option Single
  | .bool b => some (if b then .one else .zero)
  | .int i => some (.ofInt i.toInt)
  | .float x => some x
  | _ => none

/-- Equality in which singles are compared by value: NaN differs from itself, and the zeros agree. -/
def sameValue : Value → Value → Bool
  | .bool a, .bool b => a == b
  | .int a, .int b => a == b
  | .float a, .float b => a.sameValue b
  | .vec2 a b, .vec2 c d => a.sameValue c && b.sameValue d
  | .vec3 a b c, .vec3 d e f => a.sameValue d && b.sameValue e && c.sameValue f
  | .vec4 a b c d, .vec4 e f g h => a.sameValue e && b.sameValue f && c.sameValue g && d.sameValue h
  | .texture a, .texture b => a == b
  | _, _ => false

/-! ### Conversion -/

/-- A scalar as a value of a type: numbers convert to each other and fill every component of a
    vector. -/
def ofScalar (x : Single) : ShaderType → Option Value
  | .float => some (.float x)
  | .int => some (.int x.toInt32)
  | .bool => some (.bool !x.isZero)
  | .vec2 => some (.vec2 x x)
  | .vec3 => some (.vec3 x x x)
  | .vec4 => some (.vec4 x x x x)
  | .sampler2D => none

/-- The value converted to a type: scalars as in `ofScalar`, vectors to no more components, or from
    three to four with 1 as the last one. An integer is converted through a single even to `int`. -/
def coerce (v : Value) (t : ShaderType) : Option Value :=
  match v, t with
  | .texture name, .sampler2D => some (.texture name)
  | .vec2 x y, .vec2 => some (.vec2 x y)
  | .vec3 x y _, .vec2 => some (.vec2 x y)
  | .vec4 x y _ _, .vec2 => some (.vec2 x y)
  | .vec3 x y z, .vec3 => some (.vec3 x y z)
  | .vec4 x y z _, .vec3 => some (.vec3 x y z)
  | .vec4 x y z w, .vec4 => some (.vec4 x y z w)
  | .vec3 x y z, .vec4 => some (.vec4 x y z .one)
  | v, t => v.scalar?.bind fun x => ofScalar x t

/-- The name of the texture, unless it is empty. -/
def textureName? : Value → Option String
  | .texture name => if name.isEmpty then none else some name
  | _ => none

/-! ### Descriptions -/

def describe : Value → String
  | .bool b => "Bool(" ++ (if b then "true" else "false") ++ ")"
  | .int i => "Int(" ++ toString i.toInt ++ ")"
  | .float x => "Float(" ++ x.describe ++ ")"
  | .vec2 x y => "Vec2([" ++ ", ".intercalate [x.describe, y.describe] ++ "])"
  | .vec3 x y z => "Vec3([" ++ ", ".intercalate [x.describe, y.describe, z.describe] ++ "])"
  | .vec4 x y z w =>
    "Vec4([" ++ ", ".intercalate [x.describe, y.describe, z.describe, w.describe] ++ "])"
  | .texture name => "Texture(" ++ Text.quoted name ++ ")"

end Value

end FxStack
