import FxStack.Json.Decode
import FxStack.Json.Printer
import FxStack.Uniform.Value

/-!
# Uniform values in JSON text

The shape of a JSON value says which uniform value it is: a truth value, an integer of 32 bits, any
other number, an array of two to four numbers, or the name of a texture.
-/

namespace FxStack

namespace ShaderType

def toJson (t : ShaderType) : Json := .string t.name

def decode : Json → Except Json.Error ShaderType := Json.decodeName ofName? (all.map name)

end ShaderType

namespace Value

def toJson : Value → Json
  | .bool b => .bool b
  | .int i => .number (.ofInt i.toInt)
  | .float x => .ofSingle x
  | .vec2 x y => .list [.ofSingle x, .ofSingle y]
  | .vec3 x y z => .list [.ofSingle x, .ofSingle y, .ofSingle z]
  | .vec4 x y z w => .list [.ofSingle x, .ofSingle y, .ofSingle z, .ofSingle w]
  | .texture name => .string name

/-- The uniform value of a number: an integer if it has 32 bits. -/
def ofNumber : Number → Value
  | .integer i =>
    if -0x80000000 ≤ i ∧ i < 0x80000000 then .int (Int32.ofInt i) else .float (Single.ofInt i)
  | .real x => .float x.toSingle

def component? : Json → Option Single
  | .number n => n.number?.map Number.toSingle
  | _ => none

def components? : Items → Option (List Single)
  | .done => some []
  | .item j rest => do
    let x ← component? j
    let xs ← components? rest
    return x :: xs
  | .cut _ => none

/-- The uniform value that a JSON value has the shape of. -/
def ofShape? : Json → Option Value
  | .bool b => some (.bool b)
  | .number n => n.number?.map ofNumber
  | .string s => some (.texture s)
  | .array is =>
    match components? is with
    | some [x, y] => some (.vec2 x y)
    | some [x, y, z] => some (.vec3 x y z)
    | some [x, y, z, w] => some (.vec4 x y z w)
    | _ => none
  | _ => none

/-- The uniform value of a JSON value with `depth` arrays and objects open around it. It is kept
    whole before its shape is looked at. -/
def decode (depth : Nat) (j : Json) : Except Json.Error Value :=
  match j.keep depth with
  | .error b => .error (.ofBreak b)
  | .ok () =>
    match ofShape? j with
    | some v => .ok v
    | none => .error .shapeless

def ofText (text : String) : Except Json.Error Value := Json.decodeDocument (decode 0) text

end Value

end FxStack
