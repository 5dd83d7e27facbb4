import FxStack.Device.Texture
import FxStack.Uniform.Json

/-!
# Declared uniforms

What an effect declares about one of its uniforms.
-/

namespace FxStack

/-- A declared uniform. The name in code is the base name followed by the position of the entry. -/
structure Uniform where
  baseName : String
  type : ShaderType
  defaultValue : Option Value
  min : Option Single
  max : Option Single
  step : Option Single
  widget : Option String
  /-- A texture is sampled without interpolation. -/
  nearest : Bool
  /-- A texture is not repeated beyond its edges. -/
  clampToEdge : Bool
deriving DecidableEq

namespace Uniform

/-- A uniform without default, range or widget. -/
def plain (baseName : String) (type : ShaderType) : Uniform :=
  ⟨baseName, type, none, none, none, none, none, false, false⟩

/-- The value of a uniform without override: the declared default if it fits, or zero. -/
def fallback (s : Uniform) : Value :=
  (s.defaultValue.bind (·.coerce s.type)).getD (Value.zero s.type)

def sampling (s : Uniform) : Sampler := .ofFlags s.nearest s.clampToEdge

/-- Whether the declaration asks for a sampling of its own. -/
def overridesSampling (s : Uniform) : Bool := s.nearest || s.clampToEdge

/-- The name in the code of the entry at position `i`. -/
def nameAt (s : Uniform) (i : Nat) : String := s.baseName ++ toString i

/-- The line that declares the uniform of the entry at position `i`. -/
def declaration (s : Uniform) (i : Nat) : String :=
  "uniform " ++ s.type.name ++ " " ++ s.nameAt i ++ ";"

/-! ### JSON text -/

def optionalMember {α : Type} (name : String) (toJson : α → Json) : Option α → List (String × Json)
  | none => []
  | some x => [(name, toJson x)]

def toJson (s : Uniform) : Json :=
  .record (
    [("uniform_name", .string s.baseName), ("glsl_type", s.type.toJson)]
      ++ optionalMember "default_value" Value.toJson s.defaultValue
      ++ optionalMember "min" .ofSingle s.min
      ++ optionalMember "max" .ofSingle s.max
      ++ optionalMember "step" .ofSingle s.step
      ++ optionalMember "widget" .string s.widget
      ++ [("nearest", .bool s.nearest), ("clamp_to_edge", .bool s.clampToEdge)])

/-- The fields of a declaration that have been read. -/
structure Draft where
  baseName : Option String
  type : Option ShaderType
  defaultValue : Option (Option Value)
  min : Option (Option Single)
  max : Option (Option Single)
  step : Option (Option Single)
  widget : Option (Option String)
  nearest : Option Bool
  clampToEdge : Option Bool

namespace Draft

def blank : Draft := ⟨none, none, none, none, none, none, none, none, none⟩

/-- The fields of a declaration around which `depth` arrays and objects are open. -/
def decoder (depth : Nat) : Json.RecordDecoder Draft where
  title := "struct UniformSpec"
  fields := [
    Json.field "uniform_name" baseName (fun d x => { d with baseName := some x }) Json.decodeString,
    Json.field "glsl_type" type (fun d x => { d with type := some x }) ShaderType.decode,
    Json.field "default_value" defaultValue (fun d x => { d with defaultValue := some x })
      (Json.decodeOption (Value.decode (depth + 1))),
    Json.field "min" min (fun d x => { d with min := some x }) (Json.decodeOption Json.decodeSingle),
    Json.field "max" max (fun d x => { d with max := some x }) (Json.decodeOption Json.decodeSingle),
    Json.field "step" step (fun d x => { d with step := some x })
      (Json.decodeOption Json.decodeSingle),
    Json.field "widget" widget (fun d x => { d with widget := some x })
      (Json.decodeOption Json.decodeString),
    Json.field "nearest" nearest (fun d x => { d with nearest := some x }) Json.decodeBool,
    Json.field "clamp_to_edge" clampToEdge (fun d x => { d with clampToEdge := some x })
      Json.decodeBool]

end Draft

/-- The uniform of a JSON value with `depth` arrays and objects open around it. -/
def decode (depth : Nat) (j : Json) : Except Json.Error Uniform := do
  let r := Draft.decoder depth
  let d ← r.decode .blank j
  let baseName ← r.require j "uniform_name" 0 d.baseName
  let type ← r.require j "glsl_type" 1 d.type
  return {
    baseName, type
    defaultValue := d.defaultValue.join
    min := d.min.join
    max := d.max.join
    step := d.step.join
    widget := d.widget.join
    nearest := d.nearest.getD false
    clampToEdge := d.clampToEdge.getD false }

def ofText (text : String) : Except Json.Error Uniform := Json.decodeDocument (decode 0) text

end Uniform

end FxStack
