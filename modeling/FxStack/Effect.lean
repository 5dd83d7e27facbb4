import FxStack.Error
import FxStack.Text.Lines
import FxStack.Uniform

/-!
# Effects

The definition of an effect, what makes its uniforms valid, and its form in JSON text.
-/

namespace FxStack

/-- The definition of an effect. -/
structure Effect where
  name : String
  displayName : String
  uniforms : KeyMap Uniform
  /-- Code that changes the sampled color. -/
  code : Template
  /-- Code that changes the sampling coordinate. -/
  uvCode : Option Template
  /-- The names of the shared functions that the code calls. -/
  functions : List String
  /-- Whether the effect always starts a pass. -/
  breaksPass : Bool
deriving DecidableEq

namespace Effect

/-- The effect with the given color code and nothing else. -/
def ofCode (code : Template) : Effect := ⟨"", "", .empty, code, none, [], false⟩

/-! ### Validity -/

/-- Whether a text is an identifier of the shading language that programs may declare. -/
def isIdentifier (s : String) : Bool :=
  match s.toList with
  | [] => false
  | c :: cs =>
    (c.isAlpha || c = '_') && cs.all (fun d => d.isAlphanum || d = '_')
      && (Text.afterStart? ['g', 'l', '_'] (c :: cs)).isNone

def endsWithDigit (s : String) : Bool := s.toList.getLast?.any Char.isDigit

/-- What is wrong with the uniform under `key` if the base names `seen` are taken. A base name may
    not end with a digit, lest one followed by a position reads as another followed by another. -/
def uniformFault? (seen : List String) (key : String) (spec : Uniform) : Option UniformFault :=
  if key = Wording.entryNameKey then some .reservedKey
  else if spec.baseName ∈ seen then some (.repeatedName spec.baseName)
  else if ¬isIdentifier spec.baseName then some (.notIdentifier spec.baseName)
  else if endsWithDigit spec.baseName then some (.trailingDigit spec.baseName)
  else
    match spec.defaultValue with
    | none => none
    | some v => if (v.coerce spec.type).isNone then some (.unfitDefault v spec.type) else none

/-- The first problem of a list of uniforms. -/
def validateUniforms (seen : List String) : List (String × Uniform) → Except Error Unit
  | [] => .ok ()
  | (key, spec) :: rest =>
    match uniformFault? seen key spec with
    | some fault => .error (.invalidUniform key fault)
    | none => validateUniforms (spec.baseName :: seen) rest

/-- The first problem of the uniforms in the order of their keys. -/
def validate (e : Effect) : Except Error Unit := validateUniforms [] e.uniforms.toList

/-- The effect under the name `name`, which is also shown if no other name is given for that. -/
def named (e : Effect) (name : String) : Effect :=
  { e with name, displayName := if e.displayName.isEmpty then name else e.displayName }

/-! ### JSON text -/

/-- The JSON value of a template: its source form. -/
def templateJson (t : Template) : Json := .string t.source

def toJson (e : Effect) : Json :=
  .record (
    [("name", .string e.name), ("display_name", .string e.displayName),
      ("uniforms", .record (e.uniforms.map Uniform.toJson).toList),
      ("code", templateJson e.code)]
      ++ Uniform.optionalMember "uv_code" templateJson e.uvCode
      ++ [("functions", .list (e.functions.map .string)), ("break_pass", .bool e.breaksPass)])

/-- The fields of an effect that have been read. -/
structure Draft where
  name : Option String
  displayName : Option String
  uniforms : Option (KeyMap Uniform)
  code : Option Template
  uvCode : Option (Option Template)
  functions : Option (List String)
  breaksPass : Option Bool

namespace Draft

def blank : Draft := ⟨none, none, none, none, none, none, none⟩

/-- The fields of an effect around which `depth` arrays and objects are open. -/
def decoder (depth : Nat) : Json.RecordDecoder Draft where
  title := "struct EffectDefinition"
  fields := [
    Json.field "name" name (fun d x => { d with name := some x }) Json.decodeString,
    Json.field "display_name" displayName (fun d x => { d with displayName := some x })
      Json.decodeString,
    Json.field "uniforms" uniforms (fun d x => { d with uniforms := some x })
      (Json.decodeMap (Uniform.decode (depth + 2))),
    Json.field "code" code (fun d x => { d with code := some x }) Json.decodeTemplate,
    Json.field "uv_code" uvCode (fun d x => { d with uvCode := some x })
      (Json.decodeOption Json.decodeTemplate),
    Json.field "functions" functions (fun d x => { d with functions := some x })
      (Json.decodeList Json.decodeString),
    Json.field "break_pass" breaksPass (fun d x => { d with breaksPass := some x }) Json.decodeBool]

end Draft

/-- The effect of a JSON value with `depth` arrays and objects open around it. -/
def decode (depth : Nat) (j : Json) : Except Json.Error Effect := do
  let d ← (Draft.decoder depth).decode .blank j
  return {
    name := d.name.getD ""
    displayName := d.displayName.getD ""
    uniforms := d.uniforms.getD .empty
    code := d.code.getD .empty
    uvCode := d.uvCode.join
    functions := d.functions.getD []
    breaksPass := d.breaksPass.getD false }

def ofText (text : String) : Except Json.Error Effect := Json.decodeDocument (decode 0) text

end Effect

end FxStack
