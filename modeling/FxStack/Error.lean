import FxStack.Json.Decode
import FxStack.Uniform.Value

/-!
# Errors

What can be wrong with a catalog, an effect or an operation on a stack, and the wording of these
problems.
-/

namespace FxStack

/-- The handle of an entry of a stack. -/
structure EntryId where
  number : Nat
deriving DecidableEq, Inhabited

/-! ### Wording -/

namespace Wording

/-- The key under which a saved entry holds the name of its effect. -/
def entryNameKey : String := "name"

def unknownEffect (name : String) : String := "unknown effect: " ++ name

def unknownEntry (number : Nat) : String := "no stack entry with id " ++ toString number

def template (text : String) : String := "invalid code template: " ++ text

def invalidUniform (key text : String) : String := "invalid uniform `" ++ key ++ "`: " ++ text

def compile (pass : Nat) (text : String) : String :=
  "pass " ++ toString pass ++ " failed to compile: " ++ text

def missingTexture (name : String) : String := "texture `" ++ name ++ "` could not be resolved"

def device (text : String) : String := "device error: " ++ text

end Wording

/-! ### Problems -/

/-- What is wrong with a declared uniform or an override. -/
inductive UniformFault where
  | reservedKey
  | repeatedName (name : String)
  | notIdentifier (name : String)
  | trailingDigit (name : String)
  | unfitDefault (value : Value) (type : ShaderType)
deriving DecidableEq

def UniformFault.text : UniformFault → String
  | .reservedKey => "`" ++ Wording.entryNameKey ++ "` is reserved for the effect name"
  | .repeatedName name => "`" ++ name ++ "` is already declared by another key"
  | .notIdentifier name => "`" ++ name ++ "` is not a GLSL identifier"
  | .trailingDigit name => "`" ++ name ++ "` must not end with a digit"
  | .unfitDefault value type => "default " ++ value.describe ++ " does not fit " ++ type.name

/-- Why an operation on a catalog or a stack is refused. -/
inductive Error where
  | unknownEntry (id : EntryId)
  | template (e : TemplateError)
  | invalidUniform (key : String) (fault : UniformFault)
  | json (e : Json.Error)
deriving DecidableEq

def Error.message : Error → String
  | .unknownEntry id => Wording.unknownEntry id.number
  | .template e => Wording.template e.message
  | .invalidUniform key fault => Wording.invalidUniform key fault.text
  | .json e => "invalid JSON: " ++ e.message

end FxStack
