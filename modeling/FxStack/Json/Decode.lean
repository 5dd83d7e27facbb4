import FxStack.Json.Number
import FxStack.Json.Reader
import FxStack.KeyMap
import FxStack.Template
import FxStack.Text.Quoted

/-!
# Decoding JSON trees

Decoders look at a tree from left to right and answer the first problem they meet, be it a fault of
the text or a value that does not fit. A value that is kept is held to stricter rules than one that
is skipped: its strings must not be garbled, its numerals must be in range, and it may not be nested
too deeply.
-/

namespace FxStack.Json

/-! ### Problems -/

/-- What stands where something else is expected. -/
inductive Found where
  | null
  | bool (b : Bool)
  | number (n : Number)
  | string (s : String)
  | array
  | object
deriving DecidableEq

/-- Why a text does not decode. -/
inductive Error where
  | truncated
  | malformed
  | wrongType (found : Found) (expected : String)
  | missingField (name : String)
  | duplicateField (name : String)
  | unknownVariant (name : String) (known : List String)
  /-- A record written as an array lacks the field at `length`. -/
  | shortRecord (length : Nat) (expected : String) (size : Nat)
  /-- A value has none of the shapes of a uniform value. -/
  | shapeless
  | template (e : TemplateError)
deriving DecidableEq

def Found.text : Found → String
  | .null => "null"
  | .bool b => "boolean `" ++ (if b then "true" else "false") ++ "`"
  | .number (.integer i) => "integer `" ++ toString i ++ "`"
  | .number (.real x) => "floating point `" ++ x.describe ++ "`"
  | .string s => "string " ++ Text.quoted s
  | .array => "sequence"
  | .object => "map"

namespace Error

def ofBreak : Break → Error
  | .truncated => .truncated
  | .malformed => .malformed

/-- Whether the text is JSON up to the problem and its content is at fault. -/
def isData : Error → Bool
  | .truncated | .malformed => false
  | _ => true

def message : Error → String
  | .truncated => "unexpected end of text"
  | .malformed => "malformed text"
  | .wrongType found expected => "invalid type: " ++ found.text ++ ", expected " ++ expected
  | .missingField name => "missing field `" ++ name ++ "`"
  | .duplicateField name => "duplicate field `" ++ name ++ "`"
  | .unknownVariant name known =>
    "unknown variant `" ++ name ++ "`, expected one of "
      ++ ", ".intercalate (known.map fun k => "`" ++ k ++ "`")
  | .shortRecord length expected size =>
    "invalid length " ++ toString length ++ ", expected " ++ expected ++ " with " ++ toString size
      ++ " elements"
  | .shapeless => "data did not match any variant of untagged enum UniformValue"
  | .template e => e.message

end Error

/-! ### Whole values -/

/-- The number of arrays and objects that may be open around a kept value. -/
def depthLimit : Nat := 127

mutual

/-- The first fault of a value that is kept whole, with `depth` arrays and objects open around it. -/
def keep (depth : Nat) : Json → Except Break Unit
  | .null | .bool _ | .string _ => .ok ()
  | .number n => if n.number?.isSome then .ok () else .error .malformed
  | .garbled => .error .malformed
  | .array is => if depth < depthLimit then keepItems (depth + 1) is else .error .malformed
  | .object ms => if depth < depthLimit then keepMembers (depth + 1) ms else .error .malformed
  | .broken b => .error b.kept

def keepItems (depth : Nat) : Items → Except Break Unit
  | .done => .ok ()
  | .item j rest =>
    match keep depth j with
    | .ok () => keepItems depth rest
    | .error b => .error b
  | .cut b => .error b

def keepMembers (depth : Nat) : Members → Except Break Unit
  | .done => .ok ()
  | .member none _ _ => .error .malformed
  | .member (some _) j rest =>
    match keep depth j with
    | .ok () => keepMembers depth rest
    | .error b => .error b
  | .cut b | .noKey b _ => .error b

end

mutual

/-- The first fault of a value that is skipped. -/
def skip : Json → Except Break Unit
  | .null | .bool _ | .string _ | .number _ | .garbled => .ok ()
  | .array is => skipItems is
  | .object ms => skipMembers ms
  | .broken b => .error b.skipped

def skipItems : Items → Except Break Unit
  | .done => .ok ()
  | .item j rest =>
    match skip j with
    | .ok () => skipItems rest
    | .error b => .error b
  | .cut b => .error b

def skipMembers : Members → Except Break Unit
  | .done => .ok ()
  | .member _ j rest =>
    match skip j with
    | .ok () => skipMembers rest
    | .error b => .error b
  | .cut b | .noKey _ b => .error b

end

/-! ### Scalars -/

/-- The problem of a value that stands where `expected` is due. A scalar is read to its end first. -/
def mismatch (expected : String) : Json → Error
  | .null => .wrongType .null expected
  | .bool b => .wrongType (.bool b) expected
  | .number n =>
    match n.number? with
    | some x => .wrongType (.number x) expected
    | none => .malformed
  | .string s => .wrongType (.string s) expected
  | .garbled => .malformed
  | .array _ => .wrongType .array expected
  | .object _ => .wrongType .object expected
  | .broken b => .ofBreak b.kept

def decodeBool : Json → Except Error Bool
  | .bool b => .ok b
  | j => .error (mismatch "a boolean" j)

def decodeString : Json → Except Error String
  | .string s => .ok s
  | j => .error (mismatch "a string" j)

def decodeSingle : Json → Except Error Single
  | .number n =>
    match n.number? with
    | some x => .ok x.toSingle
    | none => .error .malformed
  | j => .error (mismatch "f32" j)

/-- A value that may be null. -/
def decodeOption {α : Type} (decode : Json → Except Error α) : Json → Except Error (Option α)
  | .null => .ok none
  | j => (decode j).map some

def decodeTemplate (j : Json) : Except Error Template := do
  let s ← decodeString j
  (Template.parse s).mapError .template

/-! ### Lists and maps -/

def decodeItems {α : Type} (decode : Json → Except Error α) : Items → Except Error (List α)
  | .done => .ok []
  | .item j rest => do
    let x ← decode j
    let xs ← decodeItems decode rest
    return x :: xs
  | .cut b => .error (.ofBreak b)

def decodeList {α : Type} (decode : Json → Except Error α) : Json → Except Error (List α)
  | .array is => decodeItems decode is
  | j => .error (mismatch "a sequence" j)

def decodeEntries {α : Type} (decode : Json → Except Error α) (m : KeyMap α) :
    Members → Except Error (KeyMap α)
  | .done => .ok m
  | .member none _ _ => .error .malformed
  | .member (some k) j rest => do
    let x ← decode j
    decodeEntries decode (m.insert k x) rest
  | .cut b | .noKey b _ => .error (.ofBreak b)

/-- An object of values of one kind, of which the last with a key counts. -/
def decodeMap {α : Type} (decode : Json → Except Error α) : Json → Except Error (KeyMap α)
  | .object ms => decodeEntries decode .empty ms
  | j => .error (mismatch "a map" j)

/-! ### Names -/

/-- A name out of a known list, written as a string or as an object with this key and null. -/
def decodeName {α : Type} (ofName? : String → Option α) (known : List String) : Json → Except Error α
  | .string s =>
    match ofName? s with
    | some x => .ok x
    | none => .error (.unknownVariant s known)
  | .object .done => .error .malformed
  | .object (.cut b) | .object (.noKey b _) => .error (.ofBreak b)
  | .object (.member none _ _) => .error .malformed
  | .object (.member (some s) j rest) =>
    match ofName? s with
    | none => .error (.unknownVariant s known)
    | some x =>
      match j, rest with
      | .null, .done => .ok x
      | .null, .cut b => .error (.ofBreak b)
      | .null, _ => .error .malformed
      | j, _ => .error (mismatch "unit" j)
  | .broken .missing => .error .truncated
  | .broken (.string kept _) => .error (.ofBreak kept)
  | _ => .error .malformed

/-! ### Records -/

/-- How a record is read: what it is called, and for each field, in the order of an array, how the
    fields read so far take in one more. -/
structure RecordDecoder (σ : Type) where
  title : String
  fields : List (String × (σ → Json → Except Error σ))

/-- A field that may be given once. -/
def field {σ α : Type} (name : String) (given : σ → Option α) (put : σ → α → σ)
    (decode : Json → Except Error α) : String × (σ → Json → Except Error σ) :=
  (name, fun s j => if (given s).isSome then .error (.duplicateField name) else (decode j).map (put s))

namespace RecordDecoder

variable {σ : Type} (r : RecordDecoder σ)

/-- The fields after some more members; unknown ones are skipped. -/
def decodeMembers (s : σ) : Members → Except Error σ
  | .done => .ok s
  | .member none _ _ => .error .malformed
  | .member (some k) j rest =>
    match r.fields.lookup k with
    | some take => do
      let s ← take s j
      decodeMembers s rest
    | none =>
      match skip j with
      | .ok () => decodeMembers s rest
      | .error b => .error (.ofBreak b)
  | .cut b | .noKey b _ => .error (.ofBreak b)

/-- The fields after some more items, of which there may be no more than fields. -/
def decodeItems (s : σ) (fields : List (String × (σ → Json → Except Error σ))) :
    Items → Except Error σ
  | .done => .ok s
  | .item j rest =>
    match fields with
    | [] => .error .malformed
    | (_, take) :: fields => do
      let s ← take s j
      decodeItems s fields rest
  | .cut b => .error (.ofBreak b)

/-- The value of a field without which there is no record; `index` is its place in an array. -/
def require {α : Type} (j : Json) (name : String) (index : Nat) : Option α → Except Error α
  | some x => .ok x
  | none =>
    match j with
    | .array _ => .error (.shortRecord index r.title r.fields.length)
    | _ => .error (.missingField name)

/-- The fields of a record given as an object or as an array of its first fields. -/
def decode (blank : σ) : Json → Except Error σ
  | .object ms => r.decodeMembers blank ms
  | .array is => RecordDecoder.decodeItems blank r.fields is
  | j => .error (mismatch r.title j)

end RecordDecoder

/-! ### Documents -/

/-- The value of a whole text: nothing but blanks may follow it. -/
def decodeDocument {α : Type} (decode : Json → Except Error α) (text : String) : Except Error α := do
  let doc := read text
  let x ← decode doc.root
  if doc.trailing then .error .malformed else return x

end FxStack.Json
