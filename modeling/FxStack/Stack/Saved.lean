import FxStack.KeyMap
import FxStack.Error
import FxStack.Uniform.Json

/-!
# Saved stacks

The form in which stacks are saved. An entry is one object, in which the name of the effect stands
beside the overrides, so no override can use that key.
-/

namespace FxStack

/-- A saved entry. -/
structure SavedEntry where
  name : String
  overrides : KeyMap Value
deriving DecidableEq

/-- A saved stack. -/
structure SavedStack where
  antialias : Bool
  filter : Bool
  entries : List SavedEntry
deriving DecidableEq

namespace SavedEntry

/-- Equality in which singles are compared by value. -/
def sameValue (a b : SavedEntry) : Bool :=
  a.name == b.name && a.overrides.keys == b.overrides.keys
    && (a.overrides.values.zip b.overrides.values).all fun (v, w) => v.sameValue w

def toJson (e : SavedEntry) : Json :=
  .record ((Wording.entryNameKey, .string e.name) :: (e.overrides.map Value.toJson).toList)

/-- The overrides of the members of an entry, of which the last with a key counts. -/
def decodeOverrides (m : KeyMap Value) : List (String × Json) → Except Json.Error (KeyMap Value)
  | [] => .ok m
  | (k, j) :: rest =>
    match Value.ofShape? j with
    | some v => decodeOverrides (m.insert k v) rest
    | none => .error .shapeless

/-- The entry of some more members. The name is checked where it stands, the overrides when the whole
    entry has been read. -/
def decodeMembers (depth : Nat) (name : Option String) (overrides : List (String × Json)) :
    Members → Except Json.Error SavedEntry
  | .done => do
    match name with
    | none => .error (.missingField Wording.entryNameKey)
    | some name =>
      let overrides ← decodeOverrides .empty overrides
      return ⟨name, overrides⟩
  | .member none _ _ => .error .malformed
  | .member (some k) j rest =>
    if k = Wording.entryNameKey then
      if name.isSome then .error (.duplicateField k)
      else do
        let name ← Json.decodeString j
        decodeMembers depth (some name) overrides rest
    else
      match j.keep depth with
      | .ok () => decodeMembers depth name (overrides ++ [(k, j)]) rest
      | .error b => .error (.ofBreak b)
  | .cut b | .noKey b _ => .error (.ofBreak b)

/-- The entry of a JSON value with `depth` arrays and objects open around it. -/
def decode (depth : Nat) : Json → Except Json.Error SavedEntry
  | .object ms => decodeMembers (depth + 1) none [] ms
  | j => .error (Json.mismatch "struct EntryConfig" j)

end SavedEntry

namespace SavedStack

/-- Equality in which singles are compared by value. -/
def sameValue (a b : SavedStack) : Bool :=
  a.antialias == b.antialias && a.filter == b.filter && a.entries.length == b.entries.length
    && (a.entries.zip b.entries).all fun (e, f) => e.sameValue f

def toJson (c : SavedStack) : Json :=
  .record [("antialias", .bool c.antialias), ("filter", .bool c.filter),
    ("entries", .list (c.entries.map SavedEntry.toJson))]

def text (c : SavedStack) : String := c.toJson.pretty

/-- The fields of a saved stack that have been read. -/
structure Draft where
  antialias : Option Bool
  filter : Option Bool
  entries : Option (List SavedEntry)

namespace Draft

def blank : Draft := ⟨none, none, none⟩

def decoder : Json.RecordDecoder Draft where
  title := "struct StackConfig"
  fields := [
    Json.field "antialias" antialias (fun d x => { d with antialias := some x }) Json.decodeBool,
    Json.field "filter" filter (fun d x => { d with filter := some x }) Json.decodeBool,
    Json.field "entries" entries (fun d x => { d with entries := some x })
      (Json.decodeList (SavedEntry.decode 2))]

end Draft

/-- The saved stack of a JSON value. Without a filter flag the filter is on. -/
def decode (j : Json) : Except Json.Error SavedStack := do
  let d ← Draft.decoder.decode .blank j
  return ⟨d.antialias.getD false, d.filter.getD true, d.entries.getD []⟩

def ofText (text : String) : Except Json.Error SavedStack := Json.decodeDocument decode text

end SavedStack

end FxStack
