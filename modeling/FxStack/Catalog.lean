import FxStack.Effect

/-!
# Catalogs

A catalog holds the effects and the shared functions that passes are compiled from. Its version
changes with every registration, and no two catalogs have versions in common, so a compiled pass can
tell by the version whether it is still up to date.
-/

namespace FxStack

/-! ### Identities -/

/-- What tells one catalog from all others. -/
structure CatalogId where
  number : Nat
deriving DecidableEq, Inhabited

/-- The source of identities: the number of those given out. -/
structure Identities where
  issued : Nat
deriving DecidableEq

namespace Identities

def initial : Identities := ⟨0⟩

/-- An identity that was not given out before. -/
def next (ids : Identities) : CatalogId × Identities := (⟨ids.issued⟩, ⟨ids.issued + 1⟩)

end Identities

/-- One state of one catalog: which catalog it is, and how many registrations it has seen. -/
structure CatalogVersion where
  catalog : CatalogId
  generation : Nat
deriving DecidableEq

/-! ### Catalogs -/

/-- The effects and shared functions that stacks draw from. -/
structure Catalog where
  id : CatalogId
  effects : KeyMap Effect
  functions : KeyMap String
  generation : Nat

/-- The effects and functions that a text or a program adds to a catalog. -/
structure CatalogExtension where
  functions : KeyMap String
  effects : KeyMap Effect

namespace Catalog

/-- The catalog without effects and functions. -/
def empty (id : CatalogId) : Catalog := ⟨id, .empty, .empty, 0⟩

/-- A catalog with the same contents that is extended independently. -/
def copy (c : Catalog) (id : CatalogId) : Catalog := { c with id }

def version (c : Catalog) : CatalogVersion := ⟨c.id, c.generation⟩

def effect? (c : Catalog) (name : String) : Option Effect := c.effects.get? name

def function? (c : Catalog) (name : String) : Option String := c.functions.get? name

def contains (c : Catalog) (name : String) : Bool := c.effects.contains name

/-- The names of the effects in increasing order. -/
def effectNames (c : Catalog) : List String := c.effects.keys

/-! ### Registration -/

/-- The catalog with a shared function, replacing the one of that name. -/
def registerFunction (c : Catalog) (name body : String) : Catalog :=
  { c with functions := c.functions.insert name body, generation := c.generation + 1 }

/-- The catalog with an effect, and the effect of that name that it replaces. -/
def register (c : Catalog) (name : String) (e : Effect) : Except Error (Option Effect × Catalog) := do
  e.validate
  return (c.effect? name,
    { c with effects := c.effects.insert name (e.named name), generation := c.generation + 1 })

/-- The catalog with everything in a file, unless an effect in it is invalid. -/
def extendWith (c : Catalog) (file : CatalogExtension) : Except Error Catalog := do
  file.effects.values.forM Effect.validate
  let c := file.functions.toList.foldl (fun c f => c.registerFunction f.1 f.2) c
  file.effects.toList.foldlM (fun c e => (c.register e.1 e.2).map (·.2)) c

end Catalog

/-! ### JSON text -/

namespace CatalogExtension

/-- The fields of a file that have been read. -/
structure Draft where
  functions : Option (KeyMap String)
  effects : Option (KeyMap Effect)

namespace Draft

def blank : Draft := ⟨none, none⟩

def decoder : Json.RecordDecoder Draft where
  title := "struct CatalogFile"
  fields := [
    Json.field "functions" functions (fun d x => { d with functions := some x })
      (Json.decodeMap Json.decodeString),
    Json.field "effects" effects (fun d x => { d with effects := some x })
      (Json.decodeMap (Effect.decode 2))]

end Draft

def decode (j : Json) : Except Json.Error CatalogExtension := do
  let d ← Draft.decoder.decode .blank j
  return ⟨d.functions.getD .empty, d.effects.getD .empty⟩

def ofText (text : String) : Except Json.Error CatalogExtension := Json.decodeDocument decode text

end CatalogExtension

namespace Catalog

def extend (c : Catalog) (text : String) : Except Error Catalog := do
  let file ← (CatalogExtension.ofText text).mapError .json
  c.extendWith file

def ofText (id : CatalogId) (text : String) : Except Error Catalog := (empty id).extend text

end Catalog

end FxStack
