import FxStack.Notice
import FxStack.Random
import FxStack.Stack.Saved

/-!
# Stacks

A stack is an ordered list of entries, with the passes that they were last compiled into. Changes to
the list mark the stack dirty; changes to override values do not, since values are looked up in every
frame.
-/

namespace FxStack

/-- The program that smooths edges: not needed so far, compiled, or rejected by the device. -/
inductive AntialiasProgram where
  | notBuilt
  | ready (p : ProgramId)
  | failed
deriving DecidableEq

/-- An ordered list of effects to be applied to images. -/
structure Stack where
  entries : List Entry
  antialias : Bool
  /-- Whether the final image is interpolated. -/
  filter : Bool
  /-- Whether the list has changed since the last compilation. -/
  dirty : Bool
  passes : List Pass
  diagnostics : Diagnostics
  /-- The version of the catalog that the passes were compiled from. -/
  compiledVersion : Option CatalogVersion
  antialiasProgram : AntialiasProgram
  random : Generator
  /-- The number of the next entry. -/
  nextNumber : Nat

namespace Stack

/-- The stack without entries. -/
def new (random : Generator) : Stack where
  entries := []
  antialias := false
  filter := true
  dirty := true
  passes := []
  diagnostics := .empty
  compiledVersion := none
  antialiasProgram := .notBuilt
  random
  nextNumber := 1

variable (s : Stack)

/-! ### Looking -/

def indexOf? (id : EntryId) : Option Nat := s.entries.findIdx? (·.id = id)

def entryOf? (id : EntryId) : Option Entry := s.entries.find? (·.id = id)

def entryAt? (index : Nat) : Option Entry := s.entries[index]?

def override? (id : EntryId) (key : String) : Option Value := (s.entryOf? id).bind (·.override? key)

/-! ### Changing the list -/

/-- The stack with one more entry at the end, and its handle. The name is not looked up. -/
def add (name : String) : EntryId × Stack :=
  (⟨s.nextNumber⟩,
    { s with
      entries := s.entries ++ [⟨⟨s.nextNumber⟩, name, .empty⟩]
      nextNumber := s.nextNumber + 1
      dirty := true })

/-- The stack without an entry, and the entry. -/
def remove (id : EntryId) : Option Entry × Stack :=
  match s.indexOf? id with
  | none => (none, s)
  | some i => (s.entries[i]?, { s with entries := s.entries.eraseIdx i, dirty := true })

/-- The place at distance `offset` from `place` in a list of `length` elements, or else the nearer end
    of the list. -/
def clampPlace (length place : Nat) (offset : Int) : Nat :=
  min (place + offset : Int).toNat (length - 1)

/-- The stack with an entry moved by `offset` places as far as the list goes, and its new place. -/
def move (id : EntryId) (offset : Int) : Option Nat × Stack :=
  match s.indexOf? id with
  | none => (none, s)
  | some place =>
    let target := clampPlace s.entries.length place offset
    if target = place then (some target, s)
    else
      match s.entries[place]? with
      | none => (some target, s)
      | some e =>
        (some target,
          { s with entries := (s.entries.eraseIdx place).insertIdx target e, dirty := true })

/-- The stack without entries. -/
def clear : Stack := if s.entries.isEmpty then s else { s with entries := [], dirty := true }

def markDirty : Stack := { s with dirty := true }

/-! ### Changing values -/

/-- The stack with `f` applied to the overrides of an entry. -/
def updateOverrides (id : EntryId) (f : KeyMap Value → KeyMap Value) : Stack :=
  { s with
    entries := s.entries.map fun e => if e.id = id then { e with overrides := f e.overrides } else e }

def setOverride (id : EntryId) (key : String) (value : Value) : Except Error Stack :=
  if key = Wording.entryNameKey then .error (.invalidUniform key .reservedKey)
  else if (s.entryOf? id).isNone then .error (.unknownEntry id)
  else .ok (s.updateOverrides id fun m => m.insert key value)

/-- The stack without an override, and the value it had. -/
def clearOverride (id : EntryId) (key : String) : Option Value × Stack :=
  (s.override? id key, s.updateOverrides id fun m => m.erase key)

def setAntialias (on : Bool) : Stack := { s with antialias := on }

def setFilter (on : Bool) : Stack := { s with filter := on }

def setRandom (random : Generator) : Stack := { s with random }

/-! ### Saving and loading -/

def saved : SavedStack :=
  ⟨s.antialias, s.filter, s.entries.map fun e => ⟨e.name, e.overrides⟩⟩

/-- The entries of saved entries, of which the first has number `number`. -/
def loadEntries (number : Nat) : List SavedEntry → List Entry
  | [] => []
  | c :: cs =>
    ⟨⟨number⟩, c.name, c.overrides.erase Wording.entryNameKey⟩ :: loadEntries (number + 1) cs

/-- The notice that the override under the key of the name is dropped. -/
def loadNotice? (c : SavedEntry) : Option Notice :=
  if c.overrides.contains Wording.entryNameKey then some (.droppedOverride c.name) else none

/-- The stack with the entries and flags of a saved one. -/
def load (c : SavedStack) : Stack × List Notice :=
  ({ s with
      entries := loadEntries s.nextNumber c.entries
      nextNumber := s.nextNumber + c.entries.length
      antialias := c.antialias
      filter := c.filter
      dirty := true },
    c.entries.filterMap loadNotice?)

/-! ### Descriptions -/

def describeBool (b : Bool) : String := if b then "true" else "false"

def describe : String :=
  "Stack \x7b entries: [" ++ ", ".intercalate (s.entries.map Entry.describe) ++ "], antialias: "
    ++ describeBool s.antialias ++ ", filter: " ++ describeBool s.filter ++ ", dirty: "
    ++ describeBool s.dirty ++ ", passes: " ++ toString s.passes.length ++ ", .. \x7d"

end Stack

end FxStack
