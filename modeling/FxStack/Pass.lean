import FxStack.Catalog
import FxStack.Stack.Entry

/-!
# Passes

Compilation turns a list of entries into passes. An entry whose effect is in the catalog becomes a
member of a pass; the members are cut into runs before each effect that always starts a pass, and each
run is one pass. Whatever is generated for a member carries its position in the stack.
-/

namespace FxStack

/-! ### Members -/

/-- An entry in a pass. -/
structure Member where
  /-- The position of the entry in the stack. -/
  index : Nat
  entry : EntryId
  effect : Effect
deriving DecidableEq

namespace Member

/-- The lines that declare the uniforms of a member, in the order of their keys. -/
def declarations (m : Member) : List String := m.effect.uniforms.values.map (·.declaration m.index)

/-- Code under a line that names the effect and the position; blank code is left out. -/
def block (m : Member) (code : Template) : String :=
  let body := Text.trim (code.instantiate m.index).toList
  if body.isEmpty then ""
  else "// " ++ m.effect.name ++ " #" ++ toString m.index ++ "\n" ++ String.ofList body ++ "\n"

def colorBlock (m : Member) : String := m.block m.effect.code

def uvBlock (m : Member) : String := (m.effect.uvCode.map m.block).getD ""

end Member

/-! ### Passes -/

/-- A function that effects share, with its code. -/
structure SharedFunction where
  name : String
  body : String
deriving DecidableEq

/-- One full-screen program over consecutive entries. -/
structure Pass where
  members : List Member
  functions : List SharedFunction
  /-- The text of the program, empty until the program has been built. -/
  source : String
  /-- The program, unless it has not been built or did not compile. -/
  program : Option ProgramId
deriving DecidableEq

namespace Pass

/-- The position of the first member. -/
def firstIndex (p : Pass) : Nat := (p.members.head?.map (·.index)).getD 0

def declarations (p : Pass) : List String := p.members.flatMap Member.declarations

def colorCode (p : Pass) : String := String.join (p.members.map Member.colorBlock)

def uvCode (p : Pass) : String := String.join (p.members.map Member.uvBlock)

def effectNames (p : Pass) : List String := p.members.map (·.effect.name)

/-- The functions that members name and the catalog has, each at its first mention. -/
def functionsOf (catalog : Catalog) (members : List Member) : List SharedFunction :=
  (members.flatMap (·.effect.functions)).eraseDups.filterMap fun name =>
    (catalog.function? name).map (SharedFunction.mk name)

/-- The pass of a run of members, not yet built. -/
def ofMembers (catalog : Catalog) (members : List Member) : Pass :=
  ⟨members, functionsOf catalog members, "", none⟩

end Pass

/-! ### Problems -/

/-- A name that the catalog does not have, with the position of the entry that needs it. -/
inductive Issue where
  | unknownEffect (index : Nat) (name : String)
  | missingFunction (index : Nat) (effect function : String)
deriving DecidableEq

/-- The problems of a compilation, none of which stops it. -/
structure Diagnostics where
  unknownEffects : List (Nat × String)
  missingFunctions : List (Nat × String)
deriving DecidableEq

namespace Diagnostics

def empty : Diagnostics := ⟨[], []⟩

def isClean (d : Diagnostics) : Bool := d.unknownEffects.isEmpty && d.missingFunctions.isEmpty

def ofIssues (issues : List Issue) : Diagnostics where
  unknownEffects := issues.filterMap fun
    | .unknownEffect i name => some (i, name)
    | .missingFunction .. => none
  missingFunctions := issues.filterMap fun
    | .missingFunction i _ function => some (i, function)
    | .unknownEffect .. => none

end Diagnostics

/-! ### Compilation -/

/-- The passes of a list of entries, and what was missing. -/
structure Compilation where
  passes : List Pass
  issues : List Issue

namespace Compilation

variable (catalog : Catalog)

def diagnostics (c : Compilation) : Diagnostics := .ofIssues c.issues

/-- The member that an entry at position `i` becomes, if its effect is known. -/
def member? (e : Entry × Nat) : Option Member :=
  (catalog.effect? e.1.name).map (Member.mk e.2 e.1.id)

def members (entries : List Entry) : List Member := entries.zipIdx.filterMap (member? catalog)

/-- Members cut before each one whose effect always starts a pass. -/
def runs (members : List Member) : List (List Member) :=
  members.splitBy fun _ m => !m.effect.breaksPass

/-- The names that an entry at position `i` needs and the catalog does not have. -/
def issuesOf (e : Entry × Nat) : List Issue :=
  match catalog.effect? e.1.name with
  | none => [.unknownEffect e.2 e.1.name]
  | some effect =>
    (effect.functions.filter fun f => (catalog.function? f).isNone).map
      (.missingFunction e.2 e.1.name)

def ofEntries (entries : List Entry) : Compilation :=
  ⟨(runs (members catalog entries)).map (Pass.ofMembers catalog),
   entries.zipIdx.flatMap (issuesOf catalog)⟩

end Compilation

end FxStack
