import FxStack.Image
import FxStack.KeyMap

/-!
# Files

The files that the command line reads and writes, and folders that hold such files. An image is read
and written only under a name that ends as image names do.
-/

namespace FxStack.CommandLine

/-! ### Paths -/

/-- The parts of a path between slashes, of which those that stay in the same directory are left out. -/
def components (path : String) : List String :=
  (path.splitOn "/").filter fun part => part ≠ "" ∧ part ≠ "."

/-- The part of a path after its last slash. -/
def fileName (path : String) : String := (path.splitOn "/").getLast?.getD ""

/-- The part of a file name after its last point, which is not its first character. -/
def extension? (name : String) : Option String :=
  match (name.splitOn ".").reverse with
  | [] | [_] => none
  | [_, ""] => none
  | last :: _ => some last

def isImagePath (path : String) : Bool :=
  (extension? (fileName path)).any fun e => e.toLower = "png" || e.toLower = "apng"

/-! ### Files -/

/-- What the command line may ask about files. -/
structure Files where
  text? : String → Option String
  image? : String → Option Image
  /-- Whether an image can be written to a path. -/
  isWritable : String → Bool

/-! ### Folders -/

/-- The files in and below the working directory, by their paths from there. -/
structure Folder where
  texts : KeyMap String
  images : KeyMap Image

namespace Folder

def ofLists (texts : List (String × String)) (images : List (String × Image)) : Folder :=
  let path (p : String) : String := "/".intercalate (components p)
  ⟨.ofList (texts.map fun f => (path f.1, f.2)), .ofList (images.map fun f => (path f.1, f.2))⟩

def paths (f : Folder) : List String := f.texts.keys ++ f.images.keys

/-- Whether the parts of a path lead to a directory that holds a file, or to the working directory. -/
def hasDirectory (f : Folder) (parts : List String) : Bool :=
  parts.isEmpty || f.paths.any fun p => parts.isPrefixOf (components p).dropLast

/-- The directory reached by the given parts from the directory `place`, both last part first. Only
    directories that exist can be entered, and none above the working directory. -/
def enter? (f : Folder) (place : List String) : List String → Option (List String)
  | [] => some place
  | ".." :: parts =>
    match place with
    | [] => none
    | _ :: above => enter? f above parts
  | part :: parts =>
    if f.hasDirectory (part :: place).reverse then enter? f (part :: place) parts else none

/-- The path from the working directory of the file that a path leads to, if there can be one. -/
def locate? (f : Folder) (path : String) : Option String := do
  let name := fileName path
  if path.startsWith "/" || name = "" || name = "." || name = ".." then none
  else
    let place ← f.enter? [] (components path).dropLast
    return "/".intercalate (name :: place).reverse

/-- The files of a folder as the command line sees them. -/
def files (f : Folder) : Files where
  text? path := (f.locate? path).bind f.texts.get?
  image? path := if isImagePath path then (f.locate? path).bind f.images.get? else none
  isWritable path := isImagePath path && (f.locate? path).any fun p => !f.hasDirectory (components p)

def write (f : Folder) (path : String) (i : Image) : Folder :=
  match f.locate? path with
  | none => f
  | some p => ⟨f.texts.erase p, f.images.insert p i⟩

end Folder

end FxStack.CommandLine
