import FxStack.Catalog.Builtin
import FxStack.CommandLine.Files
import FxStack.CommandLine.Options
import FxStack.Device.Reference
import FxStack.Frame

/-!
# Running the command line

A saved stack is applied to an image on the reference device, and the display is written to a file.
-/

namespace FxStack.CommandLine

/-! ### Problems -/

/-- What a text file is read for. -/
inductive TextRole where
  | catalog | stack
deriving DecidableEq

def TextRole.name : TextRole → String
  | .catalog => "catalog"
  | .stack => "stack"

/-- Why the program ends without a result. -/
inductive Failure where
  | arguments (e : ArgumentError)
  | required (flag : String)
  | builtin (e : Error)
  | unreadable (role : TextRole) (path : String)
  | invalid (role : TextRole) (path : String) (e : Error)
  | noImage (path : String)
  | unwritable (path : String)

/-- The problem without its cause. -/
def Failure.headline : Failure → String
  | .arguments e => e.headline
  | .required flag => flag ++ " is required\n" ++ usage
  | .builtin _ => "built-in effect catalog is invalid"
  | .unreadable role path => "failed to read " ++ role.name ++ " " ++ path
  | .invalid role path _ => "invalid " ++ role.name ++ " " ++ path
  | .noImage path => "failed to load " ++ path
  | .unwritable path => "failed to write " ++ path

/-! ### Runs -/

/-- The least level of the notices that are shown. -/
def Options.logLevel (o : Options) : Level := if o.verbose then .trace else .warn

/-- The image that a run has made. -/
structure Product where
  path : String
  image : Image
  /-- The lines that are shown once the image is written. -/
  summary : String

/-- What a run comes to. -/
structure Outcome where
  /-- The lines that are shown before the image is written. -/
  listing : String
  notices : List Notice
  result : Except Failure Product

namespace Outcome

/-- A run that ends before the stack is applied. -/
def failed (e : Failure) : Outcome := ⟨"", [], .error e⟩

/-- All that a run shows if its image can be written. -/
def stdout (o : Outcome) : String :=
  o.listing ++ match o.result with
    | .ok p => p.summary
    | .error _ => ""

/-- The folder after its image has been written. -/
def folder (o : Outcome) (f : Folder) : Folder :=
  match o.result with
  | .ok p => f.write p.path p.image
  | .error _ => f

end Outcome

/-- What a run needs: the paths of its files. -/
structure Job where
  stack : String
  input : String
  output : String

/-- The paths that the options must give. -/
def jobOf (o : Options) : Except Failure Job := do
  let some stack := o.stack | .error (.required "--stack")
  let some input := o.input | .error (.required "--input")
  let some output := o.output | .error (.required "--output")
  return ⟨stack, input, output⟩

/-- The catalog of a run: the built-in one, extended by a file. -/
def catalogOf (o : Options) (files : Files) : Except Failure Catalog := do
  let catalog ← (Catalog.builtin ⟨0⟩).mapError .builtin
  match o.catalog with
  | none => return catalog
  | some path =>
    let some text := files.text? path | .error (.unreadable .catalog path)
    (catalog.extend text).mapError (.invalid .catalog path)

def savedOf (job : Job) (files : Files) : Except Failure SavedStack := do
  let some text := files.text? job.stack | .error (.unreadable .stack job.stack)
  ((SavedStack.ofText text).mapError Error.json).mapError (.invalid .stack job.stack)

def inputResolver (source : TextureId) : Resolver := fun name =>
  if name = "input" then some source else none

/-- The generator of a run; without a seed it depends on the clock. -/
def generatorOf (o : Options) (clock : UInt64) : Generator :=
  match o.seed with
  | some seed => .ofSeed seed
  | none => .ofSeed (Generator.mix clock)

/-- The programs of the passes, each under a line that names its effects. -/
def dump (passes : List Pass) : String :=
  String.join (passes.zipIdx.map fun (p, i) =>
    "// ---- pass " ++ toString i ++ ": " ++ ", ".intercalate p.effectNames ++ "\n" ++ p.source ++ "\n")

def summary (report : Report) (output : String) : String :=
  "[fx-stack] " ++ toString report.passCount ++ " passes, " ++ toString report.passesExecuted
    ++ " executed, saved " ++ output ++ "\n"
    ++ match report.abortedAt with
      | none => ""
      | some pass =>
        "[fx-stack] pass " ++ toString pass ++ " failed; output is the image before it\n"

def applyTo (o : Options) (clock : UInt64) (catalog : Catalog) (saved : SavedStack) (image : Image) :
    Application ReferenceDevice :=
  let (source, device) := (ReferenceDevice.new image.size).upload image
  let (stack, notices) := (Stack.new (generatorOf o clock)).load saved
  let a := stack.apply catalog device .empty (inputResolver source) ⟨source, none, none⟩
  { a with notices := notices ++ a.notices }

/-- What is needed to apply the stack, or the first thing that is missing. -/
def load (o : Options) (files : Files) : Except Failure (Job × Catalog × SavedStack × Image) := do
  let job ← jobOf o
  let catalog ← catalogOf o files
  let saved ← savedOf job files
  let some image := files.image? job.input | .error (.noImage job.input)
  return (job, catalog, saved, image)

def runOptions (o : Options) (clock : UInt64) (files : Files) : Outcome :=
  match load o files with
  | .error e => .failed e
  | .ok (job, catalog, saved, image) =>
    let a := applyTo o clock catalog saved image
    { listing := if o.dumpGlsl then dump a.stack.passes else ""
      notices := a.notices.filter fun n => n.level.isShownAt o.logLevel
      result :=
        if files.isWritable job.output then
          .ok ⟨job.output, a.device.display, summary a.report job.output⟩
        else .error (.unwritable job.output) }

def run (args : List String) (clock : UInt64) (files : Files) : Outcome :=
  match Options.ofArguments args with
  | .error e => .failed (.arguments e)
  | .ok o => runOptions o clock files

end FxStack.CommandLine
