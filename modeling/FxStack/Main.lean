import FxStack.CommandLine.Run
import FxStack.Image.Png

/-!
# The program

Reading the files that the arguments name, and writing what a run comes to.
-/

namespace FxStack.CommandLine

/-- The result of an action, unless it fails. -/
def attempt {α : Type} (action : IO α) : IO (Option α) :=
  try some <$> action catch _ => return none

/-- What `read` gives for each path that it succeeds on. -/
def gather {α : Type} (read : String → IO (Option α)) (paths : List String) :
    IO (List (String × α)) :=
  paths.filterMapM fun path => do
    return (← read path).map (path, ·)

/-- The files that the options name. Whether the output can be written shows when it is written. -/
def Files.ofOptions (o : Options) : IO Files := do
  let texts ← gather (fun path => attempt (IO.FS.readFile path)) (o.catalog.toList ++ o.stack.toList)
  let images ← gather (fun path => do
    return (← attempt (IO.FS.readBinFile path)).bind Png.decode?) (o.input.toList.filter isImagePath)
  return ⟨fun path => texts.lookup path, fun path => images.lookup path, isImagePath⟩

/-- The files that a run with the given arguments may ask for. -/
def Files.ofArguments (args : List String) : IO Files :=
  Files.ofOptions (match Options.ofArguments args with
    | .ok o => o
    | .error _ => .unset)

def complain (e : Failure) : IO UInt32 := do
  IO.eprintln ("Error: " ++ e.headline)
  return 1

/-- Shows what a run comes to and writes its image. -/
def finish (outcome : Outcome) : IO UInt32 := do
  outcome.notices.forM fun n => IO.eprintln n.line
  IO.print outcome.listing
  match outcome.result with
  | .error e => complain e
  | .ok p =>
    match ← attempt (IO.FS.writeBinFile p.path (Png.encode p.image)) with
    | none => complain (.unwritable p.path)
    | some () =>
      IO.print p.summary
      return 0

def start (args : List String) : IO UInt32 := do
  let files ← Files.ofArguments args
  let clock ← IO.monoNanosNow
  finish (run args (UInt64.ofNat clock) files)

end FxStack.CommandLine

/-- The program, given its arguments. -/
def main (args : List String) : IO UInt32 := FxStack.CommandLine.start args
