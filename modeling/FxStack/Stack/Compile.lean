import FxStack.Program.Text
import FxStack.Stack

/-!
# Compiling a stack

The passes of a stack are compiled from its entries and a catalog, and their programs are built on a
device. The programs of the passes before are deleted.
-/

namespace FxStack

variable {δ : Type} [Device δ]

namespace Pass

/-- The pass with number `index`, built on a device. If its program does not compile it has none. -/
def build (index : Nat) (p : Pass) (device : δ) : Pass × δ × Notice :=
  let source := Program.ofPass p
  let label := Program.label index p
  match Device.compileProgram device label source with
  | (.ok program, device) =>
    ({ p with source, program := some program }, device, .programCompiled label program)
  | (.error e, device) => ({ p with source, program := none }, device, .programFailed index e)

/-- The passes from number `index` on, built one after the other. -/
def buildAll (index : Nat) (device : δ) : List Pass → List Pass × δ × List Notice
  | [] => ([], device, [])
  | p :: ps =>
    let (p, device, notice) := p.build index device
    let (ps, device, notices) := buildAll (index + 1) device ps
    (p :: ps, device, notice :: notices)

end Pass

namespace Stack

variable (s : Stack)

/-- Whether the passes may differ from what the entries and the catalog give now. -/
def isStale (catalog : Catalog) : Bool :=
  s.dirty || s.passes.isEmpty || s.compiledVersion != some catalog.version

def programs : List ProgramId := s.passes.filterMap (·.program)

def compile (catalog : Catalog) (device : δ) : Stack × δ × List Notice :=
  let device := s.programs.foldl Device.deleteProgram device
  let compilation := Compilation.ofEntries catalog s.entries
  let (passes, device, notices) := Pass.buildAll 0 device compilation.passes
  ({ s with
      passes
      diagnostics := compilation.diagnostics
      compiledVersion := some catalog.version
      dirty := false },
    device,
    compilation.issues.map .issue ++ notices
      ++ [.stackCompiled s.entries.length passes.length])

end Stack

end FxStack
