import FxStack.Frame.Uniforms
import FxStack.ScratchPool
import FxStack.Stack.Compile

/-!
# Applying a stack

A stack is applied to a source texture by running its passes between two scratch textures, each pass
reading what the one before it has written. The result is written to a destination texture or to the
display. Whatever fails, the best image there is gets written, and the failure is reported.
-/

namespace FxStack

variable {δ : Type} [Device δ]

/-! ### Running passes -/

/-- A frame between two passes. -/
structure Frame (δ : Type) where
  device : δ
  /-- The texture that the next pass reads. -/
  input : TextureId
  /-- The texture that the next pass writes. -/
  output : TextureId
  report : Report
  notices : List Notice

namespace Frame

/-- The frame stopped at the pass with number `index`. -/
def abort (f : Frame δ) (index : Nat) (n : Notice) : Frame δ :=
  { f with report := { f.report with abortedAt := some index }, notices := f.notices ++ [n] }

/-- The frame after a pass has been drawn: what it has written is read next. -/
def flip (f : Frame δ) : Frame δ :=
  { f with
    input := f.output
    output := f.input
    report := { f.report with passesExecuted := f.report.passesExecuted + 1 } }

/-- The frame with what has been gathered for a draw. -/
def absorb (f : Frame δ) (g : Gathering δ) : Frame δ :=
  { f with
    device := g.device
    report := { f.report with
      missingTextures := f.report.missingTextures ++ g.missingTextures
      placeholderUniforms := f.report.placeholderUniforms ++ g.placeholderUniforms }
    notices := f.notices ++ g.notices }

end Frame

/-- What all passes of a frame are drawn from. -/
structure FrameContext where
  entries : List Entry
  resolve : Resolver
  globals : FrameValues
  depth : Option DepthBuffer

namespace FrameContext

variable (c : FrameContext)

/-- The bindings of the depth buffer, if there is one and the program uses it. -/
def depthBindings (device : δ) (program : ProgramId) : List NamedBinding :=
  match c.depth with
  | none => []
  | some depth =>
    if Device.hasUniform device program GlobalUniform.depthTexture then depth.bindings else []

/-- The draw of a pass with its program: the texture that it reads, the values of the frame and what has
    been gathered for its members. -/
def call (program : ProgramId) (f : Frame δ) (g : Gathering δ) : DrawCall where
  program
  target := .texture f.output
  uniforms :=
    (inputBinding f.input :: c.globals.bindings ++ c.depthBindings f.device program) ++ g.bindings

/-- The frame after the pass with number `index` has been tried, and whether it has been drawn. -/
def runPass (index : Nat) (p : Pass) (f : Frame δ) : Bool × Frame δ :=
  match p.program with
  | none => (false, f.abort index (.unbuiltPass index))
  | some program =>
    let g := p.gather c.resolve c.entries f.device
    let call := c.call program f g
    let f := f.absorb g
    let f := { f with notices := f.notices ++ [Notice.passDrawn index f.input f.output call.uniforms.length] }
    match Device.draw f.device call with
    | (.ok (), device) => (true, { f with device }.flip)
    | (.error e, device) =>
      (false,
        { f with device, report := f.report.fail (.device e) }.abort index (.passDrawFailed index e))

/-- The frame after the passes from number `index` on, up to the first that is not drawn. -/
def runPasses (index : Nat) (f : Frame δ) : List Pass → Frame δ
  | [] => f
  | p :: ps =>
    match c.runPass index p f with
    | (true, f) => runPasses (index + 1) f ps
    | (false, f) => f

end FrameContext

/-! ### Writing the result -/

/-- A stack in the middle of an application. -/
structure Application (δ : Type) where
  stack : Stack
  device : δ
  pool : ScratchPool
  report : Report
  notices : List Notice

namespace Application

variable (a : Application δ)

def note (n : Notice) : Application δ := { a with notices := a.notices ++ [n] }

/-- The application with one more failure and the notice of it. -/
def fail (e : DeviceError) (n : Notice) : Application δ :=
  { a with report := a.report.fail (.device e) }.note n

/-- The program that smooths edges, compiled when it is first needed and never again. -/
def ensureAntialias : Option ProgramId × Application δ :=
  match a.stack.antialiasProgram with
  | .ready p => (some p, a)
  | .failed => (none, a)
  | .notBuilt =>
    match Device.compileProgram a.device Program.antialiasLabel Program.antialias with
    | (.ok p, device) =>
      (some p, { a with device, stack := { a.stack with antialiasProgram := .ready p } })
    | (.error e, device) =>
      (none,
        { a with device, stack := { a.stack with antialiasProgram := .failed } }.note
          (.antialiasFailed e))

def antialiasBindings (device : δ) (t : TextureId) : List NamedBinding :=
  let size := ((Device.textureKind? device t).map (·.size)).getD (1, 1)
  let inverse := FrameValues.inverse size
  [inputBinding t, (GlobalUniform.inverseResolution, .vec2 inverse.1 inverse.2)]

/-- The application after the antialias draw, and whether it has been made. -/
def drawAntialias (t : TextureId) (target : Target) : Bool × Application δ :=
  match a.ensureAntialias with
  | (none, a) => (false, a)
  | (some p, a) =>
    match Device.draw a.device ⟨p, target, antialiasBindings a.device t⟩ with
    | (.ok (), device) => (true, { a with device })
    | (.error e, device) => (false, { a with device }.fail e (.antialiasDrawFailed e))

/-- The application after a texture has been copied to the target. -/
def copyOut (t : TextureId) (target : Target) : Application δ :=
  match Device.copy a.device t target with
  | (.ok (), device) => { a with device }
  | (.error e, device) => { a with device }.fail e (.finalCopyFailed e)

def finalSampling : Sampler := ⟨if a.stack.filter then .linear else .nearest, .clampToEdge⟩

/-- The application after a texture has been written to the destination, through the antialias
    program if the stack asks for it. -/
def finish (t : TextureId) (destination : Option TextureId) : Application δ :=
  let a := { a with device := Device.setSampler a.device t a.finalSampling }
  let target := Target.ofDestination destination
  if a.stack.antialias then
    match a.drawAntialias t target with
    | (true, a) => a
    | (false, a) => a.copyOut t target
  else a.copyOut t target

/-- The application after scratch textures have been given back. -/
def giveBack (pair : TextureId × TextureId) : Application δ :=
  let (pool, notices) := a.pool.releasePair pair
  { a with pool, notices := a.notices ++ notices }

end Application

/-! ### Applying -/

/-- What a stack is applied to. -/
structure FrameInput where
  source : TextureId
  /-- Where the result goes; the display if there is none. -/
  destination : Option TextureId
  depth : Option DepthBuffer

namespace Application

variable (a : Application δ)

/-- The application after the passes have run between two borrowed textures, of which the first one
    holds the source. -/
def runPasses (c : FrameContext) (pair : TextureId × TextureId) (destination : Option TextureId) :
    Application δ :=
  let f := c.runPasses 0 ⟨a.device, pair.1, pair.2, a.report, a.notices⟩ a.stack.passes
  { a with device := f.device, report := f.report, notices := f.notices }.finish f.input destination

/-- The application of a stack with passes to a source of the given kind. -/
def run (c : FrameContext) (input : FrameInput) (kind : TextureKind) : Application δ :=
  match a.pool.acquirePair a.device kind with
  | (.error e, pool, device, notices) =>
    ({ a with pool, device, notices := a.notices ++ notices }.fail e (.noScratch e)).finish
      input.source input.destination
  | (.ok pair, pool, device, notices) =>
    let a := { a with
      pool, device
      report := { a.report with scratchAcquired := 2 }
      notices := a.notices ++ notices }
    match Device.copy a.device input.source (.texture pair.1) with
    | (.error e, device) =>
      (({ a with device }.fail e (.sourceCopyFailed e)).finish input.source
        input.destination).giveBack pair
    | (.ok (), device) => ({ a with device }.runPasses c pair input.destination).giveBack pair

end Application

namespace Stack

/-- The size of the image that is drawn: that of the destination, if it is a live texture, or else
    that of the source. -/
def frameSize (device : δ) (input : FrameInput) (source : TextureKind) : Nat × Nat :=
  ((input.destination.bind (Device.textureKind? device)).map (·.size)).getD source.size

/-- The application before its first draw: the random values are drawn, and the passes compiled if
    they may be out of date. -/
def prepare (s : Stack) (catalog : Catalog) (device : δ) (pool : ScratchPool) : Application δ :=
  let (random, generator) := s.random.next
  let s := s.setRandom generator
  let recompiled := s.isStale catalog
  let (s, device, notices) := if recompiled then s.compile catalog device else (s, device, [])
  { stack := s
    device := Device.setFixedFunction device .fullscreen
    pool
    report := { Report.empty with random, recompiled, passCount := s.passes.length }
    notices }

def apply (s : Stack) (catalog : Catalog) (device : δ) (pool : ScratchPool) (resolve : Resolver)
    (input : FrameInput) : Application δ :=
  match Device.textureKind? device input.source with
  | none =>
    ⟨s, device, pool, Report.empty.fail (.deadSource input.source), [.deadSource input.source]⟩
  | some kind =>
    let size := frameSize device input kind
    let a := s.prepare catalog device pool
    if a.stack.passes.isEmpty then a.finish input.source input.destination
    else
      a.run ⟨a.stack.entries, resolve, .of size a.report.random, input.depth⟩ input (kind.resized size)

end Stack

end FxStack
