import FxStack.Device
import FxStack.Image.Resample
import FxStack.Program.ActiveUniforms

/-!
# The reference device

A device without graphics hardware. Textures are images, and a draw shows the texture bound to unit 0,
resampled to the target, whatever its program says. It checks programs lightly and records every draw.
-/

namespace FxStack

/-! ### What a device holds -/

/-- A texture of the reference device. -/
structure Texture where
  kind : TextureKind
  pixels : Image
  sampler : Sampler

/-- A compiled program. -/
structure CompiledProgram where
  label : String
  source : String
  activeUniforms : List String

/-- A draw that has been made. -/
structure RecordedDraw where
  program : ProgramId
  label : String
  target : Target
  uniforms : List NamedBinding
  /-- The bytes of all uniforms in order. -/
  block : List UInt8

namespace RecordedDraw

/-- The first value of a name. -/
def uniform? (r : RecordedDraw) (name : String) : Option Binding := r.uniforms.lookup name

/-- Where the first value of a name starts and ends in a block of which `offset` bytes come before
    these uniforms. -/
def rangeFrom (name : String) (offset : Nat) : List NamedBinding → Option (Nat × Nat)
  | [] => none
  | (n, b) :: rest =>
    let stop := offset + b.bytes.length
    if name = n then some (offset, stop) else rangeFrom name stop rest

/-- Where the first value of a name starts and ends in the block. -/
def blockRange? (r : RecordedDraw) (name : String) : Option (Nat × Nat) := rangeFrom name 0 r.uniforms

end RecordedDraw

/-- The reference device. Textures and programs share one counter of handles. -/
structure ReferenceDevice where
  nextNumber : Nat
  textures : List (TextureId × Texture)
  programs : List (ProgramId × CompiledProgram)
  display : Image
  placeholder : Option TextureId
  fixedFunction : Option FixedFunction
  /-- Texts that programs are rejected for. -/
  failMarkers : List String
  draws : List RecordedDraw
  copies : Nat

namespace ReferenceDevice

/-- A new device with a display of the given size, but at least one pixel. -/
def new (size : Nat × Nat) : ReferenceDevice where
  nextNumber := 1
  textures := []
  programs := []
  display := .blank (max size.1 1) (max size.2 1)
  placeholder := none
  fixedFunction := none
  failMarkers := []
  draws := []
  copies := 0

variable (d : ReferenceDevice)

/-! ### Looking -/

def texture? (t : TextureId) : Option Texture := d.textures.lookup t

def program? (p : ProgramId) : Option CompiledProgram := d.programs.lookup p

def pixels? (t : TextureId) : Option Image := (d.texture? t).map (·.pixels)

def sampler? (t : TextureId) : Option Sampler := (d.texture? t).map (·.sampler)

/-! ### Textures -/

/-- The device with one more texture, and its handle. -/
def addTexture (x : Texture) : TextureId × ReferenceDevice :=
  (⟨d.nextNumber⟩,
    { d with nextNumber := d.nextNumber + 1, textures := d.textures ++ [(⟨d.nextNumber⟩, x)] })

/-- The device with `f` applied to a texture, if it is live. -/
def updateTexture (t : TextureId) (f : Texture → Texture) : ReferenceDevice :=
  { d with textures := d.textures.map fun e => if e.1 = t then (e.1, f e.2) else e }

def upload (i : Image) : TextureId × ReferenceDevice :=
  d.addTexture ⟨.rgba8 i.width i.height, i, .initial⟩

def createTexture (kind : TextureKind) : Except DeviceError TextureId × ReferenceDevice :=
  if kind.width = 0 ∨ kind.height = 0 then (.error (.emptyTexture kind.width kind.height), d)
  else
    let (t, d) := d.addTexture ⟨kind, .blank kind.width kind.height, .initial⟩
    (.ok t, d)

def destroyTexture (t : TextureId) : ReferenceDevice :=
  { d with
    textures := d.textures.filter (·.1 ≠ t)
    placeholder := if d.placeholder = some t then none else d.placeholder }

/-- The one white pixel that stands for missing textures, made when it is first needed. -/
def placeholderTexture : TextureId × ReferenceDevice :=
  match d.placeholder with
  | some t => (t, d)
  | none =>
    let (t, d) := d.upload (.solid 1 1 .white)
    (t, { d with placeholder := some t })

def setSampler (t : TextureId) (s : Sampler) : ReferenceDevice :=
  d.updateTexture t fun x => { x with sampler := s }

/-! ### Programs -/

/-- Why the device does not compile a program. -/
def programFault? (label source : String) : Option DeviceError :=
  match d.failMarkers.find? fun m => Text.occursIn m.toList source.toList with
  | some marker => some (.rejectedProgram label marker)
  | none =>
    if Text.occursIn "void main()".toList source.toList then
      match Brackets.check source.toList with
      | .ok () => none
      | .error e => some (.brackets label e)
    else some (.noMainFunction label)

def compileProgram (label source : String) : Except DeviceError ProgramId × ReferenceDevice :=
  match d.programFault? label source with
  | some e => (.error e, d)
  | none =>
    let p : ProgramId := ⟨d.nextNumber⟩
    (.ok p,
      { d with
        nextNumber := d.nextNumber + 1
        programs := d.programs ++ [(p, ⟨label, source, ActiveUniforms.ofText source.toList⟩)] })

def deleteProgram (p : ProgramId) : ReferenceDevice :=
  { d with programs := d.programs.filter (·.1 ≠ p) }

def hasUniform (p : ProgramId) (name : String) : Bool :=
  (d.program? p).any fun x => x.activeUniforms.contains name

/-! ### Drawing -/

/-- The size of a target, unless it is a texture that is not live. -/
def targetSize? : Target → Option (Nat × Nat)
  | .display => some d.display.size
  | .texture t => (d.texture? t).map (·.kind.size)

/-- The device with an image in the place of a target's. -/
def setPixels (target : Target) (i : Image) : ReferenceDevice :=
  match target with
  | .display => { d with display := i }
  | .texture t => d.updateTexture t fun x => { x with pixels := i }

/-- The device with a texture written to a target, resampled as the texture's sampler says. -/
def write (target : Target) (source : TextureId) : Except DeviceError ReferenceDevice :=
  match d.texture? source with
  | none => .error (.unknownSource source)
  | some x =>
    match target, d.targetSize? target with
    | .texture t, none => .error (.unknownTarget t)
    | .display, none => .ok d
    | _, some size => .ok (d.setPixels target (x.pixels.resample x.sampler.filter size))

/-- The texture bound to unit 0. -/
def inputOf (uniforms : List NamedBinding) : Option TextureId :=
  uniforms.findSome? fun u => u.2.textureAt? 0

/-- The record of a draw with a program of the given label. -/
def recordOf (call : DrawCall) (label : String) : RecordedDraw :=
  ⟨call.program, label, call.target, call.uniforms, call.uniforms.flatMap fun u => u.2.bytes⟩

/-- The device with what a draw shows written to its target. A draw without an input shows nothing. -/
def writeInput (call : DrawCall) : Except DeviceError ReferenceDevice :=
  match inputOf call.uniforms with
  | some t => d.write call.target t
  | none => .ok d

def draw (call : DrawCall) : Except DeviceError Unit × ReferenceDevice :=
  match d.program? call.program with
  | none => (.error (.unknownProgram call.program), d)
  | some program =>
    match d.writeInput call with
    | .error e => (.error e, d)
    | .ok d' => (.ok (), { d' with draws := d'.draws ++ [recordOf call program.label] })

def copy (source : TextureId) (target : Target) : Except DeviceError Unit × ReferenceDevice :=
  if target = .texture source then (.ok (), d)
  else
    match d.write target source with
    | .error e => (.error e, d)
    | .ok d' => (.ok (), { d' with copies := d'.copies + 1 })

/-- The device with its records of draws and copies dropped. -/
def clearRecords : ReferenceDevice := { d with draws := [], copies := 0 }

/-- The device that also rejects programs in which `marker` occurs. -/
def rejecting (marker : String) : ReferenceDevice :=
  { d with failMarkers := d.failMarkers ++ [marker] }

end ReferenceDevice

instance : Device ReferenceDevice where
  compileProgram d label source := d.compileProgram label source
  deleteProgram d p := d.deleteProgram p
  hasUniform d p name := d.hasUniform p name
  createTexture d kind := d.createTexture kind
  destroyTexture d t := d.destroyTexture t
  textureKind? d t := (d.texture? t).map (·.kind)
  placeholderTexture d := let (t, d) := d.placeholderTexture; (.ok t, d)
  setSampler d t s := d.setSampler t s
  setFixedFunction d s := { d with fixedFunction := some s }
  displaySize d := d.display.size
  draw d call := d.draw call
  copy d source target := d.copy source target

end FxStack
