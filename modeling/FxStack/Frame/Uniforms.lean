import FxStack.Frame.Report
import FxStack.Program.Text
import FxStack.Stack

/-!
# Uniforms of a frame

What the draw of a pass binds: the uniforms of every program, the depth texture if the program uses
it, and the uniforms of the members, for which overrides are looked up when the frame is drawn.
-/

namespace FxStack

/-! ### Uniforms of every program -/

/-- A depth buffer and the planes it was rendered with. -/
structure DepthBuffer where
  texture : TextureId
  near : Single
  far : Single
deriving DecidableEq

/-- The values that all passes of a frame share. -/
structure FrameValues where
  resolution : Single × Single
  inverseResolution : Single × Single
  aspect : Single
  random : Single × Single
deriving DecidableEq

namespace FrameValues

/-- The length of a side, at least 1. -/
def side (n : Nat) : Single := .ofNat (max n 1)

def inverse (size : Nat × Nat) : Single × Single :=
  (Single.one.quotient (side size.1), Single.one.quotient (side size.2))

def of (size : Nat × Nat) (random : Single × Single) : FrameValues where
  resolution := (side size.1, side size.2)
  inverseResolution := inverse size
  aspect := (side size.1).quotient (side size.2)
  random

def bindings (g : FrameValues) : List NamedBinding :=
  [(GlobalUniform.resolution, .vec2 g.resolution.1 g.resolution.2),
    (GlobalUniform.inverseResolution, .vec2 g.inverseResolution.1 g.inverseResolution.2),
    (GlobalUniform.aspect, .float g.aspect),
    (GlobalUniform.random, .vec2 g.random.1 g.random.2)]

end FrameValues

def inputBinding (t : TextureId) : NamedBinding :=
  (GlobalUniform.texture, .sampler GlobalUniform.inputUnit t)

def DepthBuffer.bindings (d : DepthBuffer) : List NamedBinding :=
  [(GlobalUniform.depthTexture, .sampler GlobalUniform.depthUnit d.texture),
    (GlobalUniform.depthRange, .vec2 d.near d.far)]

/-! ### Uniforms of members -/

/-- The texture of each name that is known. -/
abbrev Resolver := String → Option TextureId

/-- What has been gathered for a draw so far. -/
structure Gathering (δ : Type) where
  device : δ
  /-- The next free texture unit. -/
  unit : Nat
  bindings : List NamedBinding
  missingTextures : List String
  placeholderUniforms : List String
  notices : List Notice

namespace Gathering

variable {δ : Type}

def start (device : δ) : Gathering δ := ⟨device, GlobalUniform.firstEffectUnit, [], [], [], []⟩

def note (g : Gathering δ) (n : Notice) : Gathering δ := { g with notices := g.notices ++ [n] }

def bind (g : Gathering δ) (b : NamedBinding) : Gathering δ :=
  { g with bindings := g.bindings ++ [b] }

end Gathering

namespace Member

/-- The entry of a member in the list as it is now, if it is still in its place. -/
def currentEntry? (m : Member) (entries : List Entry) : Option Entry :=
  entries[m.index]?.filter (·.id = m.entry)

/-- The value of a uniform: the override if it fits the type, or the default. -/
def valueOf (m : Member) (entry : Option Entry) (key : String) (spec : Uniform) :
    Value × Option Notice :=
  match entry.bind (·.override? key) with
  | none => (spec.fallback, none)
  | some v =>
    match v.coerce spec.type with
    | some w => (w, none)
    | none =>
      (spec.fallback, some (.unfitOverride key v spec.type (spec.nameAt m.index)))

variable {δ : Type} [Device δ]

/-- The texture of a value, or the placeholder if there is none of its name. -/
def findTexture (resolve : Resolver) (uniform : String) (v : Value) (g : Gathering δ) :
    Option TextureId × Gathering δ :=
  let name := v.textureName?
  match name.bind resolve with
  | some t => (some t, g)
  | none =>
    let g := match name with
      | none => g
      | some name =>
        { g with missingTextures := g.missingTextures ++ [name] }.note (.missingTexture name)
    match Device.placeholderTexture g.device with
    | (.ok t, device) =>
      (some t, { g with device, placeholderUniforms := g.placeholderUniforms ++ [uniform] })
    | (.error e, device) => (none, { g with device }.note (.noPlaceholder uniform e))

/-- The binding of a texture to the next free unit, sampled as the declaration asks for. -/
def bindTexture (spec : Uniform) (uniform : String) (t : TextureId) (g : Gathering δ) :
    Gathering δ :=
  let device := if spec.overridesSampling then Device.setSampler g.device t spec.sampling else g.device
  { g with device, unit := g.unit + 1 }.bind (uniform, .sampler g.unit t)

def gatherUniform (resolve : Resolver) (m : Member) (entry : Option Entry) (g : Gathering δ)
    (u : String × Uniform) : Gathering δ :=
  let spec := u.2
  let uniform := spec.nameAt m.index
  let (v, notice) := m.valueOf entry u.1 spec
  let g := notice.elim g g.note
  if spec.type.isSampler then
    match findTexture resolve uniform v g with
    | (some t, g) => bindTexture spec uniform t g
    | (none, g) => g
  else
    match Binding.ofValue? v with
    | some b => g.bind (uniform, b)
    | none => g

/-- The uniforms of a member gathered in the order of their keys. -/
def gather (resolve : Resolver) (entries : List Entry) (g : Gathering δ) (m : Member) : Gathering δ :=
  m.effect.uniforms.toList.foldl (gatherUniform resolve m (m.currentEntry? entries)) g

end Member

def Pass.gather {δ : Type} [Device δ] (p : Pass) (resolve : Resolver) (entries : List Entry)
    (device : δ) : Gathering δ :=
  p.members.foldl (Member.gather resolve entries) (.start device)

end FxStack
