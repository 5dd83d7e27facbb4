import FxStack.Proofs.Catalog.Registration
import FxStack.Proofs.Frame.Picture

/-! A reference device with the scratch pool of a program, over a whole run. Whatever has been drawn, lent,
    destroyed or applied before, applying a stack shows the source: the passes of the reference device hand
    the picture on, so only sizes and filters count. -/

namespace FxStack

/-- A device and a pool of scratch textures on it. -/
structure Rig where
  device : ReferenceDevice
  pool : ScratchPool

namespace Rig
variable {r r' : Rig}

/-- What a program does with its device and its pool. A texture of the pool is destroyed by a purge only. -/
inductive Step (r : Rig) : Rig → Prop
  | upload (i : Image) : Step r { r with device := (r.device.upload i).2 }
  | createTexture (kind : TextureKind) : Step r { r with device := (Device.createTexture r.device kind).2 }
  | destroyTexture {t : TextureId} (ht : t ∉ r.pool.textures.map (·.1)) :
      Step r { r with device := Device.destroyTexture r.device t }
  | placeholderTexture : Step r { r with device := (Device.placeholderTexture r.device).2 }
  | compileProgram (label source : String) :
      Step r { r with device := (Device.compileProgram r.device label source).2 }
  | deleteProgram (p : ProgramId) : Step r { r with device := Device.deleteProgram r.device p }
  | setSampler (t : TextureId) (sampler : Sampler) : Step r { r with device := Device.setSampler r.device t sampler }
  | setFixedFunction (state : FixedFunction) : Step r { r with device := Device.setFixedFunction r.device state }
  | draw (call : DrawCall) : Step r { r with device := (Device.draw r.device call).2 }
  | copy (t : TextureId) (target : Target) : Step r { r with device := (Device.copy r.device t target).2 }
  | clearRecords : Step r { r with device := r.device.clearRecords }
  | reject (marker : String) : Step r { r with device := r.device.rejecting marker }
  | acquire (kind : TextureKind) : Step r ⟨(r.pool.acquire r.device kind).2.2, (r.pool.acquire r.device kind).2.1⟩
  | release (t : TextureId) : Step r { r with pool := (r.pool.release t).1 }
  | purge : Step r ⟨(r.pool.purge r.device).2, (r.pool.purge r.device).1⟩
  | compile (s : Stack) (catalog : Catalog) : Step r { r with device := (s.compile catalog r.device).2.1 }
  | apply (s : Stack) (catalog : Catalog) (resolve : Resolver) (input : FrameInput) :
      Step r ⟨(s.apply catalog r.device r.pool resolve input).device, (s.apply catalog r.device r.pool resolve input).pool⟩

/-- The rigs that a program comes to from a new device with an empty pool. -/
inductive Reachable : Rig → Prop
  | start (size : Nat × Nat) : Reachable ⟨.new size, .empty⟩
  | step {r r' : Rig} : Reachable r → Step r r' → Reachable r'

/-- What holds of every rig. -/
structure Inv (r : Rig) : Prop where
  wellFormed : r.device.WellFormed
  backed : r.pool.Backed r.device

theorem Inv.keeps {written : Target → Prop} (inv : r.Inv) {d : ReferenceDevice} (h : r.device.Keeps written d) :
    Inv { r with device := d } :=
  ⟨h.wellFormed inv.wellFormed, inv.backed.mono h⟩

theorem Inv.acquire (inv : r.Inv) (kind : TextureKind) :
    Inv ⟨(r.pool.acquire r.device kind).2.2, (r.pool.acquire r.device kind).2.1⟩ := by
  by_cases hk : kind.width ≠ 0 ∧ kind.height ≠ 0
  · obtain ⟨t, pool, d, h, acquired⟩ := ScratchPool.acquire_drawable inv.wellFormed inv.backed hk
    rw [h]
    exact ⟨acquired.still.keeps.wellFormed inv.wellFormed, acquired.backed⟩
  · rw [ScratchPool.acquire_empty inv.backed hk]
    exact inv

theorem Inv.step (inv : r.Inv) (h : Step r r') : r'.Inv := by
  cases h with
  | upload i => exact inv.keeps (show ReferenceDevice.Keeps (fun _ => False) _ _ from .addTexture rfl)
  | createTexture kind => exact inv.keeps (ReferenceDevice.Still.createTexture rfl).keeps
  | destroyTexture ht => exact ⟨inv.wellFormed.destroyTexture _, inv.backed.destroyTexture ht⟩
  | placeholderTexture =>
    obtain ⟨t, d, hd, -, quiet⟩ := ReferenceDevice.placeholderTexture_eq r.device
    rw [hd]
    exact inv.keeps quiet.keeps
  | compileProgram label source => exact inv.keeps (ReferenceDevice.Still.compileProgram rfl).keeps
  | deleteProgram p => exact inv.keeps (ReferenceDevice.Still.deleteProgram _ p).keeps
  | setSampler t sampler => exact inv.keeps (ReferenceDevice.Quiet.setSampler _ t sampler).keeps
  | setFixedFunction state => exact inv.keeps (ReferenceDevice.Still.setFixedFunction _ state).keeps
  | draw call => exact inv.keeps (ReferenceDevice.Keeps.draw rfl)
  | copy t target => exact inv.keeps (ReferenceDevice.Keeps.copy rfl)
  | clearRecords => exact inv.keeps (show ReferenceDevice.Keeps (fun _ => False) _ _ from .of_eq rfl rfl rfl rfl)
  | reject marker => exact inv.keeps (show ReferenceDevice.Keeps (fun _ => False) _ _ from .of_eq rfl rfl rfl rfl)
  | acquire kind => exact inv.acquire kind
  | release t => exact ⟨inv.wellFormed, inv.backed.release t⟩
  | purge => exact ⟨ScratchPool.wellFormed_foldl_destroyTexture _ _ inv.wellFormed, inv.backed.purge⟩
  | compile s catalog => exact inv.keeps (s.still_compile catalog r.device).keeps
  | apply s catalog resolve input =>
    obtain ⟨hkeeps, hbacked⟩ := s.keeps_apply catalog resolve input inv.wellFormed inv.backed
    exact ⟨hkeeps.wellFormed inv.wellFormed, hbacked⟩

theorem Reachable.inv (h : r.Reachable) : r.Inv := by
  induction h with
  | start size => exact ⟨.new size, .empty _⟩
  | step _ hs ih => exact ih.step hs

/-! ### What applying shows -/

theorem creatable_iff {kind : TextureKind} :
    (∃ u d, r.device.createTexture kind = (.ok u, d)) ↔ kind.width ≠ 0 ∧ kind.height ≠ 0 :=
  ⟨fun ⟨_, _, h⟩ => (ReferenceDevice.createTexture_eq_ok.mp h).1,
    fun h => ⟨_, _, ReferenceDevice.createTexture_eq_ok.mpr ⟨h, rfl⟩⟩⟩

section Applying
variable (s : Stack) (catalog : Catalog) (resolve : Resolver) {input : FrameInput} {x : Texture}

/-- On the display the frame has the size of the source, so only the last step resamples. -/
theorem Inv.shows_display (inv : r.Inv) (hx : r.device.texture? input.source = some x)
    (hdestination : input.destination = none) :
    (s.apply catalog r.device r.pool resolve input).device.display =
      x.pixels.resample (if s.filter then .linear else .nearest) r.device.display.size := by
  have hsize : r.device.targetSize? (.ofDestination input.destination) = some r.device.display.size := by
    rw [hdestination]
    rfl
  have hframe : Stack.frameSize r.device input x.kind = x.pixels.size := by
    rw [inv.wellFormed.sized _ x hx]
    unfold Stack.frameSize
    rw [hdestination]
    rfl
  have shown := s.apply_shows catalog resolve input inv.wellFormed inv.backed hx hsize
  simp only [hframe, Image.resample_size, ite_self, hdestination] at shown
  exact Option.some.inj shown

/-- A destination has the size of the frame, so only the first step resamples, if there is one. -/
theorem Inv.shows_texture (inv : r.Inv) (hx : r.device.texture? input.source = some x) {t : TextureId} {y : Texture}
    (hdestination : input.destination = some t) (hy : r.device.texture? t = some y) :
    let a := s.apply catalog r.device r.pool resolve input
    a.device.pixels? t = some (x.pixels.resample
      (if a.stack.passes.isEmpty ∨ y.kind.width = 0 ∨ y.kind.height = 0 then if s.filter then .linear else .nearest
        else x.sampler.filter)
      y.kind.size) := by
  intro a
  have hsize : r.device.targetSize? (.ofDestination input.destination) = some y.kind.size := by
    rw [hdestination]
    exact congrArg (Option.map fun z : Texture => z.kind.size) hy
  have hframe : Stack.frameSize r.device input x.kind = y.kind.size := by
    have hkind : Device.textureKind? r.device t = some y.kind := congrArg (Option.map Texture.kind) hy
    unfold Stack.frameSize
    simp only [hdestination, Option.bind_some, hkind, Option.map_some, Option.getD_some]
  -- The last step finds the picture at the size of the target.
  have hlast : ∀ f g : Filter, (x.pixels.resample f y.kind.size).resample g y.kind.size =
      x.pixels.resample f y.kind.size := by
    intro f g
    have hresampled := Image.resample_size (x.pixels.resample f y.kind.size) g
    rwa [Image.size_resample] at hresampled
  have shown := s.apply_shows catalog resolve input inv.wellFormed inv.backed hx hsize
  simp only [hframe, hlast, hdestination] at shown
  rw [apply_ite (fun f => some (x.pixels.resample f y.kind.size))]
  rw [apply_ite some] at shown
  exact shown

/-- What applying does not write to stays as it was. -/
theorem Inv.keeps_texture (inv : r.Inv) {u : TextureId} {y : Texture} (hy : r.device.texture? u = some y)
    (hidle : u ∉ r.pool.idle.map (·.2)) (hu : input.destination ≠ some u) :
    (s.apply catalog r.device r.pool resolve input).device.pixels? u = some y.pixels := by
  have hkeeps := (s.keeps_apply catalog resolve input inv.wellFormed inv.backed).1
  obtain ⟨y', hy', -, hpixels⟩ := hkeeps.textures u y hy
  have huntouched : ¬input.Touches r.device r.pool (.texture u) := by
    rintro (htarget | ⟨v, hv, hwaits⟩)
    · cases hdestination : input.destination with
      | none =>
        rw [hdestination] at htarget
        cases htarget
      | some t =>
        rw [hdestination] at htarget
        cases htarget
        exact hu hdestination
    · cases hv
      exact hidle (hwaits y hy)
  rw [← hpixels huntouched]
  exact ReferenceDevice.imageOf?_texture hy'

theorem Inv.keeps_display (inv : r.Inv) (h : input.destination ≠ none) :
    (s.apply catalog r.device r.pool resolve input).device.display = r.device.display := by
  refine (s.keeps_apply catalog resolve input inv.wellFormed inv.backed).1.display ?_
  rintro (htarget | ⟨u, hu, -⟩)
  · obtain ⟨t, ht⟩ := Option.ne_none_iff_exists'.mp h
    rw [ht] at htarget
    cases htarget
  · cases hu

end Applying

/-- Applying any stack to a live source shows the source at the size of the target. On the display it is
    filtered as the stack says. A live destination is filled as the source was sampled before, if there are
    passes and scratch textures of its size can be created, and else as the stack says; at the size of the
    source it holds the very pixels of the source. Other textures, but for those that waited in the pool, and
    a display that is not the target stay as they were. -/
theorem apply_image (h : r.Reachable) (s : Stack) (catalog : Catalog) (resolve : Resolver) (input : FrameInput)
    {x : Texture} (hx : r.device.texture? input.source = some x) :
    let a := s.apply catalog r.device r.pool resolve input
    let flag : Filter := if s.filter then .linear else .nearest
    (input.destination = none → a.device.display = x.pixels.resample flag r.device.display.size) ∧
    (∀ t y, input.destination = some t → r.device.texture? t = some y →
      ((a.stack.passes ≠ [] ∧ (∃ u d, r.device.createTexture (x.kind.resized y.kind.size) = (.ok u, d)) →
          a.device.pixels? t = some (x.pixels.resample x.sampler.filter y.kind.size)) ∧
        (¬(a.stack.passes ≠ [] ∧ ∃ u d, r.device.createTexture (x.kind.resized y.kind.size) = (.ok u, d)) →
          a.device.pixels? t = some (x.pixels.resample flag y.kind.size)) ∧
        (y.kind.size = x.kind.size → a.device.pixels? t = some x.pixels))) ∧
    (∀ u y, r.device.texture? u = some y → u ∉ r.pool.idle.map (·.2) → input.destination ≠ some u →
      a.device.pixels? u = some y.pixels) ∧
    (input.destination ≠ none → a.device.display = r.device.display) := by
  intro a flag
  have inv := h.inv
  refine ⟨inv.shows_display s catalog resolve hx, fun t y ht hy => ?_, fun u y hy hidle hu =>
    inv.keeps_texture s catalog resolve hy hidle hu, inv.keeps_display s catalog resolve⟩
  have shown : a.device.pixels? t = some (x.pixels.resample
      (if a.stack.passes.isEmpty ∨ y.kind.width = 0 ∨ y.kind.height = 0 then flag else x.sampler.filter) y.kind.size) :=
    inv.shows_texture s catalog resolve hx ht hy
  have hplain : ¬(a.stack.passes ≠ [] ∧ ∃ u d, r.device.createTexture (x.kind.resized y.kind.size) = (.ok u, d)) ↔
      a.stack.passes.isEmpty ∨ y.kind.width = 0 ∨ y.kind.height = 0 := by
    rw [creatable_iff, List.isEmpty_iff]
    simp only [TextureKind.resized, TextureKind.size]
    tauto
  refine ⟨fun hfiltered => ?_, fun hunfiltered => ?_, fun hsize => ?_⟩
  · rwa [if_neg fun h => hplain.mpr h hfiltered] at shown
  · rwa [if_pos (hplain.mp hunfiltered)] at shown
  · rwa [hsize, ← inv.wellFormed.sized _ x hx, Image.resample_size] at shown

/-! ### A rig with two textures -/

/-- A white texture and one without any color, each a pixel, and a display of four pixels. -/
def pair : Rig := ⟨((((ReferenceDevice.new (2, 2)).upload (.solid 1 1 .white)).2).upload (.blank 1 1)).2, .empty⟩

/-- A stack with one entry. -/
def rippling : Stack := ((Stack.new (.fixed (.zero, .zero))).add "ripple").2

theorem pair_reachable : pair.Reachable :=
  .step (.step (.start (2, 2)) (.upload (.solid 1 1 .white))) (.upload (.blank 1 1))

/-- Whatever the device makes of the program of the one pass, the white texture is shown. -/
theorem apply_image_pair :
    pair.Reachable ∧ pair.device.texture? ⟨1⟩ = some ⟨.rgba8 1 1, .solid 1 1 .white, .initial⟩ ∧
      pair.device.pixels? ⟨2⟩ = some (.blank 1 1) ∧
      (rippling.apply (Catalog.rippling ⟨0⟩) pair.device pair.pool (fun _ => none) ⟨⟨1⟩, none, none⟩).device.display =
        (Image.solid 1 1 .white).resample .linear (2, 2) ∧
      (rippling.apply (Catalog.rippling ⟨0⟩) pair.device pair.pool (fun _ => none)
        ⟨⟨1⟩, some ⟨2⟩, none⟩).device.pixels? ⟨2⟩ = some (.solid 1 1 .white) := by
  have white : pair.device.texture? ⟨1⟩ = some ⟨.rgba8 1 1, .solid 1 1 .white, .initial⟩ := rfl
  have shown := fun destination =>
    apply_image pair_reachable rippling (Catalog.rippling ⟨0⟩) (fun _ => none) ⟨⟨1⟩, destination, none⟩ white
  refine ⟨pair_reachable, white, rfl, ?_, ?_⟩
  · have onDisplay := (shown none).1 rfl
    rwa [show pair.device.display.size = (2, 2) from rfl, if_pos (show rippling.filter = true from rfl)] at onDisplay
  · exact ((shown (some ⟨2⟩)).2.1 ⟨2⟩ _ rfl rfl).2.2 rfl

end Rig
end FxStack
