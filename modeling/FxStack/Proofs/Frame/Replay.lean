import FxStack.Proofs.Frame.Course
import FxStack.Proofs.ScratchPool.Stock

/-! Applications that do the same over again. Two applications of a stack, on devices that agree on its programs and of
    which the second one has a placeholder wherever the first one leaves one, bind the same values, make the same draws
    and report the same, but for the textures that serve as scratch; and the second one leaves the device with the
    textures and programs that it had. Main statement: `Frame.Twins.runPasses`. -/

namespace FxStack

open Device (Reaches)

/-! ### Devices at rest -/

theorem lookup_map_snd {κ α β : Type} [DecidableEq κ] (f : α → β) (k : κ) (l : List (κ × α)) :
    (l.map fun e => (e.1, f e.2)).lookup k = (l.lookup k).map f := by
  induction l with
  | nil => rfl
  | cons e l ih =>
    rw [List.map_cons, lookup_cons_ite, lookup_cons_ite, ih]
    split <;> rfl

/-- No texture or program is created or deleted. -/
def DeviceOp.Calm : DeviceOp → Prop
  | setSampler .. | setFixedFunction _ | draw _ | copy .. => True
  | _ => False

namespace ReferenceDevice
variable {d d' d'' : ReferenceDevice}

theorem targetSize?_texture {t : TextureId} {kind : TextureKind} (h : Device.textureKind? d t = some kind) :
    d.targetSize? (.texture t) = some kind.size := by
  obtain ⟨x, hx, rfl⟩ := Option.map_eq_some_iff.mp h
  exact congrArg (Option.map fun x => x.kind.size) hx

/-- No texture or program has come or gone, and no number has been given out. -/
structure Rests (d d' : ReferenceDevice) : Prop where
  nextNumber : d'.nextNumber = d.nextNumber
  kinds : (d'.textures.map fun e => (e.1, e.2.kind)) = d.textures.map fun e => (e.1, e.2.kind)
  programs : d'.programs = d.programs
  placeholder : d'.placeholder = d.placeholder

namespace Rests

theorem refl (d : ReferenceDevice) : Rests d d := ⟨rfl, rfl, rfl, rfl⟩

theorem symm (h : Rests d d') : Rests d' d := ⟨h.nextNumber.symm, h.kinds.symm, h.programs.symm, h.placeholder.symm⟩

theorem trans (h : Rests d d') (h' : Rests d' d'') : Rests d d'' :=
  ⟨h'.nextNumber.trans h.nextNumber, h'.kinds.trans h.kinds, h'.programs.trans h.programs,
    h'.placeholder.trans h.placeholder⟩

theorem textureKind? (h : Rests d d') (t : TextureId) : Device.textureKind? d' t = Device.textureKind? d t := by
  have hlookup := congrArg (List.lookup t) h.kinds
  rw [lookup_map_snd, lookup_map_snd] at hlookup
  exact hlookup

theorem program? (h : Rests d d') (p : ProgramId) : d'.program? p = d.program? p := congrArg (List.lookup p) h.programs

theorem updateTexture (d : ReferenceDevice) (t : TextureId) {f : Texture → Texture} (hf : ∀ x, (f x).kind = x.kind) :
    Rests d (d.updateTexture t f) := by
  refine ⟨rfl, ?_, rfl, rfl⟩
  unfold ReferenceDevice.updateTexture
  rw [List.map_map]
  refine List.map_congr_left fun e _ => ?_
  rw [Function.comp_apply]
  split
  · rw [hf]
  · rfl

theorem setSampler (d : ReferenceDevice) (t : TextureId) (sampler : Sampler) :
    Rests d (Device.setSampler d t sampler) :=
  .updateTexture d t (f := fun x => { x with sampler }) fun _ => rfl

theorem painted {target : Target} (h : Painted target d d') : Rests d d' := by
  obtain ⟨e, draws, copies, he, rfl⟩ := h
  rcases he with rfl | ⟨i, rfl⟩
  · exact ⟨rfl, rfl, rfl, rfl⟩
  · cases target with
    | display => exact ⟨rfl, rfl, rfl, rfl⟩
    | texture t =>
      have updated : Rests d (d.updateTexture t fun x => { x with pixels := i }) := .updateTexture d t fun _ => rfl
      exact ⟨updated.nextNumber, updated.kinds, updated.programs, updated.placeholder⟩

theorem run (d : ReferenceDevice) {op : DeviceOp} (hop : op.Calm) : Rests d (op.run d) := by
  cases op with
  | setSampler t sampler => exact .setSampler d t sampler
  | setFixedFunction state => exact ⟨rfl, rfl, rfl, rfl⟩
  | draw call => exact .painted (painted_draw d call)
  | copy t target => exact .painted (painted_copy d t target)
  | _ => exact hop.elim

theorem reaches (h : Reaches DeviceOp.Calm d d') : Rests d d' :=
  h.keeps (I := fun e => Rests d e) (.refl d) fun _ e hop he => he.trans (.run e hop)

end Rests

theorem Rests.accepts {target : Target} {size : Nat × Nat} (h : Rests d d') (hsize : d.targetSize? target = some size) :
    ∃ size', d'.targetSize? target = some size' := by
  cases target with
  | display => exact ⟨d'.display.size, rfl⟩
  | texture t =>
    obtain ⟨x, hx, -⟩ := Option.map_eq_some_iff.mp hsize
    have hkind : Device.textureKind? d' t = some x.kind := (h.textureKind? t).trans (congrArg (Option.map Texture.kind) hx)
    exact ⟨x.kind.size, targetSize?_texture hkind⟩

/-- A placeholder that there is makes another one needless. -/
theorem placeholderTexture_of_some {t : TextureId} (h : d.placeholder = some t) :
    Device.placeholderTexture d = (.ok t, d) := by
  have hdevice : Device.placeholderTexture d = (.ok d.placeholderTexture.1, d.placeholderTexture.2) := rfl
  rw [hdevice]
  unfold ReferenceDevice.placeholderTexture
  rw [h]

end ReferenceDevice

/-! ### Gathering over again -/

section
variable {entries : List Entry} {resolve : Resolver} {p q : Option TextureId} {unit : Nat}

namespace Slot
variable {s : Slot} {slots : List Slot} {bs bs' : List NamedBinding}

theorem Bound.unique {b b' : Binding} (h : s.Bound entries resolve p unit b) (h' : s.Bound entries resolve p unit b') :
    b = b' := by
  cases hs : s.isSampler with
  | true =>
    obtain ⟨t, rfl, ht⟩ := h.texture hs
    obtain ⟨t', rfl, ht'⟩ := h'.texture hs
    rw [Option.some.inj (ht.symm.trans ht')]
  | false => exact Option.some.inj ((h.value hs).symm.trans (h'.value hs))

theorem Binds.unique (h : Binds entries resolve p unit slots bs) : ∀ {bs' : List NamedBinding},
    Binds entries resolve p unit slots bs' → bs = bs' := by
  induction h with
  | nil unit =>
    intro bs' h'
    cases h'
    rfl
  | cons hb _ ih =>
    intro bs' h'
    cases h' with
    | cons hb' hbs' => rw [hb.unique hb', ih hbs']

/-- Each slot for a texture has one, of its own or the placeholder. -/
theorem Binds.found (h : Binds entries resolve p unit slots bs) :
    ∀ s ∈ slots, s.isSampler = true → ((s.texture? entries resolve).or p).isSome := by
  induction h with
  | nil => exact fun _ hs => absurd hs List.not_mem_nil
  | cons hb _ ih =>
    intro s hs hsampler
    rcases List.mem_cons.mp hs with rfl | hs
    · obtain ⟨t, -, ht⟩ := hb.texture hsampler
      rw [ht]
      rfl
    · exact ih s hs hsampler

theorem rests_findTexture (uniform : String) {v : Value} {g : Gathering ReferenceDevice}
    (h : ((v.textureName?.bind resolve).or g.device.placeholder).isSome) :
    g.device.Rests (Member.findTexture resolve uniform v g).2.device := by
  unfold Member.findTexture
  cases hfound : v.textureName?.bind resolve with
  | some t =>
    simp only [hfound]
    exact .refl _
  | none =>
    rw [hfound, Option.none_or] at h
    obtain ⟨t, ht⟩ := Option.isSome_iff_exists.mp h
    have asked := ReferenceDevice.placeholderTexture_of_some ht
    cases hname : v.textureName? with
    | none =>
      simp only [Option.bind_none, asked]
      exact .refl _
    | some name =>
      rw [hname, Option.bind_some] at hfound
      simp only [Option.bind_some, hfound, Gathering.note, asked]
      exact .refl _

theorem rests_gather {g : Gathering ReferenceDevice}
    (h : s.isSampler = true → ((s.texture? entries resolve).or g.device.placeholder).isSome) :
    g.device.Rests (s.gather entries resolve g).device := by
  have hvalue : (s.member.valueOf (s.member.currentEntry? entries) s.key s.spec).1 = s.value entries :=
    s.member.valueOf_fst _ s.key s.spec
  have hnoted : ∀ n : Option Notice, (n.elim g g.note).device = g.device := by
    intro n
    cases n <;> rfl
  unfold gather Member.gatherUniform
  dsimp only
  rw [hvalue]
  generalize (s.member.valueOf (s.member.currentEntry? entries) s.key s.spec).2 = n
  rw [← hnoted n] at h ⊢
  generalize n.elim g g.note = g at h
  split
  · next hs =>
    have found := rests_findTexture (s.spec.nameAt s.member.index) (h hs)
    split
    · next t g' hg =>
      rw [hg] at found
      unfold Member.bindTexture Gathering.bind
      dsimp only
      split
      · exact found.trans (.setSampler g'.device t s.spec.sampling)
      · exact found
    · next g' hg =>
      rw [hg] at found
      exact found
  · split <;> exact .refl _

theorem rests_foldl (slots : List Slot) : ∀ {g : Gathering ReferenceDevice},
    (∀ s ∈ slots, s.isSampler = true → ((s.texture? entries resolve).or g.device.placeholder).isSome) →
    g.device.Rests (slots.foldl (fun g s => s.gather entries resolve g) g).device := by
  induction slots with
  | nil => exact fun _ => .refl _
  | cons s slots ih =>
    intro g h
    have first := rests_gather (h s List.mem_cons_self)
    refine first.trans (ih fun s' hs' => ?_)
    rw [first.placeholder]
    exact h s' (List.mem_cons_of_mem s hs')

end Slot
end

/-- What a pass gathers depends on its device by the placeholder only. Where there is one already, or none is needed,
    the device rests. -/
theorem Pass.gather_again (p : Pass) (resolve : Resolver) (entries : List Entry) {d e : ReferenceDevice}
    (hplaceholder : ∀ t, (p.gather resolve entries d).device.placeholder = some t → e.placeholder = some t) :
    let g := p.gather resolve entries d
    let h := p.gather resolve entries e
    h.bindings = g.bindings ∧ h.missingTextures = g.missingTextures ∧ h.placeholderUniforms = g.placeholderUniforms ∧
      e.Rests h.device := by
  intro g h
  obtain ⟨hbinds, -, hmissing, hunresolved⟩ := p.gathers_slots resolve entries d
  obtain ⟨hbinds', quiet', hmissing', hunresolved'⟩ := p.gathers_slots resolve entries e
  refine ⟨?_, hmissing'.trans hmissing.symm, hunresolved'.trans hunresolved.symm, ?_⟩
  · have later := hbinds.mono fun t ht => quiet'.keeps.placeholder t (hplaceholder t ht)
    exact hbinds'.unique later
  -- a slot for which `d` has had to give the placeholder finds the one of `e`
  · have found := (hbinds.mono hplaceholder).found
    rw [show h = _ from p.gather_eq_foldl resolve entries e]
    exact Slot.rests_foldl (g := .start e) p.slots found

/-! ### Drawing over again -/

/-- The target with another texture. -/
def Target.recast (ρ : TextureId → TextureId) : Target → Target
  | .display => .display
  | .texture t => .texture (ρ t)

/-- The uniforms of a draw with another texture to be read, which is the first of them. -/
def rereadUniforms (ρ : TextureId → TextureId) : List NamedBinding → List NamedBinding
  | (name, .sampler unit t) :: rest => (name, .sampler unit (ρ t)) :: rest
  | uniforms => uniforms

namespace RecordedDraw
variable (r : RecordedDraw) (ρ : TextureId → TextureId)

/-- The draw with another texture read. -/
def reread : RecordedDraw := { r with uniforms := rereadUniforms ρ r.uniforms }

/-- The draw with other textures read and written. -/
def recast : RecordedDraw := { r.reread ρ with target := r.target.recast ρ }

end RecordedDraw

namespace ReferenceDevice
variable {d d' d'' e e' e'' : ReferenceDevice} {ρ : TextureId → TextureId}

/-- What the device `d` goes through is gone through by `e` again, with other textures that are read and written. -/
structure Replays (ρ : TextureId → TextureId) (d d' e e' : ReferenceDevice) : Prop where
  rests : e.Rests e'
  draws : ∃ xs, d'.draws = d.draws ++ xs ∧ e'.draws = e.draws ++ xs.map (·.recast ρ)

theorem Replays.of_rests (hd : d'.draws = d.draws) (he : e'.draws = e.draws) (rests : e.Rests e') :
    Replays ρ d d' e e' :=
  ⟨rests, [], by rw [hd, List.append_nil], by rw [he, List.map_nil, List.append_nil]⟩

theorem Replays.trans (h : Replays ρ d d' e e') (h' : Replays ρ d' d'' e' e'') : Replays ρ d d'' e e'' := by
  obtain ⟨xs, hd, he⟩ := h.draws
  obtain ⟨ys, hd', he'⟩ := h'.draws
  refine ⟨h.rests.trans h'.rests, xs ++ ys, by rw [hd', hd, List.append_assoc], ?_⟩
  rw [he', he, List.map_append, List.append_assoc]

theorem draw_unknown {call : DrawCall} (h : d.program? call.program = none) :
    Device.draw d call = (.error (.unknownProgram call.program), d) := by
  have hdraw : Device.draw d call = d.draw call := rfl
  rw [hdraw]
  unfold draw
  rw [h]

theorem Keeps.textureKind? {written : Target → Prop} (h : d.Keeps written d') {t : TextureId} {kind : TextureKind}
    (ht : Device.textureKind? d t = some kind) : Device.textureKind? d' t = some kind := by
  obtain ⟨x, hx, rfl⟩ := Option.map_eq_some_iff.mp ht
  obtain ⟨y, hy, hkind, -⟩ := h.textures t x hx
  exact Option.map_eq_some_iff.mpr ⟨y, hy, hkind⟩

/-- With a live program, between live textures, a draw is always made. -/
theorem draw_made (call : DrawCall) {x : CompiledProgram} {t : TextureId} {kind : TextureKind} {size : Nat × Nat}
    (hx : d.program? call.program = some x) (hin : inputOf call.uniforms = some t)
    (ht : Device.textureKind? d t = some kind) (hsize : d.targetSize? call.target = some size) :
    ∃ d', Device.draw d call = (.ok (), d') ∧ d'.draws = d.draws ++ [recordOf call x.label] := by
  obtain ⟨y, hy, -⟩ := Option.map_eq_some_iff.mp ht
  have hwrite : d.writeInput call = .ok (d.setPixels call.target (y.pixels.resample y.sampler.filter size)) := by
    unfold writeInput
    rw [hin]
    exact write_eq_ok.mpr ⟨y, size, hy, hsize, rfl⟩
  exact ⟨_, draw_eq_ok.mpr ⟨x, _, hx, hwrite, rfl⟩, congrArg (· ++ _) (draws_setPixels d _ _)⟩

/-- A copy between live textures is always made. -/
theorem copy_made {t : TextureId} {kind : TextureKind} {target : Target} {size : Nat × Nat}
    (ht : Device.textureKind? d t = some kind) (hsize : d.targetSize? target = some size) :
    ∃ d', Device.copy d t target = (.ok (), d') := by
  obtain ⟨x, hx, -⟩ := Option.map_eq_some_iff.mp ht
  have hcopy : Device.copy d t target = d.copy t target := rfl
  rw [hcopy]
  unfold ReferenceDevice.copy
  split
  · exact ⟨d, rfl⟩
  · rw [write_eq_ok.mpr ⟨x, size, hx, hsize, rfl⟩]
    exact ⟨_, rfl⟩

end ReferenceDevice

namespace Frame

/-- Both textures of the frame are live, and of one kind. -/
structure Between (kind : TextureKind) (f : Frame ReferenceDevice) : Prop where
  input : Device.textureKind? f.device f.input = some kind
  output : Device.textureKind? f.device f.output = some kind

/-- The frame `g` is the frame `f` over again, between other textures. -/
structure Twins (known : ProgramId → Prop) (ρ : TextureId → TextureId) (kind : TextureKind) (recompiled : Bool)
    (f g : Frame ReferenceDevice) : Prop where
  report : g.report = { f.report with recompiled }
  input : g.input = ρ f.input
  output : g.output = ρ f.output
  programs : ∀ p, known p → g.device.program? p = f.device.program? p
  between : f.Between kind
  between' : g.Between kind

variable {known : ProgramId → Prop} {ρ : TextureId → TextureId} {kind : TextureKind} {recompiled : Bool}
  {f g : Frame ReferenceDevice}

namespace Between

theorem of_eq (h : f.Between kind) (hd : g.device = f.device) (hin : g.input = f.input) (hout : g.output = f.output) :
    g.Between kind :=
  ⟨by rw [hd, hin]; exact h.input, by rw [hd, hout]; exact h.output⟩

theorem keeps {written : Target → Prop} (h : f.Between kind) (hd : f.device.Keeps written g.device)
    (hin : g.input = f.input) (hout : g.output = f.output) : g.Between kind :=
  ⟨by rw [hin]; exact hd.textureKind? h.input, by rw [hout]; exact hd.textureKind? h.output⟩

theorem flip (h : f.Between kind) : f.flip.Between kind := ⟨h.output, h.input⟩

end Between

end Frame

namespace FrameContext

section
variable {δ : Type} [Device δ] (c : FrameContext) {p : Pass} {program : ProgramId} {f : Frame δ} {d : δ}

theorem runPass_unbuilt (hp : p.program = none) (index : Nat) (f : Frame δ) :
    c.runPass index p f = (false, f.abort index (.unbuiltPass index)) := by
  unfold runPass
  rw [hp]

/-- The frame with what a pass gathers for its draw. -/
def gathered (p : Pass) (f : Frame δ) : Frame δ := f.absorb (p.gather c.resolve c.entries f.device)

/-- The call with which a pass is drawn. -/
def callOf (p : Pass) (program : ProgramId) (f : Frame δ) : DrawCall :=
  c.call program f (p.gather c.resolve c.entries f.device)

theorem device_runPass (hp : p.program = some program) (index : Nat) (f : Frame δ) :
    (c.runPass index p f).2.device = (Device.draw (c.gathered p f).device (c.callOf p program f)).2 := by
  unfold runPass
  rw [hp]
  dsimp only [Frame.absorb, gathered, callOf]
  split
  · next hd =>
    rw [hd]
    rfl
  · next hd =>
    rw [hd]
    rfl

theorem runPass_made (hp : p.program = some program) (index : Nat)
    (hdraw : Device.draw (c.gathered p f).device (c.callOf p program f) = (.ok (), d)) :
    ∃ notices, c.runPass index p f = (true, { c.gathered p f with device := d, notices }.flip) := by
  unfold gathered callOf at hdraw
  unfold runPass
  rw [hp]
  dsimp only [Frame.absorb] at hdraw ⊢
  rw [hdraw]
  exact ⟨_, rfl⟩

theorem runPass_refused {e : DeviceError} (hp : p.program = some program) (index : Nat)
    (hdraw : Device.draw (c.gathered p f).device (c.callOf p program f) = (.error e, d)) :
    ∃ notices, c.runPass index p f = (false, { c.gathered p f with
      device := d
      report := { (c.gathered p f).report.fail (.device e) with abortedAt := some index }
      notices }) := by
  unfold gathered callOf at hdraw
  unfold runPass
  rw [hp]
  dsimp only [Frame.absorb] at hdraw ⊢
  rw [hdraw]
  exact ⟨_, rfl⟩

end

variable {c : FrameContext} {known : ProgramId → Prop} {ρ : TextureId → TextureId} {kind : TextureKind}
  {recompiled : Bool} {f g : Frame ReferenceDevice}

/-- A pass with a live program is drawn between live textures. -/
theorem draw_gathered {p : Pass} {program : ProgramId} {x : CompiledProgram} (between : (c.gathered p f).Between kind)
    (hx : (c.gathered p f).device.program? program = some x) :
    ∃ d, Device.draw (c.gathered p f).device (c.callOf p program f) = (.ok (), d) ∧
      d.draws = (c.gathered p f).device.draws ++ [ReferenceDevice.recordOf (c.callOf p program f) x.label] :=
  ReferenceDevice.draw_made (c.callOf p program f) hx rfl between.input
    (ReferenceDevice.targetSize?_texture between.output)

/-- The call of a pass binds the same over again, but for the textures between which it is drawn. -/
theorem call_again {p : Pass} (h : f.Twins known ρ kind recompiled g) {program : ProgramId} (hknown : known program)
    (hbindings : (p.gather c.resolve c.entries g.device).bindings = (p.gather c.resolve c.entries f.device).bindings)
    (label : String) :
    ReferenceDevice.recordOf (c.callOf p program g) label =
      (ReferenceDevice.recordOf (c.callOf p program f) label).recast ρ := by
  have hdepth : c.depthBindings g.device program = c.depthBindings f.device program := by
    have hasked : Device.hasUniform g.device program GlobalUniform.depthTexture =
        Device.hasUniform f.device program GlobalUniform.depthTexture := by
      change (g.device.program? program).any _ = (f.device.program? program).any _
      rw [h.programs program hknown]
    unfold depthBindings
    rw [hasked]
  unfold callOf call
  rw [hdepth, hbindings, h.input, h.output]
  rfl

end FrameContext

namespace Frame.Twins
variable {c : FrameContext} {known : ProgramId → Prop} {ρ : TextureId → TextureId} {kind : TextureKind}
  {recompiled : Bool} {f g : Frame ReferenceDevice} {p : Pass}

/-- Gathering makes no difference between twins. -/
theorem gathered (h : f.Twins known ρ kind recompiled g)
    (hplaceholder : ∀ t, (c.gathered p f).device.placeholder = some t → g.device.placeholder = some t) :
    Twins known ρ kind recompiled (c.gathered p f) (c.gathered p g) ∧
      (p.gather c.resolve c.entries g.device).bindings = (p.gather c.resolve c.entries f.device).bindings ∧
      ReferenceDevice.Replays ρ f.device (c.gathered p f).device g.device (c.gathered p g).device := by
  obtain ⟨hbindings, hmissing, hunresolved, rests⟩ := p.gather_again c.resolve c.entries hplaceholder
  obtain ⟨-, quiet, -⟩ := p.gathers_slots c.resolve c.entries f.device
  obtain ⟨-, quiet', -⟩ := p.gathers_slots c.resolve c.entries g.device
  have spared := (p.spares_gather c.resolve c.entries f.device).programs
  refine ⟨⟨?_, h.input, h.output, fun q hq => ?_, h.between.keeps quiet.keeps rfl rfl,
      h.between'.keeps quiet'.keeps rfl rfl⟩,
    hbindings, .of_rests quiet.draws quiet'.draws rests⟩
  · simp only [FrameContext.gathered, Frame.absorb, h.report, hmissing, hunresolved]
  · exact ((rests.program? q).trans (h.programs q hq)).trans (congrArg (List.lookup q) spared).symm

/-- Twins are drawn alike. The draws fail alike, too, where the program is not live. -/
theorem drawn (h : f.Twins known ρ kind recompiled g)
    (hplaceholder : ∀ t, (c.gathered p f).device.placeholder = some t → g.device.placeholder = some t)
    {program : ProgramId} (hp : p.program = some program) (hknown : known program) (index : Nat) :
    (c.runPass index p g).1 = (c.runPass index p f).1 ∧
      Twins known ρ kind recompiled (c.runPass index p f).2 (c.runPass index p g).2 ∧
      ReferenceDevice.Replays ρ f.device (c.runPass index p f).2.device g.device (c.runPass index p g).2.device := by
  obtain ⟨twins, hbindings, replays⟩ := h.gathered hplaceholder
  cases hx : (c.gathered p f).device.program? program with
  | none =>
    -- both draws are refused
    have hdraw : Device.draw (c.gathered p f).device (c.callOf p program f) = _ := ReferenceDevice.draw_unknown hx
    have hdraw' : Device.draw (c.gathered p g).device (c.callOf p program g) = _ :=
      ReferenceDevice.draw_unknown ((twins.programs program hknown).trans hx)
    obtain ⟨ns, hrun⟩ := c.runPass_refused hp index hdraw
    obtain ⟨ns', hrun'⟩ := c.runPass_refused hp index hdraw'
    rw [hrun, hrun']
    refine ⟨rfl, ⟨?_, twins.input, twins.output, twins.programs, twins.between.of_eq rfl rfl rfl,
      twins.between'.of_eq rfl rfl rfl⟩, replays⟩
    simp only [Report.fail, twins.report]
    rfl
  | some x =>
    obtain ⟨d, hdraw, hrecord⟩ := c.draw_gathered twins.between hx
    obtain ⟨e, hdraw', hrecord'⟩ := c.draw_gathered twins.between' ((twins.programs program hknown).trans hx)
    obtain ⟨ns, hrun⟩ := c.runPass_made hp index hdraw
    obtain ⟨ns', hrun'⟩ := c.runPass_made hp index hdraw'
    have keeps := ReferenceDevice.Keeps.draw hdraw
    have keeps' := ReferenceDevice.Keeps.draw hdraw'
    have hprograms : d.programs = (c.gathered p f).device.programs := ReferenceDevice.programs_draw hdraw
    have hprograms' : e.programs = (c.gathered p g).device.programs := ReferenceDevice.programs_draw hdraw'
    have rests : (c.gathered p g).device.Rests e := by
      have painted := ReferenceDevice.painted_draw (c.gathered p g).device (c.callOf p program g)
      rw [hdraw'] at painted
      exact .painted painted
    rw [hrun, hrun']
    have between := twins.between.keeps (g := { c.gathered p f with device := d, notices := ns }) keeps rfl rfl
    have between' := twins.between'.keeps (g := { c.gathered p g with device := e, notices := ns' }) keeps' rfl rfl
    refine ⟨rfl, ⟨?_, twins.output, twins.input, fun q hq => ?_, between.flip, between'.flip⟩,
      replays.trans ⟨rests, [_], hrecord, ?_⟩⟩
    · simp only [Frame.flip, twins.report]
    · have hsame := twins.programs q hq
      unfold ReferenceDevice.program? at hsame ⊢
      simp only [Frame.flip, hprograms, hprograms', hsame]
    · rw [List.map_singleton, ← c.call_again h hknown hbindings x.label]
      exact hrecord'

/-- The device of a pass keeps the placeholder that the pass has been given. -/
theorem placeholder_runPass {program : ProgramId} (hp : p.program = some program) (index : Nat) {t : TextureId}
    (ht : (c.gathered p f).device.placeholder = some t) : (c.runPass index p f).2.device.placeholder = some t := by
  rw [c.device_runPass hp index f]
  exact (ReferenceDevice.Keeps.draw rfl).placeholder t ht

theorem runPass (h : f.Twins known ρ kind recompiled g) (hknown : ∀ program, p.program = some program → known program)
    (index : Nat)
    (hplaceholder : ∀ t, (c.runPass index p f).2.device.placeholder = some t → g.device.placeholder = some t) :
    (c.runPass index p g).1 = (c.runPass index p f).1 ∧
      Twins known ρ kind recompiled (c.runPass index p f).2 (c.runPass index p g).2 ∧
      ReferenceDevice.Replays ρ f.device (c.runPass index p f).2.device g.device (c.runPass index p g).2.device := by
  cases hp : p.program with
  | none =>
    rw [c.runPass_unbuilt hp, c.runPass_unbuilt hp]
    refine ⟨rfl, ⟨?_, h.input, h.output, h.programs, h.between.of_eq rfl rfl rfl, h.between'.of_eq rfl rfl rfl⟩,
      .of_rests rfl rfl (.refl _)⟩
    simp only [Frame.abort, h.report]
  | some program =>
    exact h.drawn (fun t ht => hplaceholder t (placeholder_runPass hp index ht)) hp (hknown program hp) index

theorem runPasses (ps : List Pass) (hknown : ∀ p ∈ ps, ∀ program, p.program = some program → known program) :
    ∀ (index : Nat) {f g : Frame ReferenceDevice}, f.Twins known ρ kind recompiled g →
    (∀ t, (c.runPasses index f ps).device.placeholder = some t → g.device.placeholder = some t) →
    Twins known ρ kind recompiled (c.runPasses index f ps) (c.runPasses index g ps) ∧
      ReferenceDevice.Replays ρ f.device (c.runPasses index f ps).device g.device (c.runPasses index g ps).device := by
  induction ps with
  | nil => exact fun _ _ _ h _ => ⟨h, .of_rests rfl rfl (.refl _)⟩
  | cons p ps ih =>
    intro index f g h hplaceholder
    have hknown' := fun q hq => hknown q (List.mem_cons_of_mem p hq)
    unfold FrameContext.runPasses at hplaceholder ⊢
    rcases hf : c.runPass index p f with ⟨_ | _, f'⟩ <;> rw [hf] at hplaceholder
    · obtain ⟨hdrawn, twins, replays⟩ :=
        h.runPass (c := c) (hknown p List.mem_cons_self) index (by rw [hf]; exact hplaceholder)
      rcases hg : c.runPass index p g with ⟨_ | _, g'⟩ <;> rw [hf, hg] at hdrawn twins replays
      · exact ⟨twins, replays⟩
      · cases hdrawn
    · obtain ⟨hdrawn, twins, replays⟩ := h.runPass (c := c) (hknown p List.mem_cons_self) index fun t ht =>
        hplaceholder t ((c.keeps_runPasses ps _ _).1.placeholder t (by rw [hf] at ht; exact ht))
      rcases hg : c.runPass index p g with ⟨_ | _, g'⟩ <;> rw [hf, hg] at hdrawn twins replays
      · cases hdrawn
      -- the twin has had every later placeholder from the start, and the pass has not touched it
      · obtain ⟨twins', replays'⟩ := ih hknown' (index + 1) twins fun t ht =>
          replays.rests.placeholder.trans (hplaceholder t ht)
        exact ⟨twins', replays.trans replays'⟩

end Frame.Twins
end FxStack
