import FxStack.Proofs.Frame.Application
import FxStack.Proofs.Frame.Slots
import FxStack.Proofs.ScratchPool

/-! What an application shows on the reference device. The two scratch textures have one size, so passes
    hand the picture on unchanged, however many are drawn; and whatever is written in the end, by the
    antialias program or by a copy, is the picture at the size of the target. Main statement:
    `Stack.apply_shows`. -/

namespace FxStack

open ReferenceDevice (Keeps)

/-! ### Between passes -/

/-- The picture is held by the input, and the output has its size. -/
structure Frame.Holds (f : Frame ReferenceDevice) (picture : Image) : Prop where
  wellFormed : f.device.WellFormed
  input : f.device.imageOf? (.texture f.input) = some picture
  output : f.device.targetSize? (.texture f.output) = some picture.size

/-- The two textures of the frame. -/
def Frame.Borrows (f : Frame ReferenceDevice) (t : Target) : Prop := t = .texture f.input ∨ t = .texture f.output

namespace FrameContext
variable (c : FrameContext)

theorem inputOf_call {δ : Type} [Device δ] (program : ProgramId) (f : Frame δ) (g : Gathering δ) :
    ReferenceDevice.inputOf (c.call program f g).uniforms = some f.input := rfl

/-- What the members bind changes no picture. -/
theorem holds_gathered {f : Frame ReferenceDevice} {picture : Image} (h : f.Holds picture) (p : Pass) :
    Frame.Holds { f with device := (p.gather c.resolve c.entries f.device).device } picture := by
  obtain ⟨-, quiet, -, -⟩ := p.gathers_slots c.resolve c.entries f.device
  exact ⟨quiet.keeps.wellFormed h.wellFormed, quiet.keeps.imageOf? h.input id, quiet.keeps.targetSize? h.output⟩

/-- A pass writes to the textures of its frame only, and goes on with the same two. -/
theorem keeps_runPass (index : Nat) (p : Pass) (f : Frame ReferenceDevice) :
    Keeps f.Borrows f.device (c.runPass index p f).2.device ∧ (c.runPass index p f).2.Borrows = f.Borrows := by
  obtain ⟨-, quiet, -, -⟩ := p.gathers_slots c.resolve c.entries f.device
  unfold runPass
  split
  · exact ⟨.refl _ _, rfl⟩
  · dsimp only
    split
    · next d hd =>
      have drawn : Keeps f.Borrows _ d := (Keeps.draw hd).mono fun t ht => Or.inr ht
      exact ⟨(quiet.keeps' _).trans drawn, funext fun t => propext Or.comm⟩
    · next e d hd =>
      obtain rfl := ReferenceDevice.draw_error hd
      exact ⟨quiet.keeps' _, rfl⟩

theorem keeps_runPasses (ps : List Pass) : ∀ (index : Nat) (f : Frame ReferenceDevice),
    Keeps f.Borrows f.device (c.runPasses index f ps).device ∧ (c.runPasses index f ps).Borrows = f.Borrows := by
  induction ps with
  | nil => exact fun _ f => ⟨.refl _ _, rfl⟩
  | cons p ps ih =>
    intro index f
    have first := c.keeps_runPass index p f
    unfold runPasses
    rcases hrun : c.runPass index p f with ⟨_ | _, g⟩
    · rw [hrun] at first
      exact first
    · rw [hrun] at first
      obtain ⟨hkeeps, hborrows⟩ := first
      have rest := ih (index + 1) g
      rw [hborrows] at rest
      exact ⟨hkeeps.trans rest.1, rest.2⟩

/-- A pass hands the picture on, or leaves it where it is. -/
theorem holds_runPass (index : Nat) (p : Pass) {f : Frame ReferenceDevice} {picture : Image} (h : f.Holds picture) :
    (c.runPass index p f).2.Holds picture := by
  have gathered := c.holds_gathered h p
  unfold runPass
  split
  · exact ⟨h.wellFormed, h.input, h.output⟩
  · dsimp only
    split
    · next d hd =>
      have drawn := Keeps.draw hd
      obtain ⟨x, hx, hpicture⟩ := Option.map_eq_some_iff.mp gathered.input
      have shown := ReferenceDevice.imageOf?_draw (c.inputOf_call _ f _) hx gathered.output hd
      rw [hpicture, Image.resample_size] at shown
      have hsize := gathered.wellFormed.size_imageOf? gathered.input
      exact ⟨drawn.wellFormed gathered.wellFormed, shown, drawn.targetSize? hsize⟩
    · next e d hd =>
      obtain rfl := ReferenceDevice.draw_error hd
      exact ⟨gathered.wellFormed, gathered.input, gathered.output⟩

theorem holds_runPasses (ps : List Pass) : ∀ (index : Nat) {f : Frame ReferenceDevice} {picture : Image},
    f.Holds picture → (c.runPasses index f ps).Holds picture := by
  induction ps with
  | nil => exact fun _ _ _ h => h
  | cons p ps ih =>
    intro index f picture h
    have first := c.holds_runPass index p h
    unfold runPasses
    rcases hrun : c.runPass index p f with ⟨_ | _, g⟩
    · rw [hrun] at first
      exact first
    · rw [hrun] at first
      exact ih (index + 1) first

end FrameContext

/-! ### Writing the result -/

namespace Application
variable (a : Application ReferenceDevice)

theorem inputOf_antialiasBindings {δ : Type} [Device δ] (device : δ) (t : TextureId) :
    ReferenceDevice.inputOf (antialiasBindings device t) = some t := rfl

/-- The target shows the picture of a texture as the texture is sampled, and nothing else is written to. -/
structure Writes (d : ReferenceDevice) (t : TextureId) (target : Target) (d' : ReferenceDevice) : Prop where
  shows : d.WellFormed → ∀ x size, d.texture? t = some x → d.targetSize? target = some size →
    d'.imageOf? target = some (x.pixels.resample x.sampler.filter size)
  keeps : Keeps (· = target) d d'

theorem Writes.after_still {d₀ d d' : ReferenceDevice} {t : TextureId} {target : Target} (h : Writes d t target d')
    (hs : d₀.Still d) : Writes d₀ t target d' :=
  ⟨fun wf x size hx hsize =>
      h.shows (hs.keeps.wellFormed wf) x size (hs.textures t x hx) (hs.keeps.targetSize? hsize),
    (hs.keeps' _).trans h.keeps⟩

theorem writes_copyOut {d : ReferenceDevice} (h : a.device = d) (t : TextureId) (target : Target) :
    Writes d t target (a.copyOut t target).device := by
  subst h
  rcases hc : Device.copy a.device t target with ⟨e | _, d'⟩
  · have hdevice : (a.copyOut t target).device = d' := by
      unfold copyOut
      rw [hc]
      rfl
    rw [hdevice]
    refine ⟨fun wf x size hx hsize => ?_, .copy hc⟩
    obtain ⟨d'', hok, -⟩ := ReferenceDevice.copy_live wf hx hsize
    rw [hc] at hok
    cases hok
  · have hdevice : (a.copyOut t target).device = d' := by
      unfold copyOut
      rw [hc]
    rw [hdevice]
    refine ⟨fun wf x size hx hsize => ?_, .copy hc⟩
    obtain ⟨d'', hok, hshows⟩ := ReferenceDevice.copy_live wf hx hsize
    rw [hc] at hok
    cases hok
    exact hshows

theorem writes_drawAntialias {t : TextureId} {target : Target} {b : Application ReferenceDevice}
    (h : a.drawAntialias t target = (true, b)) : Writes a.device t target b.device := by
  obtain ⟨p, d, hs, hd⟩ := a.drawAntialias_true h
  have drawn : Writes d t target b.device :=
    ⟨fun _ x size hx hsize => ReferenceDevice.imageOf?_draw (inputOf_antialiasBindings d t) hx hsize hd, .draw hd⟩
  exact drawn.after_still hs

/-- The result is drawn by the antialias program, or else copied. -/
theorem writes_finish (t : TextureId) (destination : Option TextureId) :
    Writes (Device.setSampler a.device t a.finalSampling) t (.ofDestination destination)
      (a.finish t destination).device := by
  unfold finish
  dsimp only
  split
  · split
    · next b hb => exact writes_drawAntialias _ hb
    · next b hb => exact (b.writes_copyOut rfl t _).after_still (drawAntialias_false _ hb)
  · exact writes_copyOut _ (by rfl) t _

theorem keeps_finish {d : ReferenceDevice} (h : a.device = d) (t : TextureId) (destination : Option TextureId) :
    Keeps (· = .ofDestination destination) d (a.finish t destination).device := by
  subst h
  have sampled : a.device.Quiet (Device.setSampler a.device t a.finalSampling) := .setSampler _ _ _
  exact (sampled.keeps' _).trans (a.writes_finish t destination).keeps

/-- In the end the target shows the picture of the texture, filtered as the stack says. -/
theorem shows_finish {d : ReferenceDevice} (h : a.device = d) (wf : d.WellFormed) {t : TextureId} {picture : Image}
    (ht : d.imageOf? (.texture t) = some picture) {destination : Option TextureId} {size : Nat × Nat}
    (hsize : d.targetSize? (.ofDestination destination) = some size) :
    (a.finish t destination).device.imageOf? (.ofDestination destination) =
      some (picture.resample (if a.stack.filter then .linear else .nearest) size) := by
  subst h
  have sampled : a.device.Quiet (Device.setSampler a.device t a.finalSampling) := .setSampler _ _ _
  obtain ⟨x, hx, rfl⟩ := Option.map_eq_some_iff.mp ht
  have hx' : (Device.setSampler a.device t a.finalSampling).texture? t = some { x with sampler := a.finalSampling } := by
    rw [ReferenceDevice.texture?_setSampler, if_pos rfl, hx]
    rfl
  have shown := (a.writes_finish t destination).shows (sampled.keeps.wellFormed wf) _ size hx'
    (sampled.keeps.targetSize? hsize)
  simp only [finalSampling] at shown
  exact shown

end Application

/-! ### Between two scratch textures -/

/-- What a run may write to: its target and the two textures it borrows. -/
def FrameInput.TouchesPair (input : FrameInput) (pair : TextureId × TextureId) (t : Target) : Prop :=
  t = .ofDestination input.destination ∨ t = .texture pair.1 ∨ t = .texture pair.2

/-- What applying may write to: the destination or the display, and textures that wait in the pool or are
    new. -/
def FrameInput.Touches (input : FrameInput) (d : ReferenceDevice) (pool : ScratchPool) (t : Target) : Prop :=
  t = .ofDestination input.destination ∨ ∃ u, t = .texture u ∧ ∀ y, d.texture? u = some y → u ∈ pool.idle.map (·.2)

theorem ScratchPool.Borrowed.touches {pool pool' : ScratchPool} {d d' : ReferenceDevice} {kind : TextureKind}
    {pair : TextureId × TextureId} (h : Borrowed pool d kind pair pool' d') {input : FrameInput} {t : Target}
    (ht : input.TouchesPair pair t) : input.Touches d pool t := by
  have waited : ∀ u, (u = pair.1 ∨ u = pair.2) → ∀ y, d.texture? u = some y → u ∈ pool.idle.map (·.2) := by
    intro u hu y hy
    by_contra hidle
    obtain ⟨h1, h2⟩ := h.other u y hy hidle
    exact hu.elim h1 h2
  rcases ht with rfl | rfl | rfl
  · exact Or.inl rfl
  · exact Or.inr ⟨pair.1, rfl, waited pair.1 (Or.inl rfl)⟩
  · exact Or.inr ⟨pair.2, rfl, waited pair.2 (Or.inr rfl)⟩

namespace Application

variable {a : Application ReferenceDevice} {c : FrameContext} {input : FrameInput} {kind : TextureKind}

/-- The frame after the passes of an application. -/
def drawn (a : Application ReferenceDevice) (c : FrameContext) (pair : TextureId × TextureId) : Frame ReferenceDevice :=
  c.runPasses 0 ⟨a.device, pair.1, pair.2, a.report, a.notices⟩ a.stack.passes

theorem runPasses_eq (a : Application ReferenceDevice) (c : FrameContext) (pair : TextureId × TextureId)
    (destination : Option TextureId) :
    a.runPasses c pair destination =
      { a with
        device := (a.drawn c pair).device
        report := (a.drawn c pair).report
        notices := (a.drawn c pair).notices }.finish (a.drawn c pair).input destination := rfl

variable (c input)

/-- A run that gets its two textures writes to them and to its target only, and gives them back. -/
theorem keeps_run_drawable (wf : a.device.WellFormed) (h : a.pool.Backed a.device)
    (hk : kind.width ≠ 0 ∧ kind.height ≠ 0) :
    ∃ pair pool d, ScratchPool.Borrowed a.pool a.device kind pair pool d ∧
      Keeps (input.TouchesPair pair) a.device (a.run c input kind).device ∧
      (a.run c input kind).pool = (pool.releasePair pair).1 ∧ Keeps (input.TouchesPair pair) d (a.run c input kind).device := by
  obtain ⟨pair, pool, d, hpair, borrowed⟩ := ScratchPool.acquirePair_drawable wf h hk
  refine ⟨pair, pool, d, borrowed, ?_⟩
  suffices later : Keeps (input.TouchesPair pair) d (a.run c input kind).device ∧
      (a.run c input kind).pool = (pool.releasePair pair).1 from
    ⟨(borrowed.still.keeps' _).trans later.1, later.2, later.1⟩
  rcases hcopy : Device.copy d input.source (.texture pair.1) with ⟨e | _, d'⟩
  · -- The result is written from the source, and the two textures go back unused.
    have copied : Keeps (input.TouchesPair pair) d d' := (Keeps.copy hcopy).mono fun t ht => Or.inr (Or.inl ht)
    rw [run_of_copyFailed hpair hcopy]
    refine ⟨copied.trans ?_, ?_⟩
    · exact (keeps_finish _ (by rfl) _ _).mono fun t ht => Or.inl ht
    · simp only [giveBack, (ends_finish _ _ _).pool]
      rfl
  · have copied : Keeps (input.TouchesPair pair) d d' := (Keeps.copy hcopy).mono fun t ht => Or.inr (Or.inl ht)
    rw [run_of_borrowed hpair hcopy]
    have passes := (c.keeps_runPasses a.stack.passes 0
      ⟨d', pair.1, pair.2, (a.borrowed pool d []).report, (a.borrowed pool d []).notices⟩).1
    rw [runPasses_eq]
    refine ⟨copied.trans ((passes.mono fun t ht => Or.inr ht).trans ?_), ?_⟩
    · exact (keeps_finish _ (by rfl) _ _).mono fun t ht => Or.inl ht
    · simp only [giveBack, (ends_finish _ _ _).pool]
      rfl

/-- With two scratch textures, the target shows the source at the size of the scratch textures, as the source
    was sampled, brought to the size of the target, whatever the passes are and wherever they stop. -/
theorem shows_run_drawable (wf : a.device.WellFormed) (h : a.pool.Backed a.device)
    (hk : kind.width ≠ 0 ∧ kind.height ≠ 0) {x : Texture} (hx : a.device.texture? input.source = some x)
    {size : Nat × Nat} (hsize : a.device.targetSize? (.ofDestination input.destination) = some size) :
    (a.run c input kind).device.imageOf? (.ofDestination input.destination) =
      some ((x.pixels.resample x.sampler.filter kind.size).resample (if a.stack.filter then .linear else .nearest)
        size) := by
  obtain ⟨pair, pool, d, hpair, borrowed⟩ := ScratchPool.acquirePair_drawable wf h hk
  have wf₁ := borrowed.still.keeps.wellFormed wf
  have hx₁ := borrowed.still.textures _ x hx
  have kinds : ∀ t, (∃ y, d.texture? t = some y ∧ y.kind = kind) → d.targetSize? (.texture t) = some kind.size := by
    rintro t ⟨y, hy, hkind⟩
    simp only [ReferenceDevice.targetSize?, hy, Option.map_some, hkind]
  obtain ⟨d', hcopy, hpicture⟩ := ReferenceDevice.copy_live wf₁ hx₁ (kinds pair.1 borrowed.first)
  have copied := Keeps.copy hcopy
  rw [run_of_borrowed hpair hcopy, runPasses_eq]
  have start : Frame.Holds ⟨d', pair.1, pair.2, (a.borrowed pool d []).report, (a.borrowed pool d []).notices⟩
      (x.pixels.resample x.sampler.filter kind.size) := by
    refine ⟨copied.wellFormed wf₁, hpicture, copied.targetSize? ?_⟩
    rw [Image.size_resample]
    exact kinds pair.2 borrowed.second
  have passes := (c.keeps_runPasses a.stack.passes 0
    ⟨d', pair.1, pair.2, (a.borrowed pool d []).report, (a.borrowed pool d []).notices⟩).1
  have ended := c.holds_runPasses a.stack.passes 0 start
  exact shows_finish _ (by rfl) ended.wellFormed ended.input
    (passes.targetSize? (copied.targetSize? (borrowed.still.keeps.targetSize? hsize)))

/-- Without scratch textures the source is written as it is. -/
theorem run_empty (wf : a.device.WellFormed) (h : a.pool.Backed a.device) (hk : ¬(kind.width ≠ 0 ∧ kind.height ≠ 0)) :
    Keeps (· = .ofDestination input.destination) a.device (a.run c input kind).device ∧
      (a.run c input kind).pool = a.pool ∧
      ∀ x size, a.device.texture? input.source = some x →
        a.device.targetSize? (.ofDestination input.destination) = some size →
        (a.run c input kind).device.imageOf? (.ofDestination input.destination) =
          some (x.pixels.resample (if a.stack.filter then .linear else .nearest) size) := by
  rw [run_of_noScratch (ScratchPool.acquirePair_empty h hk)]
  refine ⟨keeps_finish _ (by rfl) _ _, (ends_finish _ _ _).pool, fun x size hx hsize => ?_⟩
  exact shows_finish _ (by rfl) wf (ReferenceDevice.imageOf?_texture hx) hsize

/-- Whatever the kind of the scratch textures, a run keeps the textures of the device and of the pool. -/
theorem keeps_run (wf : a.device.WellFormed) (h : a.pool.Backed a.device) :
    Keeps (input.Touches a.device a.pool) a.device (a.run c input kind).device ∧
      (a.run c input kind).pool.Backed (a.run c input kind).device := by
  by_cases hk : kind.width ≠ 0 ∧ kind.height ≠ 0
  · obtain ⟨pair, pool, d, borrowed, hkeeps, hpool, hlater⟩ := keeps_run_drawable c input wf h hk
    refine ⟨hkeeps.mono fun t ht => borrowed.touches ht, ?_⟩
    rw [hpool]
    exact (borrowed.backed.mono hlater).releasePair pair
  · obtain ⟨hkeeps, hpool, -⟩ := run_empty c input wf h hk
    refine ⟨hkeeps.mono fun t ht => Or.inl ht, ?_⟩
    rw [hpool]
    exact h.mono hkeeps

theorem shows_run (wf : a.device.WellFormed) (h : a.pool.Backed a.device) {x : Texture}
    (hx : a.device.texture? input.source = some x) {size : Nat × Nat}
    (hsize : a.device.targetSize? (.ofDestination input.destination) = some size) :
    let flag : Filter := if a.stack.filter then .linear else .nearest
    (a.run c input kind).device.imageOf? (.ofDestination input.destination) = some
      (if kind.width = 0 ∨ kind.height = 0 then x.pixels.resample flag size
        else (x.pixels.resample x.sampler.filter kind.size).resample flag size) := by
  intro flag
  by_cases hk : kind.width = 0 ∨ kind.height = 0
  · rw [if_pos hk]
    exact (run_empty c input wf h fun hne => hk.elim hne.1 hne.2).2.2 x size hx hsize
  · rw [if_neg hk]
    exact shows_run_drawable c input wf h (not_or.mp hk) hx hsize

end Application

/-! ### Applying a stack -/

namespace Stack
variable (s : Stack) (catalog : Catalog) {d : ReferenceDevice} {pool : ScratchPool} (resolve : Resolver)
  (input : FrameInput)

theorem textureKind?_eq {x : Texture} (hx : d.texture? input.source = some x) :
    Device.textureKind? d input.source = some x.kind := by
  have hkind : Device.textureKind? d input.source = (d.texture? input.source).map (·.kind) := rfl
  rw [hkind, hx]
  rfl

/-- Whatever is applied to whatever, the device keeps its textures, and the pool too. -/
theorem keeps_apply (wf : d.WellFormed) (h : pool.Backed d) :
    Keeps (input.Touches d pool) d (s.apply catalog d pool resolve input).device ∧
      (s.apply catalog d pool resolve input).pool.Backed (s.apply catalog d pool resolve input).device := by
  have prepared := s.still_prepare catalog d pool
  have wf₁ := prepared.keeps.wellFormed wf
  have h₁ : (s.prepare catalog d pool).pool.Backed (s.prepare catalog d pool).device := h.mono prepared.keeps
  cases hkind : Device.textureKind? d input.source with
  | none =>
    rw [apply_of_dead _ _ _ _ _ hkind]
    exact ⟨.refl _ _, h⟩
  | some kind =>
    rw [apply_of_live _ _ _ _ _ hkind]
    dsimp only
    split
    · have written := Application.keeps_finish (s.prepare catalog d pool) rfl input.source input.destination
      refine ⟨(prepared.keeps' _).trans (written.mono fun t ht => Or.inl ht), ?_⟩
      rw [(Application.ends_finish _ _ _).pool]
      exact h₁.mono written
    · obtain ⟨hkeeps, hbacked⟩ := Application.keeps_run _ input wf₁ h₁
      refine ⟨(prepared.keeps' _).trans (hkeeps.mono fun t ht => ?_), hbacked⟩
      exact ht.imp id fun ⟨u, hu, hwaits⟩ => ⟨u, hu, fun y hy => hwaits y (prepared.textures u y hy)⟩

/-- The target shows the source as it was sampled before, at the size of the frame, if there are passes and
    scratch textures of that size, and then at its own size as the stack says. -/
theorem apply_shows (wf : d.WellFormed) (h : pool.Backed d) {x : Texture} (hx : d.texture? input.source = some x)
    {size : Nat × Nat} (hsize : d.targetSize? (.ofDestination input.destination) = some size) :
    let a := s.apply catalog d pool resolve input
    let frame := frameSize d input x.kind
    let flag : Filter := if s.filter then .linear else .nearest
    a.device.imageOf? (.ofDestination input.destination) = some
      (if a.stack.passes.isEmpty ∨ frame.1 = 0 ∨ frame.2 = 0 then x.pixels.resample flag size
        else (x.pixels.resample x.sampler.filter frame).resample flag size) := by
  intro a frame flag
  have hkind := textureKind?_eq input hx
  have prepared := s.still_prepare catalog d pool
  have wf₁ := prepared.keeps.wellFormed wf
  have h₁ : (s.prepare catalog d pool).pool.Backed (s.prepare catalog d pool).device := h.mono prepared.keeps
  have hx₁ := prepared.textures _ x hx
  have hsize₁ := prepared.keeps.targetSize? hsize
  have hpasses : a.stack.passes = (s.prepare catalog d pool).stack.passes :=
    (s.continues_apply catalog d pool resolve (by rw [hkind]; rfl)).passes
  have hfilter := (agrees_prepare s catalog d pool).filter
  have hlive : a = s.apply catalog d pool resolve input := rfl
  rw [apply_of_live _ _ _ _ _ hkind] at hlive
  dsimp only at hlive
  rw [hpasses]
  cases hempty : (s.prepare catalog d pool).stack.passes.isEmpty with
  | true =>
    rw [hempty, if_pos rfl] at hlive
    have shown := Application.shows_finish (s.prepare catalog d pool) rfl wf₁ (ReferenceDevice.imageOf?_texture hx₁) hsize₁
    rw [hfilter] at shown
    rw [hlive, if_pos (Or.inl rfl)]
    exact shown
  | false =>
    rw [hempty, if_neg Bool.false_ne_true] at hlive
    rw [hlive]
    simp only [Bool.false_eq_true, false_or, flag, ← hfilter]
    exact Application.shows_run _ input wf₁ h₁ hx₁ hsize₁

end Stack
end FxStack
