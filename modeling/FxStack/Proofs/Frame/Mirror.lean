import FxStack.Proofs.Frame.Application

/-! Devices that behave alike. A map of devices under which all operations give the same answers takes an
    application on one device to the same application on the other. About programs a device is asked in one place
    only, and there about the program of a pass; so what it would answer about other programs makes no difference.
    Main statement: `Stack.apply_mirror`. -/

namespace FxStack

/-- What is asked of a device in an application is answered alike by `f d`, but that only the uniforms of some
    programs need be known there. -/
structure Device.Mirrors {δ ε : Type} [Device δ] [Device ε] (known : ProgramId → Prop) (f : δ → ε) : Prop where
  compileProgram (d : δ) (label source : String) :
    Device.compileProgram (f d) label source = (Device.compileProgram d label source).map id f
  deleteProgram (d : δ) (p : ProgramId) : Device.deleteProgram (f d) p = f (Device.deleteProgram d p)
  hasUniform (d : δ) {p : ProgramId} (hp : known p) (name : String) :
    Device.hasUniform (f d) p name = Device.hasUniform d p name
  createTexture (d : δ) (kind : TextureKind) :
    Device.createTexture (f d) kind = (Device.createTexture d kind).map id f
  textureKind? (d : δ) (t : TextureId) : Device.textureKind? (f d) t = Device.textureKind? d t
  placeholderTexture (d : δ) : Device.placeholderTexture (f d) = (Device.placeholderTexture d).map id f
  setSampler (d : δ) (t : TextureId) (s : Sampler) : Device.setSampler (f d) t s = f (Device.setSampler d t s)
  setFixedFunction (d : δ) (s : FixedFunction) : Device.setFixedFunction (f d) s = f (Device.setFixedFunction d s)
  draw (d : δ) (call : DrawCall) : Device.draw (f d) call = (Device.draw d call).map id f
  copy (d : δ) (t : TextureId) (target : Target) : Device.copy (f d) t target = (Device.copy d t target).map id f

/-! ### What has a device in it -/

section
variable {δ ε : Type} (f : δ → ε)

def Gathering.over (g : Gathering δ) : Gathering ε :=
  ⟨f g.device, g.unit, g.bindings, g.missingTextures, g.placeholderUniforms, g.notices⟩

def Frame.over (x : Frame δ) : Frame ε := ⟨f x.device, x.input, x.output, x.report, x.notices⟩

def Application.over (a : Application δ) : Application ε := ⟨a.stack, f a.device, a.pool, a.report, a.notices⟩

end

namespace Device.Mirrors
variable {δ ε : Type} [Device δ] [Device ε] {known : ProgramId → Prop} {f : δ → ε}

/-! ### Compiling -/

theorem build (h : Mirrors known f) (index : Nat) (p : Pass) (d : δ) :
    p.build index (f d) = (p.build index d).map id (Prod.map f id) := by
  unfold Pass.build
  dsimp only
  rw [h.compileProgram]
  rcases Device.compileProgram d (Program.label index p) (Program.ofPass p) with ⟨e | program, d'⟩ <;> rfl

theorem buildAll (h : Mirrors known f) (ps : List Pass) : ∀ (index : Nat) (d : δ),
    Pass.buildAll index (f d) ps = (Pass.buildAll index d ps).map id (Prod.map f id) := by
  induction ps with
  | nil => exact fun _ _ => rfl
  | cons p ps ih =>
    intro index d
    rw [Pass.buildAll, Pass.buildAll, h.build]
    dsimp only [Prod.map, id]
    rw [ih]
    rfl

theorem compile (h : Mirrors known f) (s : Stack) (catalog : Catalog) (d : δ) :
    s.compile catalog (f d) = (s.compile catalog d).map id (Prod.map f id) := by
  unfold Stack.compile
  dsimp only
  rw [List.foldl_hom f fun d p => h.deleteProgram d p, h.buildAll]
  rfl

theorem prepare (h : Mirrors known f) (s : Stack) (catalog : Catalog) (d : δ) (pool : ScratchPool) :
    s.prepare catalog (f d) pool = (s.prepare catalog d pool).over f := by
  unfold Stack.prepare
  dsimp only
  split
  · rw [h.compile]
    dsimp only [Prod.map, id]
    rw [h.setFixedFunction]
    rfl
  · rw [h.setFixedFunction]
    rfl

/-! ### Gathering -/

theorem findTexture (h : Mirrors known f) (resolve : Resolver) (uniform : String) (v : Value) (g : Gathering δ) :
    Member.findTexture resolve uniform v (g.over f) =
      (Member.findTexture resolve uniform v g).map id (Gathering.over f) := by
  have hplaced : Device.placeholderTexture (g.over f).device =
      (Device.placeholderTexture g.device).map id f := h.placeholderTexture g.device
  unfold Member.findTexture
  dsimp only
  cases v.textureName?.bind resolve with
  | some t => rfl
  | none =>
    cases v.textureName? with
    | none =>
      dsimp only
      rw [hplaced]
      rcases Device.placeholderTexture g.device with ⟨e | t, d⟩ <;> rfl
    | some name =>
      dsimp only [Gathering.note]
      rw [hplaced]
      rcases Device.placeholderTexture g.device with ⟨e | t, d⟩ <;> rfl

theorem bindTexture (h : Mirrors known f) (spec : Uniform) (uniform : String) (t : TextureId) (g : Gathering δ) :
    Member.bindTexture spec uniform t (g.over f) = (Member.bindTexture spec uniform t g).over f := by
  have hset : Device.setSampler (g.over f).device t spec.sampling = f (Device.setSampler g.device t spec.sampling) :=
    h.setSampler g.device t spec.sampling
  unfold Member.bindTexture
  dsimp only
  rw [hset]
  cases spec.overridesSampling <;> rfl

theorem gatherUniform (h : Mirrors known f) (resolve : Resolver) (m : Member) (entry : Option Entry) (g : Gathering δ)
    (u : String × Uniform) :
    Member.gatherUniform resolve m entry (g.over f) u = (Member.gatherUniform resolve m entry g u).over f := by
  unfold Member.gatherUniform
  dsimp only
  have hnote : (m.valueOf entry u.1 u.2).2.elim (g.over f) (g.over f).note =
      ((m.valueOf entry u.1 u.2).2.elim g g.note).over f := by
    cases (m.valueOf entry u.1 u.2).2 <;> rfl
  rw [hnote]
  generalize (m.valueOf entry u.1 u.2).2.elim g g.note = g
  split
  · rw [h.findTexture]
    rcases Member.findTexture resolve (u.2.nameAt m.index) (m.valueOf entry u.1 u.2).1 g with ⟨_ | t, g⟩
    · rfl
    · exact h.bindTexture u.2 (u.2.nameAt m.index) t g
  · split <;> rfl

theorem gather (h : Mirrors known f) (p : Pass) (resolve : Resolver) (entries : List Entry) (d : δ) :
    p.gather resolve entries (f d) = (p.gather resolve entries d).over f := by
  have hmember (g : Gathering δ) (m : Member) :
      Member.gather resolve entries (g.over f) m = (Member.gather resolve entries g m).over f :=
    List.foldl_hom (Gathering.over f) fun g u => h.gatherUniform resolve m _ g u
  unfold Pass.gather
  rw [← List.foldl_hom (Gathering.over f) hmember]
  rfl

/-! ### Running passes -/

/-- The device is asked about the program that is drawn with. -/
theorem runPass (h : Mirrors known f) (c : FrameContext) (index : Nat) {p : Pass}
    (hp : ∀ program, p.program = some program → known program) (x : Frame δ) :
    c.runPass index p (x.over f) = (c.runPass index p x).map id (Frame.over f) := by
  unfold FrameContext.runPass
  split
  · rfl
  · next program hprogram =>
    have hgather : p.gather c.resolve c.entries (x.over f).device = (p.gather c.resolve c.entries x.device).over f :=
      h.gather p c.resolve c.entries x.device
    have hdepth : c.depthBindings (x.over f).device program = c.depthBindings x.device program := by
      unfold FrameContext.depthBindings
      cases c.depth with
      | none => rfl
      | some depth =>
        have hasked : Device.hasUniform (x.over f).device program GlobalUniform.depthTexture =
            Device.hasUniform x.device program GlobalUniform.depthTexture :=
          h.hasUniform x.device (hp program hprogram) _
        simp only [hasked]
    have hcall (g : Gathering δ) : c.call program (x.over f) (g.over f) = c.call program x g := by
      unfold FrameContext.call
      rw [hdepth]
      rfl
    dsimp only
    rw [hgather, hcall]
    generalize p.gather c.resolve c.entries x.device = g
    have hdraw := h.draw g.device (c.call program x g)
    dsimp only [Frame.absorb, Gathering.over]
    rw [hdraw]
    rcases Device.draw g.device (c.call program x g) with ⟨e | _, d⟩ <;> rfl

theorem runPasses (h : Mirrors known f) (c : FrameContext) {ps : List Pass} :
    ∀ (index : Nat) (x : Frame δ), (∀ p ∈ ps, ∀ program, p.program = some program → known program) →
      c.runPasses index (x.over f) ps = (c.runPasses index x ps).over f := by
  induction ps with
  | nil => exact fun _ _ _ => rfl
  | cons p ps ih =>
    intro index x hps
    unfold FrameContext.runPasses
    rw [h.runPass c index (hps p List.mem_cons_self)]
    rcases c.runPass index p x with ⟨_ | _, y⟩
    · rfl
    · exact ih (index + 1) y fun q hq => hps q (List.mem_cons_of_mem p hq)

/-! ### Writing the result -/

theorem ensureAntialias (h : Mirrors known f) (a : Application δ) :
    (a.over f).ensureAntialias = a.ensureAntialias.map id (Application.over f) := by
  unfold Application.ensureAntialias
  dsimp only [Application.over]
  split
  · rfl
  · rfl
  · rw [h.compileProgram]
    rcases Device.compileProgram a.device Program.antialiasLabel Program.antialias with ⟨e | p, d⟩ <;> rfl

theorem drawAntialias (h : Mirrors known f) (a : Application δ) (t : TextureId) (target : Target) :
    (a.over f).drawAntialias t target = (a.drawAntialias t target).map id (Application.over f) := by
  unfold Application.drawAntialias
  rw [h.ensureAntialias]
  rcases a.ensureAntialias with ⟨_ | p, b⟩
  · rfl
  · have hbindings : Application.antialiasBindings (b.over f).device t = Application.antialiasBindings b.device t := by
      unfold Application.antialiasBindings
      rw [show Device.textureKind? (b.over f).device t = _ from h.textureKind? b.device t]
    have hdraw := h.draw b.device ⟨p, target, Application.antialiasBindings b.device t⟩
    dsimp only [Prod.map, id]
    rw [hbindings, show (b.over f).device = f b.device from rfl, hdraw]
    rcases Device.draw b.device ⟨p, target, Application.antialiasBindings b.device t⟩ with ⟨e | _, d⟩ <;> rfl

theorem copyOut (h : Mirrors known f) (a : Application δ) (t : TextureId) (target : Target) :
    (a.over f).copyOut t target = (a.copyOut t target).over f := by
  unfold Application.copyOut
  dsimp only [Application.over]
  rw [h.copy]
  rcases Device.copy a.device t target with ⟨e | _, d⟩ <;> rfl

theorem finish (h : Mirrors known f) (a : Application δ) (t : TextureId) (destination : Option TextureId) :
    (a.over f).finish t destination = (a.finish t destination).over f := by
  have hset :
      ({ a.over f with device := Device.setSampler (a.over f).device t (a.over f).finalSampling } : Application ε) =
      ({ a with device := Device.setSampler a.device t a.finalSampling } : Application δ).over f := by
    dsimp only [Application.over]
    rw [h.setSampler]
    rfl
  by_cases hon : a.stack.antialias = true
  · have hon' : (a.over f).stack.antialias = true := hon
    unfold Application.finish
    dsimp only
    rw [if_pos hon, if_pos hon', hset, h.drawAntialias]
    rcases Application.drawAntialias _ t (Target.ofDestination destination) with ⟨_ | _, b⟩
    · exact h.copyOut b t _
    · rfl
  · have hon' : ¬(a.over f).stack.antialias = true := hon
    unfold Application.finish
    dsimp only
    rw [if_neg hon, if_neg hon', hset, h.copyOut]

/-! ### Borrowing -/

theorem acquire (h : Mirrors known f) (pool : ScratchPool) (d : δ) (kind : TextureKind) :
    pool.acquire (f d) kind = (pool.acquire d kind).map id (Prod.map id f) := by
  unfold ScratchPool.acquire
  split
  · rfl
  · rw [h.createTexture]
    rcases Device.createTexture d kind with ⟨e | t, d'⟩ <;> rfl

theorem acquirePair (h : Mirrors known f) (pool : ScratchPool) (d : δ) (kind : TextureKind) :
    pool.acquirePair (f d) kind = (pool.acquirePair d kind).map id (Prod.map id (Prod.map f id)) := by
  unfold ScratchPool.acquirePair
  rw [h.acquire]
  rcases pool.acquire d kind with ⟨e | t, pool₁, d₁⟩
  · rfl
  · dsimp only [Prod.map, id]
    rw [h.acquire]
    rcases pool₁.acquire d₁ kind with ⟨e | u, pool₂, d₂⟩ <;> rfl

/-! ### Applying -/

theorem runFrame (h : Mirrors known f) (a : Application δ) (c : FrameContext) (pair : TextureId × TextureId)
    (destination : Option TextureId)
    (hpasses : ∀ p ∈ a.stack.passes, ∀ program, p.program = some program → known program) :
    (a.over f).runPasses c pair destination = (a.runPasses c pair destination).over f := by
  have hframe := h.runPasses c 0 ⟨a.device, pair.1, pair.2, a.report, a.notices⟩ hpasses
  unfold Application.runPasses
  dsimp only
  rw [← h.finish, show c.runPasses 0 ⟨(a.over f).device, pair.1, pair.2, (a.over f).report, (a.over f).notices⟩
    (a.over f).stack.passes = _ from hframe]
  rfl

theorem run (h : Mirrors known f) (a : Application δ) (c : FrameContext) (input : FrameInput) (kind : TextureKind)
    (hpasses : ∀ p ∈ a.stack.passes, ∀ program, p.program = some program → known program) :
    (a.over f).run c input kind = (a.run c input kind).over f := by
  have hpair : (a.over f).pool.acquirePair (a.over f).device kind = _ := h.acquirePair a.pool a.device kind
  rcases hborrowed : a.pool.acquirePair a.device kind with ⟨e | pair, pool, d, ns⟩ <;> rw [hborrowed] at hpair
  · rw [Application.run_of_noScratch hborrowed, Application.run_of_noScratch hpair, ← h.finish]
    rfl
  · have hcopy := h.copy d input.source (.texture pair.1)
    rcases hcopied : Device.copy d input.source (.texture pair.1) with ⟨e | _, d'⟩ <;> rw [hcopied] at hcopy
    · rw [Application.run_of_copyFailed hborrowed hcopied, Application.run_of_copyFailed hpair hcopy]
      have hfinish := h.finish
        (({ a.borrowed pool d ns with device := d' } : Application δ).fail e (.sourceCopyFailed e)) input.source input.destination
      exact congrArg (·.giveBack pair) hfinish
    · rw [Application.run_of_borrowed hborrowed hcopied, Application.run_of_borrowed hpair hcopy]
      have hframe := h.runFrame ({ a.borrowed pool d ns with device := d' } : Application δ) c pair input.destination
        hpasses
      exact congrArg (·.giveBack pair) hframe

end Device.Mirrors

/-- An application sees of a device no more than its mirrors show, and asks about the programs of its passes only. -/
theorem Stack.apply_mirror {δ ε : Type} [Device δ] [Device ε] {known : ProgramId → Prop} {f : δ → ε}
    (h : Device.Mirrors known f) (s : Stack) (catalog : Catalog) (d : δ) (pool : ScratchPool) (resolve : Resolver)
    (input : FrameInput) (hknown : ∀ p ∈ (s.apply catalog d pool resolve input).stack.programs, known p) :
    s.apply catalog (f d) pool resolve input = (s.apply catalog d pool resolve input).over f := by
  have hkinds : Device.textureKind? (f d) = Device.textureKind? d := funext (h.textureKind? d)
  have hlooked := h.textureKind? d input.source
  cases hkind : Device.textureKind? d input.source with
  | none =>
    rw [hkind] at hlooked
    rw [apply_of_dead _ _ _ _ _ hkind, apply_of_dead _ _ _ _ _ hlooked]
    rfl
  | some kind =>
    have live : (Device.textureKind? d input.source).isSome := by rw [hkind]; rfl
    have hpasses := (s.continues_apply catalog d pool resolve live).passes
    rw [hkind] at hlooked
    rw [apply_of_live _ _ _ _ _ hkind, apply_of_live _ _ _ _ _ hlooked]
    have hsize : frameSize (f d) input kind = frameSize d input kind := by
      unfold frameSize
      rw [hkinds]
    dsimp only
    rw [hsize, h.prepare]
    have hpassed : ∀ p ∈ (s.prepare catalog d pool).stack.passes,
        ∀ program, p.program = some program → known program := by
      intro p hp program hprogram
      refine hknown program (List.mem_filterMap.mpr ⟨p, ?_, hprogram⟩)
      rw [hpasses]
      exact hp
    generalize s.prepare catalog d pool = a at hpassed
    by_cases hempty : a.stack.passes.isEmpty = true
    · have hempty' : (a.over f).stack.passes.isEmpty = true := hempty
      rw [if_pos hempty, if_pos hempty', h.finish]
    · have hempty' : ¬(a.over f).stack.passes.isEmpty = true := hempty
      rw [if_neg hempty, if_neg hempty']
      exact h.run a _ input _ hpassed

/-! ### Masks -/

/-- A device that answers questions about programs in a way of its own where it has been told to. -/
structure Masked (δ : Type) where
  inner : δ
  answer : ProgramId → String → Option Bool

namespace Masked
variable {δ : Type}

def passOn {α : Type} (d : Masked δ) (r : α × δ) : α × Masked δ := (r.1, ⟨r.2, d.answer⟩)

instance [Device δ] : Device (Masked δ) where
  compileProgram d label source := d.passOn (Device.compileProgram d.inner label source)
  deleteProgram d p := ⟨Device.deleteProgram d.inner p, d.answer⟩
  hasUniform d p name := (d.answer p name).getD (Device.hasUniform d.inner p name)
  createTexture d kind := d.passOn (Device.createTexture d.inner kind)
  destroyTexture d t := ⟨Device.destroyTexture d.inner t, d.answer⟩
  textureKind? d t := Device.textureKind? d.inner t
  placeholderTexture d := d.passOn (Device.placeholderTexture d.inner)
  setSampler d t s := ⟨Device.setSampler d.inner t s, d.answer⟩
  setFixedFunction d s := ⟨Device.setFixedFunction d.inner s, d.answer⟩
  displaySize d := Device.displaySize d.inner
  draw d call := d.passOn (Device.draw d.inner call)
  copy d source target := d.passOn (Device.copy d.inner source target)

/-- Where the mask does not answer it does not show. -/
theorem mirrors [Device δ] (answer : ProgramId → String → Option Bool) :
    Device.Mirrors (fun p => ∀ name, answer p name = none) fun d : δ => (⟨d, answer⟩ : Masked δ) where
  compileProgram _ _ _ := rfl
  deleteProgram _ _ := rfl
  hasUniform d p hp name := by
    change (answer p name).getD _ = _
    rw [hp name]
    rfl
  createTexture _ _ := rfl
  textureKind? _ _ := rfl
  placeholderTexture _ := rfl
  setSampler _ _ _ := rfl
  setFixedFunction _ _ := rfl
  draw _ _ := rfl
  copy _ _ _ := rfl

end Masked
end FxStack
