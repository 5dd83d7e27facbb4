import FxStack.Proofs.Frame.Again
import FxStack.Proofs.Frame.Mirror
import FxStack.Proofs.Stack.Cache
import FxStack.Proofs.Stack.Studio

/-! Frames one after the other. Whatever becomes of the first frame, the cache, the antialias program, the placeholder
    and the pool are then such that another one does no work again: it compiles, deletes and creates nothing, and draws
    and reports the same. Main statement: `Stage.steady`. -/

namespace FxStack

open Device (Reaches)
open DeviceOp (SparesPrograms)

/-! ### Calls of a device -/

namespace Watched
variable {δ : Type} [Device δ]

theorem mirrors (δ : Type) [Device δ] : Device.Mirrors (fun _ => True) (Watched.inner : Watched δ → δ) where
  compileProgram _ _ _ := rfl
  deleteProgram _ _ := rfl
  hasUniform _ _ _ _ := rfl
  createTexture _ _ := rfl
  textureKind? _ _ := rfl
  placeholderTexture _ := rfl
  setSampler _ _ _ := rfl
  setFixedFunction _ _ := rfl
  draw _ _ := rfl
  copy _ _ _ := rfl

theorem calls_of_reaches {P : DeviceOp → Prop} {d : δ} {d' : Watched δ} (h : Reaches P ⟨d, []⟩ d') :
    ∀ op ∈ d'.calls, P op := by
  refine h.keeps (I := fun x => ∀ op ∈ x.calls, P op) nofun fun op x hop hx => ?_
  rw [run_eq]
  intro op' hop'
  rcases List.mem_append.mp hop' with hop' | hop'
  · exact hx op' hop'
  · obtain rfl := List.mem_singleton.mp hop'
    exact hop

end Watched

/-! ### Programs that have been given out -/

namespace Pass

theorem issued_build (index : Nat) (p : Pass) (d : ReferenceDevice) :
    ∀ q, (p.build index d).1.program = some q → q.number < (p.build index d).2.1.nextNumber := by
  intro q hq
  unfold build at hq ⊢
  dsimp only at hq ⊢
  split at hq
  · next program d' hd =>
    obtain ⟨rfl, rfl⟩ := ReferenceDevice.compileProgram_eq_ok hd
    cases hq
    exact Nat.lt_succ_self _
  · cases hq

theorem issued_buildAll (ps : List Pass) : ∀ (index : Nat) (d : ReferenceDevice),
    ∀ q ∈ (buildAll index d ps).1.filterMap (·.program), q.number < (buildAll index d ps).2.1.nextNumber := by
  induction ps with
  | nil => exact fun _ _ _ hq => absurd hq List.not_mem_nil
  | cons p ps ih =>
    intro index d q hq
    have hbuilt : (buildAll index d (p :: ps)).1 =
        (p.build index d).1 :: (buildAll (index + 1) (p.build index d).2.1 ps).1 := rfl
    have hdevice : (buildAll index d (p :: ps)).2.1 = (buildAll (index + 1) (p.build index d).2.1 ps).2.1 := rfl
    rw [hdevice]
    rw [hbuilt] at hq
    obtain ⟨x, hx, hprogram⟩ := List.mem_filterMap.mp hq
    rcases List.mem_cons.mp hx with rfl | hx
    · exact Nat.lt_of_lt_of_le (issued_build index p d q hprogram) (still_buildAll ps (index + 1) _).keeps.nextNumber
    · exact ih (index + 1) _ q (List.mem_filterMap.mpr ⟨x, hx, hprogram⟩)

end Pass

/-! ### Stacks after a frame -/

namespace Stack
variable {s : Stack} {catalog : Catalog}

/-- The stack has been compiled for this version of the catalog; if it has no passes, that is what compiling gives. -/
structure Settled (s : Stack) (catalog : Catalog) : Prop where
  clean : s.dirty = false
  version : s.compiledVersion = some catalog.version
  empty : s.passes = [] → s.Caches catalog s.entries

namespace Settled

/-- Changes that do not mark the stack leave it settled. -/
theorem edited {t : Stack} (h : s.Settled catalog) (he : Edited s t) (clean : t.dirty = false) : t.Settled catalog := by
  refine ⟨clean, he.compiledVersion.trans h.version, fun hempty => ?_⟩
  exact (h.empty (he.passes ▸ hempty)).of_eq he.passes he.diagnostics (he.labels clean).2

theorem of_fresh (h : s.isStale catalog = false) : s.Settled catalog := by
  simp only [isStale, Bool.or_eq_false_iff, bne_eq_false_iff_eq, List.isEmpty_eq_false_iff] at h
  exact ⟨h.1.1, h.2, fun hempty => absurd hempty h.1.2⟩

theorem isStale_eq (h : s.Settled catalog) : s.isStale catalog = s.passes.isEmpty := by
  unfold isStale
  rw [h.clean, h.version]
  simp

section
variable {δ : Type} [Device δ]

/-- Without passes there is nothing to compile. -/
theorem compile_eq (h : s.Settled catalog) (hempty : s.passes = []) (d : δ) :
    (s.compile catalog d).1 = s ∧ (s.compile catalog d).2.1 = d := by
  have cached := h.empty hempty
  have hpasses := List.forall₂_nil_left_iff.mp (hempty ▸ cached.passes)
  have hprograms : s.programs = [] := by
    unfold programs
    rw [hempty]
    rfl
  unfold compile
  dsimp only
  rw [hprograms, hpasses]
  refine ⟨?_, rfl⟩
  have hfields : s = { s with
      passes := [], diagnostics := s.diagnostics, compiledVersion := s.compiledVersion, dirty := s.dirty } := by
    rw [← hempty]
  rw [h.clean, h.version, cached.diagnostics] at hfields
  exact hfields.symm

/-- Preparing again changes nothing but the state of the random generator. -/
theorem prepare_eq (h : s.Settled catalog) (d : δ) (pool : ScratchPool) :
    (s.prepare catalog d pool).stack = s.setRandom s.random.next.2 ∧
      (s.prepare catalog d pool).device = Device.setFixedFunction d .fullscreen := by
  have next : (s.setRandom s.random.next.2).Settled catalog := h.edited (.edit s (.setRandom _)) h.clean
  unfold prepare
  dsimp only
  split
  · next hstale =>
    rw [next.isStale_eq, List.isEmpty_iff] at hstale
    obtain ⟨hstack, hdevice⟩ := next.compile_eq hstale d
    exact ⟨hstack, congrArg (Device.setFixedFunction · _) hdevice⟩
  · exact ⟨rfl, rfl⟩

end

end Settled

section
variable {δ : Type} [Device δ]

theorem settled_compile (s : Stack) (catalog : Catalog) (d : δ) : (s.compile catalog d).1.Settled catalog :=
  ⟨rfl, rfl, fun _ => s.caches_compile catalog d⟩

theorem settled_prepare (s : Stack) (catalog : Catalog) (d : δ) (pool : ScratchPool) :
    (s.prepare catalog d pool).stack.Settled catalog := by
  rw [prepare_stack]
  split
  · exact settled_compile _ catalog d
  · next hfresh =>
    have fresh : (s.setRandom s.random.next.2).isStale catalog = false := Bool.eq_false_iff.mpr hfresh
    exact .of_fresh fresh

theorem report_prepare (s : Stack) (catalog : Catalog) (d : δ) (pool : ScratchPool) :
    (s.prepare catalog d pool).report = { Report.empty with
      random := s.random.next.1
      recompiled := s.isStale catalog
      passCount := (s.prepare catalog d pool).stack.passes.length } := rfl

theorem random_prepare (s : Stack) (catalog : Catalog) (d : δ) (pool : ScratchPool) :
    (s.prepare catalog d pool).stack.random = s.random.next.2 := by
  rw [prepare_stack]
  split <;> rfl

theorem settled_apply (s : Stack) (catalog : Catalog) (d : δ) (pool : ScratchPool) (resolve : Resolver)
    {input : FrameInput} (live : (Device.textureKind? d input.source).isSome) :
    (s.apply catalog d pool resolve input).stack.Settled catalog := by
  obtain ⟨p, hp⟩ := (s.continues_apply catalog d pool resolve live).stack
  have prepared := s.settled_prepare catalog d pool
  rw [hp]
  exact prepared.edited ⟨rfl, rfl, rfl, fun clean => ⟨clean, rfl⟩⟩ prepared.clean

theorem passCount_apply (s : Stack) {catalog : Catalog} {d : δ} {pool : ScratchPool} {resolve : Resolver}
    {input : FrameInput} (live : (Device.textureKind? d input.source).isSome) :
    (s.apply catalog d pool resolve input).report.passCount =
      (s.apply catalog d pool resolve input).stack.passes.length := by
  have continued := s.continues_apply catalog d pool resolve live
  rw [continued.passes]
  exact continued.passCount

theorem smooth_apply (s : Stack) (catalog : Catalog) (d : δ) (pool : ScratchPool) (resolve : Resolver)
    {input : FrameInput} (live : (Device.textureKind? d input.source).isSome) :
    (s.apply catalog d pool resolve input).stack.Smooth := by
  obtain ⟨kind, hkind⟩ := Option.isSome_iff_exists.mp live
  obtain ⟨b, t, -, hstack, -⟩ := s.apply_proceeds catalog pool resolve hkind
  rw [hstack]
  exact b.smooth_finish t input.destination

/-- The antialias program is compiled only for a stack that has not asked for it before. -/
theorem reaches_finish {P : DeviceOp → Prop} (hspares : ∀ op : DeviceOp, op.SparesPrograms → P op) (a : Application δ)
    (t : TextureId) (destination : Option TextureId)
    (hcompile : ¬a.stack.Smooth → P (.compileProgram Program.antialiasLabel Program.antialias)) :
    Reaches P a.device (a.finish t destination).device := by
  by_cases smooth : a.stack.Smooth
  · have proceeds := a.proceeds_finish t destination
    rw [Application.smoothed_of_smooth (a := { a with device := Device.setSampler a.device t a.finalSampling }) smooth]
      at proceeds
    have sampled : Reaches P a.device (Device.setSampler a.device t a.finalSampling) :=
      .one (.setSampler t _) (hspares _ trivial) rfl
    exact sampled.trans (proceeds.reaches.mono fun _ shows => hspares _ shows.spares)
  · have told := a.course_finish t destination (hspares _ trivial) (hcompile smooth) fun _ shows => hspares _ shows.spares
    exact told.reaches

/-- A stack that has been applied to this catalog compiles and deletes nothing, but for the antialias program. -/
theorem Settled.reaches_apply (h : s.Settled catalog) {P : DeviceOp → Prop}
    (hspares : ∀ op : DeviceOp, op.SparesPrograms → P op)
    (hcompile : ¬s.Smooth → P (.compileProgram Program.antialiasLabel Program.antialias)) (d : δ) (pool : ScratchPool)
    (resolve : Resolver) (input : FrameInput) : Reaches P d (s.apply catalog d pool resolve input).device := by
  cases hkind : Device.textureKind? d input.source with
  | none =>
    rw [apply_of_dead _ _ _ _ _ hkind]
    exact .refl
  | some kind =>
    obtain ⟨b, t, hb, -, hdevice⟩ := s.apply_proceeds catalog pool resolve hkind
    obtain ⟨hstack, hprepared⟩ := h.prepare_eq d pool
    have prepared : Reaches P d (s.prepare catalog d pool).device :=
      .one (.setFixedFunction .fullscreen) (hspares _ trivial) hprepared.symm
    have smooth : b.stack.Smooth ↔ s.Smooth := by rw [hb.stack, hstack]; exact Iff.rfl
    rw [hdevice]
    exact (prepared.trans (hb.reaches.mono hspares)).trans
      (reaches_finish hspares b t input.destination fun hrough => hcompile (mt smooth.mpr hrough))

end

/-! ### The next frame -/

section
variable {d e : ReferenceDevice} {pool pool' : ScratchPool} {resolve : Resolver} {input : FrameInput}
  {source : TextureKind}

/-- What the first of some frames finds: a live source, a live destination if there is one, and programs of its own. -/
structure Placed (s : Stack) (d : ReferenceDevice) (pool : ScratchPool) (input : FrameInput) : Prop where
  wellFormed : d.WellFormed
  backed : pool.Backed d
  source : (Device.textureKind? d input.source).isSome
  destination : ∀ t, input.destination = some t → (Device.textureKind? d t).isSome
  issued : ∀ p ∈ s.programs, p.number < d.nextNumber

theorem issued_prepare (h : ∀ p ∈ s.programs, p.number < d.nextNumber) :
    ∀ p ∈ (s.prepare catalog d pool).stack.programs, p.number < (s.prepare catalog d pool).device.nextNumber := by
  unfold prepare
  dsimp only
  split
  · exact Pass.issued_buildAll (Compilation.ofEntries catalog s.entries).passes 0 _
  · exact h

theorem issued_apply (s : Stack) (h : ∀ p ∈ s.programs, p.number < d.nextNumber) :
    ∀ p ∈ (s.apply catalog d pool resolve input).stack.programs,
      p.number < (s.apply catalog d pool resolve input).device.nextNumber := by
  cases hkind : Device.textureKind? d input.source with
  | none =>
    rw [apply_of_dead _ _ _ _ _ hkind]
    exact h
  | some kind =>
    obtain ⟨b, t, hb, -, hdevice⟩ := s.apply_proceeds catalog pool resolve hkind
    have live : (Device.textureKind? d input.source).isSome := Option.isSome_of_eq_some hkind
    have continued := s.continues_apply catalog d pool resolve live
    have hlater : (s.prepare catalog d pool).device.nextNumber ≤ (b.finish t input.destination).device.nextNumber :=
      Nat.le_trans hb.reaches.nextNumber (b.told_finish t input.destination).reaches.nextNumber
    intro p hp
    unfold programs at hp
    rw [continued.passes] at hp
    rw [hdevice]
    exact Nat.lt_of_lt_of_le (issued_prepare h p hp) hlater

theorem Placed.sound (h : s.Placed d pool input) (catalog : Catalog) : (s.prepare catalog d pool).Sound input := by
  have keeps := (s.still_prepare catalog d pool).keeps
  obtain ⟨source, hsource⟩ := Option.isSome_iff_exists.mp h.source
  refine ⟨keeps.wellFormed h.wellFormed, h.backed.mono keeps, ?_, ?_, issued_prepare h.issued⟩
  · rw [keeps.textureKind? hsource]
    rfl
  · cases hdestination : input.destination with
    | none => rfl
    | some t =>
      obtain ⟨kind, hkind⟩ := Option.isSome_iff_exists.mp (h.destination t hdestination)
      rw [show Target.ofDestination (some t) = .texture t from rfl,
        ReferenceDevice.targetSize?_texture (keeps.textureKind? hkind)]
      rfl

/-- The frame after another one finds a source and a target of the same sizes. -/
theorem frameSize_again (destination : ∀ t, input.destination = some t → (Device.textureKind? d t).isSome)
    (hkinds : ∀ t kind, Device.textureKind? d t = some kind → Device.textureKind? e t = some kind) :
    frameSize e input source = frameSize d input source := by
  unfold frameSize
  cases hdestination : input.destination with
  | none => rfl
  | some t =>
    obtain ⟨kind, hkind⟩ := Option.isSome_iff_exists.mp (destination t hdestination)
    rw [Option.bind_some, Option.bind_some, hkind, hkinds t kind hkind]

theorem random_apply {values : Single × Single} (hfixed : s.random = .fixed values) (catalog : Catalog) (resolve : Resolver)
    (live : (Device.textureKind? d input.source).isSome) :
    (s.apply catalog d pool resolve input).stack.random = .fixed values := by
  obtain ⟨p, hp⟩ := (s.continues_apply catalog d pool resolve live).stack
  rw [hp]
  exact (s.random_prepare catalog d pool).trans (by rw [hfixed]; rfl)

/-- After a frame the stack counts as stale if it has no passes, and only then. -/
theorem isStale_apply (s : Stack) (catalog : Catalog) (resolve : Resolver)
    (live : (Device.textureKind? d input.source).isSome) :
    (s.apply catalog d pool resolve input).stack.isStale catalog =
      decide ((s.apply catalog d pool resolve input).report.passCount = 0) := by
  rw [(s.settled_apply catalog d pool resolve live).isStale_eq, s.passCount_apply live, Bool.eq_iff_iff, List.isEmpty_iff,
    decide_eq_true_eq, List.length_eq_zero_iff]

/-- Where one frame has ended, the next one starts: no pass is compiled, and the generator gives the same numbers. -/
theorem resumes_apply (catalog : Catalog) (resolve : Resolver) {values : Single × Single}
    (hfixed : s.random = .fixed values) (placed : s.Placed d pool input) (wf : e.WellFormed) (backed : pool'.Backed e) :
    let a := s.apply catalog d pool resolve input
    a.device.Rests e → pool'.textures.Perm a.pool.textures → pool'.loans = a.pool.loans →
    Application.Resumes (decide (a.report.passCount = 0)) (s.prepare catalog d pool) a
      (a.stack.prepare catalog e pool') := by
  intro a rests textures loans
  have hrandom : a.stack.random = .fixed values := random_apply hfixed catalog resolve placed.source
  have hstale : a.stack.isStale catalog = _ := s.isStale_apply catalog resolve placed.source
  have hpasses := (s.continues_apply catalog d pool resolve placed.source).passes
  obtain ⟨hstack, hdevice⟩ := (s.settled_apply catalog d pool resolve placed.source).prepare_eq e pool'
  -- a fixed generator is what it was, so the stack is not changed at all
  have same : a.stack.setRandom a.stack.random.next.2 = a.stack := by
    rw [hrandom, Generator.next, ← hrandom]
    rfl
  have still : e.Still (a.stack.prepare catalog e pool').device := hdevice ▸ .setFixedFunction e .fullscreen
  refine ⟨?_, hstack.trans same, ?_, textures, loans, still.keeps.wellFormed wf, backed.mono still.keeps⟩
  · rw [report_prepare, report_prepare, hstack.trans same, hpasses, hstale, hrandom, hfixed]
  · rw [hdevice]
    exact rests.trans ⟨rfl, rfl, rfl, rfl⟩

/-- A frame after another one of the stack does the same again, wherever its scratch textures come from. -/
theorem apply_again (catalog : Catalog) (resolve : Resolver) {values : Single × Single}
    (hfixed : s.random = .fixed values) (placed : s.Placed d pool input) (wf : e.WellFormed) (backed : pool'.Backed e) :
    let a := s.apply catalog d pool resolve input
    a.device.Rests e → pool'.textures.Perm a.pool.textures → pool'.loans = a.pool.loans →
    Application.Again (decide (a.report.passCount = 0)) (s.prepare catalog d pool) a (a.stack.prepare catalog e pool')
      (a.stack.apply catalog e pool' resolve input) := by
  intro a rests textures loans
  obtain ⟨source, hsource⟩ := Option.isSome_iff_exists.mp placed.source
  have resumes : Application.Resumes _ (s.prepare catalog d pool) a _ :=
    resumes_apply catalog resolve hfixed placed wf backed rests textures loans
  have continued := s.continues_apply catalog d pool resolve placed.source
  have keeps := (s.keeps_apply catalog resolve input placed.wellFormed placed.backed).1
  have hkinds : ∀ t kind, Device.textureKind? d t = some kind → Device.textureKind? e t = some kind :=
    fun t _ hkind => (rests.textureKind? t).trans (keeps.textureKind? hkind)
  have hsize : frameSize e input source = frameSize d input source := frameSize_again placed.destination hkinds
  have sound := placed.sound catalog
  have hfirst := s.apply_of_live catalog d pool resolve hsource
  have hnext := a.stack.apply_of_live catalog e pool' resolve (hkinds _ _ hsource)
  dsimp only at hfirst hnext
  -- both frames are now runs of the same passes in one context, or both write the source
  rw [hnext, resumes.stack, hsize, resumes.report, continued.entries, continued.passes]
  change a = _ at hfirst
  clear hnext
  generalize a.stack.prepare catalog e pool' = b at resumes ⊢
  generalize decide (a.report.passCount = 0) = recompiled at resumes ⊢
  by_cases hempty : (s.prepare catalog d pool).stack.passes.isEmpty = true
  · rw [if_pos hempty] at hfirst ⊢
    rw [hfirst] at resumes ⊢
    exact Application.again_of_source rfl ⟨rfl, rfl, rfl⟩ sound resumes.report resumes
  · rw [if_neg hempty] at hfirst ⊢
    rw [hfirst] at resumes ⊢
    exact Application.run_again sound resumes

end
end Stack

theorem Rig.Step.nextNumber {r r' : Rig} (h : r.Step r') (inv : r.Inv) :
    r.device.nextNumber ≤ r'.device.nextNumber := by
  have reached : ∀ {d : ReferenceDevice} {P : DeviceOp → Prop}, Reaches P r.device d →
      r.device.nextNumber ≤ d.nextNumber := fun h => h.nextNumber
  cases h with
  | upload i => exact Nat.le_succ _
  | createTexture kind => exact ReferenceDevice.nextNumber_run (.createTexture kind) _
  | destroyTexture ht => exact Nat.le_refl _
  | placeholderTexture => exact ReferenceDevice.nextNumber_run .placeholderTexture _
  | compileProgram label source => exact ReferenceDevice.nextNumber_run (.compileProgram label source) _
  | deleteProgram p => exact Nat.le_refl _
  | setSampler t sampler => exact Nat.le_refl _
  | setFixedFunction state => exact Nat.le_refl _
  | draw call => exact ReferenceDevice.nextNumber_run (.draw call) _
  | copy t target => exact ReferenceDevice.nextNumber_run (.copy t target) _
  | clearRecords => exact Nat.le_refl _
  | reject marker => exact Nat.le_refl _
  | acquire kind => exact reached (r.pool.reaches_acquire r.device kind)
  | release t => exact Nat.le_refl _
  | purge =>
    have destroyed : Reaches (fun _ => True) r.device (r.pool.purge r.device).2 :=
      .foldl (fun d e _ => .one (.destroyTexture e.2) trivial rfl) r.device
    exact reached destroyed
  | compile s catalog => exact reached (s.course_compile catalog r.device).reaches
  | apply s catalog resolve input =>
    exact (s.keeps_apply catalog resolve input inv.wellFormed inv.backed).1.nextNumber

/-! ### Stages -/

/-- A stack with the device and the pool that it is used with. -/
structure Stage where
  rig : Rig
  stack : Stack

/-- What a stack is applied with. -/
structure Scene where
  catalog : Catalog
  resolve : Resolver
  input : FrameInput

namespace Stage
variable (w : Stage) (c : Scene)

/-- What comes of a frame. -/
def frame : Application ReferenceDevice := w.stack.apply c.catalog w.rig.device w.rig.pool c.resolve c.input

/-- The stage after a frame. -/
def next : Stage := ⟨⟨(w.frame c).device, (w.frame c).pool⟩, (w.frame c).stack⟩

/-- What a frame asks of the device. -/
def calls : List DeviceOp :=
  (w.stack.apply c.catalog (⟨w.rig.device, []⟩ : Watched ReferenceDevice) w.rig.pool c.resolve c.input).device.calls

def edit (es : List Stack.Edit) : Stage := { w with stack := es.foldl Stack.edit w.stack }

/-- What happens on a stage. Other stacks may use the device and the pool, too. -/
inductive Step (w : Stage) : Stage → Prop
  | rig {r : Rig} : w.rig.Step r → Step w { w with rig := r }
  | edit (e : Stack.Edit) : Step w { w with stack := w.stack.edit e }
  | compile (catalog : Catalog) : Step w
      ⟨{ w.rig with device := (w.stack.compile catalog w.rig.device).2.1 }, (w.stack.compile catalog w.rig.device).1⟩
  | frame (c : Scene) : Step w (w.next c)

/-- The stages of a new stack that is used with one device and one pool. -/
inductive Reachable : Stage → Prop
  | start (size : Nat × Nat) (random : Generator) : Reachable ⟨⟨.new size, .empty⟩, .new random⟩
  | step {w w' : Stage} : Reachable w → Step w w' → Reachable w'

/-- What holds of every stage. -/
structure Inv (w : Stage) : Prop where
  rig : w.rig.Inv
  issued : ∀ p ∈ w.stack.programs, p.number < w.rig.device.nextNumber

variable {w : Stage} {c : Scene}

theorem Inv.step {w' : Stage} (inv : w.Inv) (h : Step w w') : w'.Inv := by
  cases h with
  | rig h => exact ⟨inv.rig.step h, fun p hp => Nat.lt_of_lt_of_le (inv.issued p hp) (h.nextNumber inv.rig)⟩
  | edit e =>
    refine ⟨inv.rig, fun p hp => inv.issued p ?_⟩
    unfold Stack.programs at hp ⊢
    rwa [(w.stack.programs_edit e).1] at hp
  | compile catalog =>
    exact ⟨inv.rig.step (.compile w.stack catalog),
      Pass.issued_buildAll (Compilation.ofEntries catalog w.stack.entries).passes 0 _⟩
  | frame c => exact ⟨inv.rig.step (.apply w.stack c.catalog c.resolve c.input), w.stack.issued_apply inv.issued⟩

theorem Reachable.inv (h : w.Reachable) : w.Inv := by
  induction h with
  | start size random => exact ⟨⟨.new size, .empty _⟩, fun _ hp => absurd hp List.not_mem_nil⟩
  | step _ hs ih => exact ih.step hs

/-! ### Equal frames -/

/-- The frame of `v` is that of `w` over again. It compiles and deletes no program, creates no texture, and has the
    same report but for the compilation, which is of no passes. It makes the same draws, though other textures of the
    pool may serve as scratch. -/
structure Repeats (w v : Stage) (c : Scene) : Prop where
  report : (v.frame c).report =
    { (w.frame c).report with recompiled := decide ((w.frame c).report.passCount = 0) }
  calls : ∀ op ∈ v.calls c, op.SparesPrograms
  rests : v.rig.device.Rests (v.frame c).device
  records : ReferenceDevice.RecordsAgain (· ∈ (w.frame c).pool.idle.map (·.2)) w.rig.device (w.frame c).device
    v.rig.device (v.frame c).device

/-- Some frames of one scene after the first one of `w` there is the stage `v`. -/
structure Follows (w v : Stage) (c : Scene) : Prop where
  inv : v.rig.Inv
  stack : v.stack = (w.frame c).stack
  rests : (w.frame c).device.Rests v.rig.device
  textures : v.rig.pool.textures.Perm (w.frame c).pool.textures
  loans : v.rig.pool.loans = (w.frame c).pool.loans

/-- After the first frame the stack compiles and deletes nothing any more. -/
theorem Follows.calls {v : Stage} (placed : w.stack.Placed w.rig.device w.rig.pool c.input) (h : Follows w v c) :
    ∀ op ∈ v.calls c, op.SparesPrograms := by
  have settled := w.stack.settled_apply c.catalog w.rig.device w.rig.pool c.resolve placed.source
  have smooth := w.stack.smooth_apply c.catalog w.rig.device w.rig.pool c.resolve placed.source
  change (w.frame c).stack.Settled c.catalog at settled
  change (w.frame c).stack.Smooth at smooth
  rw [← h.stack] at settled smooth
  exact Watched.calls_of_reaches (settled.reaches_apply (fun _ => id) (absurd smooth) _ _ _ _)

theorem Follows.repeats {v : Stage} {values : Single × Single} (hfixed : w.stack.random = .fixed values)
    (placed : w.stack.Placed w.rig.device w.rig.pool c.input) (h : Follows w v c) :
    Repeats w v c ∧ Follows w (v.next c) c := by
  have resumes := Stack.resumes_apply c.catalog c.resolve hfixed placed h.inv.wellFormed h.inv.backed h.rests h.textures
    h.loans
  have again := Stack.apply_again c.catalog c.resolve hfixed placed h.inv.wellFormed h.inv.backed h.rests h.textures
    h.loans
  change Application.Resumes _ _ _ ((w.frame c).stack.prepare c.catalog _ _) at resumes
  change Application.Again _ _ _ ((w.frame c).stack.prepare c.catalog _ _) ((w.frame c).stack.apply c.catalog _ _ _ _) at again
  rw [← h.stack] at resumes again
  have started := w.stack.still_prepare c.catalog w.rig.device w.rig.pool
  have started' := v.stack.still_prepare c.catalog v.rig.device v.rig.pool
  have rests := resumes.rests.trans again.rests
  refine ⟨⟨again.report, h.calls placed, h.rests.symm.trans rests, again.records.of_eq started.draws started'.draws⟩, ?_⟩
  refine ⟨h.inv.step (.apply v.stack c.catalog c.resolve c.input), ?_, rests, ?_, ?_⟩
  · exact again.stack.trans resumes.stack
  · exact again.textures.trans resumes.textures
  · exact again.loans.trans resumes.loans

theorem follows_next (inv : w.Inv) (c : Scene) : Follows w (w.next c) c :=
  ⟨inv.rig.step (.apply w.stack c.catalog c.resolve c.input), rfl, .refl _, .refl _, rfl⟩

theorem follows_iterate {values : Single × Single} (hfixed : w.stack.random = .fixed values) (inv : w.Inv)
    (placed : w.stack.Placed w.rig.device w.rig.pool c.input) (n : Nat) :
    Follows w ((fun v => v.next c)^[n] (w.next c)) c := by
  induction n with
  | zero => exact follows_next inv c
  | succ n ih =>
    rw [Function.iterate_succ_apply']
    exact (ih.repeats hfixed placed).2

/-! ### Frames between changes of values -/

end Stage

namespace Stack
variable {s : Stack} {catalog : Catalog}

/-- Only values and flags are changed, which are looked up in every frame. -/
def Edit.isLight : Edit → Bool
  | setOverride .. | clearOverride .. | setAntialias _ | setFilter _ => true
  | _ => false

theorem dirty_edit {e : Edit} (h : e.isLight) : (s.edit e).dirty = s.dirty := by
  cases e with
  | setOverride id key value =>
    cases ho : s.setOverride id key value with
    | error e =>
      simp only [edit, ho]
      rfl
    | ok t =>
      obtain ⟨-, -, rfl⟩ := setOverride_eq_ok.mp ho
      simp only [edit, ho]
      rfl
  | clearOverride id key => rfl
  | setAntialias on => rfl
  | setFilter on => rfl
  | _ => cases h

theorem isStale_edit {e : Edit} (h : e.isLight) : (s.edit e).isStale catalog = s.isStale catalog := by
  have edited := Edited.edit s e
  unfold isStale
  rw [dirty_edit h, edited.passes, edited.compiledVersion]

theorem fresh_foldl (catalog : Catalog) (es : List Edit) (h : ∀ e ∈ es, e.isLight) : ∀ s : Stack,
    (es.foldl edit s).isStale catalog = s.isStale catalog ∧ (es.foldl edit s).passes = s.passes ∧
      (es.foldl edit s).antialiasProgram = s.antialiasProgram := by
  induction es with
  | nil => exact fun _ => ⟨rfl, rfl, rfl⟩
  | cons e es ih =>
    intro s
    obtain ⟨hstale, hpasses, hslot⟩ := ih (fun e' he' => h e' (List.mem_cons_of_mem e he')) (s.edit e)
    obtain ⟨hpasses', hslot'⟩ := s.programs_edit e
    exact ⟨hstale.trans (isStale_edit (h e List.mem_cons_self)), hpasses.trans hpasses', hslot.trans hslot'⟩

/-- A stack that is not stale stays so, and keeps its passes. -/
theorem fresh_apply {δ : Type} [Device δ] (h : s.isStale catalog = false) (d : δ) (pool : ScratchPool)
    (resolve : Resolver) (input : FrameInput) :
    let a := s.apply catalog d pool resolve input
    a.report.recompiled = false ∧ a.stack.isStale catalog = false ∧ a.stack.passes = s.passes := by
  intro a
  cases hkind : Device.textureKind? d input.source with
  | none =>
    have hdead : a = _ := s.apply_of_dead catalog d pool resolve hkind
    rw [hdead]
    exact ⟨rfl, h, rfl⟩
  | some kind =>
    have live : (Device.textureKind? d input.source).isSome := Option.isSome_of_eq_some hkind
    have continued := s.continues_apply catalog d pool resolve live
    have hprepared : (s.prepare catalog d pool).stack = s.setRandom s.random.next.2 := by
      rw [prepare_stack, if_neg (Bool.eq_false_iff.mp h)]
    obtain ⟨p, hp⟩ := continued.stack
    rw [hprepared] at hp
    refine ⟨continued.recompiled.trans h, ?_, ?_⟩
    · rw [show a.stack = _ from hp]
      exact h
    · rw [show a.stack = _ from hp]
      rfl

end Stack

namespace Stage
variable {w : Stage} {c : Scene}

/-- The stages before the next frames of a scene, when the stack is changed before each of them. -/
def sequel (w : Stage) (c : Scene) : List (List Stack.Edit) → List Stage
  | [] => []
  | es :: rest => w.edit es :: ((w.edit es).next c).sequel c rest

/-- Nothing is compiled for any frame, but for the antialias program. -/
theorem fresh_sequel (ess : List (List Stack.Edit)) (light : ∀ es ∈ ess, ∀ e ∈ es, e.isLight) : ∀ {w : Stage},
    w.stack.isStale c.catalog = false → ∀ v ∈ w.sequel c ess, (v.frame c).report.recompiled = false ∧
      (v.frame c).stack.passes = w.stack.passes ∧
      ∀ op ∈ v.calls c, op.SparesPrograms ∨ op = .compileProgram Program.antialiasLabel Program.antialias := by
  induction ess with
  | nil => exact fun _ _ hv => absurd hv List.not_mem_nil
  | cons es rest ih =>
    intro w fresh v hv
    obtain ⟨hstale, hpasses, -⟩ := Stack.fresh_foldl c.catalog es (light es List.mem_cons_self) w.stack
    have fresh' : (w.edit es).stack.isStale c.catalog = false := hstale.trans fresh
    obtain ⟨hrecompiled, hnext, hpasses'⟩ :=
      Stack.fresh_apply fresh' (w.edit es).rig.device (w.edit es).rig.pool c.resolve c.input
    rcases List.mem_cons.mp hv with rfl | hv
    · have asked := (Stack.Settled.of_fresh fresh').reaches_apply
        (P := fun op => op.SparesPrograms ∨ op = .compileProgram Program.antialiasLabel Program.antialias)
        (fun _ => Or.inl) (fun _ => Or.inr rfl) (⟨(w.edit es).rig.device, []⟩ : Watched ReferenceDevice)
        (w.edit es).rig.pool c.resolve c.input
      exact ⟨hrecompiled, hpasses'.trans hpasses, Watched.calls_of_reaches asked⟩
    · obtain ⟨h₁, h₂, h₃⟩ := ih (fun es' hes' => light es' (List.mem_cons_of_mem es hes')) hnext v hv
      exact ⟨h₁, h₂.trans (hpasses'.trans hpasses), h₃⟩

/-- A frame that has the antialias program compiled is the only one. -/
theorem tries_calls (w : Stage) (c : Scene) :
    (w.calls c).countP (·.compiles Program.antialiasLabel) + w.stack.antialiasProgram.tries =
      (w.next c).stack.antialiasProgram.tries := by
  have tried := w.stack.tries_apply c.catalog (⟨w.rig.device, []⟩ : Watched ReferenceDevice) w.rig.pool c.resolve c.input
  have mirrored := w.stack.apply_mirror (Watched.mirrors ReferenceDevice) c.catalog ⟨w.rig.device, []⟩ w.rig.pool
    c.resolve c.input fun _ _ => trivial
  have hstack : (w.next c).stack = (w.stack.apply c.catalog (⟨w.rig.device, []⟩ : Watched ReferenceDevice) w.rig.pool
      c.resolve c.input).stack := congrArg Application.stack mirrored
  rw [hstack]
  exact tried.trans (Nat.zero_add _)

theorem tries_sequel (c : Scene) (ess : List (List Stack.Edit)) (light : ∀ es ∈ ess, ∀ e ∈ es, e.isLight) : ∀ w : Stage,
    ((w.sequel c ess).flatMap (·.calls c)).countP (·.compiles Program.antialiasLabel) +
      w.stack.antialiasProgram.tries ≤ 1 := by
  induction ess with
  | nil =>
    intro w
    rw [sequel, List.flatMap_nil, List.countP_nil, Nat.zero_add]
    exact AntialiasProgram.tries_le_one _
  | cons es rest ih =>
    intro w
    have hslot : (w.edit es).stack.antialiasProgram = w.stack.antialiasProgram :=
      (Stack.fresh_foldl c.catalog es (light es List.mem_cons_self) w.stack).2.2
    have first := (w.edit es).tries_calls c
    have later := ih (fun es' hes' => light es' (List.mem_cons_of_mem es hes')) ((w.edit es).next c)
    rw [hslot] at first
    rw [sequel, List.flatMap_cons, List.countP_append]
    omega

/-- A stack with a fixed generator is applied to a live source again and again, with nothing changed in between. Every
    frame after the first one has the same report, but that it is said to have been compiled exactly if there are no
    passes. It compiles and deletes no program, leaves the textures of the device as many as they are, and records
    the same draws, up to which of the waiting textures of the pool serve as scratch. If there are passes, only values
    and flags may be changed before each frame, and still nothing is compiled but the antialias program, at most once. -/
theorem steady (h : w.Reachable) (c : Scene) {values : Single × Single} (hfixed : w.stack.random = .fixed values)
    (hsource : (Device.textureKind? w.rig.device c.input.source).isSome)
    (hdestination : ∀ t, c.input.destination = some t → (Device.textureKind? w.rig.device t).isSome) :
    (∀ n, w.Repeats ((fun v => v.next c)^[n + 1] w) c) ∧
    ((w.frame c).report.passCount ≠ 0 → ∀ ess : List (List Stack.Edit), (∀ es ∈ ess, ∀ e ∈ es, e.isLight) →
      (∀ v ∈ (w.next c).sequel c ess, (v.frame c).report.recompiled = false ∧
        (v.frame c).stack.passes = (w.frame c).stack.passes ∧
        ∀ op ∈ v.calls c, op.SparesPrograms ∨ op = .compileProgram Program.antialiasLabel Program.antialias) ∧
      (((w.next c).sequel c ess).flatMap (·.calls c)).countP (·.compiles Program.antialiasLabel) ≤ 1) := by
  have inv := h.inv
  have placed : w.stack.Placed w.rig.device w.rig.pool c.input :=
    ⟨inv.rig.wellFormed, inv.rig.backed, hsource, hdestination, inv.issued⟩
  refine ⟨fun n => ?_, fun hcount ess light => ⟨fun v hv => ?_, ?_⟩⟩
  · rw [Function.iterate_succ_apply]
    exact ((follows_iterate hfixed inv placed n).repeats hfixed placed).1
  · have settled : (w.next c).stack.Settled c.catalog :=
      w.stack.settled_apply c.catalog w.rig.device w.rig.pool c.resolve hsource
    refine fresh_sequel ess light ?_ v hv
    rw [settled.isStale_eq, List.isEmpty_eq_false_iff]
    intro hempty
    exact hcount ((w.stack.passCount_apply hsource).trans (congrArg List.length hempty))
  · exact Nat.le_of_add_right_le (tries_sequel c ess light (w.next c))

/-- A new stack with one entry, with a white texture and one without any color. -/
def rippling : Stage := ⟨Rig.pair, Rig.rippling⟩

theorem rippling_reachable : rippling.Reachable := by
  have started : Reachable ⟨⟨.new (2, 2), .empty⟩, .new (.fixed (.zero, .zero))⟩ := .start (2, 2) _
  have lit := started.step (.rig (.upload (.solid 1 1 .white)))
  exact (lit.step (.rig (.upload (.blank 1 1)))).step (.edit (.add "ripple"))

/-- From the white texture to the other one. -/
def across : Scene := ⟨Catalog.rippling ⟨0⟩, fun _ => none, ⟨⟨1⟩, some ⟨2⟩, none⟩⟩

/-- A stack that is stale has the passes of its entries in the frame. -/
theorem passCount_of_stale (live : (Device.textureKind? w.rig.device c.input.source).isSome)
    (stale : w.stack.isStale c.catalog = true) :
    (w.frame c).report.passCount = (Compilation.ofEntries c.catalog w.stack.entries).passes.length := by
  have continued := w.stack.continues_apply c.catalog w.rig.device w.rig.pool c.resolve live
  have cached := Stack.caches_compile (w.stack.setRandom w.stack.random.next.2) c.catalog w.rig.device
  have prepared := w.stack.prepare_stack c.catalog w.rig.device w.rig.pool
  rw [if_pos stale] at prepared
  refine (w.stack.passCount_apply live).trans ?_
  rw [continued.passes, prepared, cached.passes.length_eq]
  rfl

theorem passCount_rippling : (rippling.frame across).report.passCount = 1 :=
  (passCount_of_stale (w := rippling) (c := across) rfl rfl).trans rfl

theorem steady_rippling :
    let changes : List (List Stack.Edit) := [[.setFilter false], [], [.setAntialias true, .clearOverride ⟨1⟩ "amount"]]
    rippling.Reachable ∧ rippling.stack.random = .fixed (.zero, .zero) ∧
      (Device.textureKind? rippling.rig.device ⟨1⟩).isSome ∧ (Device.textureKind? rippling.rig.device ⟨2⟩).isSome ∧
      (rippling.frame across).report.passCount ≠ 0 ∧ rippling.Repeats ((fun v => v.next across)^[3] rippling) across ∧
      (∀ v ∈ (rippling.next across).sequel across changes, (v.frame across).report.recompiled = false) ∧
      (((rippling.next across).sequel across changes).flatMap (·.calls across)).countP
        (·.compiles Program.antialiasLabel) ≤ 1 := by
  intro changes
  have light : ∀ es ∈ changes, ∀ e ∈ es, e.isLight := by decide
  have destination : ∀ t, across.input.destination = some t → (Device.textureKind? rippling.rig.device t).isSome := by
    rintro t ⟨⟩
    rfl
  have passes : (rippling.frame across).report.passCount ≠ 0 := by
    rw [passCount_rippling]
    exact Nat.one_ne_zero
  obtain ⟨repeats, sequel⟩ := steady rippling_reachable across rfl rfl destination
  obtain ⟨hfresh, hbuilt⟩ := sequel passes changes light
  exact ⟨rippling_reachable, rfl, rfl, rfl, passes, repeats 2, fun v hv => (hfresh v hv).1, hbuilt⟩

end Stage
end FxStack
