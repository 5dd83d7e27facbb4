import FxStack.Proofs.Device.Operation
import FxStack.Proofs.Frame.Issued

/-! What applying a stack asks of a device of any kind. Programs are made and deleted when the stack is
    compiled and when its antialias program is first needed, and nowhere else. Main statements:
    `run_unborrowed` and `run_borrowed`, the ways from the prepared stack to its result, and `course_finish`. -/

namespace FxStack

open Device (Course Reaches)
open DeviceOp (SparesPrograms Within Draws Scope)

variable {δ : Type} [Device δ]

/-! ### Compiling -/

theorem Program.label_ne_antialiasLabel (index : Nat) (p : Pass) : label index p ≠ antialiasLabel := by
  intro h
  have hstart := congrArg (fun s => s.toList.take 4) h
  simp [label, antialiasLabel] at hstart

/-- The operation may be anything but to compile the antialias program. -/
def DeviceOp.Plain (op : DeviceOp) : Prop := op.compiles Program.antialiasLabel = false

/-- The operation is one of those that come before the first draw, of which some programs may be deleted. -/
structure DeviceOp.Prepares (deleted : ProgramId → Prop) (op : DeviceOp) : Prop where
  plain : op.Plain
  sampling : op.SparesSampling
  textures : op.SparesTextures
  deletes : op.Within ⟨deleted, fun _ => False, fun _ => False⟩

open DeviceOp (Prepares Creates)

theorem DeviceOp.Prepares.within {s : Scope} {op : DeviceOp} (h : op.Prepares s.deleted) : op.Within s :=
  h.deletes.mono (fun _ => id) (fun _ => False.elim) fun _ => False.elim

variable {deleted : ProgramId → Prop}

theorem Pass.course_build (index : Nat) (p : Pass) (d : δ) (ns : List Notice) :
    Course (Prepares deleted) d ns (p.build index d).2.1 (ns ++ [(p.build index d).2.2]) := by
  have prepares : Prepares deleted (.compileProgram (Program.label index p) (Program.ofPass p)) :=
    ⟨decide_eq_false (Program.label_ne_antialiasLabel index p), trivial, trivial, trivial⟩
  have compiled := Course.one (d := d) _ prepares rfl ns
  simp only [DeviceOp.run] at compiled
  unfold build
  dsimp only
  split
  · next hd =>
    rw [hd] at compiled
    exact compiled.trans (.note _ ns nofun)
  · next hd =>
    rw [hd] at compiled
    exact compiled.trans (.note _ ns nofun)

theorem Pass.course_buildAll (ps : List Pass) : ∀ (index : Nat) (d : δ) (ns : List Notice),
    Course (Prepares deleted) d ns (buildAll index d ps).2.1 (ns ++ (buildAll index d ps).2.2) := by
  induction ps with
  | nil =>
    intro index d ns
    simp only [buildAll, List.append_nil]
    exact .refl d ns
  | cons p ps ih =>
    intro index d ns
    have rest := ih (index + 1) (p.build index d).2.1 (ns ++ [(p.build index d).2.2])
    rw [List.append_assoc] at rest
    exact (p.course_build index d ns).trans rest

namespace Stack
variable (s : Stack) (catalog : Catalog) (d : δ)

theorem course_compile :
    Course (Prepares (· ∈ s.programs)) d [] (s.compile catalog d).2.1 (s.compile catalog d).2.2 := by
  have deleted : Reaches (Prepares (· ∈ s.programs)) d (s.programs.foldl Device.deleteProgram d) :=
    .foldl (fun d p hp => .one (.deleteProgram p) ⟨rfl, trivial, trivial, hp⟩ rfl) d
  have issues : ∀ t, .notOnLoan t ∉ (Compilation.ofEntries catalog s.entries).issues.map Notice.issue := by
    intro t ht
    obtain ⟨i, -, hi⟩ := List.mem_map.mp ht
    cases hi
  have told : Course (Prepares (· ∈ s.programs)) d [] (s.programs.foldl Device.deleteProgram d)
      ((Compilation.ofEntries catalog s.entries).issues.map .issue) := ⟨deleted, _, rfl, issues⟩
  exact (told.trans (Pass.course_buildAll _ 0 _ _)).trans (.note _ _ nofun)

theorem course_prepare (pool : ScratchPool) :
    Course (Prepares (· ∈ s.programs)) d [] (s.prepare catalog d pool).device (s.prepare catalog d pool).notices := by
  have set : ∀ (d : δ) (ns : List Notice),
      Course (Prepares (· ∈ s.programs)) d ns (Device.setFixedFunction d .fullscreen) ns :=
    fun d ns => .one (.setFixedFunction .fullscreen) ⟨rfl, trivial, trivial, trivial⟩ rfl ns
  unfold prepare
  dsimp only
  split
  · exact (course_compile (s.setRandom _) catalog d).trans (set _ _)
  · exact set d []

end Stack

/-! ### Gathering -/

section
variable {P : DeviceOp → Prop}

namespace Member

theorem course_findTexture (hplaceholder : P .placeholderTexture) (resolve : Resolver) (uniform : String) (v : Value)
    (g : Gathering δ) :
    Course P g.device g.notices (findTexture resolve uniform v g).2.device
      (findTexture resolve uniform v g).2.notices := by
  have placed : ∀ (d : δ) (ns : List Notice), Course P d ns (Device.placeholderTexture d).2 ns :=
    fun d ns => .one .placeholderTexture hplaceholder rfl ns
  unfold findTexture
  cases hfound : v.textureName?.bind resolve with
  | some t =>
    simp only [hfound]
    exact .refl g.device g.notices
  | none =>
    cases hname : v.textureName? with
    | none =>
      have asked := placed g.device g.notices
      rcases hd : Device.placeholderTexture g.device with ⟨e | t, d⟩ <;> rw [hd] at asked
      · simp only [Option.bind_none, hd]
        exact asked.trans (.note _ _ nofun)
      · simp only [Option.bind_none, hd]
        exact asked
    | some name =>
      rw [hname, Option.bind_some] at hfound
      have told : Course P g.device g.notices g.device (g.notices ++ [.missingTexture name]) :=
        .note _ _ nofun
      have asked := told.trans (placed g.device _)
      rcases hd : Device.placeholderTexture g.device with ⟨e | t, d⟩ <;> rw [hd] at asked
      · simp only [Option.bind_some, hfound, Gathering.note, hd]
        exact asked.trans (.note _ _ nofun)
      · simp only [Option.bind_some, hfound, Gathering.note, hd]
        exact asked

theorem bindings_findTexture (resolve : Resolver) (uniform : String) (v : Value) (g : Gathering δ) :
    (findTexture resolve uniform v g).2.bindings = g.bindings := by
  unfold findTexture
  dsimp only
  split
  · rfl
  · split <;> cases v.textureName? <;> rfl

theorem course_bindTexture {spec : Uniform} {t : TextureId}
    (hsample : spec.overridesSampling = true → P (.setSampler t spec.sampling)) (uniform : String) (g : Gathering δ) :
    Course P g.device g.notices (bindTexture spec uniform t g).device (bindTexture spec uniform t g).notices := by
  unfold bindTexture
  dsimp only [Gathering.bind]
  split
  · next hoverrides => exact .one (.setSampler t _) (hsample hoverrides) rfl _
  · exact .refl _ _

theorem valueOf_notice (m : Member) (entry : Option Entry) (key : String) (spec : Uniform) (t : TextureId) :
    (m.valueOf entry key spec).2 ≠ some (.notOnLoan t) := by
  unfold valueOf
  split
  · nofun
  · split <;> nofun

end Member

namespace Slot
variable (s : Slot) (entries : List Entry) (resolve : Resolver)

/-- The operations with which a slot that is bound so sets the sampling of its texture satisfy `P`. -/
def Samples (P : DeviceOp → Prop) (bs : List NamedBinding) : Prop :=
  s.spec.overridesSampling = true → ∀ unit t, (s.name, .sampler unit t) ∈ bs → P (.setSampler t s.spec.sampling)

theorem Samples.mono {s : Slot} {bs bs' : List NamedBinding} (h : s.Samples P bs') (hbs : bs ⊆ bs') : s.Samples P bs :=
  fun hoverrides unit t ht => h hoverrides unit t (hbs ht)

theorem bindings_gather (g : Gathering δ) : ∃ bs, (s.gather entries resolve g).bindings = g.bindings ++ bs := by
  have hnoted : ∀ n : Option Notice, (n.elim g g.note).bindings = g.bindings := by
    intro n
    cases n <;> rfl
  unfold gather Member.gatherUniform
  dsimp only
  generalize hv : s.member.valueOf (s.member.currentEntry? entries) s.key s.spec = valued
  have found := Member.bindings_findTexture resolve (s.spec.nameAt s.member.index) valued.1 (valued.2.elim g g.note)
  rw [hnoted] at found
  split
  · split
    · next hg =>
      rw [hg] at found
      exact ⟨_, congrArg (· ++ _) found⟩
    · next hg =>
      rw [hg] at found
      exact ⟨[], by rw [found, List.append_nil]⟩
  · split
    · exact ⟨_, congrArg (· ++ _) (hnoted _)⟩
    · exact ⟨[], by rw [hnoted, List.append_nil]⟩

theorem bindings_foldl (slots : List Slot) : ∀ g : Gathering δ,
    ∃ bs, (slots.foldl (fun g s => s.gather entries resolve g) g).bindings = g.bindings ++ bs := by
  induction slots with
  | nil => exact fun g => ⟨[], (List.append_nil _).symm⟩
  | cons s slots ih =>
    intro g
    obtain ⟨bs, hbs⟩ := s.bindings_gather entries resolve g
    obtain ⟨bs', hbs'⟩ := ih (s.gather entries resolve g)
    exact ⟨bs ++ bs', by rw [List.foldl_cons, hbs', hbs, List.append_assoc]⟩

theorem course_gather (hplaceholder : P .placeholderTexture) (g : Gathering δ)
    (hsamples : s.Samples P (s.gather entries resolve g).bindings) :
    Course P g.device g.notices (s.gather entries resolve g).device (s.gather entries resolve g).notices := by
  have hnotice := s.member.valueOf_notice (s.member.currentEntry? entries) s.key s.spec
  unfold gather Member.gatherUniform at hsamples ⊢
  dsimp only at hsamples ⊢
  generalize s.member.valueOf (s.member.currentEntry? entries) s.key s.spec = valued at hnotice hsamples ⊢
  have told : Course P g.device g.notices (valued.2.elim g g.note).device (valued.2.elim g g.note).notices := by
    cases hv : valued.2 with
    | none => exact .refl _ _
    | some n => exact .note _ _ fun t ht => hnotice t (hv.trans (congrArg some ht))
  refine told.trans ?_
  cases hs : s.spec.type.isSampler with
  | true =>
    rw [hs] at hsamples
    have found := Member.course_findTexture hplaceholder resolve (s.spec.nameAt s.member.index) valued.1
      (valued.2.elim g g.note)
    rcases hg : Member.findTexture resolve (s.spec.nameAt s.member.index) valued.1 (valued.2.elim g g.note) with
      ⟨_ | t, g'⟩ <;> rw [hg] at found hsamples
    · exact found
    · exact found.trans (Member.course_bindTexture
        (fun hoverrides => hsamples hoverrides _ t (List.mem_append_right _ (List.mem_singleton_self _))) _ _)
  | false =>
    simp only [Bool.false_eq_true, if_false]
    split <;> exact .refl _ _

theorem course_foldl (hplaceholder : P .placeholderTexture) (slots : List Slot) : ∀ g : Gathering δ,
    let g' := slots.foldl (fun g s => s.gather entries resolve g) g
    (∀ s ∈ slots, s.Samples P g'.bindings) → Course P g.device g.notices g'.device g'.notices := by
  induction slots with
  | nil => exact fun g _ => .refl _ _
  | cons s slots ih =>
    intro g g' hsamples
    obtain ⟨bs, hbs⟩ := bindings_foldl entries resolve slots (s.gather entries resolve g)
    have first : s.Samples P (s.gather entries resolve g).bindings :=
      (hsamples s List.mem_cons_self).mono (by rw [show g'.bindings = _ from hbs]; exact List.subset_append_left _ _)
    exact (s.course_gather entries resolve hplaceholder g first).trans
      (ih _ fun s hs => hsamples s (List.mem_cons_of_mem _ hs))

end Slot

theorem Pass.course_gather (p : Pass) (resolve : Resolver) (entries : List Entry) (d : δ)
    (hplaceholder : P .placeholderTexture)
    (hsamples : ∀ s ∈ p.slots, s.Samples P (p.gather resolve entries d).bindings) :
    Course P d [] (p.gather resolve entries d).device (p.gather resolve entries d).notices := by
  rw [p.gather_eq_foldl] at hsamples ⊢
  exact Slot.course_foldl entries resolve hplaceholder p.slots (.start d) hsamples

theorem Pass.spares_gather (p : Pass) (resolve : Resolver) (entries : List Entry) (d : δ) :
    Reaches SparesPrograms d (p.gather resolve entries d).device :=
  (p.course_gather resolve entries d trivial fun _ _ _ _ _ _ => trivial).reaches

/-! ### Running passes -/

namespace DeviceOp

/-- The programs of some passes and some textures. -/
def Scope.ofPasses (ps : List Pass) (textures : List TextureId) : Scope where
  deleted _ := False
  drawn program := ∃ p ∈ ps, p.program = some program
  written target := ∃ t ∈ textures, target = .texture t

/-- The antialias program of a stack and one target. -/
def Scope.ofEnd (stack : Stack) (target : Target) : Scope where
  deleted _ := False
  drawn p := stack.antialiasProgram = .ready p
  written t := t = target

end DeviceOp

/-- What a draw asks of its device satisfies `P`. -/
structure IssuedDraw.Asks (P : DeviceOp → Prop) (x : IssuedDraw δ) : Prop where
  placeholder : P .placeholderTexture
  samples : ∀ s ∈ x.pass.slots, s.Samples P x.call.uniforms
  draw : P (.draw x.call)

theorem IssuedDraw.asks_any {ε : Type} (x : IssuedDraw ε) : x.Asks fun _ => True :=
  ⟨trivial, fun _ _ _ _ _ _ => trivial, trivial⟩

theorem IssuedDraw.asks_spares {ε : Type} (x : IssuedDraw ε) : x.Asks SparesPrograms :=
  ⟨trivial, fun _ _ _ _ _ _ => trivial, trivial⟩

namespace FrameContext
variable (c : FrameContext)

theorem course_runPass (index : Nat) (p : Pass) (f : Frame δ)
    (hasks : ∀ program, p.program = some program → (c.drawOf f p program).Asks P) :
    Course P f.device f.notices (c.runPass index p f).2.device (c.runPass index p f).2.notices := by
  unfold runPass
  split
  · exact .note _ _ nofun
  · next program hprogram =>
    obtain ⟨hplaceholder, hsamples, hdraw⟩ := hasks program hprogram
    have gathered := (p.course_gather c.resolve c.entries f.device hplaceholder fun s hs =>
      (hsamples s hs).mono (List.subset_append_right _ _)).prepend f.notices
    unfold drawOf at hdraw
    generalize p.gather c.resolve c.entries f.device = g at gathered hdraw ⊢
    have noted : Course P g.device (f.notices ++ g.notices) g.device
        (f.notices ++ g.notices ++ [.passDrawn index f.input f.output (c.call program f g).uniforms.length]) :=
      .note _ _ nofun
    have told := (gathered.trans noted).trans (.one _ hdraw rfl _)
    simp only [DeviceOp.run] at told
    dsimp only [Frame.absorb]
    split
    · next hd =>
      rw [hd] at told
      exact told
    · next hd =>
      rw [hd] at told
      exact told.trans (.note _ _ nofun)

theorem spares_runPass (index : Nat) (p : Pass) (f : Frame δ) :
    Reaches SparesPrograms f.device (c.runPass index p f).2.device :=
  (c.course_runPass index p f fun _ _ => IssuedDraw.asks_spares _).reaches

/-- Passes ask what their draws ask. -/
theorem course_runPasses (ps : List Pass) : ∀ (index : Nat) (f : Frame δ), (∀ x ∈ c.issued index f ps, x.Asks P) →
    Course P f.device f.notices (c.runPasses index f ps).device (c.runPasses index f ps).notices := by
  induction ps with
  | nil => exact fun _ f _ => .refl _ _
  | cons p ps ih =>
    intro index f hasks
    unfold issued at hasks
    have first : Course P f.device f.notices (c.runPass index p f).2.device (c.runPass index p f).2.notices := by
      refine c.course_runPass index p f fun program hprogram => hasks _ ?_
      rw [hprogram]
      exact List.mem_cons_self
    unfold runPasses
    rcases hrun : c.runPass index p f with ⟨_ | _, g⟩ <;> rw [hrun] at first
    · exact first
    · refine first.trans (ih (index + 1) g fun x hx => hasks x ?_)
      -- A pass that has been drawn has a program.
      cases hprogram : p.program with
      | none =>
        unfold runPass at hrun
        rw [hprogram] at hrun
        cases hrun
      | some program =>
        rw [hrun]
        exact List.mem_cons_of_mem _ hx

/-- Draws of passes are made with the programs of the passes, between two textures. -/
theorem asks_issued (ps : List Pass) (index : Nat) (f : Frame δ) :
    ∀ x ∈ c.issued index f ps, x.Asks (Draws (.ofPasses ps [f.input, f.output])) := by
  intro x hx
  obtain ⟨hpass, hprogram, hcall⟩ := c.of_mem_issued ps hx
  obtain ⟨i, hi⟩ := List.getElem?_of_mem hx
  have houtput : x.frame.output ∈ [f.input, f.output] := by
    have alternate := c.issued_alternate ps hi
    split at alternate <;> simp [(Prod.mk.inj alternate).2]
  refine ⟨⟨trivial, trivial⟩, fun _ _ _ _ _ _ => ⟨trivial, trivial⟩, trivial, ?_, ?_⟩
  · rw [hcall]
    exact ⟨x.pass, hpass, hprogram⟩
  · rw [hcall]
    exact ⟨x.frame.output, houtput, rfl⟩

theorem scratchAcquired_runPass (index : Nat) (p : Pass) (f : Frame δ) :
    (c.runPass index p f).2.report.scratchAcquired = f.report.scratchAcquired := by
  unfold runPass
  split
  · rfl
  · dsimp only
    split <;> rfl

theorem scratchAcquired_runPasses (ps : List Pass) : ∀ (index : Nat) (f : Frame δ),
    (c.runPasses index f ps).report.scratchAcquired = f.report.scratchAcquired := by
  induction ps with
  | nil => exact fun _ _ => rfl
  | cons p ps ih =>
    intro index f
    have first := c.scratchAcquired_runPass index p f
    unfold runPasses
    rcases hrun : c.runPass index p f with ⟨_ | _, g⟩
    · rw [hrun] at first
      exact first
    · rw [hrun] at first
      exact (ih (index + 1) g).trans first

end FrameContext
end

/-! ### Borrowing -/

namespace ScratchPool
variable (pool : ScratchPool) (d : δ) (kind : TextureKind)

theorem reaches_acquire : Reaches Creates d (pool.acquire d kind).2.2 := by
  have created : Reaches Creates d (Device.createTexture d kind).2 := .one (.createTexture kind) ⟨kind, rfl⟩ rfl
  unfold acquire
  split
  · exact .refl
  · split
    · next hd =>
      rw [hd] at created
      exact created
    · next hd =>
      rw [hd] at created
      exact created

theorem acquire_error {pool pool' : ScratchPool} {d d' : δ} {kind : TextureKind} {e : DeviceError}
    (h : pool.acquire d kind = (.error e, pool', d')) : pool' = pool := by
  unfold acquire at h
  split at h
  · cases h
  · split at h
    · cases h
    · cases h
      rfl

/-- What has just been lent can be given back. -/
theorem release_lent {pool pool' : ScratchPool} {d d' : δ} {kind : TextureKind} {t : TextureId}
    (h : pool.acquire d kind = (.ok t, pool', d')) : (pool'.release t).2 = [] := by
  have lent : pool'.loans.lookup t = some kind := by
    unfold acquire at h
    split at h
    · cases h
      exact List.lookup_cons_self
    · split at h
      · cases h
        exact List.lookup_cons_self
      · cases h
  unfold release
  rw [lent]

theorem course_acquirePair (ns : List Notice) :
    Course Creates d ns (pool.acquirePair d kind).2.2.1 (ns ++ (pool.acquirePair d kind).2.2.2) := by
  have first := pool.reaches_acquire d kind
  unfold acquirePair
  rcases h₁ : pool.acquire d kind with ⟨e | t, pool₁, d₁⟩
  · rw [h₁] at first
    simp only [List.append_nil]
    exact .of_reaches first ns
  · rw [h₁] at first
    have second := pool₁.reaches_acquire d₁ kind
    dsimp only
    rcases h₂ : pool₁.acquire d₁ kind with ⟨e | u, pool₂, d₂⟩
    · rw [h₂] at second
      -- The first texture has just been lent, so taking it back says nothing.
      obtain rfl := acquire_error h₂
      simp only [release_lent h₁, List.append_nil]
      exact .of_reaches (first.trans second) ns
    · rw [h₂] at second
      simp only [List.append_nil]
      exact .of_reaches (first.trans second) ns

end ScratchPool

/-! ### To the result -/

namespace DeviceOp

/-- The operation writes the result of an application to the target: a copy, or a draw with the antialias program. -/
def Shows (stack : Stack) (target : Target) : DeviceOp → Prop
  | draw call => stack.antialiasProgram = .ready call.program ∧ call.target = target
  | copy _ t => t = target
  | _ => False

theorem Shows.draws {stack : Stack} {target : Target} {op : DeviceOp} (h : op.Shows stack target) :
    op.Draws (.ofEnd stack target) := by
  cases op with
  | draw call => exact ⟨trivial, h⟩
  | copy source t => exact ⟨trivial, h⟩
  | _ => exact h.elim

theorem Shows.spares {stack : Stack} {target : Target} {op : DeviceOp} (h : op.Shows stack target) : op.SparesPrograms :=
  h.draws.1

end DeviceOp

namespace Application

/-- `b` is a later moment of the application `a`. The stack is as it was, and the operations satisfy `P`. -/
structure Proceeds (P : DeviceOp → Prop) (a b : Application δ) : Prop where
  stack : b.stack = a.stack
  course : Course P a.device a.notices b.device b.notices

namespace Proceeds
variable {P Q : DeviceOp → Prop} {a b c : Application δ}

theorem refl (a : Application δ) : Proceeds P a a := ⟨rfl, .refl _ _⟩

theorem trans (h : Proceeds P a b) (h' : Proceeds P b c) : Proceeds P a c :=
  ⟨h'.stack.trans h.stack, h.course.trans h'.course⟩

theorem mono (h : Proceeds P a b) (hPQ : ∀ op, P op → Q op) : Proceeds Q a b := ⟨h.stack, h.course.mono hPQ⟩

theorem reaches (h : Proceeds P a b) : Reaches P a.device b.device := h.course.reaches

end Proceeds

/-- The application with the antialias program built, if the stack asks for one. -/
def smoothed (a : Application δ) : Application δ := if a.stack.antialias then a.ensureAntialias.2 else a

section
variable (a : Application δ) {P : DeviceOp → Prop}

theorem course_ensureAntialias (hcompile : P (.compileProgram Program.antialiasLabel Program.antialias)) :
    Course P a.device a.notices a.ensureAntialias.2.device a.ensureAntialias.2.notices := by
  have compiled : Reaches P a.device (Device.compileProgram a.device Program.antialiasLabel Program.antialias).2 :=
    .one (.compileProgram _ _) hcompile rfl
  unfold ensureAntialias
  split
  · exact .refl _ _
  · exact .refl _ _
  · split
    · next hd =>
      rw [hd] at compiled
      exact .of_reaches compiled _
    · next hd =>
      rw [hd] at compiled
      exact (Course.of_reaches compiled _).trans (.note _ _ nofun)

theorem ready_of_ensureAntialias {a b : Application δ} {p : ProgramId} (h : a.ensureAntialias = (some p, b)) :
    b.stack.antialiasProgram = .ready p := by
  unfold ensureAntialias at h
  split at h
  · next hready =>
    cases h
    exact hready
  · cases h
  · split at h <;> cases h
    rfl

theorem course_smoothed (hcompile : P (.compileProgram Program.antialiasLabel Program.antialias)) :
    Course P a.device a.notices a.smoothed.device a.smoothed.notices := by
  unfold smoothed
  split
  · exact a.course_ensureAntialias hcompile
  · exact .refl _ _

theorem proceeds_copyOut (stack : Stack) (t : TextureId) (target : Target) :
    Proceeds (·.Shows stack target) a (a.copyOut t target) := by
  have copied : Reaches (·.Shows stack target) a.device (Device.copy a.device t target).2 :=
    .one (.copy t target) rfl rfl
  unfold copyOut
  split
  · next hd =>
    rw [hd] at copied
    exact ⟨rfl, .of_reaches copied _⟩
  · next hd =>
    rw [hd] at copied
    exact ⟨rfl, (Course.of_reaches copied _).trans (.note _ _ nofun)⟩

theorem proceeds_drawAntialias (t : TextureId) (target : Target) :
    Proceeds (·.Shows a.ensureAntialias.2.stack target) a.ensureAntialias.2 (a.drawAntialias t target).2 := by
  unfold drawAntialias
  split
  · next h =>
    rw [h]
    exact .refl _
  · next p b h =>
    have hready := ready_of_ensureAntialias h
    rw [h]
    have drawn : Reaches (·.Shows b.stack target) b.device
        (Device.draw b.device ⟨p, target, antialiasBindings b.device t⟩).2 :=
      .one (.draw ⟨p, target, _⟩) ⟨hready, rfl⟩ rfl
    split
    · next hd =>
      rw [hd] at drawn
      exact ⟨rfl, .of_reaches drawn _⟩
    · next hd =>
      rw [hd] at drawn
      exact ⟨rfl, (Course.of_reaches drawn _).trans (.note _ _ nofun)⟩

/-- Once the antialias program is there, the result is written with the programs that there are. -/
theorem proceeds_finish (t : TextureId) (destination : Option TextureId) :
    Proceeds (·.Shows (a.finish t destination).stack (.ofDestination destination))
      ({ a with device := Device.setSampler a.device t a.finalSampling } : Application δ).smoothed
      (a.finish t destination) := by
  have proceeds : Proceeds
      (·.Shows ({ a with device := Device.setSampler a.device t a.finalSampling } : Application δ).smoothed.stack
        (.ofDestination destination))
      ({ a with device := Device.setSampler a.device t a.finalSampling } : Application δ).smoothed
      (a.finish t destination) := by
    unfold finish smoothed
    dsimp only
    split
    · generalize ({ a with device := Device.setSampler a.device t a.finalSampling } : Application δ) = b
      have drawn := b.proceeds_drawAntialias t (.ofDestination destination)
      split
      · next h =>
        rw [h] at drawn
        exact drawn
      · next h =>
        rw [h] at drawn
        exact drawn.trans (proceeds_copyOut _ _ _ _)
    · exact proceeds_copyOut _ _ _ _
  rw [proceeds.stack]
  exact proceeds

/-- The texture is sampled for the last time, the antialias program may be built, and the result is written. -/
theorem course_finish (t : TextureId) (destination : Option TextureId) (hsample : P (.setSampler t a.finalSampling))
    (hcompile : P (.compileProgram Program.antialiasLabel Program.antialias))
    (hshow : ∀ op : DeviceOp, op.Shows (a.finish t destination).stack (.ofDestination destination) → P op) :
    Course P a.device a.notices (a.finish t destination).device (a.finish t destination).notices := by
  have sampled : Course P a.device a.notices (Device.setSampler a.device t a.finalSampling) a.notices :=
    .one (.setSampler t _) hsample rfl _
  have smoothed := course_smoothed { a with device := Device.setSampler a.device t a.finalSampling } hcompile
  exact (sampled.trans smoothed).trans ((a.proceeds_finish t destination).course.mono hshow)

/-- Whatever the operations are. -/
theorem told_finish (t : TextureId) (destination : Option TextureId) :
    Course (fun _ => True) a.device a.notices (a.finish t destination).device (a.finish t destination).notices :=
  a.course_finish t destination trivial trivial fun _ _ => trivial

end

/-! ### From the prepared stack -/

/-- The application after its pool has been asked for two textures. -/
def asked (a : Application δ) (pool : ScratchPool) (device : δ) (notices : List Notice) : Application δ :=
  { a with pool, device, notices := a.notices ++ notices }

/-- The texture that the result of a run is written from. -/
def shown (a : Application δ) (c : FrameContext) (input : FrameInput) (kind : TextureKind) : TextureId :=
  match a.pool.acquirePair a.device kind with
  | (.error _, _, _, _) => input.source
  | (.ok pair, pool, device, notices) =>
    match Device.copy device input.source (.texture pair.1) with
    | (.error _, _) => input.source
    | (.ok (), device') =>
      let b := a.borrowed pool device notices
      (c.runPasses 0 ⟨device', pair.1, pair.2, b.report, b.notices⟩ b.stack.passes).input

section
variable {a : Application δ} (c : FrameContext) (input : FrameInput) {kind : TextureKind} {pool : ScratchPool}
  {d : δ} {ns : List Notice} {P : DeviceOp → Prop}

theorem proceeds_asked {r : Except DeviceError (TextureId × TextureId)}
    (h : a.pool.acquirePair a.device kind = (r, pool, d, ns)) : Proceeds Creates a (a.asked pool d ns) := by
  have asked := a.pool.course_acquirePair a.device kind a.notices
  rw [h] at asked
  exact ⟨rfl, asked⟩

/-- Without scratch textures the source is written as it is, and nothing else is asked of the device. -/
theorem run_unborrowed {e : DeviceError} (h : a.pool.acquirePair a.device kind = (.error e, pool, d, ns)) :
    ∃ b, Proceeds (fun _ => False) (a.asked pool d ns) b ∧ b.pool = pool ∧
      b.report.scratchAcquired = a.report.scratchAcquired ∧ a.shown c input kind = input.source ∧
      a.run c input kind = b.finish input.source input.destination := by
  rw [run_of_noScratch h]
  refine ⟨_, ⟨?_, ?_⟩, ?_, ?_, ?_, rfl⟩
  · rfl
  · exact .note _ _ nofun
  · rfl
  · rfl
  · unfold shown
    rw [h]

/-- Two borrowed textures are given back when the result has been written, be it from the source or from one
    of them. -/
theorem run_borrowed {pair : TextureId × TextureId} (h : a.pool.acquirePair a.device kind = (.ok pair, pool, d, ns)) :
    ∃ b, (∀ P : DeviceOp → Prop, P (.copy input.source (.texture pair.1)) → (∀ x ∈ a.issued c input kind, x.Asks P) →
        Proceeds P (a.asked pool d ns) b) ∧
      b.pool = pool ∧ b.report.scratchAcquired = 2 ∧
      a.run c input kind = (b.finish (a.shown c input kind) input.destination).giveBack pair := by
  have copied : ∀ P : DeviceOp → Prop, P (.copy input.source (.texture pair.1)) →
      Reaches P d (Device.copy d input.source (.texture pair.1)).2 := fun P hP => .one (.copy _ _) hP rfl
  rcases hcopy : Device.copy d input.source (.texture pair.1) with ⟨e | _, d'⟩
  · have hshown : a.shown c input kind = input.source := by
      unfold shown
      rw [h]
      dsimp only
      rw [hcopy]
    rw [hcopy] at copied
    rw [run_of_copyFailed h hcopy, hshown]
    refine ⟨_, fun P hP _ => ⟨?_, ?_⟩, ?_, ?_, rfl⟩
    · rfl
    · exact (Course.of_reaches (copied P hP) _).trans (.note _ _ nofun)
    · rfl
    · rfl
  · have hshown : a.shown c input kind = (c.runPasses 0
        ⟨d', pair.1, pair.2, (a.borrowed pool d ns).report, (a.borrowed pool d ns).notices⟩ a.stack.passes).input := by
      unfold shown
      rw [h]
      dsimp only
      rw [hcopy]
      rfl
    rw [hcopy] at copied
    rw [issued_of_borrowed h hcopy, run_of_borrowed h hcopy, hshown]
    refine ⟨_, fun P hP hasks => ⟨?_, ?_⟩, ?_, ?_, rfl⟩
    · rfl
    · exact (Course.of_reaches (copied P hP) _).trans (c.course_runPasses a.stack.passes 0 _ hasks)
    · rfl
    · exact c.scratchAcquired_runPasses _ 0 _

/-- The draws of a run are made with the programs of the stack, between the two borrowed textures. -/
theorem asks_issued {pair : TextureId × TextureId} (h : a.pool.acquirePair a.device kind = (.ok pair, pool, d, ns)) :
    ∀ x ∈ a.issued c input kind, x.Asks (Draws (.ofPasses a.stack.passes [pair.1, pair.2])) := by
  rcases hcopy : Device.copy d input.source (.texture pair.1) with ⟨e | _, d'⟩
  · rw [issued_of_copyFailed h hcopy]
    nofun
  · rw [issued_of_borrowed h hcopy]
    exact c.asks_issued _ _ _

end
end Application

/-! ### The whole application -/

namespace Stack

section
variable (s : Stack) (catalog : Catalog) (d : δ) (pool : ScratchPool) (resolve : Resolver) (input : FrameInput)

/-- The two scratch textures that an application gets, if it asks for them. -/
def borrowed? : Option (TextureId × TextureId) :=
  match Device.textureKind? d input.source with
  | none => none
  | some kind =>
    let a := s.prepare catalog d pool
    if a.stack.passes.isEmpty then none
    else (a.pool.acquirePair a.device (kind.resized (frameSize d input kind))).1.toOption

/-- The texture that the result of an application is written from, if there is one. -/
def shown? : Option TextureId :=
  match Device.textureKind? d input.source with
  | none => none
  | some kind =>
    let size := frameSize d input kind
    let a := s.prepare catalog d pool
    if a.stack.passes.isEmpty then some input.source
    else some (a.shown ⟨a.stack.entries, resolve, .of size a.report.random, input.depth⟩ input (kind.resized size))

/-- The ways of an application from its preparation to its result. -/
inductive Applied (kind : TextureKind) : Prop
  | plain : (s.prepare catalog d pool).stack.passes = [] → s.borrowed? catalog d pool input = none →
      s.shown? catalog d pool resolve input = some input.source →
      s.apply catalog d pool resolve input = (s.prepare catalog d pool).finish input.source input.destination →
      Applied kind
  | unborrowed (e : DeviceError) (pool' : ScratchPool) (d' : δ) (ns : List Notice) (b : Application δ) :
      (s.prepare catalog d pool).stack.passes ≠ [] →
      pool.acquirePair (s.prepare catalog d pool).device kind = (.error e, pool', d', ns) →
      Application.Proceeds (fun _ => False) ((s.prepare catalog d pool).asked pool' d' ns) b →
      b.pool = pool' → b.report.scratchAcquired = 0 → s.borrowed? catalog d pool input = none →
      s.shown? catalog d pool resolve input = some input.source →
      s.apply catalog d pool resolve input = b.finish input.source input.destination → Applied kind
  | borrowed (pair : TextureId × TextureId) (pool' : ScratchPool) (d' : δ) (ns : List Notice) (b : Application δ)
      (t : TextureId) :
      (s.prepare catalog d pool).stack.passes ≠ [] →
      pool.acquirePair (s.prepare catalog d pool).device kind = (.ok pair, pool', d', ns) →
      (∀ x ∈ s.issued catalog d pool resolve input,
        x.Asks (Draws (.ofPasses (s.prepare catalog d pool).stack.passes [pair.1, pair.2]))) →
      (∀ P : DeviceOp → Prop, P (.copy input.source (.texture pair.1)) →
        (∀ x ∈ s.issued catalog d pool resolve input, x.Asks P) →
        Application.Proceeds P ((s.prepare catalog d pool).asked pool' d' ns) b) →
      b.pool = pool' → b.report.scratchAcquired = 2 → s.borrowed? catalog d pool input = some pair →
      s.shown? catalog d pool resolve input = some t →
      s.apply catalog d pool resolve input = (b.finish t input.destination).giveBack pair → Applied kind

/-- An application to a live source goes one of the three ways, with scratch textures of the size of the frame. -/
theorem applied {source : TextureKind} (h : Device.textureKind? d input.source = some source) :
    s.Applied catalog d pool resolve input (source.resized (frameSize d input source)) := by
  have happly := s.apply_of_live catalog d pool resolve h
  dsimp only at happly
  by_cases hpasses : (s.prepare catalog d pool).stack.passes = []
  · rw [if_pos (List.isEmpty_iff.mpr hpasses)] at happly
    refine .plain hpasses ?_ ?_ happly
    · simp only [borrowed?, h, hpasses, List.isEmpty_nil, if_true]
    · simp only [shown?, h, hpasses, List.isEmpty_nil, if_true]
  · have hempty : ¬(s.prepare catalog d pool).stack.passes.isEmpty = true := fun hempty =>
      hpasses (List.isEmpty_iff.mp hempty)
    rw [if_neg hempty] at happly
    let c : FrameContext := ⟨(s.prepare catalog d pool).stack.entries, resolve,
      .of (frameSize d input source) (s.prepare catalog d pool).report.random, input.depth⟩
    have hshown : s.shown? catalog d pool resolve input =
        some ((s.prepare catalog d pool).shown c input (source.resized (frameSize d input source))) := by
      simp only [shown?, h, hempty, Bool.false_eq_true, if_false, c]
    have hissued : s.issued catalog d pool resolve input =
        (s.prepare catalog d pool).issued c input (source.resized (frameSize d input source)) := issued_of_live h
    rcases hpair : (s.prepare catalog d pool).pool.acquirePair (s.prepare catalog d pool).device
      (source.resized (frameSize d input source)) with ⟨e | pair, pool', d', ns⟩
    · obtain ⟨b, hb, hpool, hreport, hsource, hrun⟩ := Application.run_unborrowed c input hpair
      rw [hsource] at hshown
      refine .unborrowed e pool' d' ns b hpasses hpair hb hpool hreport ?_ hshown (happly.trans hrun)
      simp only [borrowed?, h, hempty, Bool.false_eq_true, if_false, hpair]
      rfl
    · obtain ⟨b, hb, hpool, hreport, hrun⟩ := Application.run_borrowed c input hpair
      refine .borrowed pair pool' d' ns b _ hpasses hpair ?_ ?_ hpool hreport ?_ hshown (happly.trans hrun)
      · rw [hissued]
        exact Application.asks_issued c input hpair
      · rw [hissued]
        exact hb
      · simp only [borrowed?, h, hempty, Bool.false_eq_true, if_false, hpair]
        rfl

end

/-- Between its preparation and the writing of its result, an application makes and deletes no program. -/
theorem apply_proceeds (s : Stack) (catalog : Catalog) {d : δ} (pool : ScratchPool) (resolve : Resolver)
    {input : FrameInput} {kind : TextureKind} (h : Device.textureKind? d input.source = some kind) :
    ∃ b t, Application.Proceeds SparesPrograms (s.prepare catalog d pool) b ∧
      (s.apply catalog d pool resolve input).stack = (b.finish t input.destination).stack ∧
      (s.apply catalog d pool resolve input).device = (b.finish t input.destination).device := by
  cases s.applied catalog d pool resolve input h with
  | plain _ _ _ happly => exact ⟨_, input.source, .refl _, by rw [happly], by rw [happly]⟩
  | unborrowed e pool' d' ns b _ hpair hb _ _ _ _ happly =>
    have asked := (Application.proceeds_asked (a := s.prepare catalog d pool) hpair).trans (hb.mono fun _ => False.elim)
    exact ⟨b, input.source, asked.mono fun _ creates => creates.spares.1, by rw [happly], by rw [happly]⟩
  | borrowed pair pool' d' ns b t _ hpair _ hb _ _ _ _ happly =>
    have asked := (Application.proceeds_asked (a := s.prepare catalog d pool) hpair).mono
      fun _ creates => creates.spares.1
    exact ⟨b, t, asked.trans (hb _ trivial fun x _ => x.asks_spares), by rw [happly]; rfl, by rw [happly]; rfl⟩

end Stack
end FxStack
