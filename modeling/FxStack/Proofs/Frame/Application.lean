import FxStack.Frame

/-! What an application keeps from its preparation on. Whatever is drawn, copied or given back, only the
    antialias program of the stack may change, and the report keeps the values drawn at the start. Writing
    the result changes nothing else of a report than its errors. -/

namespace FxStack
namespace Application

section
variable {δ : Type} {a b c : Application δ}

/-- `b` is a later moment of the application `a`. -/
structure Continues (a b : Application δ) : Prop where
  stack : ∃ p, b.stack = { a.stack with antialiasProgram := p }
  random : b.report.random = a.report.random
  passCount : b.report.passCount = a.report.passCount
  recompiled : b.report.recompiled = a.report.recompiled

/-- `b` is the application `a` after its result has been written, or has not. -/
structure Ends (a b : Application δ) : Prop where
  stack : ∃ p, b.stack = { a.stack with antialiasProgram := p }
  pool : b.pool = a.pool
  report : ∃ errors, b.report = { a.report with errors }

namespace Continues

theorem of_eq (hs : b.stack = a.stack) (hr : b.report.random = a.report.random)
    (hp : b.report.passCount = a.report.passCount) (hc : b.report.recompiled = a.report.recompiled) :
    Continues a b :=
  ⟨⟨a.stack.antialiasProgram, hs⟩, hr, hp, hc⟩

theorem trans (h : Continues a b) (h' : Continues b c) : Continues a c := by
  obtain ⟨p, hp⟩ := h.stack
  obtain ⟨q, hq⟩ := h'.stack
  exact ⟨⟨q, by rw [hq, hp]⟩, h'.random.trans h.random, h'.passCount.trans h.passCount,
    h'.recompiled.trans h.recompiled⟩

theorem entries (h : Continues a b) : b.stack.entries = a.stack.entries := by
  obtain ⟨p, hp⟩ := h.stack
  rw [hp]

theorem passes (h : Continues a b) : b.stack.passes = a.stack.passes := by
  obtain ⟨p, hp⟩ := h.stack
  rw [hp]

end Continues

namespace Ends

theorem of_eq (hs : b.stack = a.stack) (hp : b.pool = a.pool) (hr : b.report = a.report) : Ends a b :=
  ⟨⟨a.stack.antialiasProgram, hs⟩, hp, a.report.errors, hr⟩

theorem trans (h : Ends a b) (h' : Ends b c) : Ends a c := by
  obtain ⟨p, hp⟩ := h.stack
  obtain ⟨q, hq⟩ := h'.stack
  obtain ⟨e, he⟩ := h.report
  obtain ⟨e', he'⟩ := h'.report
  exact ⟨⟨q, by rw [hq, hp]⟩, h'.pool.trans h.pool, e', by rw [he', he]⟩

theorem continues (h : Ends a b) : Continues a b := by
  obtain ⟨e, he⟩ := h.report
  exact ⟨h.stack, by rw [he], by rw [he], by rw [he]⟩

end Ends

theorem continues_giveBack (a : Application δ) (pair : TextureId × TextureId) : Continues a (a.giveBack pair) :=
  .of_eq rfl rfl rfl rfl

end

/-! ### Writing the result -/

section
variable {δ : Type} [Device δ]

theorem ends_ensureAntialias (a : Application δ) : Ends a a.ensureAntialias.2 := by
  unfold ensureAntialias
  split
  · exact .of_eq rfl rfl rfl
  · exact .of_eq rfl rfl rfl
  · split
    · exact ⟨⟨_, rfl⟩, rfl, _, rfl⟩
    · exact ⟨⟨_, rfl⟩, rfl, _, rfl⟩

theorem ends_drawAntialias (a : Application δ) (t : TextureId) (target : Target) :
    Ends a (a.drawAntialias t target).2 := by
  have h := ends_ensureAntialias a
  unfold drawAntialias
  split
  · next b hb =>
    rw [hb] at h
    exact h
  · next p b hb =>
    rw [hb] at h
    split
    · exact h.trans (.of_eq rfl rfl rfl)
    · exact h.trans ⟨⟨b.stack.antialiasProgram, rfl⟩, rfl, _, rfl⟩

theorem ends_copyOut (a : Application δ) (t : TextureId) (target : Target) : Ends a (a.copyOut t target) := by
  unfold copyOut
  split
  · exact .of_eq rfl rfl rfl
  · exact ⟨⟨a.stack.antialiasProgram, rfl⟩, rfl, _, rfl⟩

theorem ends_finish (a : Application δ) (t : TextureId) (destination : Option TextureId) :
    Ends a (a.finish t destination) := by
  have start : Ends a { a with device := Device.setSampler a.device t a.finalSampling } := .of_eq rfl rfl rfl
  unfold finish
  dsimp only
  split
  · have h := ends_drawAntialias { a with device := Device.setSampler a.device t a.finalSampling } t
      (.ofDestination destination)
    split
    · next b hb =>
      rw [hb] at h
      exact start.trans h
    · next b hb =>
      rw [hb] at h
      exact (start.trans h).trans (ends_copyOut b t _)
  · exact start.trans (ends_copyOut _ t _)

theorem report_fail_finish (a : Application δ) (e : DeviceError) (n : Notice) (t : TextureId)
    (destination : Option TextureId) :
    ∃ errors, ((a.fail e n).finish t destination).report = { a.report with errors } := by
  obtain ⟨errors, h⟩ := (ends_finish (a.fail e n) t destination).report
  exact ⟨errors, h⟩

end

end Application

/-! ### Passes -/

namespace FrameContext
variable {δ : Type} [Device δ] (c : FrameContext)

/-- What passes leave of a report as it was. -/
structure Continues {δ : Type} (f g : Frame δ) : Prop where
  random : g.report.random = f.report.random
  passCount : g.report.passCount = f.report.passCount
  recompiled : g.report.recompiled = f.report.recompiled

theorem continues_runPass (index : Nat) (p : Pass) (f : Frame δ) : Continues f (c.runPass index p f).2 := by
  unfold runPass
  split
  · exact ⟨rfl, rfl, rfl⟩
  · dsimp only
    split <;> exact ⟨rfl, rfl, rfl⟩

/-- The next pass reads what the one before has written. -/
theorem runPass_flip {index : Nat} {p : Pass} {f g : Frame δ} (h : c.runPass index p f = (true, g)) :
    g.input = f.output ∧ g.output = f.input := by
  unfold runPass at h
  split at h
  · cases h
  · dsimp only at h
    split at h
    · cases h
      exact ⟨rfl, rfl⟩
    · cases h

theorem continues_runPasses (ps : List Pass) : ∀ (index : Nat) (f : Frame δ), Continues f (c.runPasses index f ps) := by
  induction ps with
  | nil => exact fun _ f => ⟨rfl, rfl, rfl⟩
  | cons p ps ih =>
    intro index f
    have h := continues_runPass c index p f
    unfold runPasses
    split
    · next g hg =>
      rw [hg] at h
      have hrest := ih (index + 1) g
      exact ⟨hrest.random.trans h.random, hrest.passCount.trans h.passCount, hrest.recompiled.trans h.recompiled⟩
    · next g hg =>
      rw [hg] at h
      exact h

end FrameContext

/-! ### The whole application -/

namespace Application
variable {δ : Type} [Device δ]

/-- The application with scratch textures borrowed. -/
def borrowed (a : Application δ) (pool : ScratchPool) (device : δ) (notices : List Notice) : Application δ :=
  { a with pool, device, report := { a.report with scratchAcquired := 2 }, notices := a.notices ++ notices }

section Exits
variable {a : Application δ} {c : FrameContext} {input : FrameInput} {kind : TextureKind} {pool : ScratchPool}
  {device device' : δ} {notices : List Notice}

theorem run_of_noScratch {e : DeviceError} (h : a.pool.acquirePair a.device kind = (.error e, pool, device, notices)) :
    a.run c input kind =
      ({ a with pool, device, notices := a.notices ++ notices }.fail e (.noScratch e)).finish input.source
        input.destination := by
  unfold run
  rw [h]

theorem run_of_copyFailed {pair : TextureId × TextureId} {e : DeviceError}
    (h : a.pool.acquirePair a.device kind = (.ok pair, pool, device, notices))
    (hc : Device.copy device input.source (.texture pair.1) = (.error e, device')) :
    a.run c input kind =
      (({ a.borrowed pool device notices with device := device' }.fail e (.sourceCopyFailed e)).finish input.source
        input.destination).giveBack pair := by
  unfold run borrowed
  rw [h]
  dsimp only
  rw [hc]

theorem run_of_borrowed {pair : TextureId × TextureId}
    (h : a.pool.acquirePair a.device kind = (.ok pair, pool, device, notices))
    (hc : Device.copy device input.source (.texture pair.1) = (.ok (), device')) :
    a.run c input kind =
      ({ a.borrowed pool device notices with device := device' }.runPasses c pair input.destination).giveBack pair := by
  unfold run borrowed
  rw [h]
  dsimp only
  rw [hc]

end Exits

theorem continues_runPasses (a : Application δ) (c : FrameContext) (pair : TextureId × TextureId)
    (destination : Option TextureId) : Continues a (a.runPasses c pair destination) := by
  have h := c.continues_runPasses a.stack.passes 0 ⟨a.device, pair.1, pair.2, a.report, a.notices⟩
  unfold runPasses
  refine Continues.trans ?_ (ends_finish _ _ destination).continues
  exact .of_eq rfl h.random h.passCount h.recompiled

theorem continues_run (a : Application δ) (c : FrameContext) (input : FrameInput) (kind : TextureKind) :
    Continues a (a.run c input kind) := by
  unfold run
  split
  · refine Continues.trans ?_ (ends_finish _ _ _).continues
    exact .of_eq rfl rfl rfl rfl
  · dsimp only
    split
    · refine Continues.trans (Continues.trans ?_ (ends_finish _ _ _).continues) (continues_giveBack _ _)
      exact .of_eq rfl rfl rfl rfl
    · refine Continues.trans (Continues.trans ?_ (continues_runPasses _ c _ _)) (continues_giveBack _ _)
      exact .of_eq rfl rfl rfl rfl

end Application

namespace Stack
variable {δ : Type} [Device δ] (s : Stack) (catalog : Catalog) (device : δ) (pool : ScratchPool) (resolve : Resolver)

/-- Before the first draw of an application the stack has been compiled, or has not been stale. -/
theorem prepare_stack :
    (s.prepare catalog device pool).stack =
      if s.isStale catalog then ((s.setRandom s.random.next.2).compile catalog device).1
      else s.setRandom s.random.next.2 := by
  have hstale : (s.setRandom s.random.next.2).isStale catalog = s.isStale catalog := rfl
  unfold prepare
  dsimp only
  rw [hstale]
  cases s.isStale catalog <;> rfl

/-- The list of the stack, its flags and its count of entries are those of `s`. -/
structure Agrees (s s' : Stack) : Prop where
  entries : s'.entries = s.entries
  antialias : s'.antialias = s.antialias
  filter : s'.filter = s.filter
  nextNumber : s'.nextNumber = s.nextNumber

theorem agrees_prepare : s.Agrees (s.prepare catalog device pool).stack := by
  rw [prepare_stack]
  split <;> exact ⟨rfl, rfl, rfl, rfl⟩

theorem entries_prepare : (s.prepare catalog device pool).stack.entries = s.entries :=
  (agrees_prepare s catalog device pool).entries

theorem antialiasProgram_prepare :
    (s.prepare catalog device pool).stack.antialiasProgram = s.antialiasProgram := by
  rw [prepare_stack]
  split <;> rfl

theorem apply_of_dead {input : FrameInput} (h : Device.textureKind? device input.source = none) :
    s.apply catalog device pool resolve input =
      ⟨s, device, pool, Report.empty.fail (.deadSource input.source), [.deadSource input.source]⟩ := by
  unfold apply
  rw [h]

theorem apply_of_live {input : FrameInput} {kind : TextureKind}
    (h : Device.textureKind? device input.source = some kind) :
    s.apply catalog device pool resolve input =
      let size := frameSize device input kind
      let a := s.prepare catalog device pool
      if a.stack.passes.isEmpty then a.finish input.source input.destination
      else a.run ⟨a.stack.entries, resolve, .of size a.report.random, input.depth⟩ input (kind.resized size) := by
  unfold apply
  rw [h]

/-- From its preparation on, an application with a live source keeps the stack. -/
theorem continues_apply {input : FrameInput} (live : (Device.textureKind? device input.source).isSome) :
    Application.Continues (s.prepare catalog device pool) (s.apply catalog device pool resolve input) := by
  obtain ⟨kind, hkind⟩ := Option.isSome_iff_exists.mp live
  rw [apply_of_live s catalog device pool resolve hkind]
  dsimp only
  split
  · exact (Application.ends_finish _ _ _).continues
  · exact Application.continues_run _ _ _ _

theorem agrees_apply (input : FrameInput) : s.Agrees (s.apply catalog device pool resolve input).stack := by
  cases hkind : Device.textureKind? device input.source with
  | none =>
    rw [apply_of_dead _ _ _ _ _ hkind]
    exact ⟨rfl, rfl, rfl, rfl⟩
  | some kind =>
    have live : (Device.textureKind? device input.source).isSome := by rw [hkind]; rfl
    obtain ⟨p, hp⟩ := (continues_apply s catalog device pool resolve live).stack
    obtain ⟨hentries, hantialias, hfilter, hnumber⟩ := agrees_prepare s catalog device pool
    rw [hp]
    exact ⟨hentries, hantialias, hfilter, hnumber⟩

theorem entries_apply (input : FrameInput) : (s.apply catalog device pool resolve input).stack.entries = s.entries :=
  (agrees_apply s catalog device pool resolve input).entries

theorem nextNumber_apply (input : FrameInput) :
    (s.apply catalog device pool resolve input).stack.nextNumber = s.nextNumber :=
  (agrees_apply s catalog device pool resolve input).nextNumber

end Stack
end FxStack
