import FxStack.Proofs.Frame.Ending
import Mathlib.Logic.Equiv.Basic

/-! Applications over again. When an application has ended, two textures of its kind wait in the pool, the antialias
    program has been asked for, and there is a placeholder if one has been needed. So the next application of the stack
    leaves the device at rest, and reports and draws the same, though other textures of the pool may serve as scratch.
    Main statement: `Application.run_again`. -/

namespace FxStack

open Device (Reaches)

/-! ### Scratch textures in exchange -/

namespace TextureId
variable {pair pair' : TextureId × TextureId}

/-- A permutation that takes one pair of textures to another one. -/
def exchange (pair pair' : TextureId × TextureId) : Equiv.Perm TextureId :=
  -- the second swap takes the second texture from where the first one has put it
  (Equiv.swap pair.1 pair'.1).trans (Equiv.swap (Equiv.swap pair.1 pair'.1 pair.2) pair'.2)

theorem exchange_fst (h : pair.1 ≠ pair.2) (h' : pair'.1 ≠ pair'.2) : exchange pair pair' pair.1 = pair'.1 := by
  have hne : pair'.1 ≠ Equiv.swap pair.1 pair'.1 pair.2 := by
    intro heq
    refine h ((Equiv.swap pair.1 pair'.1).injective ?_)
    rw [Equiv.swap_apply_left, ← heq]
  unfold exchange
  rw [Equiv.trans_apply, Equiv.swap_apply_left, Equiv.swap_apply_of_ne_of_ne hne h']

theorem exchange_snd (pair pair' : TextureId × TextureId) : exchange pair pair' pair.2 = pair'.2 := by
  unfold exchange
  rw [Equiv.trans_apply, Equiv.swap_apply_left]

theorem exchange_of_ne {t : TextureId} (ht : t ≠ pair.1) (ht' : t ≠ pair.2) (hu : t ≠ pair'.1) (hu' : t ≠ pair'.2) :
    exchange pair pair' t = t := by
  have hfixed : Equiv.swap pair.1 pair'.1 t = t := Equiv.swap_apply_of_ne_of_ne ht hu
  have hne : t ≠ Equiv.swap pair.1 pair'.1 pair.2 := by
    intro heq
    refine ht' ((Equiv.swap pair.1 pair'.1).injective ?_)
    rw [hfixed, ← heq]
  unfold exchange
  rw [Equiv.trans_apply, hfixed, Equiv.swap_apply_of_ne_of_ne hne hu']

end TextureId

/-- The device `e` has recorded what `d` has recorded: the draws of the passes and the one for the result, if there is
    one. Only some textures may stand for others where passes read and write and where the result is read. -/
def ReferenceDevice.RecordsAgain (scratch : TextureId → Prop) (d d' e e' : ReferenceDevice) : Prop :=
  ∃ (σ : Equiv.Perm TextureId) (passes last : List RecordedDraw), (∀ t, σ t ≠ t → scratch t) ∧ last.length ≤ 1 ∧
    d'.draws = d.draws ++ (passes ++ last) ∧
    e'.draws = e.draws ++ (passes.map (·.recast σ) ++ last.map (·.reread σ))

theorem ReferenceDevice.RecordsAgain.of_eq {scratch : TextureId → Prop} {d d₁ d' e e₁ e' : ReferenceDevice}
    (h : RecordsAgain scratch d₁ d' e₁ e') (hd : d₁.draws = d.draws) (he : e₁.draws = e.draws) :
    RecordsAgain scratch d d' e e' := by
  unfold RecordsAgain at h ⊢
  rwa [hd, he] at h

/-! ### Pairs that wait after they have been lent -/

namespace ScratchPool
variable {pool pool' : ScratchPool} {kind : TextureKind}

theorem waiting_add (pool : ScratchPool) (kind : TextureKind) :
    pool.waiting kind + pool.loans.countP (·.2 = kind) = pool.textures.countP (·.2 = kind) := by
  unfold waiting textures
  rw [List.countP_append, List.countP_map]
  rfl

/-- What does not belong to the loans waits. -/
theorem idle_perm (hp : pool'.textures.Perm pool.textures) (hloans : pool'.loans = pool.loans) :
    pool'.idle.Perm pool.idle := by
  unfold textures at hp
  rw [hloans, List.perm_append_right_iff] at hp
  have hback := hp.map Prod.swap
  rwa [List.map_map, List.map_map, Prod.swap_swap_eq, List.map_id, List.map_id] at hback

theorem mem_idle {t : TextureId} (h : (t, kind) ∈ pool.textures) (hfree : t ∉ pool.loans.map (·.1)) :
    (kind, t) ∈ pool.idle := by
  rcases List.mem_append.mp h with hidle | hloan
  · obtain ⟨⟨k, u⟩, he, hswap⟩ := List.mem_map.mp hidle
    cases hswap
    exact he
  · exact absurd (List.mem_map_of_mem (f := (·.1)) hloan) hfree

/-- A pair that has been lent waits when it is back. -/
theorem Borrowed.returned {d d' : ReferenceDevice} (wf : d.WellFormed) (h : pool.Backed d) {pair : TextureId × TextureId}
    {ns : List Notice} (hpair : pool.acquirePair d kind = (.ok pair, pool', d', ns)) :
    2 ≤ (pool'.releasePair pair).1.waiting kind ∧ (pool'.releasePair pair).1.loans = pool.loans ∧
      (kind, pair.1) ∈ (pool'.releasePair pair).1.idle ∧ (kind, pair.2) ∈ (pool'.releasePair pair).1.idle := by
  obtain ⟨⟨pool₁, lends₁, lends₂⟩, numbered⟩ := (h.numbered wf).acquirePair_ok hpair
  have hreturned := textures_releasePair numbered.distinct pair
  have hloans := (lends₁.releasePair lends₂).1.loans
  have hlent : pool'.loans = (pair.2, kind) :: (pair.1, kind) :: pool.loans := by rw [lends₂.loans, lends₁.loans]
  have hfree := lends₂.free
  rw [lends₁.loans, List.map_cons, List.mem_cons, not_or] at hfree
  have hold := pool'.waiting_add kind
  have hnew := (pool'.releasePair pair).1.waiting_add kind
  rw [hreturned.countP_eq, hloans] at hnew
  rw [hlent, List.countP_cons_of_pos (by simp), List.countP_cons_of_pos (by simp)] at hold
  -- both have been on loan, and nothing else has come or gone
  have held : ∀ e ∈ pool'.loans, e ∈ (pool'.releasePair pair).1.textures := fun e he =>
    hreturned.symm.subset (List.mem_append_right _ he)
  refine ⟨by omega, hloans, mem_idle (held _ ?_) (hloans ▸ lends₁.free), mem_idle (held _ ?_) (hloans ▸ hfree.2)⟩
  · rw [hlent]
    exact List.mem_cons_of_mem _ List.mem_cons_self
  · rw [hlent]
    exact List.mem_cons_self

end ScratchPool

/-! ### Applications -/

namespace Application
variable {recompiled : Bool} {a a' b b' : Application ReferenceDevice} {c : FrameContext} {input : FrameInput}
  {kind source : TextureKind}

/-- The source and the destination are live, and the programs of the passes have been given out by the device. -/
structure Sound (a : Application ReferenceDevice) (input : FrameInput) : Prop where
  wellFormed : a.device.WellFormed
  backed : a.pool.Backed a.device
  source : (Device.textureKind? a.device input.source).isSome
  target : (a.device.targetSize? (.ofDestination input.destination)).isSome
  issued : ∀ p ∈ a.stack.programs, p.number < a.device.nextNumber

/-- Another application is prepared when the one that has been prepared as `a` has ended as `a'`. -/
structure Resumes (recompiled : Bool) (a a' b : Application ReferenceDevice) : Prop where
  report : b.report = { a.report with recompiled }
  stack : b.stack = a'.stack
  rests : a'.device.Rests b.device
  textures : b.pool.textures.Perm a'.pool.textures
  loans : b.pool.loans = a'.pool.loans
  wellFormed : b.device.WellFormed
  backed : b.pool.Backed b.device

/-- The application that has been prepared as `b` ends as `b'`, as the one prepared as `a` has ended as `a'`. -/
structure Again (recompiled : Bool) (a a' b b' : Application ReferenceDevice) : Prop where
  report : b'.report = { a'.report with recompiled }
  stack : b'.stack = b.stack
  rests : b.device.Rests b'.device
  textures : b'.pool.textures.Perm b.pool.textures
  loans : b'.pool.loans = b.pool.loans
  records : ReferenceDevice.RecordsAgain (· ∈ a'.pool.idle.map (·.2)) a.device a'.device b.device b'.device

/-- A result that is written from the source is written over again. -/
theorem again_of_source {x y : Application ReferenceDevice} (hx : x.device = a.device)
    (hy : y.stack = b.stack ∧ y.device = b.device ∧ y.pool = b.pool) (sound : a.Sound input)
    (hreport : y.report = { x.report with recompiled })
    (resumes : Resumes recompiled a (x.finish input.source input.destination) b) :
    Again recompiled a (x.finish input.source input.destination) b (y.finish input.source input.destination) := by
  obtain ⟨hstack, hdevice, hpool⟩ := hy
  obtain ⟨source, hsource⟩ := Option.isSome_iff_exists.mp sound.source
  obtain ⟨size, hsize⟩ := Option.isSome_iff_exists.mp sound.target
  have keeps := x.keeps_finish hx input.source input.destination
  have hsource' : Device.textureKind? b.device input.source = some source :=
    (resumes.rests.textureKind? _).trans (keeps.textureKind? hsource)
  obtain ⟨written, rests, hend⟩ := finish_again (ρ := Equiv.refl TextureId) input.destination hreport
    (hstack.trans resumes.stack) (hdevice ▸ resumes.rests) (hx ▸ hsource) (hdevice ▸ hsource') (hx ▸ hsize)
  have hends := (ends_finish y input.source input.destination).pool.trans hpool
  refine ⟨written.report, hend.trans hstack, hdevice ▸ rests, hends ▸ .refl _, by rw [hends], Equiv.refl _, [], ?_⟩
  obtain ⟨last, hlength, hdraws, hdraws'⟩ := written.draws
  exact ⟨last, fun t ht => absurd rfl ht, hlength, hx ▸ hdraws, hdevice ▸ hdraws'⟩

/-! ### Runs with scratch textures -/

/-- The frame with which the passes start, when the source has been copied. -/
def started (a : Application ReferenceDevice) (pair : TextureId × TextureId) (d : ReferenceDevice) :
    Frame ReferenceDevice :=
  ⟨d, pair.1, pair.2, { a.report with scratchAcquired := 2 }, a.notices ++ []⟩

/-- The application when its passes have ended with the frame `f`. -/
def passed (a : Application ReferenceDevice) (pool : ScratchPool) (f : Frame ReferenceDevice) :
    Application ReferenceDevice :=
  ⟨a.stack, f.device, pool, f.report, f.notices⟩

/-- The application has borrowed `pair`; the device was `d` then, and `d'` when the source had been copied; and the
    passes have ended with the frame `f`. -/
structure Lent (c : FrameContext) (input : FrameInput) (kind : TextureKind) (a : Application ReferenceDevice)
    (pair : TextureId × TextureId) (pool : ScratchPool) (d d' : ReferenceDevice) (f : Frame ReferenceDevice) : Prop where
  lent : a.pool.acquirePair a.device kind = (.ok pair, pool, d, [])
  borrowed : ScratchPool.Borrowed a.pool a.device kind pair pool d
  copied : Device.copy d input.source (.texture pair.1) = (.ok (), d')
  passes : c.runPasses 0 (a.started pair d') a.stack.passes = f

namespace Lent
variable {pair pair' : TextureId × TextureId} {pool pool' : ScratchPool} {d d' e' : ReferenceDevice}
  {f g : Frame ReferenceDevice}

/-- If the textures are to be had, the source can be copied. -/
theorem of_acquirePair (hpair : a.pool.acquirePair a.device kind = (.ok pair, pool, d, []))
    (borrowed : ScratchPool.Borrowed a.pool a.device kind pair pool d)
    (hsource : Device.textureKind? a.device input.source = some source) :
    ∃ d' f, Lent c input kind a pair pool d d' f := by
  obtain ⟨x, hx, hkind⟩ := borrowed.first
  have hfirst : Device.textureKind? d pair.1 = some kind := Option.map_eq_some_iff.mpr ⟨x, hx, hkind⟩
  obtain ⟨d', hcopy⟩ := ReferenceDevice.copy_made (borrowed.still.keeps.textureKind? hsource)
    (ReferenceDevice.targetSize?_texture hfirst)
  exact ⟨d', _, hpair, borrowed, hcopy, rfl⟩

theorem run_eq (h : Lent c input kind a pair pool d d' f) :
    a.run c input kind = ((a.passed pool f).finish f.input input.destination).giveBack pair := by
  rw [← h.passes]
  exact run_of_borrowed h.lent h.copied

theorem pool_run (h : Lent c input kind a pair pool d d' f) : (a.run c input kind).pool = (pool.releasePair pair).1 := by
  rw [h.run_eq]
  exact congrArg (fun p => (ScratchPool.releasePair p pair).1) (ends_finish _ _ _).pool

theorem draws (h : Lent c input kind a pair pool d d' f) : d'.draws = a.device.draws :=
  (ReferenceDevice.draws_copy h.copied).trans h.borrowed.still.draws

theorem keeps (h : Lent c input kind a pair pool d d' f) : a.device.Keeps (fun _ => True) f.device := by
  have copied := ReferenceDevice.Keeps.copy h.copied
  have drawn := (c.keeps_runPasses a.stack.passes 0 (a.started pair d')).1
  rw [h.passes] at drawn
  have any : ∀ {written : Target → Prop} {d d' : ReferenceDevice}, d.Keeps written d' → d.Keeps (fun _ => True) d' :=
    fun h => h.mono fun _ _ => trivial
  exact (any h.borrowed.still.keeps).trans ((any copied).trans (any drawn))

theorem programs (h : Lent c input kind a pair pool d d' f) : f.device.programs = d'.programs := by
  have spared : Reaches DeviceOp.SparesPrograms d' (c.runPasses 0 (a.started pair d') a.stack.passes).device :=
    (c.course_runPasses a.stack.passes 0 (a.started pair d') fun x _ => x.asks_spares).reaches
  rw [h.passes] at spared
  exact spared.programs

theorem between (h : Lent c input kind a pair pool d d' f) : (a.started pair d').Between kind := by
  obtain ⟨x, hx, hfirst⟩ := h.borrowed.first
  obtain ⟨y, hy, hsecond⟩ := h.borrowed.second
  have copied := ReferenceDevice.Keeps.copy h.copied
  exact ⟨copied.textureKind? (Option.map_eq_some_iff.mpr ⟨x, hx, hfirst⟩),
    copied.textureKind? (Option.map_eq_some_iff.mpr ⟨y, hy, hsecond⟩)⟩

/-- The programs of the passes are in the end what they have been when the passes were drawn. -/
theorem program?_run (h : Lent c input kind a pair pool d d' f) {p : ProgramId} (hp : p.number < a.device.nextNumber) :
    (a.run c input kind).device.program? p = d'.program? p := by
  rw [h.run_eq]
  calc ((a.passed pool f).finish f.input input.destination).device.program? p = f.device.program? p :=
      program?_finish _ _ _ (Nat.lt_of_lt_of_le hp h.keeps.nextNumber)
    _ = d'.program? p := congrArg (List.lookup p) h.programs

theorem placeholder_run (h : Lent c input kind a pair pool d d' f) {t : TextureId} (ht : f.device.placeholder = some t) :
    (a.run c input kind).device.placeholder = some t := by
  rw [h.run_eq]
  exact ((a.passed pool f).keeps_finish rfl f.input input.destination).placeholder t ht

/-- Where an application has borrowed, the next one borrows what waits. -/
theorem next (h : Lent c input kind a pair pool d d' f) (sound : a.Sound input)
    (resumes : Resumes recompiled a (a.run c input kind) b) : ∃ pair' pool' e' g,
      Lent c input kind b pair' pool' b.device e' g ∧ pool'.textures.Perm b.pool.textures := by
  have hk := sound.backed.drawable_of_acquirePair h.lent
  obtain ⟨source, hsource⟩ := Option.isSome_iff_exists.mp sound.source
  obtain ⟨hwaiting, -⟩ := ScratchPool.Borrowed.returned sound.wellFormed sound.backed h.lent
  rw [← h.pool_run, ScratchPool.waiting, ← (ScratchPool.idle_perm resumes.textures resumes.loans).countP_eq] at hwaiting
  obtain ⟨pair', pool', hpair', hperm⟩ := ScratchPool.acquirePair_waiting resumes.backed.distinct hwaiting b.device
  obtain ⟨_, _, _, hlent, borrowed'⟩ := ScratchPool.acquirePair_drawable resumes.wellFormed resumes.backed hk
  cases hpair'.symm.trans hlent
  have kept : a.device.Keeps _ (a.run c input kind).device := (keeps_run c input sound.wellFormed sound.backed).1
  obtain ⟨e', g, h'⟩ := of_acquirePair (c := c) hpair' borrowed'
    ((resumes.rests.textureKind? _).trans (kept.textureKind? hsource))
  exact ⟨pair', pool', e', g, h', hperm⟩

theorem rests_copied (h : Lent c input kind b pair pool b.device e' g) : b.device.Rests e' := by
  have painted := ReferenceDevice.painted_copy b.device input.source (.texture pair.1)
  rw [h.copied] at painted
  exact .painted painted

/-- The passes of the second application are those of the first one over again. -/
theorem twins (h : Lent c input kind a pair pool d d' f) (h' : Lent c input kind b pair' pool' b.device e' g)
    (sound : a.Sound input) (resumes : Resumes recompiled a (a.run c input kind) b) :
    f.Twins (·.number < a.device.nextNumber) (TextureId.exchange pair pair') kind recompiled g ∧
      ReferenceDevice.Replays (TextureId.exchange pair pair') d' f.device e' g.device := by
  have rests := resumes.rests.trans h'.rests_copied
  -- the passes start alike: what the first application has compiled is on the device still
  have started : (a.started pair d').Twins (·.number < a.device.nextNumber) (TextureId.exchange pair pair') kind
      recompiled (b.started pair' e') := by
    refine ⟨?_, ?_, ?_, fun p hp => (rests.program? p).trans (h.program?_run hp), h.between, h'.between⟩
    · simp only [Application.started, resumes.report]
    · exact (TextureId.exchange_fst h.borrowed.ne h'.borrowed.ne).symm
    · exact (TextureId.exchange_snd pair pair').symm
  have hpasses : b.stack.passes = a.stack.passes := by
    rw [resumes.stack]
    exact (a.continues_run c input kind).passes
  have ended := started.runPasses (c := c) a.stack.passes
    (fun p hp program hprogram => sound.issued program (List.mem_filterMap.mpr ⟨p, hp, hprogram⟩))
    0 (fun t ht => rests.placeholder.trans (h.placeholder_run (h.passes ▸ ht)))
  rwa [h.passes, ← hpasses, h'.passes] at ended

/-- What the second application exchanges are textures that have waited. -/
theorem waits (h : Lent c input kind a pair pool d d' f) (h' : Lent c input kind b pair' pool' b.device e' g)
    (sound : a.Sound input) (resumes : Resumes recompiled a (a.run c input kind) b)
    (hperm : (b.run c input kind).pool.textures.Perm b.pool.textures) {t : TextureId}
    (ht : TextureId.exchange pair pair' t ≠ t) : t ∈ (a.run c input kind).pool.idle.map (·.2) := by
  obtain ⟨-, -, hfirst, hsecond⟩ := ScratchPool.Borrowed.returned sound.wellFormed sound.backed h.lent
  obtain ⟨-, hloans, hfirst', hsecond'⟩ := ScratchPool.Borrowed.returned resumes.wellFormed resumes.backed h'.lent
  rw [← h.pool_run] at hfirst hsecond
  rw [← h'.pool_run] at hloans hfirst' hsecond'
  have hidle := ScratchPool.idle_perm (hperm.trans resumes.textures) (hloans.trans resumes.loans)
  by_contra hother
  have hheld : ∀ {u : TextureId}, (kind, u) ∈ (a.run c input kind).pool.idle → t ≠ u := by
    rintro u hu rfl
    exact hother (List.mem_map_of_mem (f := Prod.snd) hu)
  exact ht (TextureId.exchange_of_ne (hheld hfirst) (hheld hsecond) (hheld (hidle.subset hfirst'))
    (hheld (hidle.subset hsecond')))

/-- The second application ends as the first one has ended. -/
theorem again (h : Lent c input kind a pair pool d d' f) (h' : Lent c input kind b pair' pool' b.device e' g)
    (hpool : pool'.textures.Perm b.pool.textures) (sound : a.Sound input)
    (resumes : Resumes recompiled a (a.run c input kind) b) :
    Again recompiled a (a.run c input kind) b (b.run c input kind) := by
  obtain ⟨size, hsize⟩ := Option.isSome_iff_exists.mp sound.target
  obtain ⟨twins, replays⟩ := h.twins h' sound resumes
  have hprepared : b.device.Rests g.device := h'.rests_copied.trans replays.rests
  obtain ⟨written, rests, hstack⟩ := finish_again (x := a.passed pool f) (y := b.passed pool' g) (t := f.input)
    (ρ := TextureId.exchange pair pair') input.destination twins.report
    (resumes.stack.trans (by rw [h.run_eq]; rfl))
    (by have resting := resumes.rests.trans hprepared; rw [h.run_eq] at resting; exact resting)
    twins.between.input (twins.input ▸ twins.between'.input) (h.keeps.targetSize? hsize)
  have hreturned : (b.run c input kind).pool.textures.Perm b.pool.textures := by
    rw [h'.pool_run]
    exact (ScratchPool.textures_releasePair h'.borrowed.backed.distinct pair').trans hpool
  obtain ⟨-, hloans, -⟩ := ScratchPool.Borrowed.returned resumes.wellFormed resumes.backed h'.lent
  have hrun : b.run c input kind =
      ((b.passed pool' g).finish (TextureId.exchange pair pair' f.input) input.destination).giveBack pair' := by
    rw [h'.run_eq, twins.input]
  refine ⟨?_, ?_, ?_, hreturned, by rw [h'.pool_run, hloans], ?_⟩
  · rw [h.run_eq, hrun]
    exact written.report
  · rw [hrun]
    exact hstack
  · rw [hrun]
    exact hprepared.trans rests
  · obtain ⟨passes, hdraws, hdraws'⟩ := replays.draws
    obtain ⟨last, hlength, hlast, hlast'⟩ := written.draws
    refine ⟨TextureId.exchange pair pair', passes, last, fun t => h.waits h' sound resumes hreturned, hlength, ?_, ?_⟩
    · rw [h.run_eq, ← h.draws, ← List.append_assoc, ← hdraws]
      exact hlast
    · rw [hrun, ← h'.draws, ← List.append_assoc, ← hdraws']
      exact hlast'

end Lent

/-- What a run does is done over again, be it with scratch textures or without. -/
theorem run_again (sound : a.Sound input) (resumes : Resumes recompiled a (a.run c input kind) b) :
    Again recompiled a (a.run c input kind) b (b.run c input kind) := by
  by_cases hk : kind.width ≠ 0 ∧ kind.height ≠ 0
  · obtain ⟨pair, pool, d, hpair, borrowed⟩ := ScratchPool.acquirePair_drawable sound.wellFormed sound.backed hk
    obtain ⟨source, hsource⟩ := Option.isSome_iff_exists.mp sound.source
    obtain ⟨d', f, first⟩ := Lent.of_acquirePair (c := c) hpair borrowed hsource
    obtain ⟨pair', pool', e', g, second, hpool⟩ := first.next sound resumes
    exact first.again second hpool sound resumes
  · have hrun : a.run c input kind = _ := run_of_noScratch (ScratchPool.acquirePair_empty sound.backed hk)
    have hrun' : b.run c input kind = _ := run_of_noScratch (ScratchPool.acquirePair_empty resumes.backed hk)
    rw [hrun] at resumes ⊢
    rw [hrun']
    refine again_of_source (by rfl) ⟨rfl, rfl, rfl⟩ sound ?_ resumes
    simp only [fail, note, Report.fail, resumes.report]

end Application
end FxStack
