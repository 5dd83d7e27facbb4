import FxStack.Proofs.Catalog.Registration
import FxStack.Proofs.Device.Front
import FxStack.Proofs.Frame.Course
import FxStack.Proofs.ScratchPool

/-! The loans of a scratch pool, on any device in front of a reference device. Numbers of textures are not used
    twice, so a texture that is lent is not on loan yet, whatever has become of the textures of the pool.
    Main statement: `apply_balanced`; applying a stack gives back what it has borrowed, on every path. -/

namespace FxStack

open Device (Course Reaches)

namespace ScratchPool

/-! ### Pools in use -/

/-- The textures of the pool are all different, with numbers below `n`. They may have been destroyed. -/
structure Numbered (pool : ScratchPool) (n : Nat) : Prop where
  distinct : (pool.textures.map (·.1)).Nodup
  below : ∀ e ∈ pool.textures, e.1.number < n

/-- The pools that a device comes to be used with. In between anything may be done to the device, so long as its
    counter of handles does not go back. -/
inductive UsedWith {δ : Type} [Front δ] : δ → ScratchPool → Prop
  | start (d : δ) : UsedWith d .empty
  | device {d d' : δ} {pool : ScratchPool} :
      UsedWith d pool → (Front.reference d).nextNumber ≤ (Front.reference d').nextNumber → UsedWith d' pool
  | acquire {d : δ} {pool : ScratchPool} (kind : TextureKind) :
      UsedWith d pool → UsedWith (pool.acquire d kind).2.2 (pool.acquire d kind).2.1
  | release {d : δ} {pool : ScratchPool} (t : TextureId) : UsedWith d pool → UsedWith d (pool.release t).1
  | purge {d : δ} {pool : ScratchPool} : UsedWith d pool → UsedWith (pool.purge d).2 (pool.purge d).1
  | apply {d : δ} {pool : ScratchPool} (s : Stack) (catalog : Catalog) (resolve : Resolver) (input : FrameInput) :
      UsedWith d pool → UsedWith (s.apply catalog d pool resolve input).device (s.apply catalog d pool resolve input).pool

variable {pool pool' pool₁ pool₂ : ScratchPool} {kind : TextureKind} {t : TextureId} {n m : Nat}

namespace Numbered

theorem empty (n : Nat) : Numbered .empty n := ⟨.nil, nofun⟩

theorem mono (h : Numbered pool n) (hn : n ≤ m) : Numbered pool m :=
  ⟨h.distinct, fun e he => Nat.lt_of_lt_of_le (h.below e he) hn⟩

theorem of_perm (h : Numbered pool n) (hp : pool'.textures.Perm pool.textures) : Numbered pool' n :=
  ⟨(hp.map _).nodup_iff.mpr h.distinct, fun e he => h.below e (hp.subset he)⟩

theorem release (h : Numbered pool n) (t : TextureId) : Numbered (pool.release t).1 n :=
  h.of_perm (textures_release h.distinct t)

theorem releasePair (h : Numbered pool n) (pair : TextureId × TextureId) : Numbered (pool.releasePair pair).1 n :=
  (h.release pair.1).release pair.2

end Numbered

/-! ### Lending and taking back -/

/-- `pool'` is the pool with one more texture on loan. It has waited before, or has been created. -/
structure Lends (pool : ScratchPool) (kind : TextureKind) (t : TextureId) (pool' : ScratchPool) : Prop where
  loans : pool'.loans = (t, kind) :: pool.loans
  free : t ∉ pool.loans.map (·.1)
  acquired : pool'.acquired = pool.acquired + 1
  released : pool'.released = pool.released
  stock : pool'.created + pool.textures.length = pool.created + pool'.textures.length

theorem Lends.of_lend (hloans : pool'.loans = pool.loans) (hacquired : pool'.acquired = pool.acquired)
    (hreleased : pool'.released = pool.released) (h : t ∉ pool.loans.map (·.1))
    (hstock : pool'.created + pool.textures.length = pool.created + (pool'.lend kind t).textures.length) :
    Lends pool kind t (pool'.lend kind t) := by
  refine ⟨?_, h, congrArg (· + 1) hacquired, hreleased, hstock⟩
  unfold lend
  rw [hloans, filter_fst_ne h]

section
variable {δ : Type} [Front δ] {d d' : δ}

theorem Numbered.lends (h : Numbered pool (Front.reference d).nextNumber)
    (ht : pool.acquire d kind = (.ok t, pool', d')) :
    Lends pool kind t pool' ∧ Numbered pool' (Front.reference d').nextNumber := by
  unfold acquire at ht
  split at ht
  · next hidle =>
    cases ht
    have hfree := free_of_takeIdle? h.distinct hidle
    have htextures := textures_lend_idle h.distinct hidle
    exact ⟨.of_lend rfl rfl rfl hfree (congrArg _ htextures.length_eq.symm), h.of_perm htextures⟩
  · split at ht
    · next hcreate =>
      cases ht
      -- The new texture has the number that comes next, so it is none of the pool's.
      obtain ⟨hnumber, hnext⟩ := ReferenceDevice.createTexture_number (Front.createTexture_ok hcreate)
      have hnew : t ∉ pool.textures.map (·.1) := by
        intro hold
        obtain ⟨e, he, rfl⟩ := List.mem_map.mp hold
        have hlt := h.below e he
        rw [hnumber] at hlt
        exact Nat.lt_irrefl _ hlt
      have hfree : t ∉ pool.loans.map (·.1) := fun hloan => hnew (mem_textures_of_loan hloan)
      have htextures := textures_lend { pool with created := pool.created + 1 } kind t hfree
      have hlength : _ = pool.textures.length + 1 := htextures.length_eq
      refine ⟨.of_lend rfl rfl rfl hfree (by rw [hlength]; dsimp only; omega), ?_, fun e he => ?_⟩
      · exact (htextures.map _).nodup_iff.mpr (List.nodup_cons.mpr ⟨hnew, h.distinct⟩)
      · rw [hnext]
        rcases List.mem_cons.mp (htextures.subset he) with rfl | he
        · exact hnumber ▸ Nat.lt_succ_self _
        · exact Nat.lt_succ_of_lt (h.below e he)
    · cases ht

end

/-- The pool is as it was, but for textures that have come and gone. -/
structure Balanced (pool pool' : ScratchPool) : Prop where
  loans : pool'.loans = pool.loans
  counts : ∃ n, pool'.acquired = pool.acquired + n ∧ pool'.released = pool.released + n
  stock : pool'.created + pool.textures.length = pool.created + pool'.textures.length

theorem Balanced.refl (pool : ScratchPool) : Balanced pool pool := ⟨rfl, ⟨0, rfl, rfl⟩, rfl⟩

theorem length_textures (pool : ScratchPool) : pool.textures.length = pool.idle.length + pool.loans.length := by
  simp [textures]

theorem release_of_lookup {kind : TextureKind} (h : pool.loans.lookup t = some kind) :
    pool.release t =
      ({ pool with
          idle := pool.idle ++ [(kind, t)]
          loans := pool.loans.filter (·.1 ≠ t)
          released := pool.released + 1 }, []) := by
  unfold release
  rw [h]

/-- A texture that has just been lent is taken back, and nothing is left of the loan. -/
theorem Lends.release (h : Lends pool kind t pool') : Balanced pool (pool'.release t).1 ∧ (pool'.release t).2 = [] := by
  have lent : pool'.loans.lookup t = some kind := by rw [h.loans, List.lookup_cons_self]
  have hloans : pool'.loans.filter (·.1 ≠ t) = pool.loans := by
    rw [h.loans, List.filter_cons_of_neg (by simp), filter_fst_ne h.free]
  have hstock := h.stock
  rw [release_of_lookup lent, hloans]
  refine ⟨⟨rfl, ⟨1, h.acquired, congrArg (· + 1) h.released⟩, ?_⟩, rfl⟩
  simp only [length_textures, h.loans, List.length_append, List.length_cons, List.length_nil] at hstock ⊢
  omega

theorem Lends.ne {u : TextureId} (h₁ : Lends pool kind t pool₁) (h₂ : Lends pool₁ kind u pool₂) : t ≠ u := by
  intro heq
  refine h₂.free ?_
  rw [h₁.loans, List.map_cons, heq]
  exact List.mem_cons_self

/-- Two textures that have been lent one after the other may go back in the same order. -/
theorem Lends.releasePair {pair : TextureId × TextureId} (h₁ : Lends pool kind pair.1 pool₁)
    (h₂ : Lends pool₁ kind pair.2 pool₂) :
    Balanced pool (pool₂.releasePair pair).1 ∧ (pool₂.releasePair pair).2 = [] := by
  have hne : pair.1 ≠ pair.2 := h₁.ne h₂
  have hfirst : pool₂.loans.lookup pair.1 = some kind := by
    rw [h₂.loans, lookup_cons_ite, if_neg hne, h₁.loans, List.lookup_cons_self]
  -- The loan of the second texture is on top and stays, since the textures are different.
  have hrest : pool₂.loans.filter (·.1 ≠ pair.1) = (pair.2, kind) :: pool.loans := by
    rw [h₂.loans, h₁.loans, List.filter_cons_of_pos (by simpa using Ne.symm hne),
      List.filter_cons_of_neg (by simp), filter_fst_ne h₁.free]
  have hfree : pair.2 ∉ pool.loans.map (·.1) := by
    intro hloan
    refine h₂.free ?_
    rw [h₁.loans, List.map_cons]
    exact List.mem_cons_of_mem _ hloan
  have hsecond : ((pair.2, kind) :: pool.loans).filter (·.1 ≠ pair.2) = pool.loans := by
    rw [List.filter_cons_of_neg (by simp), filter_fst_ne hfree]
  have hback : pool₂.releasePair pair =
      ({ pool₂ with
          idle := pool₂.idle ++ [(kind, pair.1)] ++ [(kind, pair.2)]
          loans := pool.loans
          released := pool₂.released + 1 + 1 }, []) := by
    unfold ScratchPool.releasePair
    rw [release_of_lookup hfirst, hrest]
    dsimp only
    rw [release_of_lookup List.lookup_cons_self, hsecond]
    rfl
  have hstock₁ := h₁.stock
  have hstock₂ := h₂.stock
  rw [hback]
  refine ⟨⟨rfl, ⟨2, ?_, ?_⟩, ?_⟩, rfl⟩
  · exact h₂.acquired.trans (congrArg (· + 1) h₁.acquired)
  · exact congrArg (· + 2) (h₂.released.trans h₁.released)
  · simp only [length_textures, h₁.loans, h₂.loans, List.length_append, List.length_cons, List.length_nil]
      at hstock₁ hstock₂ ⊢
    omega

/-! ### Pairs -/

section
variable {δ : Type} [Device δ] {d d' : δ} {ns : List Notice}

theorem acquirePair_eq_ok {pair : TextureId × TextureId} :
    pool.acquirePair d kind = (.ok pair, pool', d', ns) ↔ ns = [] ∧
      ∃ pool₁ d₁, pool.acquire d kind = (.ok pair.1, pool₁, d₁) ∧ pool₁.acquire d₁ kind = (.ok pair.2, pool', d') := by
  unfold acquirePair
  rcases h₁ : pool.acquire d kind with ⟨e | t, pool₁, d₁⟩
  · simp
  · dsimp only
    rcases h₂ : pool₁.acquire d₁ kind with ⟨e | u, pool₂, d₂⟩
    · constructor
      · rintro ⟨⟩
      · rintro ⟨-, pool₁', d₁', hfirst, hsecond⟩
        cases hfirst
        rw [h₂] at hsecond
        cases hsecond
    · constructor
      · rintro ⟨⟩
        exact ⟨rfl, pool₁, d₁, rfl, h₂⟩
      · rintro ⟨rfl, pool₁', d₁', hfirst, hsecond⟩
        cases hfirst
        rw [h₂] at hsecond
        cases hsecond
        rfl

theorem acquirePair_eq_error {e : DeviceError} (h : pool.acquirePair d kind = (.error e, pool', d', ns)) :
    pool' = pool ∨ ∃ t pool₁ d₁, pool.acquire d kind = (.ok t, pool₁, d₁) ∧
      pool₁.acquire d₁ kind = (.error e, pool₁, d') ∧ pool' = (pool₁.release t).1 := by
  unfold acquirePair at h
  rcases h₁ : pool.acquire d kind with ⟨e | t, pool₁, d₁⟩
  · rw [h₁] at h
    cases h
    exact Or.inl (acquire_error h₁)
  · rw [h₁] at h
    dsimp only at h
    rcases h₂ : pool₁.acquire d₁ kind with ⟨e | u, pool₂, d₂⟩
    · rw [h₂] at h
      cases h
      obtain rfl := acquire_error h₂
      exact Or.inr ⟨t, _, d₁, rfl, h₂, rfl⟩
    · rw [h₂] at h
      cases h

end

section
variable {δ : Type} [Front δ] {d d' : δ} {ns : List Notice}

theorem Numbered.acquirePair_ok (h : Numbered pool (Front.reference d).nextNumber) {pair : TextureId × TextureId}
    (hpair : pool.acquirePair d kind = (.ok pair, pool', d', ns)) :
    (∃ pool₁, Lends pool kind pair.1 pool₁ ∧ Lends pool₁ kind pair.2 pool') ∧
      Numbered pool' (Front.reference d').nextNumber := by
  obtain ⟨-, pool₁, d₁, hfirst, hsecond⟩ := acquirePair_eq_ok.mp hpair
  obtain ⟨lends₁, numbered₁⟩ := h.lends hfirst
  obtain ⟨lends₂, numbered₂⟩ := numbered₁.lends hsecond
  exact ⟨⟨pool₁, lends₁, lends₂⟩, numbered₂⟩

theorem Numbered.acquirePair_error (h : Numbered pool (Front.reference d).nextNumber) {e : DeviceError}
    (hpair : pool.acquirePair d kind = (.error e, pool', d', ns)) :
    Balanced pool pool' ∧ Numbered pool' (Front.reference d').nextNumber := by
  rcases acquirePair_eq_error hpair with rfl | ⟨t, pool₁, d₁, hfirst, hsecond, rfl⟩
  · have asked := (pool'.course_acquirePair d kind []).reaches.nextNumber
    rw [hpair] at asked
    exact ⟨.refl _, h.mono asked⟩
  · obtain ⟨lends, numbered⟩ := h.lends hfirst
    have asked := (pool₁.reaches_acquire d₁ kind).nextNumber
    rw [hsecond] at asked
    exact ⟨lends.release.1, (numbered.mono asked).release t⟩

end

end ScratchPool

/-! ### Applying -/

namespace Application
variable {δ : Type}

theorem scratchAcquired_finish [Device δ] (a : Application δ) (t : TextureId) (destination : Option TextureId) :
    (a.finish t destination).report.scratchAcquired = a.report.scratchAcquired := by
  obtain ⟨errors, h⟩ := (ends_finish a t destination).report
  rw [h]

theorem scratchAcquired_run [Device δ] (a : Application δ) (c : FrameContext) (input : FrameInput) (kind : TextureKind) :
    (a.run c input kind).report.scratchAcquired =
      if (a.pool.acquirePair a.device kind).1.isOk then 2 else a.report.scratchAcquired := by
  rcases hpair : a.pool.acquirePair a.device kind with ⟨e | pair, pool, d, ns⟩
  · obtain ⟨b, -, -, hreport, -, hrun⟩ := run_unborrowed c input hpair
    rw [hrun, scratchAcquired_finish, hreport]
    rfl
  · obtain ⟨b, -, -, hreport, hrun⟩ := run_borrowed c input hpair
    rw [hrun]
    exact (scratchAcquired_finish b _ input.destination).trans hreport

variable [Front δ]

/-- `b` is the application `a` in the end, with what it has borrowed given back. -/
structure Settles (a b : Application δ) : Prop where
  pool : ScratchPool.Balanced a.pool b.pool
  numbered : b.pool.Numbered (Front.reference b.device).nextNumber
  course : Course (fun _ => True) a.device a.notices b.device b.notices

theorem settles_run (a : Application δ) (c : FrameContext) (input : FrameInput) (kind : TextureKind)
    (h : a.pool.Numbered (Front.reference a.device).nextNumber) : Settles a (a.run c input kind) := by
  rcases hpair : a.pool.acquirePair a.device kind with ⟨e | pair, pool, d, ns⟩
  · obtain ⟨balanced, numbered⟩ := h.acquirePair_error hpair
    obtain ⟨b, hb, hpool, -, -, hrun⟩ := run_unborrowed c input hpair
    have ended := b.told_finish input.source input.destination
    have asked := (proceeds_asked hpair).course.forget.trans hb.course.forget
    have later := Nat.le_trans hb.course.reaches.nextNumber ended.reaches.nextNumber
    have hends := (ends_finish b input.source input.destination).pool.trans hpool
    rw [hrun]
    refine ⟨?_, ?_, asked.trans ended⟩
    · rw [hends]
      exact balanced
    · rw [hends]
      exact numbered.mono later
  · obtain ⟨⟨pool₁, lends₁, lends₂⟩, numbered⟩ := h.acquirePair_ok hpair
    obtain ⟨balanced, hnotices⟩ := lends₁.releasePair lends₂
    obtain ⟨b, hasked, hpool, -, hrun⟩ := run_borrowed c input hpair
    have hb := hasked (fun _ => True) trivial fun x _ => x.asks_any
    have ended := b.told_finish (a.shown c input kind) input.destination
    have asked := ((proceeds_asked hpair).course.forget).trans hb.course
    have later := Nat.le_trans hb.course.reaches.nextNumber ended.reaches.nextNumber
    have hends := (ends_finish b (a.shown c input kind) input.destination).pool.trans hpool
    have hback : (b.finish (a.shown c input kind) input.destination).giveBack pair =
        { b.finish (a.shown c input kind) input.destination with
          pool := (pool.releasePair pair).1
          notices := (b.finish (a.shown c input kind) input.destination).notices ++ (pool.releasePair pair).2 } := by
      unfold giveBack
      rw [hends]
    rw [hrun, hback, hnotices, List.append_nil]
    exact ⟨balanced, (numbered.mono later).releasePair pair, asked.trans ended⟩

end Application

namespace Stack
variable {δ : Type} [Front δ] (s : Stack) (catalog : Catalog) {d : δ} {pool : ScratchPool} (resolve : Resolver)
  (input : FrameInput)

theorem settles_apply (h : pool.Numbered (Front.reference d).nextNumber) :
    Application.Settles ⟨s, d, pool, Report.empty, []⟩ (s.apply catalog d pool resolve input) := by
  have prepared := (s.course_prepare catalog d pool).forget
  have numbered := h.mono prepared.reaches.nextNumber
  cases hkind : Device.textureKind? d input.source with
  | none =>
    rw [apply_of_dead _ _ _ _ _ hkind]
    exact ⟨.refl pool, h, .note d [] nofun⟩
  | some kind =>
    rw [apply_of_live _ _ _ _ _ hkind]
    dsimp only
    generalize hp : s.prepare catalog d pool = a at prepared numbered ⊢
    have hpool : a.pool = pool := by rw [← hp]; rfl
    split
    · have ended := a.told_finish input.source input.destination
      have hends := (Application.ends_finish a input.source input.destination).pool.trans hpool
      refine ⟨?_, ?_, prepared.trans ended⟩
      · rw [hends]
        exact .refl pool
      · rw [hends]
        exact numbered.mono ended.reaches.nextNumber
    · have settled := a.settles_run ⟨a.stack.entries, resolve, .of (frameSize d input kind) a.report.random, input.depth⟩
        input (kind.resized (frameSize d input kind)) (hpool ▸ numbered)
      exact ⟨hpool ▸ settled.pool, settled.numbered, prepared.trans settled.course⟩

end Stack

namespace ScratchPool
variable {δ : Type} [Front δ]

theorem UsedWith.numbered {d : δ} {pool : ScratchPool} (h : UsedWith d pool) :
    pool.Numbered (Front.reference d).nextNumber := by
  induction h with
  | start d => exact .empty _
  | device _ hnext ih => exact ih.mono hnext
  | @acquire d pool kind _ ih =>
    have asked := (pool.reaches_acquire d kind).nextNumber
    rcases ht : pool.acquire d kind with ⟨e | t, pool', d'⟩
    · rw [ht] at asked
      rw [acquire_error ht]
      exact ih.mono asked
    · exact (ih.lends ht).2
  | release t _ ih => exact ih.release t
  | @purge d pool _ ih =>
    have destroyed : Reaches (fun _ => True) d (pool.purge d).2 :=
      .foldl (fun d e _ => .one (.destroyTexture e.2) trivial rfl) d
    refine ⟨ih.distinct.sublist (List.Sublist.map _ (List.sublist_append_right _ _)), fun e he => ?_⟩
    exact Nat.lt_of_lt_of_le (ih.below e (List.mem_append_right _ he)) destroyed.nextNumber
  | apply s catalog resolve input _ ih => exact (s.settles_apply catalog resolve input ih).numbered

/-- The pool lends an application its two textures: the source is live, there are passes, and one texture of the
    size of the frame can be had after the other. -/
def LendsTwice (pool : ScratchPool) (s : Stack) (catalog : Catalog) (d : δ) (input : FrameInput) : Prop :=
  ∃ source, Device.textureKind? d input.source = some source ∧ (s.prepare catalog d pool).stack.passes ≠ [] ∧
    let kind := source.resized (Stack.frameSize d input source)
    ∃ t pool₁ d₁ u pool₂ d₂, pool.acquire (s.prepare catalog d pool).device kind = (.ok t, pool₁, d₁) ∧
      pool₁.acquire d₁ kind = (.ok u, pool₂, d₂)

/-- Without a live source, or without passes, nothing is asked of the pool. -/
theorem pool_apply (s : Stack) (catalog : Catalog) (d : δ) (pool : ScratchPool) (resolve : Resolver) (input : FrameInput)
    (h : Device.textureKind? d input.source = none ∨ (s.apply catalog d pool resolve input).stack.passes = []) :
    (s.apply catalog d pool resolve input).pool = pool := by
  cases hkind : Device.textureKind? d input.source with
  | none => rw [Stack.apply_of_dead _ _ _ _ _ hkind]
  | some kind =>
    have live : (Device.textureKind? d input.source).isSome := by rw [hkind]; rfl
    have hpasses : (s.prepare catalog d pool).stack.passes = [] := by
      rw [← (s.continues_apply catalog d pool resolve live).passes]
      exact h.resolve_left (by rw [hkind]; nofun)
    rw [Stack.apply_of_live _ _ _ _ _ hkind]
    dsimp only
    rw [if_pos (List.isEmpty_iff.mpr hpasses), (Application.ends_finish _ _ _).pool]
    rfl

theorem scratchAcquired_apply (s : Stack) (catalog : Catalog) (d : δ) (pool : ScratchPool) (resolve : Resolver)
    (input : FrameInput) :
    let n := (s.apply catalog d pool resolve input).report.scratchAcquired
    (pool.LendsTwice s catalog d input → n = 2) ∧ (¬pool.LendsTwice s catalog d input → n = 0) := by
  intro n
  cases hkind : Device.textureKind? d input.source with
  | none =>
    have hn : n = 0 := by
      simp only [n, Stack.apply_of_dead _ _ _ _ _ hkind]
      rfl
    refine ⟨?_, fun _ => hn⟩
    rintro ⟨source, hsource, -⟩
    rw [hkind] at hsource
    cases hsource
  | some source =>
    have happly := Stack.apply_of_live s catalog d pool resolve hkind
    dsimp only at happly
    by_cases hpasses : (s.prepare catalog d pool).stack.passes = []
    · have hn : n = 0 := by
        simp only [n, happly, hpasses, List.isEmpty_nil, if_true, Application.scratchAcquired_finish]
        rfl
      exact ⟨fun ⟨_, _, hne, _⟩ => absurd hpasses hne, fun _ => hn⟩
    · have hn : n = if (pool.acquirePair (s.prepare catalog d pool).device
          (source.resized (Stack.frameSize d input source))).1.isOk then 2 else 0 := by
        simp only [n, happly, List.isEmpty_iff, hpasses, if_false, Application.scratchAcquired_run]
        rfl
      rcases hpair : pool.acquirePair (s.prepare catalog d pool).device
          (source.resized (Stack.frameSize d input source)) with ⟨e | ⟨t, u⟩, pool', d', ns⟩ <;> rw [hpair] at hn
      · refine ⟨?_, fun _ => hn⟩
        rintro ⟨source', hsource, -, t, pool₁, d₁, u, pool₂, d₂, hfirst, hsecond⟩
        obtain rfl := Option.some.inj (hkind.symm.trans hsource)
        have both : pool.acquirePair (s.prepare catalog d pool).device
            (source.resized (Stack.frameSize d input source)) = (.ok (t, u), pool₂, d₂, []) :=
          acquirePair_eq_ok.mpr ⟨rfl, pool₁, d₁, hfirst, hsecond⟩
        rw [hpair] at both
        cases both
      · obtain ⟨-, pool₁, d₁, hfirst, hsecond⟩ := acquirePair_eq_ok.mp hpair
        exact ⟨fun _ => hn, fun hnot => absurd ⟨source, hkind, hpasses, t, pool₁, d₁, u, pool', d', hfirst, hsecond⟩ hnot⟩

/-- However an application ends, the pool has its loans back; as many textures have been returned as have been
    lent, and each of them was on loan. -/
theorem apply_balanced {d : δ} {pool : ScratchPool} (h : UsedWith d pool) (s : Stack) (catalog : Catalog)
    (resolve : Resolver) (input : FrameInput) :
    let a := s.apply catalog d pool resolve input
    a.pool.loans = pool.loans ∧
    (∃ n, a.pool.acquired = pool.acquired + n ∧ a.pool.released = pool.released + n) ∧
    (∀ t, .notOnLoan t ∉ a.notices) ∧
    (Device.textureKind? d input.source = none ∨ a.stack.passes = [] → a.pool = pool) ∧
    (a.report.scratchAcquired = 2 ↔ pool.LendsTwice s catalog d input) ∧
    (a.report.scratchAcquired ≠ 2 → a.report.scratchAcquired = 0) := by
  intro a
  have settled := s.settles_apply catalog resolve input h.numbered
  obtain ⟨hlent, hunlent⟩ := scratchAcquired_apply s catalog d pool resolve input
  refine ⟨settled.pool.loans, settled.pool.counts, fun t => settled.course.notMem List.not_mem_nil, ?_, ?_, ?_⟩
  · exact pool_apply s catalog d pool resolve input
  · refine ⟨fun htwo => ?_, hlent⟩
    by_contra hnot
    have hzero : a.report.scratchAcquired = 0 := hunlent hnot
    omega
  · intro hne
    exact hunlent fun hlends => hne (hlent hlends)

/-- One texture is on loan to somebody else, and the device will fail to create the second of two more. -/
theorem apply_balanced_faulty :
    let device := (Faulty.of ((ReferenceDevice.new (2, 2)).upload (.solid 1 1 .white)).2).setFault .createTexture ⟨2, 1⟩
    let lent := ScratchPool.empty.acquire device (.rgba8 4 4)
    let stack := ((Stack.new (.fixed (.zero, .zero))).add "ripple").2
    let a := stack.apply (Catalog.rippling ⟨0⟩) lent.2.2 lent.2.1 (fun _ => none) ⟨⟨1⟩, none, none⟩
    UsedWith lent.2.2 lent.2.1 ∧ (Device.textureKind? lent.2.2 ⟨1⟩).isSome ∧
      lent.2.1.loans = [(⟨2⟩, .rgba8 4 4)] ∧ a.pool.loans = lent.2.1.loans ∧ .notOnLoan ⟨3⟩ ∉ a.notices := by
  intro device lent stack a
  have used : UsedWith lent.2.2 lent.2.1 := .acquire (.rgba8 4 4) (.start device)
  have live : (Device.textureKind? lent.2.2 ⟨1⟩).isSome := rfl
  have hloans : lent.2.1.loans = [(⟨2⟩, .rgba8 4 4)] := rfl
  -- From here on the theorem speaks, not the values.
  clear_value lent stack
  obtain ⟨hback, -, hnotices, -⟩ :=
    apply_balanced used stack (Catalog.rippling ⟨0⟩) (fun _ => none) ⟨⟨1⟩, none, none⟩
  exact ⟨used, live, hloans, hback, hnotices ⟨3⟩⟩

end ScratchPool
end FxStack
