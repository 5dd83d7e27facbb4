import FxStack.Proofs.Frame.Rig
import FxStack.Proofs.ScratchPool.Loans

/-! The accounts of a scratch pool over a whole run. A texture that has been created waits, is on loan or has been
    destroyed by a purge, and what has been lent more often than returned is on loan. Main statement:
    `Rig.pool_accounted`. -/

namespace FxStack
namespace ScratchPool
variable {pool pool' : ScratchPool} {d d' : ReferenceDevice} {kind : TextureKind} {t : TextureId} {lost : Nat}

/-! ### Acquiring -/

theorem takeIdle?_eq_none : pool.takeIdle? kind = none ↔ ∀ e ∈ pool.idle, e.1 ≠ kind := by
  unfold takeIdle?
  cases hi : pool.idle.findIdx? (·.1 = kind) with
  | none => simpa using hi
  | some i =>
    obtain ⟨hlt, hkind, -⟩ := List.findIdx?_eq_some_iff_getElem.mp hi
    simp only [Option.bind_eq_bind, Option.bind_some, List.getElem?_eq_getElem hlt, Option.pure_def, reduceCtorEq,
      false_iff]
    exact fun hnone => hnone _ (List.getElem_mem hlt) (by simpa using hkind)

theorem Backed.textureKind? (h : pool.Backed d) {e : TextureId × TextureKind} (he : e ∈ pool.textures) :
    Device.textureKind? d e.1 = some e.2 := by
  obtain ⟨x, hx, hkind⟩ := h.live e he
  rw [← hkind]
  exact congrArg (Option.map Texture.kind) hx

theorem Backed.isSome_texture? (h : pool.Backed d) {e : TextureId × TextureKind} (he : e ∈ pool.textures) :
    (d.texture? e.1).isSome := by
  obtain ⟨x, hx, -⟩ := h.live e he
  rw [hx]
  rfl

/-- A pool of textures on a device has numbers that the device has given out. -/
theorem Backed.numbered (wf : d.WellFormed) (h : pool.Backed d) : pool.Numbered (Front.reference d).nextNumber := by
  refine ⟨h.distinct, fun e he => ?_⟩
  obtain ⟨x, hx, -⟩ := h.live e he
  exact wf.issued e.1 x hx

theorem Backed.live_of_idle (h : pool.Backed d) (ht : t ∈ pool.idle.map (·.2)) : (d.texture? t).isSome := by
  obtain ⟨e, he, rfl⟩ := List.mem_map.mp ht
  exact h.isSome_texture? (List.mem_append_left _ (List.mem_map_of_mem (f := Prod.swap) he))

/-- What is lent has waited if a texture of the kind has, and is new if none has. -/
theorem Backed.acquired (wf : d.WellFormed) (h : pool.Backed d) (ht : pool.acquire d kind = (.ok t, pool', d')) :
    Device.textureKind? d' t = some kind ∧ (t ∈ pool.idle.map (·.2) ↔ ∃ e ∈ pool.idle, e.1 = kind) ∧
      (t ∈ pool.idle.map (·.2) → d' = d) ∧ (t ∉ pool.idle.map (·.2) → Device.textureKind? d t = none) := by
  unfold acquire at ht
  cases htake : pool.takeIdle? kind with
  | some taken =>
    obtain ⟨u, idle⟩ := taken
    rw [htake] at ht
    cases ht
    have hidle : (kind, t) ∈ pool.idle := (takeIdle?_eq_some htake).subset List.mem_cons_self
    have htexture : (t, kind) ∈ pool.textures := List.mem_append_left _ (List.mem_map_of_mem (f := Prod.swap) hidle)
    have hwaits : t ∈ pool.idle.map (·.2) := List.mem_map_of_mem (f := Prod.snd) hidle
    exact ⟨h.textureKind? htexture, ⟨fun _ => ⟨_, hidle, rfl⟩, fun _ => hwaits⟩, fun _ => rfl, fun hnew => absurd hwaits hnew⟩
  | none =>
    rw [htake] at ht
    rcases hc : Device.createTexture d kind with ⟨e | u, d''⟩ <;> rw [hc] at ht <;> cases ht
    obtain ⟨hfresh, x, hx, hkind⟩ := wf.texture?_created hc
    -- A texture that waits is live, so a new one is none of those that wait.
    have hnew : t ∉ pool.idle.map (·.2) := by
      intro hwaits
      have live := h.live_of_idle hwaits
      rw [hfresh] at live
      cases live
    refine ⟨?_, ⟨fun hwaits => absurd hwaits hnew, fun ⟨e, he, hekind⟩ => ?_⟩, fun hwaits => absurd hwaits hnew, fun _ => ?_⟩
    · rw [← hkind]
      exact congrArg (Option.map Texture.kind) hx
    · exact absurd hekind (takeIdle?_eq_none.mp htake e he)
    · exact congrArg (Option.map Texture.kind) hfresh

/-- A pool that gets no texture is as before, and so is its device. -/
theorem unchanged_of_acquire_error {e : DeviceError} (h : pool.acquire d kind = (.error e, pool', d')) :
    pool' = pool ∧ d' = d := by
  refine ⟨acquire_error h, ?_⟩
  unfold acquire at h
  cases htake : pool.takeIdle? kind with
  | some taken =>
    rw [htake] at h
    cases h
  | none =>
    rw [htake] at h
    rcases hc : Device.createTexture d kind with ⟨e | u, d''⟩ <;> rw [hc] at h <;> cases h
    exact ReferenceDevice.createTexture_error hc

theorem release_of_free (h : t ∉ pool.loans.map (·.1)) : (pool.release t).1 = pool := by
  cases hloan : pool.loans.lookup t with
  | none =>
    unfold release
    rw [hloan]
  | some kind => exact absurd (List.mem_map_of_mem (f := Prod.fst) (mem_of_lookup hloan)) h

/-! ### Accounts -/

/-- The counts of the pool are right, with `lost` of its textures destroyed. -/
structure Accounts (pool : ScratchPool) (lost : Nat) : Prop where
  loans : pool.acquired = pool.released + pool.loans.length
  stock : pool.created = pool.textures.length + lost

namespace Accounts

theorem lends (h : Accounts pool lost) (hl : Lends pool kind t pool') : Accounts pool' lost := by
  obtain ⟨hloans, hstock⟩ := h
  have hmore := hl.stock
  refine ⟨?_, by omega⟩
  rw [hl.acquired, hl.released, hl.loans, List.length_cons]
  omega

theorem balanced (h : Accounts pool lost) (hb : Balanced pool pool') : Accounts pool' lost := by
  obtain ⟨hloans, hstock⟩ := h
  obtain ⟨n, hacquired, hreleased⟩ := hb.counts
  have hmore := hb.stock
  refine ⟨?_, by omega⟩
  rw [hb.loans]
  omega

theorem release (h : Accounts pool lost) (distinct : (pool.textures.map (·.1)).Nodup) (t : TextureId) :
    Accounts (pool.release t).1 lost := by
  have hlength := (textures_release distinct t).length_eq
  obtain ⟨hloans, hstock⟩ := h
  cases hloan : pool.loans.lookup t with
  | none =>
    have hsame : (pool.release t).1 = pool := by
      unfold ScratchPool.release
      rw [hloan]
    rw [hsame]
    exact ⟨hloans, hstock⟩
  | some kind =>
    rw [release_of_lookup hloan] at hlength ⊢
    simp only [length_textures, List.length_append, List.length_cons, List.length_nil] at hlength hstock
    refine ⟨?_, ?_⟩
    · dsimp only
      omega
    · simp only [length_textures, List.length_append, List.length_cons, List.length_nil]
      omega

theorem purge (h : Accounts pool lost) (d : ReferenceDevice) : Accounts (pool.purge d).1 (lost + pool.idle.length) := by
  obtain ⟨hloans, hstock⟩ := h
  rw [length_textures] at hstock
  refine ⟨hloans, ?_⟩
  have hlength : (pool.purge d).1.textures.length = pool.loans.length := by simp [ScratchPool.purge, textures]
  have hcreated : (pool.purge d).1.created = pool.created := rfl
  omega

end Accounts
end ScratchPool

namespace Rig
variable {r r' : Rig} {lost : Nat}

/-- The number of textures of the pool that a step has destroyed. -/
def destroyed (r r' : Rig) : Nat := r.pool.textures.countP fun e => (r'.device.texture? e.1).isNone

/-- The rigs that a program comes to, with the number of textures of the pool that have been destroyed on the way. -/
inductive Ran : Rig → Nat → Prop
  | start (size : Nat × Nat) : Ran ⟨.new size, .empty⟩ 0
  | step {r r' : Rig} {lost : Nat} : Ran r lost → Step r r' → Ran r' (lost + r.destroyed r')

theorem Ran.reachable (h : Ran r lost) : r.Reachable := by
  induction h with
  | start size => exact .start size
  | step _ hs ih => exact .step ih hs

theorem destroyed_eq_zero (h : ∀ e ∈ r.pool.textures, (r'.device.texture? e.1).isSome) : r.destroyed r' = 0 := by
  unfold destroyed
  rw [List.countP_eq_zero]
  intro e he
  simpa [Option.isSome_iff_ne_none] using h e he

theorem destroyed_of_keeps {written : Target → Prop} (inv : r.Inv) (h : r.device.Keeps written r'.device) :
    r.destroyed r' = 0 :=
  destroyed_eq_zero fun _ he => (inv.backed.mono h).isSome_texture? he

/-- The textures that are in the pool after a step are live. -/
theorem destroyed_of_subset (inv' : r'.Inv) (h : r.pool.textures ⊆ r'.pool.textures) : r.destroyed r' = 0 :=
  destroyed_eq_zero fun _ he => inv'.backed.isSome_texture? (h he)

theorem destroyed_purge (inv : r.Inv) :
    r.destroyed ⟨(r.pool.purge r.device).2, (r.pool.purge r.device).1⟩ = r.pool.idle.length := by
  have hidle : ∀ e ∈ r.pool.idle.map Prod.swap, ((r.pool.purge r.device).2.texture? e.1).isNone = true := by
    intro e he
    obtain ⟨f, hf, rfl⟩ := List.mem_map.mp he
    have hpurge := ScratchPool.foldl_destroyTexture r.pool.idle r.device f.2
    rw [if_pos (List.mem_map_of_mem hf)] at hpurge
    exact Option.isNone_iff_eq_none.mpr hpurge
  have hloans : ∀ e ∈ r.pool.loans, ¬((r.pool.purge r.device).2.texture? e.1).isNone = true := by
    intro e he
    have live := inv.backed.purge.isSome_texture? (e := e) he
    simpa [Option.isSome_iff_ne_none] using live
  unfold destroyed ScratchPool.textures
  rw [List.countP_append, List.countP_eq_length.mpr hidle, List.countP_eq_zero.mpr hloans, List.length_map, Nat.add_zero]

/-- A purge is the only step that destroys textures of the pool. -/
theorem Step.accounts (inv : r.Inv) (h : Step r r') :
    r' = ⟨(r.pool.purge r.device).2, (r.pool.purge r.device).1⟩ ∨
      r.destroyed r' = 0 ∧ ∀ lost, r.pool.Accounts lost → r'.pool.Accounts lost := by
  have inv' := inv.step h
  have numbered := inv.backed.numbered inv.wellFormed
  cases h with
  | purge => exact Or.inl rfl
  | acquire kind =>
    refine Or.inr ⟨?_, fun lost accounts => ?_⟩
    · exact destroyed_of_keeps inv (ScratchPool.still_acquire rfl).keeps
    · rcases ht : r.pool.acquire r.device kind with ⟨e | t, pool, d⟩
      · obtain ⟨rfl, -⟩ := ScratchPool.unchanged_of_acquire_error ht
        exact accounts
      · exact accounts.lends (numbered.lends ht).1
  | release t =>
    refine Or.inr ⟨?_, fun lost accounts => accounts.release inv.backed.distinct t⟩
    exact destroyed_of_subset inv' (ScratchPool.textures_release inv.backed.distinct t).symm.subset
  | apply s catalog resolve input =>
    have settled := s.settles_apply catalog resolve input numbered
    refine Or.inr ⟨?_, fun lost accounts => accounts.balanced settled.pool⟩
    exact destroyed_of_keeps inv (s.keeps_apply catalog resolve input inv.wellFormed inv.backed).1
  | _ => exact Or.inr ⟨destroyed_of_subset inv' fun _ he => he, fun _ accounts => accounts⟩

theorem Ran.accounts (h : Ran r lost) : r.pool.Accounts lost := by
  induction h with
  | start size => exact ⟨rfl, rfl⟩
  | @step r r' lost hr hs ih =>
    rcases hs.accounts hr.reachable.inv with rfl | ⟨hzero, hkept⟩
    · rw [destroyed_purge hr.reachable.inv]
      exact ih.purge r.device
    · rw [hzero]
      exact hkept lost ih

/-- Whatever has been acquired, released, purged and applied: the textures of the pool are all different, live, and of
    the kinds that they are kept under. One that is acquired was not on loan and is of the kind that was asked for; it
    has waited if one of the kind has, and else is new. Where none is to be had, nothing changes, and neither does a
    pool to which a texture is returned that was not on loan. What has been acquired and not released is on loan, and
    what has been created waits, is on loan or has been destroyed by a purge. -/
theorem pool_accounted (h : Ran r lost) :
    (r.pool.textures.map (·.1)).Nodup ∧
    (∀ e ∈ r.pool.textures, Device.textureKind? r.device e.1 = some e.2) ∧
    (∀ kind t pool d, r.pool.acquire r.device kind = (.ok t, pool, d) →
      t ∉ r.pool.loans.map (·.1) ∧ pool.loans = (t, kind) :: r.pool.loans ∧ Device.textureKind? d t = some kind ∧
      (t ∈ r.pool.idle.map (·.2) ↔ ∃ e ∈ r.pool.idle, e.1 = kind) ∧
      (t ∈ r.pool.idle.map (·.2) → d = r.device) ∧
      (t ∉ r.pool.idle.map (·.2) → Device.textureKind? r.device t = none)) ∧
    (∀ kind e pool d, r.pool.acquire r.device kind = (.error e, pool, d) → pool = r.pool ∧ d = r.device) ∧
    (∀ t, t ∉ r.pool.loans.map (·.1) → (r.pool.release t).1 = r.pool) ∧
    r.pool.acquired = r.pool.released + r.pool.loans.length ∧
    r.pool.created = r.pool.idle.length + r.pool.loans.length + lost ∧
    (∀ r', Step r r' → r' = ⟨(r.pool.purge r.device).2, (r.pool.purge r.device).1⟩ ∨ r.destroyed r' = 0) := by
  have inv := h.reachable.inv
  have accounts := h.accounts
  refine ⟨inv.backed.distinct, fun e he => inv.backed.textureKind? he, fun kind t pool d ht => ?_,
    fun kind e pool d he => ScratchPool.unchanged_of_acquire_error he, fun t ht => ScratchPool.release_of_free ht,
    accounts.loans, ?_, fun r' hs => (hs.accounts inv).imp_right And.left⟩
  · have lends := ((inv.backed.numbered inv.wellFormed).lends ht).1
    exact ⟨lends.free, lends.loans, inv.backed.acquired inv.wellFormed ht⟩
  · rw [accounts.stock, ScratchPool.length_textures]

/-- Two textures have been lent, one of them has been returned twice and an unknown one once. There was none without
    width to be had. A purge has destroyed the one that waited, and a new one has been lent in its place. -/
def purged : Rig :=
  let device := ReferenceDevice.new (2, 2)
  let first := ScratchPool.empty.acquire device (.rgba8 4 4)
  let second := first.2.1.acquire first.2.2 (.rgba8 4 4)
  let returned := (((second.2.1.release ⟨1⟩).1.release ⟨1⟩).1.release ⟨9⟩).1
  let failed := returned.acquire second.2.2 (.rgba8 0 4)
  let uploaded := (failed.2.2.upload (.solid 1 1 .white)).2
  let cleared := failed.2.1.purge uploaded
  let third := cleared.1.acquire cleared.2 (.rgba8 4 4)
  ⟨third.2.2, third.2.1⟩

theorem purged_ran : purged.Ran 1 := by
  have lent : Ran _ 0 := (Ran.start (2, 2)).step (.acquire (.rgba8 4 4)) |>.step (.acquire (.rgba8 4 4))
  have returned : Ran _ 0 := lent.step (.release ⟨1⟩) |>.step (.release ⟨1⟩) |>.step (.release ⟨9⟩)
  have failed : Ran _ 0 := returned.step (.acquire (.rgba8 0 4)) |>.step (.upload (.solid 1 1 .white))
  have cleared : Ran _ 1 := failed.step .purge
  exact cleared.step (.acquire (.rgba8 4 4))

/-- The next texture of the same size is neither of the two on loan. -/
theorem pool_accounted_purged :
    purged.Ran 1 ∧ purged.pool.loans.map (·.1) = [⟨4⟩, ⟨2⟩] ∧
      purged.pool.acquired = purged.pool.released + 2 ∧ purged.pool.created = purged.pool.idle.length + 2 + 1 ∧
      ∀ t pool d, purged.pool.acquire purged.device (.rgba8 4 4) = (.ok t, pool, d) →
        t ∉ [(⟨4⟩ : TextureId), ⟨2⟩] ∧ Device.textureKind? d t = some (.rgba8 4 4) := by
  have hloans : purged.pool.loans.map (·.1) = [⟨4⟩, ⟨2⟩] := rfl
  have hlength : purged.pool.loans.length = 2 := rfl
  obtain ⟨-, -, hacquire, -, -, hacquired, hcreated, -⟩ := pool_accounted purged_ran
  rw [hlength] at hacquired hcreated
  refine ⟨purged_ran, hloans, hacquired, hcreated, fun t pool d ht => ?_⟩
  obtain ⟨hfree, -, hkind, -⟩ := hacquire _ t pool d ht
  rw [hloans] at hfree
  exact ⟨hfree, hkind⟩

end Rig
end FxStack
