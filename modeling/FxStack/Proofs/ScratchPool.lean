import FxStack.Proofs.Frame.Still
import Mathlib.Data.List.Perm.Basic

/-! The scratch pool on the reference device. Its textures, those that wait and those on loan, are all
    different, live and of the kind they are kept under. They pass between the two lists as textures are
    acquired and released; a texture joins them only by creation and leaves them only by a purge. Main
    definition: `Backed`. -/

namespace FxStack
namespace ScratchPool

/-! ### Lists -/

theorem perm_swapRemove {α : Type} {l : List α} {i : Nat} {e : α} (h : l[i]? = some e) : (e :: swapRemove l i).Perm l := by
  obtain ⟨hi, rfl⟩ := List.getElem?_eq_some_iff.mp h
  rcases List.eq_nil_or_concat' l with rfl | ⟨before, last, rfl⟩
  · simp at hi
  · unfold swapRemove
    rw [List.getLast?_concat]
    dsimp only
    by_cases hlast : i < before.length
    · rw [List.set_append_left _ _ hlast, List.dropLast_concat, List.getElem_append_left hlast]
      have hset := List.set_perm_cons_eraseIdx hlast last
      have hall := List.getElem_cons_eraseIdx_perm hlast
      calc (before[i] :: before.set i last).Perm (before[i] :: last :: before.eraseIdx i) := hset.cons _
        _ |>.Perm (last :: before[i] :: before.eraseIdx i) := .swap ..
        _ |>.Perm (last :: before) := hall.cons _
        _ |>.Perm (before ++ [last]) := (List.perm_append_singleton last before).symm
    · have hi' : i = before.length := by
        rw [List.length_append, List.length_singleton] at hi
        omega
      subst hi'
      rw [List.set_append_right _ _ (Nat.le_refl _), List.getElem_append_right (Nat.le_refl _)]
      simp only [Nat.sub_self, List.set_cons_zero, List.dropLast_concat, List.getElem_cons_zero]
      exact (List.perm_append_singleton last before).symm

theorem perm_cons_filter_ne {κ α : Type} [DecidableEq κ] {l : List (κ × α)} {k : κ} {x : α}
    (hl : (l.map (·.1)).Nodup) (h : l.lookup k = some x) : ((k, x) :: l.filter (·.1 ≠ k)).Perm l := by
  induction l with
  | nil => cases h
  | cons e l ih =>
    simp only [List.map_cons, List.nodup_cons] at hl
    rw [lookup_cons_ite] at h
    by_cases hk : k = e.1
    · rw [if_pos hk, Option.some.injEq] at h
      have hrest : l.filter (·.1 ≠ k) = l := filter_fst_ne (hk ▸ hl.1)
      rw [List.filter_cons_of_neg (by simp [hk]), hrest, hk, ← h]
    · rw [if_neg hk] at h
      have hne : e.1 ≠ k := fun heq => hk heq.symm
      rw [List.filter_cons_of_pos (by simpa using hne)]
      exact (List.Perm.swap ..).trans ((ih hl.2 h).cons e)

/-! ### Textures of a pool -/

/-- The textures that wait or are on loan, with their kinds. -/
def textures (pool : ScratchPool) : List (TextureId × TextureKind) := pool.idle.map Prod.swap ++ pool.loans

theorem mem_textures_of_loan {pool : ScratchPool} {t : TextureId} (h : t ∈ pool.loans.map (·.1)) :
    t ∈ pool.textures.map (·.1) := by
  unfold textures
  rw [List.map_append]
  exact List.mem_append_right _ h

/-- The textures of the pool are all different, and live with the kind they are kept under, which is one
    that can be drawn to. -/
structure Backed (pool : ScratchPool) (d : ReferenceDevice) : Prop where
  distinct : (pool.textures.map (·.1)).Nodup
  live : ∀ e ∈ pool.textures, ∃ x, d.texture? e.1 = some x ∧ x.kind = e.2
  drawable : ∀ e ∈ pool.textures, e.2.width ≠ 0 ∧ e.2.height ≠ 0

variable {pool pool' : ScratchPool} {d d' : ReferenceDevice} {kind : TextureKind} {t : TextureId}

theorem Backed.empty (d : ReferenceDevice) : Backed .empty d := ⟨.nil, nofun, nofun⟩

theorem Backed.of_perm (h : Backed pool d) (hp : pool'.textures.Perm pool.textures) : Backed pool' d :=
  ⟨(hp.map _).nodup_iff.mpr h.distinct, fun e he => h.live e (hp.subset he), fun e he => h.drawable e (hp.subset he)⟩

theorem Backed.mono {written : Target → Prop} (h : Backed pool d) (hd : d.Keeps written d') : Backed pool d' := by
  refine ⟨h.distinct, fun e he => ?_, h.drawable⟩
  obtain ⟨x, hx, hkind⟩ := h.live e he
  obtain ⟨y, hy, hkind', -⟩ := hd.textures e.1 x hx
  exact ⟨y, hy, hkind'.trans hkind⟩

/-- The pool loses nothing when a texture that is not its own is destroyed. -/
theorem Backed.destroyTexture (h : Backed pool d) (ht : t ∉ pool.textures.map (·.1)) : Backed pool (d.destroyTexture t) := by
  refine ⟨h.distinct, fun e he => ?_, h.drawable⟩
  have hne : e.1 ≠ t := fun heq => ht (heq ▸ List.mem_map_of_mem he)
  rw [ReferenceDevice.texture?_destroyTexture, if_neg hne]
  exact h.live e he

/-! ### Acquiring -/

theorem takeIdle?_eq_some {idle : List (TextureKind × TextureId)} (h : pool.takeIdle? kind = some (t, idle)) :
    ((kind, t) :: idle).Perm pool.idle := by
  unfold takeIdle? at h
  simp only [Option.bind_eq_bind, Option.bind_eq_some_iff, Option.pure_def, Option.some.injEq, Prod.mk.injEq] at h
  obtain ⟨i, hi, e, he, rfl, rfl⟩ := h
  obtain ⟨hlt, hkind, -⟩ := List.findIdx?_eq_some_iff_getElem.mp hi
  have hfirst : e = (kind, e.2) := by
    obtain ⟨_, rfl⟩ := List.getElem?_eq_some_iff.mp he
    exact Prod.ext (by simpa using hkind) rfl
  rw [← hfirst]
  exact perm_swapRemove he

theorem textures_lend (pool : ScratchPool) (kind : TextureKind) (t : TextureId) (ht : t ∉ pool.loans.map (·.1)) :
    (pool.lend kind t).textures.Perm ((t, kind) :: pool.textures) := by
  unfold lend textures
  rw [filter_fst_ne ht]
  exact List.perm_middle

/-- The texture `t` has been lent: it has waited before, or is new on the device. -/
structure Acquired (pool : ScratchPool) (d : ReferenceDevice) (kind : TextureKind) (t : TextureId) (pool' : ScratchPool)
    (d' : ReferenceDevice) : Prop where
  backed : Backed pool' d'
  still : d.Still d'
  lent : (t, kind) ∈ pool'.loans
  idle : pool'.idle ⊆ pool.idle
  origin : t ∈ pool.idle.map (·.2) ∨ d.texture? t = none

theorem Acquired.live (h : Acquired pool d kind t pool' d') : ∃ x, d'.texture? t = some x ∧ x.kind = kind :=
  h.backed.live (t, kind) (List.mem_append_right _ h.lent)

/-- A live texture that does not wait is not the one that has been lent. -/
theorem Acquired.ne (h : Acquired pool d kind t pool' d') {u : TextureId} {x : Texture} (hu : d.texture? u = some x)
    (hw : u ∉ pool.idle.map (·.2)) : u ≠ t := by
  rintro rfl
  rcases h.origin with hidle | hnew
  · exact hw hidle
  · rw [hnew] at hu
    cases hu

theorem loans_disjoint_idle (h : (pool.textures.map (·.1)).Nodup) {e : TextureId × TextureKind} (he : e ∈ pool.loans) :
    e.1 ∉ pool.idle.map (·.2) := by
  unfold textures at h
  rw [List.map_append, List.nodup_append, List.map_map] at h
  exact fun hidle => h.2.2 e.1 hidle e.1 (List.mem_map_of_mem he) rfl

/-- What is taken from the textures that wait is not on loan. -/
theorem free_of_takeIdle? (h : (pool.textures.map (·.1)).Nodup) {idle : List (TextureKind × TextureId)}
    (hidle : pool.takeIdle? kind = some (t, idle)) : t ∉ pool.loans.map (·.1) := by
  have hwaits : (kind, t) ∈ pool.idle := (takeIdle?_eq_some hidle).subset List.mem_cons_self
  intro hloan
  obtain ⟨e, he, rfl⟩ := List.mem_map.mp hloan
  exact loans_disjoint_idle h he (List.mem_map_of_mem (f := Prod.snd) hwaits)

/-- Lending one of the textures that wait moves it to the others. -/
theorem textures_lend_idle (h : (pool.textures.map (·.1)).Nodup) {idle : List (TextureKind × TextureId)}
    (hidle : pool.takeIdle? kind = some (t, idle)) :
    ({ pool with idle }.lend kind t).textures.Perm pool.textures := by
  have hfree := free_of_takeIdle? h hidle
  refine (textures_lend { pool with idle } kind t hfree).trans ?_
  exact ((takeIdle?_eq_some hidle).map Prod.swap).append_right pool.loans

theorem Acquired.of_idle (h : Backed pool d) {idle : List (TextureKind × TextureId)}
    (hidle : pool.takeIdle? kind = some (t, idle)) :
    Acquired pool d kind t ({ pool with idle }.lend kind t) d := by
  have hperm := takeIdle?_eq_some hidle
  have hwaits : (kind, t) ∈ pool.idle := hperm.subset List.mem_cons_self
  exact ⟨h.of_perm (textures_lend_idle h.distinct hidle), .refl d, List.mem_cons_self,
    fun e he => hperm.subset (List.mem_cons_of_mem _ he), Or.inl (List.mem_map_of_mem (f := Prod.snd) hwaits)⟩

theorem Acquired.of_created (wf : d.WellFormed) (h : Backed pool d) (hc : Device.createTexture d kind = (.ok t, d')) :
    Acquired pool d kind t ({ pool with created := pool.created + 1 }.lend kind t) d' := by
  have still := ReferenceDevice.Still.createTexture hc
  obtain ⟨hunused, hcreated⟩ := wf.texture?_created hc
  have hnew : t ∉ pool.textures.map (·.1) := by
    intro hold
    obtain ⟨e, he, rfl⟩ := List.mem_map.mp hold
    obtain ⟨x, hx, -⟩ := h.live e he
    rw [hunused] at hx
    cases hx
  have hfree : t ∉ pool.loans.map (·.1) := fun hloan => hnew (mem_textures_of_loan hloan)
  have htextures := textures_lend { pool with created := pool.created + 1 } kind t hfree
  have hlater := h.mono still.keeps
  refine ⟨⟨?_, fun e he => ?_, fun e he => ?_⟩, still, List.mem_cons_self, fun e he => he, Or.inr hunused⟩
  · exact (htextures.map _).nodup_iff.mpr (List.nodup_cons.mpr ⟨hnew, h.distinct⟩)
  · rcases List.mem_cons.mp (htextures.subset he) with rfl | he
    · exact hcreated
    · exact hlater.live e he
  · rcases List.mem_cons.mp (htextures.subset he) with rfl | he
    · exact (ReferenceDevice.createTexture_eq_ok.mp hc).1
    · exact h.drawable e he

/-- A texture that can be drawn to is always to be had. -/
theorem acquire_drawable (wf : d.WellFormed) (h : Backed pool d) (hk : kind.width ≠ 0 ∧ kind.height ≠ 0) :
    ∃ t pool' d', pool.acquire d kind = (.ok t, pool', d') ∧ Acquired pool d kind t pool' d' := by
  unfold acquire
  cases hidle : pool.takeIdle? kind with
  | some e => exact ⟨e.1, _, d, rfl, .of_idle h hidle⟩
  | none =>
    rcases hc : Device.createTexture d kind with ⟨e | t, d'⟩
    · have hok := (ReferenceDevice.createTexture_eq_ok (d := d) (t := ⟨d.nextNumber⟩)).mpr ⟨hk, rfl⟩
      rw [hc] at hok
      cases hok
    · exact ⟨t, _, d', rfl, .of_created wf h hc⟩

/-- One that cannot be drawn to is neither kept nor created. -/
theorem acquire_empty (h : Backed pool d) (hk : ¬(kind.width ≠ 0 ∧ kind.height ≠ 0)) :
    pool.acquire d kind = (.error (.emptyTexture kind.width kind.height), pool, d) := by
  unfold acquire
  cases hidle : pool.takeIdle? kind with
  | some e =>
    have hwaits : (kind, e.1) ∈ pool.idle := (takeIdle?_eq_some hidle).subset List.mem_cons_self
    exact absurd (h.drawable (e.1, kind) (List.mem_append_left _ (List.mem_map_of_mem (f := Prod.swap) hwaits))) hk
  | none =>
    have hzero : kind.width = 0 ∨ kind.height = 0 := by tauto
    have hc : Device.createTexture d kind = (.error (.emptyTexture kind.width kind.height), d) := if_pos hzero
    simp only [hc]

/-! ### Releasing -/

theorem textures_release (h : (pool.textures.map (·.1)).Nodup) (t : TextureId) :
    (pool.release t).1.textures.Perm pool.textures := by
  unfold release
  split
  · exact .refl _
  · next kind hloan =>
    have hloans : (pool.loans.map (·.1)).Nodup := by
      unfold textures at h
      rw [List.map_append] at h
      exact (List.nodup_append.mp h).2.1
    have hrest := perm_cons_filter_ne hloans hloan
    unfold textures
    dsimp only
    rw [List.map_append, List.append_assoc]
    exact List.Perm.append_left _ hrest

theorem Backed.release (h : Backed pool d) (t : TextureId) : Backed (pool.release t).1 d :=
  h.of_perm (textures_release h.distinct t)

theorem Backed.releasePair (h : Backed pool d) (pair : TextureId × TextureId) : Backed (pool.releasePair pair).1 d :=
  (h.release pair.1).release pair.2

/-! ### Pairs -/

/-- Two different textures of a kind have been lent, neither of which was live before unless it waited. -/
structure Borrowed (pool : ScratchPool) (d : ReferenceDevice) (kind : TextureKind) (pair : TextureId × TextureId)
    (pool' : ScratchPool) (d' : ReferenceDevice) : Prop where
  backed : Backed pool' d'
  still : d.Still d'
  ne : pair.1 ≠ pair.2
  first : ∃ x, d'.texture? pair.1 = some x ∧ x.kind = kind
  second : ∃ x, d'.texture? pair.2 = some x ∧ x.kind = kind
  other : ∀ u x, d.texture? u = some x → u ∉ pool.idle.map (·.2) → u ≠ pair.1 ∧ u ≠ pair.2

theorem acquirePair_drawable (wf : d.WellFormed) (h : Backed pool d) (hk : kind.width ≠ 0 ∧ kind.height ≠ 0) :
    ∃ pair pool' d', pool.acquirePair d kind = (.ok pair, pool', d', []) ∧ Borrowed pool d kind pair pool' d' := by
  obtain ⟨t, p₁, d₁, h₁, a₁⟩ := acquire_drawable wf h hk
  obtain ⟨u, p₂, d₂, h₂, a₂⟩ := acquire_drawable (a₁.still.keeps.wellFormed wf) a₁.backed hk
  obtain ⟨x, hx, hkind⟩ := a₁.live
  obtain ⟨y, hy, hkind', -⟩ := a₂.still.keeps.textures t x hx
  refine ⟨(t, u), p₂, d₂, ?_, a₂.backed, a₁.still.trans a₂.still, ?_, ⟨y, hy, hkind'.trans hkind⟩, a₂.live,
    fun v z hz hv => ⟨a₁.ne hz hv, ?_⟩⟩
  · unfold acquirePair
    rw [h₁]
    dsimp only
    rw [h₂]
  · exact a₂.ne hx (loans_disjoint_idle a₁.backed.distinct a₁.lent)
  · obtain ⟨z', hz', -, -⟩ := a₁.still.keeps.textures v z hz
    exact a₂.ne hz' fun hw => hv (List.map_subset _ a₁.idle hw)

theorem acquirePair_empty (h : Backed pool d) (hk : ¬(kind.width ≠ 0 ∧ kind.height ≠ 0)) :
    pool.acquirePair d kind = (.error (.emptyTexture kind.width kind.height), pool, d, []) := by
  unfold acquirePair
  rw [acquire_empty h hk]

/-! ### Purging -/

theorem foldl_destroyTexture (l : List (TextureKind × TextureId)) : ∀ (d : ReferenceDevice) (u : TextureId),
    (l.foldl (fun d e => Device.destroyTexture d e.2) d).texture? u =
      if u ∈ l.map (·.2) then none else d.texture? u := by
  induction l with
  | nil => exact fun d u => by simp
  | cons e l ih =>
    intro d u
    have hdestroy : Device.destroyTexture d e.2 = d.destroyTexture e.2 := rfl
    rw [List.foldl_cons, ih, hdestroy, ReferenceDevice.texture?_destroyTexture]
    by_cases hl : u ∈ l.map (·.2)
    · rw [if_pos hl, List.map_cons, if_pos (List.mem_cons_of_mem _ hl)]
    · by_cases he : u = e.2 <;> simp [hl, he]

theorem wellFormed_foldl_destroyTexture (l : List (TextureKind × TextureId)) :
    ∀ d : ReferenceDevice, d.WellFormed → (l.foldl (fun d e => Device.destroyTexture d e.2) d).WellFormed := by
  induction l with
  | nil => exact fun _ h => h
  | cons e l ih => exact fun d h => ih _ (h.destroyTexture e.2)

/-- A purge destroys what waits, and what is on loan stays live. -/
theorem Backed.purge (h : Backed pool d) : Backed (pool.purge d).1 (pool.purge d).2 := by
  have hloans : ∀ e ∈ ({ pool with idle := [] } : ScratchPool).textures, e ∈ pool.loans := fun e he => he
  refine ⟨?_, fun e he => ?_, fun e he => h.drawable e (List.mem_append_right _ (hloans e he))⟩
  · refine h.distinct.sublist (List.Sublist.map _ ?_)
    exact List.sublist_append_right (pool.idle.map Prod.swap) pool.loans
  · obtain ⟨x, hx, hkind⟩ := h.live e (List.mem_append_right _ (hloans e he))
    refine ⟨x, ?_, hkind⟩
    have hpurge := foldl_destroyTexture pool.idle d e.1
    rw [if_neg (loans_disjoint_idle h.distinct (hloans e he))] at hpurge
    exact hpurge.trans hx

end ScratchPool
end FxStack
