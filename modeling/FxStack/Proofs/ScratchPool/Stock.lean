import FxStack.Proofs.Device.Footprint
import FxStack.Proofs.ScratchPool.Accounts
import Mathlib.Data.Finset.Option

/-! How many textures there are, however many frames a program has shown. A live texture is one that the program has
    made, one of the scratch pool or the placeholder, and the pool keeps two of each kind that it has ever lent for a
    frame. Main statement: `Rig.stock_bounded`. -/

namespace FxStack

open Device (Reaches)

/-! ### The textures of a device -/

namespace ReferenceDevice
variable {d d' : ReferenceDevice} {ts us : List TextureId} {t : TextureId} {kind : TextureKind}

/-- The live textures, each once, are `ts` and the placeholder. -/
structure Houses (d : ReferenceDevice) (ts : List TextureId) : Prop where
  distinct : (d.textures.map (·.1)).Nodup
  perm : (d.textures.map (·.1)).Perm (ts ++ d.placeholder.toList)

namespace Houses

theorem new (size : Nat × Nat) : Houses (.new size) [] := ⟨.nil, .refl _⟩

theorem of_perm (h : Houses d ts) (hp : ts.Perm us) : Houses d us := ⟨h.distinct, h.perm.trans (hp.append_right _)⟩

theorem updateTexture (h : Houses d ts) (t : TextureId) (f : Texture → Texture) : Houses (d.updateTexture t f) ts := by
  have hkeys : (d.updateTexture t f).textures.map (·.1) = d.textures.map (·.1) := by
    unfold ReferenceDevice.updateTexture
    rw [List.map_map]
    refine List.map_congr_left fun e _ => ?_
    rw [Function.comp_apply, apply_ite Prod.fst, ite_self]
  refine ⟨hkeys ▸ h.distinct, ?_⟩
  rw [hkeys]
  exact h.perm

theorem addTexture (wf : d.WellFormed) (h : Houses d ts) (x : Texture) :
    Houses (d.addTexture x).2 (⟨d.nextNumber⟩ :: ts) := by
  have hnew : (⟨d.nextNumber⟩ : TextureId) ∉ d.textures.map (·.1) := by
    intro hold
    obtain ⟨e, he, hnumber⟩ := List.mem_map.mp hold
    have hlive : d.texture? e.1 = some e.2 := lookup_of_mem h.distinct he
    exact Nat.lt_irrefl _ (hnumber ▸ wf.issued e.1 e.2 hlive)
  have hkeys : ((d.addTexture x).2.textures.map (·.1)).Perm (⟨d.nextNumber⟩ :: d.textures.map (·.1)) := by
    unfold ReferenceDevice.addTexture
    rw [List.map_append]
    exact List.perm_append_singleton _ _
  exact ⟨hkeys.nodup_iff.mpr (List.nodup_cons.mpr ⟨hnew, h.distinct⟩), hkeys.trans (h.perm.cons _)⟩

theorem created (wf : d.WellFormed) (h : Houses d ts) (hc : Device.createTexture d kind = (.ok t, d')) :
    Houses d' (t :: ts) := by
  obtain ⟨-, he⟩ := createTexture_eq_ok.mp hc
  cases he
  exact h.addTexture wf _

theorem destroyTexture (h : Houses d ts) (t : TextureId) : Houses (d.destroyTexture t) (ts.filter (· ≠ t)) := by
  have hkeys : (d.destroyTexture t).textures.map (·.1) = (d.textures.map (·.1)).filter (· ≠ t) := by
    rw [List.filter_map]
    rfl
  have hplaceholder : (d.destroyTexture t).placeholder.toList = d.placeholder.toList.filter (· ≠ t) := by
    unfold ReferenceDevice.destroyTexture
    cases hp : d.placeholder with
    | none => rfl
    | some u => by_cases hu : u = t <;> simp [hu]
  refine ⟨?_, ?_⟩
  · rw [hkeys]
    exact h.distinct.filter _
  · rw [hkeys, hplaceholder, ← List.filter_append]
    exact h.perm.filter _

theorem placeholderTexture (wf : d.WellFormed) (h : Houses d ts) : Houses (Device.placeholderTexture d).2 ts := by
  have hdevice : (Device.placeholderTexture d).2 = d.placeholderTexture.2 := rfl
  rw [hdevice]
  unfold ReferenceDevice.placeholderTexture
  split
  · exact h
  · next hnone =>
    obtain ⟨distinct, perm⟩ := h.addTexture wf ⟨.rgba8 1 1, .solid 1 1 .white, .initial⟩
    have hnone' : (d.addTexture ⟨.rgba8 1 1, .solid 1 1 .white, .initial⟩).2.placeholder = none := hnone
    rw [hnone', Option.toList_none, List.append_nil] at perm
    exact ⟨distinct, perm.trans (List.perm_append_singleton _ _).symm⟩

theorem painted {target : Target} (h : Houses d ts) (hd : Painted target d d') : Houses d' ts := by
  obtain ⟨e, draws, copies, he, rfl⟩ := hd
  have stays : Houses e ts := by
    rcases he with rfl | ⟨i, rfl⟩
    · exact h
    · cases target with
      | display => exact ⟨h.distinct, h.perm⟩
      | texture u => exact h.updateTexture u fun x => { x with pixels := i }
  exact ⟨stays.distinct, stays.perm⟩

/-- Only creating and destroying makes a difference, but for the placeholder. -/
theorem run (wf : d.WellFormed) (h : Houses d ts) {op : DeviceOp} (hop : op.SparesTextures) : Houses (op.run d) ts := by
  cases op with
  | compileProgram label source =>
    rcases hc : Device.compileProgram d label source with ⟨e | p, d'⟩ <;> simp only [DeviceOp.run, hc]
    · rw [compileProgram_eq_error hc]
      exact h
    · obtain ⟨-, rfl⟩ := compileProgram_eq_ok hc
      exact ⟨h.distinct, h.perm⟩
  | deleteProgram p => exact ⟨h.distinct, h.perm⟩
  | createTexture kind => exact hop.elim
  | destroyTexture t => exact hop.elim
  | placeholderTexture => exact h.placeholderTexture wf
  | setSampler t sampler => exact h.updateTexture t fun x => { x with sampler }
  | setFixedFunction state => exact ⟨h.distinct, h.perm⟩
  | draw call => exact h.painted (painted_draw d call)
  | copy source target => exact h.painted (painted_copy d source target)

theorem reaches (wf : d.WellFormed) (h : Houses d ts) (hd : Reaches DeviceOp.SparesTextures d d') : Houses d' ts :=
  (hd.keeps (I := fun e => e.WellFormed ∧ Houses e ts) ⟨wf, h⟩
    fun op _ hop he => ⟨wellFormed_run op he.1, he.2.run he.1 hop⟩).2

end Houses
end ReferenceDevice

/-! ### Pairs that wait and pairs that are new -/

namespace ScratchPool
variable {pool pool' : ScratchPool} {kind : TextureKind}

/-- How many textures of the kind wait. -/
def waiting (pool : ScratchPool) (kind : TextureKind) : Nat := pool.idle.countP (·.1 = kind)

theorem waiting_eq_zero : pool.waiting kind = 0 ↔ pool.takeIdle? kind = none := by
  rw [takeIdle?_eq_none, waiting, List.countP_eq_zero]
  simp only [decide_eq_true_eq, ne_eq]

section
variable {δ : Type} [Device δ] {d d' : δ} {t u : TextureId}

/-- What waits is lent, and nothing is created. -/
theorem acquire_waiting (distinct : (pool.textures.map (·.1)).Nodup) (hk : 0 < pool.waiting kind) (d : δ) :
    ∃ t pool', pool.acquire d kind = (.ok t, pool', d) ∧ pool'.textures.Perm pool.textures ∧
      pool'.waiting kind + 1 = pool.waiting kind := by
  obtain ⟨⟨t, idle⟩, htake⟩ := Option.ne_none_iff_exists'.mp (mt waiting_eq_zero.mpr hk.ne')
  refine ⟨t, { pool with idle }.lend kind t, ?_, textures_lend_idle distinct htake, ?_⟩
  · unfold acquire
    rw [htake]
  · have hcount := (takeIdle?_eq_some htake).countP_eq (·.1 = kind)
    rw [List.countP_cons_of_pos (by simp)] at hcount
    exact hcount

theorem acquirePair_waiting (distinct : (pool.textures.map (·.1)).Nodup) (hk : 2 ≤ pool.waiting kind) (d : δ) :
    ∃ pair pool', pool.acquirePair d kind = (.ok pair, pool', d, []) ∧ pool'.textures.Perm pool.textures := by
  have hk₀ : 0 < pool.waiting kind := by omega
  obtain ⟨t, pool₁, hfirst, perm₁, hcount₁⟩ := acquire_waiting distinct hk₀ d
  have hk₁ : 0 < pool₁.waiting kind := by omega
  have distinct₁ : (pool₁.textures.map (·.1)).Nodup := (perm₁.map _).nodup_iff.mpr distinct
  obtain ⟨u, pool₂, hsecond, perm₂, -⟩ := acquire_waiting distinct₁ hk₁ d
  exact ⟨(t, u), pool₂, acquirePair_eq_ok.mpr ⟨rfl, pool₁, d, hfirst, hsecond⟩, perm₂.trans perm₁⟩

/-- Where none waits one is created, and the others wait as before. -/
theorem acquire_new (hk : pool.waiting kind = 0) (hc : Device.createTexture d kind = (.ok t, d')) :
    pool.acquire d kind = (.ok t, { pool with created := pool.created + 1 }.lend kind t, d') := by
  unfold acquire
  rw [waiting_eq_zero.mp hk, hc]

end

section
variable {d d' : ReferenceDevice} {ns : List Notice}

/-- Two textures are to be had exactly if the kind can be drawn to. Else nothing changes. -/
theorem Backed.acquirePair_error (wf : d.WellFormed) (h : pool.Backed d) {e : DeviceError}
    (hpair : pool.acquirePair d kind = (.error e, pool', d', ns)) : pool' = pool ∧ d' = d := by
  by_cases hk : kind.width ≠ 0 ∧ kind.height ≠ 0
  · obtain ⟨pair, pool₁, d₁, hok, -⟩ := acquirePair_drawable wf h hk
    rw [hpair] at hok
    cases hok
  · cases hpair.symm.trans (acquirePair_empty h hk)
    exact ⟨rfl, rfl⟩

theorem Backed.drawable_of_acquirePair (h : pool.Backed d) {pair : TextureId × TextureId}
    (hpair : pool.acquirePair d kind = (.ok pair, pool', d', ns)) : kind.width ≠ 0 ∧ kind.height ≠ 0 := by
  by_contra hk
  cases hpair.symm.trans (acquirePair_empty h hk)

theorem Backed.acquirePair_new (wf : d.WellFormed) (h : pool.Backed d) (hk : pool.waiting kind = 0)
    (hdrawable : kind.width ≠ 0 ∧ kind.height ≠ 0) :
    ∃ pair pool' d', pool.acquirePair d kind = (.ok pair, pool', d', []) ∧
      pool'.textures.Perm ((pair.2, kind) :: (pair.1, kind) :: pool.textures) ∧
      ∀ ts, d.Houses ts → d'.Houses (pair.2 :: pair.1 :: ts) := by
  have creates : ∀ e : ReferenceDevice, ∃ t e', Device.createTexture e kind = (.ok t, e') :=
    fun e => ⟨_, _, ReferenceDevice.createTexture_eq_ok.mpr ⟨hdrawable, rfl⟩⟩
  obtain ⟨t, d₁, hc₁⟩ := creates d
  obtain ⟨u, d₂, hc₂⟩ := creates d₁
  have wf₁ : d₁.WellFormed := (ReferenceDevice.Still.createTexture hc₁).keeps.wellFormed wf
  have hfirst := acquire_new hk hc₁
  obtain ⟨lends₁, numbered₁⟩ := (h.numbered wf).lends hfirst
  have hk₁ : ({ pool with created := pool.created + 1 }.lend kind t).waiting kind = 0 := hk
  have hsecond := acquire_new hk₁ hc₂
  obtain ⟨lends₂, -⟩ := numbered₁.lends hsecond
  refine ⟨(t, u), _, d₂, acquirePair_eq_ok.mpr ⟨rfl, _, d₁, hfirst, hsecond⟩, ?_, fun ts hts => ?_⟩
  · exact (textures_lend _ kind u lends₂.free).trans ((textures_lend _ kind t lends₁.free).cons _)
  · exact (hts.created wf hc₁).created wf₁ hc₂

theorem textures_releasePair (distinct : (pool.textures.map (·.1)).Nodup) (pair : TextureId × TextureId) :
    (pool.releasePair pair).1.textures.Perm pool.textures := by
  have first := textures_release distinct pair.1
  exact (textures_release ((first.map _).nodup_iff.mpr distinct) pair.2).trans first

end
end ScratchPool

/-! ### Frames -/

namespace Stack
variable {δ : Type} [Device δ] (s : Stack) (catalog : Catalog) (d : δ) (pool : ScratchPool)

theorem sparesTextures_prepare : Reaches DeviceOp.SparesTextures d (s.prepare catalog d pool).device :=
  (s.course_prepare catalog d pool).reaches.mono fun _ h => h.textures

theorem sparesTextures_compile : Reaches DeviceOp.SparesTextures d (s.compile catalog d).2.1 :=
  (s.course_compile catalog d).reaches.mono fun _ h => h.textures

/-- The kind of the two scratch textures that an application has had, if it has had them. -/
def servedKind? (resolve : Resolver) (input : FrameInput) : Option TextureKind :=
  if (s.apply catalog d pool resolve input).report.scratchAcquired = 2 then
    (Device.textureKind? d input.source).map fun kind => kind.resized (frameSize d input kind)
  else none

end Stack

theorem Application.sparesTextures_finish {δ : Type} [Device δ] (a : Application δ) (t : TextureId)
    (destination : Option TextureId) : Reaches DeviceOp.SparesTextures a.device (a.finish t destination).device := by
  refine (a.course_finish t destination trivial trivial fun op hop => ?_).reaches
  cases op with
  | createTexture kind => exact hop.elim
  | destroyTexture u => exact hop.elim
  | _ => trivial

namespace Rig
variable {r r' : Rig} {made : List TextureId} {served : Finset TextureKind}

/-- The rigs that a program comes to that leaves its pool to the stacks that it applies, with the textures that the
    program has made and not destroyed, and with the kinds of all the scratch textures that its stacks have had. -/
inductive Screened : Rig → List TextureId → Finset TextureKind → Prop
  | start (size : Nat × Nat) : Screened ⟨.new size, .empty⟩ [] ∅
  | upload {r : Rig} {made : List TextureId} {served : Finset TextureKind} (i : Image) : Screened r made served →
      Screened { r with device := (r.device.upload i).2 } ((r.device.upload i).1 :: made) served
  | createTexture {r : Rig} {made : List TextureId} {served : Finset TextureKind} {kind : TextureKind} {t : TextureId}
      {d : ReferenceDevice} : Screened r made served → Device.createTexture r.device kind = (.ok t, d) →
      Screened { r with device := d } (t :: made) served
  | destroyTexture {r : Rig} {made : List TextureId} {served : Finset TextureKind} {t : TextureId} :
      Screened r made served → t ∉ r.pool.textures.map (·.1) →
      Screened { r with device := Device.destroyTexture r.device t } (made.filter (· ≠ t)) served
  | run {r : Rig} {made : List TextureId} {served : Finset TextureKind} {op : DeviceOp} : Screened r made served →
      op.SparesTextures → Screened { r with device := op.run r.device } made served
  | clearRecords {r : Rig} {made : List TextureId} {served : Finset TextureKind} : Screened r made served →
      Screened { r with device := r.device.clearRecords } made served
  | reject {r : Rig} {made : List TextureId} {served : Finset TextureKind} (marker : String) : Screened r made served →
      Screened { r with device := r.device.rejecting marker } made served
  | compile {r : Rig} {made : List TextureId} {served : Finset TextureKind} (s : Stack) (catalog : Catalog) :
      Screened r made served → Screened { r with device := (s.compile catalog r.device).2.1 } made served
  | apply {r : Rig} {made : List TextureId} {served : Finset TextureKind} (s : Stack) (catalog : Catalog)
      (resolve : Resolver) (input : FrameInput) : Screened r made served →
      Screened ⟨(s.apply catalog r.device r.pool resolve input).device, (s.apply catalog r.device r.pool resolve input).pool⟩
        made ((s.servedKind? catalog r.device r.pool resolve input).elim served (insert · served))

theorem Step.run {op : DeviceOp} (hop : op.SparesTextures) : Step r { r with device := op.run r.device } := by
  cases op with
  | compileProgram label source => exact .compileProgram label source
  | deleteProgram p => exact .deleteProgram p
  | createTexture kind => exact hop.elim
  | destroyTexture t => exact hop.elim
  | placeholderTexture => exact .placeholderTexture
  | setSampler t sampler => exact .setSampler t sampler
  | setFixedFunction state => exact .setFixedFunction state
  | draw call => exact .draw call
  | copy t target => exact .copy t target

/-- An application leaves the pool alone, or has two textures of one kind lent and returned. Else it makes no
    textures. -/
theorem Inv.apply_stock (inv : r.Inv) (s : Stack) (catalog : Catalog) (resolve : Resolver) (input : FrameInput) :
    let a := s.apply catalog r.device r.pool resolve input
    s.servedKind? catalog r.device r.pool resolve input = none ∧ a.pool = r.pool ∧
        Reaches DeviceOp.SparesTextures r.device a.device ∨
      ∃ kind pair pool d ns, s.servedKind? catalog r.device r.pool resolve input = some kind ∧
        r.pool.acquirePair (s.prepare catalog r.device r.pool).device kind = (.ok pair, pool, d, ns) ∧
        a.pool = (pool.releasePair pair).1 ∧ Reaches DeviceOp.SparesTextures d a.device := by
  intro a
  have prepared := s.sparesTextures_prepare catalog r.device r.pool
  have wf₁ : (s.prepare catalog r.device r.pool).device.WellFormed := prepared.wellFormed inv.wellFormed
  have backed₁ := inv.backed.mono (s.still_prepare catalog r.device r.pool).keeps
  have unserved : a.report.scratchAcquired = 0 → s.servedKind? catalog r.device r.pool resolve input = none := by
    intro hzero
    unfold Stack.servedKind?
    rw [if_neg]
    change a.report.scratchAcquired ≠ 2
    omega
  cases hsource : Device.textureKind? r.device input.source with
  | none =>
    have hdead : a = _ := s.apply_of_dead catalog r.device r.pool resolve hsource
    refine Or.inl ⟨unserved ?_, ?_, ?_⟩ <;> rw [hdead]
    · rfl
    · exact .refl
  | some source =>
    cases s.applied catalog r.device r.pool resolve input hsource with
    | plain hpasses _ _ happly =>
      have hends := Application.ends_finish (s.prepare catalog r.device r.pool) input.source input.destination
      refine Or.inl ⟨unserved ?_, ?_, ?_⟩
      · rw [show a = _ from happly, Application.scratchAcquired_finish]
        rfl
      · rw [show a = _ from happly]
        exact hends.pool
      · rw [show a = _ from happly]
        exact prepared.trans (Application.sparesTextures_finish _ _ _)
    | unborrowed e pool' d' ns b _ hpair hb hpool hreport _ _ happly =>
      obtain ⟨rfl, rfl⟩ := backed₁.acquirePair_error wf₁ hpair
      have hends := Application.ends_finish b input.source input.destination
      have told := hb.reaches.mono (Q := DeviceOp.SparesTextures) fun _ => False.elim
      refine Or.inl ⟨unserved ?_, ?_, ?_⟩
      · rw [show a = _ from happly, Application.scratchAcquired_finish]
        exact hreport
      · rw [show a = _ from happly]
        exact hends.pool.trans hpool
      · rw [show a = _ from happly]
        exact (prepared.trans told).trans (Application.sparesTextures_finish _ _ _)
    | borrowed pair pool' d' ns b t _ hpair _ hb hpool hreport _ _ happly =>
      have hends := Application.ends_finish b t input.destination
      have drawn := (hb DeviceOp.SparesTextures trivial fun x _ => ⟨trivial, fun _ _ _ _ _ _ => trivial, trivial⟩).reaches
      refine Or.inr ⟨_, pair, pool', d', ns, ?_, hpair, ?_, ?_⟩
      · unfold Stack.servedKind?
        rw [hsource, if_pos]
        · rfl
        · rw [happly]
          exact (Application.scratchAcquired_finish _ _ _).trans hreport
      · rw [show a = _ from happly]
        exact congrArg (fun p => (ScratchPool.releasePair p pair).1) (hends.pool.trans hpool)
      · rw [show a = _ from happly]
        exact drawn.trans (Application.sparesTextures_finish _ _ _)

/-- Nothing is on loan, two textures of each kind served are in the pool, and the device has these, those that have
    been made and the placeholder. -/
structure Stocked (r : Rig) (made : List TextureId) (served : Finset TextureKind) : Prop where
  inv : r.Inv
  loans : r.pool.loans = []
  pairs : ∀ kind, r.pool.textures.countP (·.2 = kind) = if kind ∈ served then 2 else 0
  created : r.pool.created = 2 * served.card
  stock : r.pool.textures.length = r.pool.created
  houses : r.device.Houses (made ++ r.pool.textures.map (·.1))

namespace Stocked
variable {d : ReferenceDevice} {pool : ScratchPool} {kind : TextureKind} {t u : TextureId}

/-- Of a kind that is served two textures wait, and of others none. -/
theorem waiting (h : r.Stocked made served) (kind : TextureKind) :
    r.pool.waiting kind = if kind ∈ served then 2 else 0 := by
  rw [← h.pairs kind]
  simp only [ScratchPool.waiting, ScratchPool.textures, h.loans, List.append_nil, List.countP_map]
  rfl

/-- The textures of the pool are the same, though some may have been lent and returned. -/
theorem of_perm (h : r.Stocked made served) (inv' : Inv ⟨d, pool⟩) (balanced : ScratchPool.Balanced r.pool pool)
    (hp : pool.textures.Perm r.pool.textures) (hd : d.Houses (made ++ r.pool.textures.map (·.1))) :
    Stocked ⟨d, pool⟩ made served := by
  have hlength := hp.length_eq
  have hstock := balanced.stock
  have hcreated : pool.created = r.pool.created := by omega
  refine ⟨inv', balanced.loans.trans h.loans, fun kind => (hp.countP_eq _).trans (h.pairs kind), hcreated.trans h.created,
    hlength.trans (h.stock.trans hcreated.symm), ?_⟩
  exact hd.of_perm ((hp.symm.map _).append_left made)

/-- The pool has two more textures, of a kind that had not been served. -/
theorem of_new (h : r.Stocked made served) (inv' : Inv ⟨d, pool⟩) (balanced : ScratchPool.Balanced r.pool pool)
    (hk : kind ∉ served) (hp : pool.textures.Perm ((t, kind) :: (u, kind) :: r.pool.textures))
    (hd : d.Houses (t :: u :: (made ++ r.pool.textures.map (·.1)))) : Stocked ⟨d, pool⟩ made (insert kind served) := by
  have hlength : pool.textures.length = r.pool.textures.length + 2 := hp.length_eq
  have hstock := balanced.stock
  have hold := h.stock
  have hcreated : pool.created = r.pool.created + 2 := by omega
  refine ⟨inv', balanced.loans.trans h.loans, fun k => ?_, ?_, by rw [hlength, hold, hcreated], ?_⟩
  · rw [hp.countP_eq, List.countP_cons, List.countP_cons, h.pairs k]
    by_cases hkind : kind = k
    · simp [← hkind, hk]
    · simp [hkind, Ne.symm hkind]
  · rw [Finset.card_insert_of_notMem hk, hcreated, h.created]
    omega
  · refine hd.of_perm ?_
    have hids : (made ++ pool.textures.map (·.1)).Perm (made ++ t :: u :: r.pool.textures.map (·.1)) :=
      (hp.map _).append_left made
    exact (hids.trans (List.perm_middle.trans (List.perm_middle.cons t))).symm

theorem spares (h : r.Stocked made served) (inv' : Inv { r with device := d })
    (hd : Reaches DeviceOp.SparesTextures r.device d) : Stocked { r with device := d } made served :=
  h.of_perm inv' (.refl _) (.refl _) (h.houses.reaches h.inv.wellFormed hd)

/-- The scratch textures of a frame are those that wait, if its kind has been served before, and else new ones. In
    both cases they wait when the frame has ended. -/
theorem apply (h : r.Stocked made served) (s : Stack) (catalog : Catalog) (resolve : Resolver) (input : FrameInput) :
    let a := s.apply catalog r.device r.pool resolve input
    Stocked ⟨a.device, a.pool⟩ made
      ((s.servedKind? catalog r.device r.pool resolve input).elim served (insert · served)) := by
  intro a
  have inv' : Inv ⟨a.device, a.pool⟩ := h.inv.step (.apply s catalog resolve input)
  have balanced : ScratchPool.Balanced r.pool a.pool :=
    (s.settles_apply catalog resolve input (h.inv.backed.numbered h.inv.wellFormed)).pool
  rcases h.inv.apply_stock s catalog resolve input with
    ⟨hserved, hpool, hreaches⟩ | ⟨kind, pair, pool, d, ns, hserved, hpair, hpool, hreaches⟩ <;> rw [hserved]
  · exact h.of_perm inv' balanced (hpool ▸ .refl _) (h.houses.reaches h.inv.wellFormed hreaches)
  · have prepared := s.sparesTextures_prepare catalog r.device r.pool
    have wf₁ : (s.prepare catalog r.device r.pool).device.WellFormed := prepared.wellFormed h.inv.wellFormed
    have houses₁ := h.houses.reaches h.inv.wellFormed prepared
    have backed₁ := h.inv.backed.mono (s.still_prepare catalog r.device r.pool).keeps
    obtain ⟨-, numbered₂⟩ := (backed₁.numbered wf₁).acquirePair_ok hpair
    have wf₂ : d.WellFormed := (ScratchPool.still_acquirePair hpair).keeps.wellFormed wf₁
    have released : a.pool.textures.Perm pool.textures := by
      rw [hpool]
      exact ScratchPool.textures_releasePair numbered₂.distinct pair
    by_cases hk : kind ∈ served
    · obtain ⟨pair', pool', hpair', hperm⟩ := ScratchPool.acquirePair_waiting h.inv.backed.distinct
        (by rw [h.waiting, if_pos hk]) (s.prepare catalog r.device r.pool).device
      rw [hpair] at hpair'
      cases hpair'
      rw [Option.elim_some, Finset.insert_eq_of_mem hk]
      exact h.of_perm inv' balanced (released.trans hperm) (houses₁.reaches wf₁ hreaches)
    · obtain ⟨pair', pool', d', hpair', hperm, hhouses⟩ := backed₁.acquirePair_new wf₁
        (by rw [h.waiting, if_neg hk]) (backed₁.drawable_of_acquirePair hpair)
      rw [hpair] at hpair'
      cases hpair'
      exact h.of_new inv' balanced hk (released.trans hperm) ((hhouses _ houses₁).reaches wf₂ hreaches)

end Stocked

theorem Screened.stocked (h : Screened r made served) : r.Stocked made served := by
  induction h with
  | start size =>
    exact ⟨⟨.new size, .empty _⟩, rfl, fun kind => by rw [if_neg (Finset.notMem_empty kind)]; rfl, rfl, rfl, .new size⟩
  | upload i _ ih =>
    refine ⟨ih.inv.step (.upload i), ih.loans, ih.pairs, ih.created, ih.stock, ?_⟩
    exact ih.houses.addTexture ih.inv.wellFormed _
  | @createTexture r made served kind t d _ hc ih =>
    have inv' := ih.inv.step (.createTexture kind)
    rw [hc] at inv'
    exact ⟨inv', ih.loans, ih.pairs, ih.created, ih.stock, ih.houses.created ih.inv.wellFormed hc⟩
  | @destroyTexture r made served t _ ht ih =>
    refine ⟨ih.inv.step (.destroyTexture ht), ih.loans, ih.pairs, ih.created, ih.stock, ?_⟩
    have houses := ih.houses.destroyTexture t
    have hkept : (r.pool.textures.map (·.1)).filter (· ≠ t) = r.pool.textures.map (·.1) :=
      List.filter_eq_self.mpr fun u hu => decide_eq_true fun heq => ht (heq ▸ hu)
    rwa [List.filter_append, hkept] at houses
  | run _ hop ih => exact ih.spares (ih.inv.step (.run hop)) (.one _ hop rfl)
  | clearRecords _ ih =>
    exact ⟨ih.inv.step .clearRecords, ih.loans, ih.pairs, ih.created, ih.stock, ih.houses.distinct, ih.houses.perm⟩
  | reject marker _ ih =>
    exact ⟨ih.inv.step (.reject marker), ih.loans, ih.pairs, ih.created, ih.stock, ih.houses.distinct, ih.houses.perm⟩
  | compile s catalog _ ih => exact ih.spares (ih.inv.step (.compile s catalog)) (s.sparesTextures_compile catalog _)
  | apply s catalog resolve input _ ih => exact ih.apply s catalog resolve input

/-- However many frames have been shown, and however they have ended: nothing is on loan, two textures of each kind
    that has been served wait and none of another, and just as many have been created. The live textures are these, the
    ones that the program has made, and the placeholder, if there is one. -/
theorem stock_bounded (h : Screened r made served) :
    r.pool.loans = [] ∧
    (∀ kind, r.pool.idle.countP (·.1 = kind) = if kind ∈ served then 2 else 0) ∧
    r.pool.created = 2 * served.card ∧
    (r.device.textures.map (·.1)).Nodup ∧
    (r.device.textures.map (·.1)).Perm (made ++ r.pool.idle.map (·.2) ++ r.device.placeholder.toList) ∧
    r.device.textures.length = made.length + 2 * served.card + r.device.placeholder.toList.length := by
  have stocked := h.stocked
  have hids : r.pool.textures.map (·.1) = r.pool.idle.map (·.2) := by
    simp only [ScratchPool.textures, stocked.loans, List.append_nil, List.map_map]
    rfl
  have hperm := stocked.houses.perm
  have hlength := hperm.length_eq
  rw [List.length_append, List.length_append, List.length_map, List.length_map, stocked.stock, stocked.created] at hlength
  rw [hids] at hperm
  exact ⟨stocked.loans, stocked.waiting, stocked.created, stocked.houses.distinct, hperm, hlength⟩

/-- A stack with a pass whose program has been rejected: its frames are aborted. -/
def blocked : Stack :=
  { Stack.new (.fixed (.zero, .zero)) with
    dirty := false, passes := [⟨[], [], "", none⟩], compiledVersion := some (Catalog.empty ⟨0⟩).version }

/-- The rig after the blocked stack has been applied to texture 1. -/
def block (r : Rig) (destination : Option TextureId) : Rig :=
  let a := blocked.apply (Catalog.empty ⟨0⟩) r.device r.pool (fun _ => none) ⟨⟨1⟩, destination, none⟩
  ⟨a.device, a.pool⟩

/-- A texture of one pixel and one of 16. -/
def unequal : Rig :=
  ⟨(Device.createTexture ((ReferenceDevice.new (2, 2)).upload (.solid 1 1 .white)).2 (.rgba8 4 4)).2, .empty⟩

/-- Frames of one pixel, of 16 and of one pixel again. The texture of 16 pixels is destroyed in the end, but its frame
    has left two of its kind in the pool. -/
def rehearsed : Rig :=
  let shown := ((unequal.block none).block (some ⟨2⟩)).block none
  { shown with device := Device.destroyTexture shown.device ⟨2⟩ }

theorem rehearsed_screened : rehearsed.Screened [⟨1⟩] {.rgba8 4 4, .rgba8 1 1} := by
  have created : Device.createTexture ((ReferenceDevice.new (2, 2)).upload (.solid 1 1 .white)).2 (.rgba8 4 4) =
      (.ok ⟨2⟩, unequal.device) := rfl
  have made : unequal.Screened [⟨2⟩, ⟨1⟩] ∅ :=
    ((Screened.start (2, 2)).upload (.solid 1 1 .white)).createTexture created
  have block : ∀ {r : Rig} {made : List TextureId} {served : Finset TextureKind} (destination : Option TextureId)
      (kind : TextureKind), r.Screened made served →
      blocked.servedKind? (Catalog.empty ⟨0⟩) r.device r.pool (fun _ => none) ⟨⟨1⟩, destination, none⟩ = some kind →
      (r.block destination).Screened made (insert kind served) := by
    intro r made served destination kind h hserved
    have applied := h.apply blocked (Catalog.empty ⟨0⟩) (fun _ => none) ⟨⟨1⟩, destination, none⟩
    rwa [hserved] at applied
  have first := block none (.rgba8 1 1) made (by decide +kernel)
  have second := block (some ⟨2⟩) (.rgba8 4 4) first (by decide +kernel)
  have third := block none (.rgba8 1 1) second (by decide +kernel)
  rw [Finset.insert_eq_of_mem (by decide)] at third
  exact third.destroyTexture (t := ⟨2⟩) (by decide +kernel)

theorem stock_bounded_rehearsed :
    rehearsed.Screened [⟨1⟩] {.rgba8 4 4, .rgba8 1 1} ∧ rehearsed.pool.loans = [] ∧
      rehearsed.pool.idle.countP (·.1 = .rgba8 4 4) = 2 ∧ rehearsed.pool.idle.countP (·.1 = .rgba8 2 2) = 0 ∧
      rehearsed.pool.created = 2 * 2 ∧
      rehearsed.device.textures.length = 1 + 2 * 2 + rehearsed.device.placeholder.toList.length := by
  obtain ⟨hloans, hpairs, hcreated, -, -, hlength⟩ := stock_bounded rehearsed_screened
  have hcard : ({.rgba8 4 4, .rgba8 1 1} : Finset TextureKind).card = 2 := by decide
  rw [hcard] at hcreated
  rw [hcard, List.length_singleton] at hlength
  have hserved := hpairs (.rgba8 4 4)
  have hother := hpairs (.rgba8 2 2)
  rw [if_pos (by decide)] at hserved
  rw [if_neg (by decide)] at hother
  exact ⟨rehearsed_screened, hloans, hserved, hother, hcreated, hlength⟩

end Rig
end FxStack
