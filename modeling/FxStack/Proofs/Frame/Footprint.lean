import FxStack.Proofs.Device.Footprint
import FxStack.Proofs.ScratchPool.Loans

/-! What applying a stack may change, on any device in front of a reference device. It deletes programs of the stack,
    writes to the destination and to the two textures that it borrows, and samples in another way only what it shows in
    the end and what is bound to slots that ask for it. Main statement: `Stack.apply_confined`. -/

namespace FxStack

open Device (Reaches)
open DeviceOp (Footprint Inside Draws)

/-! ### Devices in use -/

namespace ReferenceDevice

/-- The devices that a program comes to. Any operation may be made, images may be uploaded, records dropped and more
    programs be rejected. -/
inductive Used : ReferenceDevice → Prop
  | start (size : Nat × Nat) : Used (.new size)
  | run {d : ReferenceDevice} (op : DeviceOp) : Used d → Used (op.run d)
  | upload {d : ReferenceDevice} (i : Image) : Used d → Used (d.upload i).2
  | clearRecords {d : ReferenceDevice} : Used d → Used d.clearRecords
  | reject {d : ReferenceDevice} (marker : String) : Used d → Used (d.rejecting marker)

namespace Used

theorem wellFormed {d : ReferenceDevice} (h : Used d) : d.WellFormed := by
  induction h with
  | start size => exact .new size
  | run op _ ih => exact wellFormed_run op ih
  | upload i _ ih => exact ih.addTexture rfl
  | clearRecords _ ih => exact ⟨ih.issued, ih.sized⟩
  | reject marker _ ih => exact ⟨ih.issued, ih.sized⟩

/-- What stands in front of the device hands operations on or refuses them. -/
theorem reaches {δ : Type} [Front δ] {P : DeviceOp → Prop} {d d' : δ} (h : Used (Front.reference d))
    (hd : Reaches P d d') : Used (Front.reference d') :=
  hd.reference.keeps h fun op _ _ used => used.run op

end Used
end ReferenceDevice

/-! ### The footprint of an application -/

/-- The draw samples the texture as one of its slots asks. -/
def IssuedDraw.Resamples {δ : Type} (x : IssuedDraw δ) (t : TextureId) : Prop :=
  ∃ s ∈ x.pass.slots, s.spec.overridesSampling = true ∧ ∃ unit, (s.name, .sampler unit t) ∈ x.call.uniforms

namespace Stack
variable {δ : Type} [Device δ] (s : Stack) (catalog : Catalog) (d : δ) (pool : ScratchPool) (resolve : Resolver)
  (input : FrameInput)

/-- What an application may change. -/
def footprint : Footprint where
  deleted p := p ∈ s.programs
  written target := target = .ofDestination input.destination ∨
    ∃ pair, s.borrowed? catalog d pool input = some pair ∧ (target = .texture pair.1 ∨ target = .texture pair.2)
  sampled t := s.shown? catalog d pool resolve input = some t ∨
    ∃ x ∈ s.issued catalog d pool resolve input, x.Resamples t

end Stack

namespace DeviceOp

theorem Prepares.inside {f : Footprint} {op : DeviceOp} (h : op.Prepares f.deleted) : op.Inside f := by
  obtain ⟨-, hspares, -, hwithin⟩ := h
  cases op with
  | deleteProgram p => exact hwithin
  | draw call => exact hwithin.1.elim
  | copy source target => exact hwithin.elim
  | destroyTexture | setSampler => exact hspares.elim
  | _ => trivial

theorem Shows.inside {f : Footprint} {stack : Stack} {target : Target} {op : DeviceOp} (h : op.Shows stack target)
    (hwritten : f.written target) : op.Inside f := by
  cases op with
  | draw call =>
    obtain ⟨-, rfl⟩ := h
    exact hwritten
  | copy source t =>
    cases h
    exact hwritten
  | _ => exact h.elim

end DeviceOp

namespace Application
variable {δ : Type} [Device δ] {f : Footprint}

theorem Proceeds.inside {a b : Application δ} (h : Proceeds DeviceOp.Creates a b) (f : Footprint) :
    Reaches (·.Inside f) a.device b.device :=
  h.reaches.mono fun _ ⟨_, hop⟩ => hop ▸ trivial

theorem inside_finish (a : Application δ) {t : TextureId} {destination : Option TextureId} (hsampled : f.sampled t)
    (hwritten : f.written (.ofDestination destination)) :
    Reaches (·.Inside f) a.device (a.finish t destination).device :=
  (a.course_finish t destination hsampled trivial fun _ shows => shows.inside hwritten).reaches

end Application

namespace Stack

section
variable {δ : Type} [Device δ] (s : Stack) (catalog : Catalog) (d : δ) (pool : ScratchPool) (resolve : Resolver)
  (input : FrameInput)

/-- Between two borrowed textures the draws stay inside the footprint. -/
theorem asks_inside {pair : TextureId × TextureId} (hborrowed : s.borrowed? catalog d pool input = some pair)
    {x : IssuedDraw δ} (hx : x ∈ s.issued catalog d pool resolve input)
    (hasks : x.Asks (Draws (.ofPasses (s.prepare catalog d pool).stack.passes [pair.1, pair.2]))) :
    x.Asks (·.Inside (s.footprint catalog d pool resolve input)) := by
  refine ⟨trivial, fun u hu hoverrides unit t ht => Or.inr ⟨x, hx, u, hu, hoverrides, unit, ht⟩, Or.inr ⟨pair, hborrowed, ?_⟩⟩
  obtain ⟨-, -, t, ht, htarget⟩ := hasks.draw
  rw [htarget]
  rcases List.mem_cons.mp ht with rfl | ht
  · exact Or.inl rfl
  · exact Or.inr (congrArg Target.texture (List.mem_singleton.mp ht))

/-- Whatever fails, an application stays inside its footprint. -/
theorem inside_apply :
    Reaches (·.Inside (s.footprint catalog d pool resolve input)) d (s.apply catalog d pool resolve input).device := by
  have hwritten : (s.footprint catalog d pool resolve input).written (.ofDestination input.destination) := Or.inl rfl
  have prepared : Reaches (·.Inside (s.footprint catalog d pool resolve input)) d (s.prepare catalog d pool).device :=
    (s.course_prepare catalog d pool).reaches.mono fun _ prepares => DeviceOp.Prepares.inside prepares
  cases hkind : Device.textureKind? d input.source with
  | none =>
    rw [apply_of_dead _ _ _ _ _ hkind]
    exact .refl
  | some kind =>
    cases s.applied catalog d pool resolve input hkind with
    | plain _ _ hshown happly =>
      rw [happly]
      exact prepared.trans (Application.inside_finish _ (Or.inl hshown) hwritten)
    | unborrowed e pool' d' ns b _ hpair hb _ _ _ hshown happly =>
      have asked := ((Application.proceeds_asked (a := s.prepare catalog d pool) hpair).trans
        (hb.mono fun _ => False.elim)).inside (s.footprint catalog d pool resolve input)
      rw [happly]
      exact (prepared.trans asked).trans (b.inside_finish (Or.inl hshown) hwritten)
    | borrowed pair pool' d' ns b t _ hpair hdraws hb _ _ hborrowed hshown happly =>
      have asked := (Application.proceeds_asked (a := s.prepare catalog d pool) hpair).inside
        (s.footprint catalog d pool resolve input)
      have drawn := hb _ (Or.inr ⟨pair, hborrowed, Or.inl rfl⟩) fun x hx =>
        s.asks_inside catalog d pool resolve input hborrowed hx (hdraws x hx)
      rw [happly]
      exact ((prepared.trans asked).trans drawn.reaches).trans (b.inside_finish (Or.inl hshown) hwritten)

end
end Stack

/-! ### Borrowed textures -/

namespace ScratchPool
variable {δ : Type} [Front δ] {d d' : δ} {pool pool' : ScratchPool} {kind : TextureKind}

/-- A texture that is lent has waited, or was not live before. -/
theorem origin_acquire (wf : (Front.reference d).WellFormed) {t : TextureId}
    (h : pool.acquire d kind = (.ok t, pool', d')) :
    (t ∈ pool.idle.map (·.2) ∨ (Front.reference d).texture? t = none) ∧ pool'.idle ⊆ pool.idle := by
  unfold acquire at h
  split at h
  · next hidle =>
    cases h
    have hperm := takeIdle?_eq_some hidle
    exact ⟨Or.inl (List.mem_map_of_mem (f := Prod.snd) (hperm.subset List.mem_cons_self)),
      fun e he => hperm.subset (List.mem_cons_of_mem _ he)⟩
  · split at h
    · next hcreate =>
      cases h
      exact ⟨Or.inr (wf.texture?_created (Front.createTexture_ok hcreate)).1, fun e he => he⟩
    · cases h

theorem origin_acquirePair (wf : (Front.reference d).WellFormed) {pair : TextureId × TextureId} {ns : List Notice}
    (h : pool.acquirePair d kind = (.ok pair, pool', d', ns)) {t : TextureId} (ht : t = pair.1 ∨ t = pair.2) :
    t ∈ pool.idle.map (·.2) ∨ (Front.reference d).texture? t = none := by
  obtain ⟨-, pool₁, d₁, hfirst, hsecond⟩ := acquirePair_eq_ok.mp h
  have asked : Reaches (·.Inside ⟨fun _ => False, fun _ => False, fun _ => False⟩) d d₁ := by
    have created := pool.reaches_acquire d kind
    rw [hfirst] at created
    exact created.mono fun _ ⟨_, hop⟩ => hop ▸ trivial
  obtain ⟨horigin, hidle⟩ := origin_acquire wf hfirst
  rcases ht with rfl | rfl
  · exact horigin
  · refine (origin_acquire (asked.wellFormed wf) hsecond).1.imp (fun hwaits => List.map_subset _ hidle hwaits) fun hnone => ?_
    -- What was live before the first texture was lent is live still.
    by_contra hlive
    obtain ⟨x, hx⟩ := Option.ne_none_iff_exists'.mp hlive
    obtain ⟨y, hy, -⟩ := asked.texture hx
    rw [hnone] at hy
    cases hy

end ScratchPool

namespace Stack
variable {δ : Type} [Front δ] {s : Stack} {catalog : Catalog} {d : δ} {pool : ScratchPool} {input : FrameInput}

/-- Of the textures that are live, an application borrows none but those that wait in the pool. -/
theorem idle_of_borrowed (wf : (Front.reference d).WellFormed) {pair : TextureId × TextureId}
    (h : s.borrowed? catalog d pool input = some pair) {t : TextureId} (ht : t = pair.1 ∨ t = pair.2) {x : Texture}
    (hx : (Front.reference d).texture? t = some x) : t ∈ pool.idle.map (·.2) := by
  have prepared : Reaches (·.Inside ⟨(· ∈ s.programs), fun _ => False, fun _ => False⟩) d (s.prepare catalog d pool).device :=
    (s.course_prepare catalog d pool).reaches.mono fun _ prepares => DeviceOp.Prepares.inside prepares
  obtain ⟨y, hy, -⟩ := prepared.texture hx
  unfold borrowed? at h
  split at h
  · cases h
  · next kind _ =>
    dsimp only at h
    split at h
    · cases h
    · rcases hpair : (s.prepare catalog d pool).pool.acquirePair (s.prepare catalog d pool).device
        (kind.resized (frameSize d input kind)) with ⟨e | pair', pool', d', ns⟩ <;> rw [hpair] at h <;> cases h
      refine (ScratchPool.origin_acquirePair (prepared.wellFormed wf) hpair ht).resolve_right ?_
      rw [hy]
      nofun

/-- Whatever is applied, with whatever pool, and whatever fails. No texture is lost or changes its kind. Pixels change
    in the destination and in the two borrowed textures only, so a texture that does not wait in the pool and is not the
    destination keeps its pixels, and the display changes only if there is no destination. A texture is sampled in
    another way only if the result is written from it, or if it is bound to a slot that asks for a sampling of its own.
    Programs of others stay, and so does the stack but for what it has compiled and its random values; and with a
    source that is not live everything stays. -/
theorem apply_confined (used : (Front.reference d).Used) (s : Stack) (catalog : Catalog) (pool : ScratchPool)
    (resolve : Resolver) (input : FrameInput) :
    let a := s.apply catalog d pool resolve input
    let before := Front.reference d
    let after := Front.reference a.device
    (∀ t x, before.texture? t = some x → ∃ y, after.texture? t = some y ∧ y.kind = x.kind ∧
      (input.destination ≠ some t →
        (∀ pair, s.borrowed? catalog d pool input = some pair → pair.1 ≠ t ∧ pair.2 ≠ t) → y.pixels = x.pixels) ∧
      (input.destination ≠ some t → t ∉ pool.idle.map (·.2) → y.pixels = x.pixels) ∧
      (s.shown? catalog d pool resolve input ≠ some t →
        (∀ draw ∈ s.issued catalog d pool resolve input, ¬draw.Resamples t) → y.sampler = x.sampler)) ∧
    (input.destination ≠ none → after.display = before.display) ∧
    (∀ p program, before.program? p = some program → p ∉ s.programs → after.program? p = some program) ∧
    a.stack.entries = s.entries ∧ a.stack.antialias = s.antialias ∧ a.stack.filter = s.filter ∧
    a.stack.nextNumber = s.nextNumber ∧
    (Device.textureKind? d input.source = none → a.stack = s ∧ a.device = d ∧ a.pool = pool) ∧
    after.Used := by
  intro a before after
  have inside : Reaches _ d a.device := s.inside_apply catalog d pool resolve input
  have agrees : s.Agrees a.stack := s.agrees_apply catalog d pool resolve input
  have hdestination : ∀ t, Target.texture t = .ofDestination input.destination → input.destination = some t := by
    intro t ht
    cases hd : input.destination <;> rw [hd] at ht <;> cases ht
    rfl
  refine ⟨fun t x hx => ?_, fun hd => inside.display ?_, fun p program hp hown => inside.program? hown hp,
    agrees.entries, agrees.antialias, agrees.filter, agrees.nextNumber, fun hdead => ?_, used.reaches inside⟩
  · obtain ⟨y, hy, hkind, hpixels, hsampler⟩ := inside.texture hx
    have unwritten : input.destination ≠ some t →
        (∀ pair, s.borrowed? catalog d pool input = some pair → pair.1 ≠ t ∧ pair.2 ≠ t) → y.pixels = x.pixels := by
      refine fun hne hpair => hpixels ?_
      rintro (htarget | ⟨pair, hborrowed, htarget⟩)
      · exact hne (hdestination t htarget)
      · obtain ⟨hne₁, hne₂⟩ := hpair pair hborrowed
        rcases htarget with htarget | htarget <;> cases htarget
        · exact hne₁ rfl
        · exact hne₂ rfl
    refine ⟨y, hy, hkind, unwritten, fun hne hidle => unwritten hne fun pair hborrowed => ?_, fun hshown hasks => hsampler ?_⟩
    · constructor <;> rintro rfl
      · exact hidle (idle_of_borrowed used.wellFormed hborrowed (Or.inl rfl) hx)
      · exact hidle (idle_of_borrowed used.wellFormed hborrowed (Or.inr rfl) hx)
    · rintro (hsome | ⟨draw, hdraw, hresamples⟩)
      · exact hshown hsome
      · exact hasks draw hdraw hresamples
  · rintro (htarget | ⟨pair, -, htarget | htarget⟩)
    · cases hnone : input.destination with
      | none => exact hd hnone
      | some t =>
        rw [hnone] at htarget
        cases htarget
    · cases htarget
    · cases htarget
  · simp only [a, apply_of_dead _ _ _ _ _ hdead, and_self]

end Stack

/-! ### A device that fails once -/

/-- A device with three textures, of which the last is to be drawn into, and a program of somebody else. -/
def ReferenceDevice.gallery : ReferenceDevice :=
  let pictures := ((((ReferenceDevice.new (2, 2)).upload (.solid 1 1 .white)).2).upload (.blank 1 1)).2
  (Device.createTexture (Device.compileProgram pictures "own" "void main()").2 (.rgba8 1 1)).2

theorem ReferenceDevice.gallery_used : gallery.Used :=
  ((((Used.start (2, 2)).upload (.solid 1 1 .white)).upload (.blank 1 1)).run (.compileProgram "own" "void main()")).run
    (.createTexture (.rgba8 1 1))

/-- The first draw fails. The source keeps its pixels, and so does a display that is not drawn to. -/
theorem Stack.apply_confined_gallery :
    let device := (Faulty.of ReferenceDevice.gallery).setFault .draw ⟨0, 1⟩
    let pool : ScratchPool := { ScratchPool.empty with idle := [(.rgba8 1 1, ⟨4⟩)] }
    let stack := ((Stack.new (.fixed (.zero, .zero))).add "ripple").2
    let a := stack.apply (Catalog.rippling ⟨0⟩) device pool (fun _ => none) ⟨⟨1⟩, some ⟨2⟩, none⟩
    let after := Front.reference a.device
    (Front.reference device).Used ∧
      (∃ y, after.texture? ⟨1⟩ = some y ∧ y.kind = .rgba8 1 1 ∧ y.pixels = .solid 1 1 .white) ∧
      after.display = .blank 2 2 ∧ (∃ program, program.label = "own" ∧ after.program? ⟨3⟩ = some program) ∧
      a.stack.entries = stack.entries := by
  intro device pool stack a after
  have used : (Front.reference device).Used := ReferenceDevice.gallery_used
  have picture : (Front.reference device).texture? ⟨1⟩ = some ⟨.rgba8 1 1, .solid 1 1 .white, .initial⟩ := rfl
  have hidle : (⟨1⟩ : TextureId) ∉ pool.idle.map (·.2) := by decide
  have hblank : (Front.reference device).display = .blank 2 2 := rfl
  have hprograms : stack.programs = [] := rfl
  have own : ∃ program, program.label = "own" ∧ (Front.reference device).program? ⟨3⟩ = some program := ⟨_, rfl, rfl⟩
  -- From here on the theorem speaks, not the values.
  clear_value device pool stack
  obtain ⟨htextures, hdisplay, hothers, hentries, -⟩ :=
    apply_confined used stack (Catalog.rippling ⟨0⟩) pool (fun _ => none) ⟨⟨1⟩, some ⟨2⟩, none⟩
  obtain ⟨y, hy, hkind, -, hpixels, -⟩ := htextures ⟨1⟩ _ picture
  obtain ⟨program, hlabel, hprogram⟩ := own
  refine ⟨used, ⟨y, hy, hkind, hpixels (by decide) hidle⟩, (hdisplay nofun).trans hblank, ⟨program, hlabel, ?_⟩, hentries⟩
  exact hothers ⟨3⟩ program hprogram (by rw [hprograms]; exact List.not_mem_nil)

end FxStack
