import FxStack.Proofs.Frame.Alternation
import FxStack.Proofs.Program.Assembly
import FxStack.Proofs.Stack.Acceptance
import FxStack.Proofs.Stack.Session

/-! Frames that are drawn to the end. Where a catalog is balanced and nothing is rejected, every pass has a program; and
    where every pass has a program and the frame has pixels, every pass is drawn. Main statement:
    `Catalog.Balanced.completes`. -/

namespace FxStack

/-- The report says that all passes of the frame have been drawn. -/
structure Report.Completed (r : Report) : Prop where
  executed : r.passesExecuted = r.passCount
  notAborted : r.abortedAt = none

/-! ### Programs for all passes -/

theorem Compilation.accepts_ofPass {c : Catalog} (hc : c.Built) (hb : c.Balanced) {entries : List Entry} {p : Pass}
    (hp : p ∈ (ofEntries c entries).passes) {d : ReferenceDevice} (hd : d.failMarkers = []) :
    d.Accepts (Program.ofPass p) := by
  refine ⟨fun m hm => ?_, Program.occursIn_ofPass p, check_ofPass hc hb hp⟩
  rw [hd] at hm
  cases hm

namespace Stack
variable {s : Stack} {catalog : Catalog} {d : ReferenceDevice} {pool : ScratchPool} {input : FrameInput}

/-- The stack has been used with the catalog, among others, and with one device and one pool of its textures. -/
structure Situated (s : Stack) (catalog : Catalog) (d : ReferenceDevice) (pool : ScratchPool) : Prop where
  session : ∃ w : Session, w.Reachable ∧ w.stack = s ∧ ∃ place, w.shelf.catalog? place = some catalog
  studio : ∃ w : Studio, w.Reachable ∧ w.device = d ∧ ∃ u ∈ w.tenants, u.stack = s
  rig : Rig.Reachable ⟨d, pool⟩

theorem Caches.built {entries : List Entry} (h : s.Caches catalog entries) (served : Served d s.passes)
    (hc : catalog.Built) (hb : catalog.Balanced) (hd : d.failMarkers = []) : ∀ p ∈ s.passes, p.program ≠ none := by
  intro p hp
  obtain ⟨q, hq, built⟩ := exists_mem_of_forall₂ h.passes hp
  refine served p hp ?_
  rw [built.source]
  exact Compilation.accepts_ofPass hc hb hq hd

/-- The passes that a stack is about to draw have their programs, whenever they were compiled. -/
theorem Situated.built (h : s.Situated catalog d pool) (hc : catalog.Built) (hb : catalog.Balanced)
    (hd : d.failMarkers = []) : ∀ p ∈ (s.prepare catalog d pool).stack.passes, p.program ≠ none := by
  obtain ⟨v, hv, rfl, place, hplace⟩ := h.session
  obtain ⟨w, hw, rfl, u, hu, hstack⟩ := h.studio
  have cached := hv.inv.coherent.caches_prepare hplace w.device pool
  have served := v.stack.served_prepare catalog w.device pool (hstack ▸ hw.served u hu)
  exact cached.built served hc hb hd

/-! ### Passes that are all drawn -/

/-- A stack without passes has none to draw. -/
theorem completed_of_nil (resolve : Resolver) {source : TextureKind}
    (hsource : Device.textureKind? d input.source = some source) (hpasses : (s.prepare catalog d pool).stack.passes = []) :
    (s.apply catalog d pool resolve input).report.Completed := by
  have happly := apply_of_live s catalog d pool resolve hsource
  dsimp only at happly
  rw [if_pos (by rw [hpasses]; rfl)] at happly
  obtain ⟨errors, hreport⟩ :=
    (Application.ends_finish (s.prepare catalog d pool) input.source input.destination).report
  have hcount : (s.prepare catalog d pool).report.passCount = (s.prepare catalog d pool).stack.passes.length := rfl
  rw [happly, hreport]
  exact ⟨by rw [hcount, hpasses]; rfl, rfl⟩

section
variable {pair : TextureId × TextureId} {resolve : Resolver} {c : FrameContext} {f g : Frame ReferenceDevice}
  {b : Application ReferenceDevice}

theorem Runs.completed (h : s.Runs catalog d pool resolve input pair c f g b)
    (equipped : f.Equipped (s.prepare catalog d pool).stack.passes)
    (built : ∀ p ∈ (s.prepare catalog d pool).stack.passes, p.program ≠ none) :
    (s.apply catalog d pool resolve input).report.Completed := by
  obtain ⟨n, stops⟩ := c.stops_runPasses (s.prepare catalog d pool).stack.passes 0 f
  have hfind : (s.prepare catalog d pool).stack.passes.findIdx? (·.program.isNone) = none := by
    refine List.findIdx?_eq_none_iff.mpr fun p hp => ?_
    rw [Option.isNone_eq_false_iff, Option.isSome_iff_ne_none]
    exact built p hp
  obtain ⟨habort, hstart⟩ := h.abortedAt
  rw [h.ran, stops.abortedAt c equipped, hfind, hstart] at habort
  rcases h.ended stops with ⟨hn, -, -⟩ | ⟨-, -, hsome, -⟩
  · exact ⟨by rw [h.passesExecuted stops, h.passCount, h.passes, hn], habort⟩
  · cases habort.symm.trans hsome

end

/-- Every pass of a frame with pixels is drawn if it has a program. -/
theorem Situated.completed (h : s.Situated catalog d pool) (resolve : Resolver) {source : TextureKind}
    (hsource : Device.textureKind? d input.source = some source)
    (hsize : (frameSize d input source).1 ≠ 0 ∧ (frameSize d input source).2 ≠ 0)
    (built : ∀ p ∈ (s.prepare catalog d pool).stack.passes, p.program ≠ none) :
    (s.apply catalog d pool resolve input).report.Completed := by
  by_cases hpasses : (s.prepare catalog d pool).stack.passes = []
  · exact completed_of_nil resolve hsource hpasses
  obtain ⟨w, hw, rfl, u, hu, rfl⟩ := h.studio
  obtain ⟨place, hplace⟩ := List.getElem?_of_mem hu
  have inv := h.rig.inv
  obtain ⟨pair, borrows⟩ := borrows_of_drawable inv.wellFormed inv.backed hsource hsize hpasses
  obtain ⟨c, f, g, b, runs, kind, pool', lent, ns, hpair, hcopy⟩ := borrows.runs resolve
  have equipped := equipped_of_borrowed inv.wellFormed inv.backed (hw.inv.lists_tenant hplace) runs.first runs.second
    hpair hcopy
  exact runs.completed equipped built

/-- A frame has the size of its destination or of its source. -/
theorem frameSize_ne_zero {source : TextureKind} (hsource : source.width ≠ 0 ∧ source.height ≠ 0)
    (hdestination : ∀ t kind, input.destination = some t → Device.textureKind? d t = some kind →
      kind.width ≠ 0 ∧ kind.height ≠ 0) :
    (frameSize d input source).1 ≠ 0 ∧ (frameSize d input source).2 ≠ 0 := by
  unfold frameSize
  cases ht : input.destination with
  | none => exact hsource
  | some t =>
    cases hkind : Device.textureKind? d t with
    | none =>
      rw [Option.bind_some, hkind]
      exact hsource
    | some kind =>
      rw [Option.bind_some, hkind]
      exact hdestination t kind ht hkind

theorem Situated.passCount (h : s.Situated catalog d pool) (resolve : Resolver)
    (live : (Device.textureKind? d input.source).isSome) :
    (s.apply catalog d pool resolve input).report.passCount = (Compilation.ofEntries catalog s.entries).passes.length := by
  obtain ⟨v, hv, rfl, place, hplace⟩ := h.session
  have cached := hv.inv.coherent.caches_prepare hplace d pool
  rw [(v.stack.continues_apply catalog d pool resolve live).passCount]
  exact cached.passes.length_eq

end Stack

/-! ### Balanced catalogs -/

/-- With a balanced catalog the program of every pass has a main function and well-nested brackets, so a device that
    rejects nothing has a program for every pass of every list of entries. Where the source has pixels, and the
    destination too if it is live, every pass is drawn. Whether a fragment is balanced does not depend on its position. -/
theorem Catalog.Balanced.completes {catalog : Catalog} (hb : catalog.Balanced) (hc : catalog.Built) :
    (∀ entries, ∀ p ∈ (Compilation.ofEntries catalog entries).passes,
      Text.occursIn "void main()".toList (Program.ofPass p).toList = true ∧
        Brackets.check (Program.ofPass p).toList = .ok ()) ∧
    (∀ (s : Stack) (d : ReferenceDevice), d.failMarkers = [] →
      (s.compile catalog d).1.passes.length = (Compilation.ofEntries catalog s.entries).passes.length ∧
        ∀ p ∈ (s.compile catalog d).1.passes, p.program ≠ none) ∧
    (∀ (s : Stack) (d : ReferenceDevice) (pool : ScratchPool) (resolve : Resolver) (input : FrameInput)
      (source : TextureKind), s.Situated catalog d pool → d.failMarkers = [] →
      Device.textureKind? d input.source = some source → source.width ≠ 0 ∧ source.height ≠ 0 →
      (∀ t kind, input.destination = some t → Device.textureKind? d t = some kind →
        kind.width ≠ 0 ∧ kind.height ≠ 0) →
      (s.apply catalog d pool resolve input).report.passCount =
          (Compilation.ofEntries catalog s.entries).passes.length ∧
        (s.apply catalog d pool resolve input).report.Completed) ∧
    (∀ (t : Template) (i j : Nat),
      Brackets.check (t.instantiate i).toList = Brackets.check (t.instantiate j).toList) := by
  refine ⟨fun entries p hp => ⟨Program.occursIn_ofPass p, Compilation.check_ofPass hc hb hp⟩, fun s d hd => ?_,
    fun s d pool resolve input source situated hd hsource hpixels hdestination => ?_,
    Template.check_instantiate⟩
  · have cached := s.caches_compile catalog d
    exact ⟨cached.passes.length_eq, cached.built (s.served_compile catalog d) hc hb hd⟩
  · have hsize := Stack.frameSize_ne_zero hpixels hdestination
    exact ⟨situated.passCount resolve (Option.isSome_of_eq_some hsource),
      situated.completed resolve hsource hsize (situated.built hc hb hd)⟩

/-! ### An effect with brackets -/

/-- An effect with brackets in its code, in comments at the ends of lines, and in a function. -/
def Effect.halving : Effect :=
  { ofCode (.ofMarked '@'
      "float half@ = halve(color.r); // (\n  if (half@ > 0.25) \x7b // \x7d ]\n  color.rgb *= half@; \x7d") with
    functions := ["halve"]
    breaksPass := true }

theorem Effect.halving_balanced : halving.Balanced := by
  refine ⟨fun i => ?_, nofun⟩
  rw [Template.check_instantiate _ i 0]
  unfold halving Template.ofMarked
  rw [String.toList_ofList]
  decide +kernel

namespace Catalog

def halve : String := "float halve(float x) \x7b\n  return 0.5 * x;\n\x7d"

/-- The catalog of that effect and its function. -/
def halving (id : CatalogId) : Catalog :=
  { empty id with
    functions := KeyMap.empty.insert "halve" halve
    effects := KeyMap.empty.insert "halving" (Effect.halving.named "halving")
    generation := 2 }

theorem register_halving (id : CatalogId) :
    ((empty id).registerFunction "halve" halve).register "halving" Effect.halving = .ok (none, halving id) :=
  register_eq_ok.mpr ⟨Effect.validate_eq_ok.mp rfl, rfl, rfl⟩

theorem halving_built (id : CatalogId) : (halving id).Built :=
  .register (.registerFunction _ _ (.empty id)) (register_halving id)

theorem halving_balanced (id : CatalogId) : (halving id).Balanced := by
  have accepted : Brackets.check halve.toList = .ok () := by
    unfold halve
    rw [String.toList_ofList]
    decide +kernel
  exact ((Balanced.empty id).registerFunction accepted).register (register_halving id) (by decide) Effect.halving_balanced

end Catalog

/-- A stack with one entry of the effect. -/
def Stack.halving : Stack := (new (.fixed (.zero, .zero))).edit (.add "halving")

theorem Stack.situated_halving : halving.Situated (Catalog.halving ⟨0⟩) Rig.pair.device Rig.pair.pool := by
  have hsession : Session.Reachable ⟨((Shelf.initial.step 0 .create).step 0 (.registerFunction "halve" Catalog.halve)).step 0
      (.register "halving" Effect.halving), halving⟩ :=
    .edit (.add "halving") (.catalog 0 (.register "halving" Effect.halving)
      (.catalog 0 (.registerFunction "halve" Catalog.halve) (.catalog 0 .create (.start _))))
  have hstudio : Studio.Reachable ⟨Rig.pair.device, [⟨halving, 0⟩], []⟩ :=
    ((((Studio.Reachable.start (2, 2)).step (.upload (.solid 1 1 .white))).step (.upload (.blank 1 1))).step
      (.create (.fixed (.zero, .zero)))).step (.edit 0 (.add "halving"))
  refine ⟨⟨_, hsession, rfl, 0, ?_⟩, ⟨_, hstudio, rfl, _, List.mem_cons_self, rfl⟩, Rig.pair_reachable⟩
  have hr := Catalog.register_halving ⟨0⟩
  simp only [Shelf.step, Shelf.make, Shelf.change, Shelf.put, Shelf.initial, Identities.next, Identities.initial, if_true,
    Option.map_some, hr, Except.map]

/-- One entry is compiled to one program, and drawn to the display and to the other texture. -/
theorem Catalog.Balanced.completes_halving :
    (Catalog.halving ⟨0⟩).Built ∧ (Catalog.halving ⟨0⟩).Balanced ∧
      Stack.halving.Situated (Catalog.halving ⟨0⟩) Rig.pair.device Rig.pair.pool ∧ Rig.pair.device.failMarkers = [] ∧
      (Stack.halving.compile (Catalog.halving ⟨0⟩) Rig.pair.device).1.passes.length = 1 ∧
      (∀ p ∈ (Stack.halving.compile (Catalog.halving ⟨0⟩) Rig.pair.device).1.passes, p.program ≠ none) ∧
      ∀ destination ∈ [none, some ⟨2⟩], (Stack.halving.apply (Catalog.halving ⟨0⟩) Rig.pair.device Rig.pair.pool
        (fun _ => none) ⟨⟨1⟩, destination, none⟩).report.passesExecuted = 1 := by
  have hone : (Compilation.ofEntries (Catalog.halving ⟨0⟩) Stack.halving.entries).passes.length = 1 := rfl
  obtain ⟨-, compiled, completed, -⟩ := completes (Catalog.halving_balanced ⟨0⟩) (Catalog.halving_built ⟨0⟩)
  obtain ⟨hlength, hprograms⟩ := compiled Stack.halving Rig.pair.device rfl
  refine ⟨Catalog.halving_built ⟨0⟩, Catalog.halving_balanced ⟨0⟩, Stack.situated_halving, rfl, hlength.trans hone,
    hprograms, fun destination hmem => ?_⟩
  have hdrawable : ∀ t kind, destination = some t → Device.textureKind? Rig.pair.device t = some kind →
      kind.width ≠ 0 ∧ kind.height ≠ 0 := by
    rintro t kind rfl hkind
    obtain rfl : t = ⟨2⟩ := by simpa using hmem
    obtain rfl : TextureKind.rgba8 1 1 = kind := Option.some.inj hkind
    decide
  obtain ⟨hcount, hall⟩ := completed Stack.halving Rig.pair.device Rig.pair.pool (fun _ => none)
    ⟨⟨1⟩, destination, none⟩ (.rgba8 1 1) Stack.situated_halving rfl rfl (by decide) hdrawable
  exact hall.executed.trans (hcount.trans hone)

end FxStack
