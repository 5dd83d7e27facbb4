import FxStack.Device.Reference
import FxStack.Proofs.Catalog.Shelf
import FxStack.Proofs.Stack.Cache

/-! A stack among catalogs that change, over a whole run. Main statement: whenever a stack is not stale for
    a catalog, its passes are those of a new compilation; so what an application draws is always compiled
    from the entries and the catalog as they are. -/

namespace FxStack

/-- A stack and the catalogs of its program. -/
structure Session where
  shelf : Shelf
  stack : Stack

namespace Session

/-- The sessions that a program comes to. Every compilation and application may use another device, pool and
    catalog, each in the state it then is in. -/
inductive Reachable : Session → Prop
  | start (random : Generator) : Reachable ⟨.initial, .new random⟩
  | catalog {w : Session} (place : Nat) (op : CatalogOp) :
      Reachable w → Reachable { w with shelf := w.shelf.step place op }
  | edit {w : Session} (e : Stack.Edit) : Reachable w → Reachable { w with stack := w.stack.edit e }
  | compile {w : Session} {place : Nat} {c : Catalog} {δ : Type} [Device δ] (device : δ) :
      w.shelf.catalog? place = some c → Reachable w → Reachable { w with stack := (w.stack.compile c device).1 }
  | apply {w : Session} {place : Nat} {c : Catalog} {δ : Type} [Device δ] (device : δ) (pool : ScratchPool)
      (resolve : Resolver) (input : FrameInput) : w.shelf.catalog? place = some c → Reachable w →
      Reachable { w with stack := (w.stack.apply c device pool resolve input).stack }

/-! ### Coherence -/

/-- The version that a stack was compiled from belongs to a remembered state of a catalog, and an unmarked
    stack keeps what that state gives. -/
def Coherent (shelf : Shelf) (s : Stack) : Prop :=
  ∀ v, s.compiledVersion = some v →
    ∃ c : Catalog, c.version = v ∧ shelf.Remembers c ∧ (s.dirty = false → s.Caches c s.entries)

theorem Coherent.step {shelf : Shelf} {s : Stack} (h : Coherent shelf s) (place : Nat) (op : CatalogOp) :
    Coherent (shelf.step place op) s := by
  intro v hv
  obtain ⟨c, hc, hmem, hcache⟩ := h v hv
  exact ⟨c, hc, hmem.step place op, hcache⟩

theorem Coherent.edited {shelf : Shelf} {s t : Stack} (h : Coherent shelf s) (he : Stack.Edited s t) :
    Coherent shelf t := by
  intro v hv
  obtain ⟨c, hc, hmem, hcache⟩ := h v (he.compiledVersion ▸ hv)
  refine ⟨c, hc, hmem, fun clean => ?_⟩
  obtain ⟨hs, hlabels⟩ := he.labels clean
  exact (hcache hs).of_eq he.passes he.diagnostics hlabels

/-- A stack that is not stale for a catalog on the shelf keeps what the catalog gives: the version tells the
    state. -/
theorem Coherent.caches {shelf : Shelf} {s : Stack} (h : Coherent shelf s) {place : Nat} {c : Catalog}
    (hc : shelf.catalog? place = some c) (fresh : s.isStale c = false) : s.Caches c s.entries := by
  simp only [Stack.isStale, Bool.or_eq_false_iff, bne_eq_false_iff_eq] at fresh
  obtain ⟨⟨clean, -⟩, hv⟩ := fresh
  obtain ⟨d, hd, hmem, hcache⟩ := h c.version hv
  -- The version tells the state, so the one remembered is the catalog as it stands.
  obtain rfl := hmem.same place c hc hd.symm
  exact hcache clean

section
variable {δ : Type} [Device δ]

theorem Coherent.compile {shelf : Shelf} (hs : shelf.Inv) {place : Nat} {c : Catalog}
    (hc : shelf.catalog? place = some c) (s : Stack) (device : δ) : Coherent shelf (s.compile c device).1 := by
  intro v hv
  exact ⟨c, Option.some.inj hv, hs.remembers hc, fun _ => Stack.caches_compile s c device⟩

theorem Coherent.prepare {shelf : Shelf} {s : Stack} (h : Coherent shelf s) (hs : shelf.Inv) {place : Nat}
    {c : Catalog} (hc : shelf.catalog? place = some c) (device : δ) (pool : ScratchPool) :
    Coherent shelf (s.prepare c device pool).stack := by
  rw [Stack.prepare_stack]
  split
  · exact .compile hs hc _ device
  · exact h.edited (.edit s (.setRandom _))

/-- The passes that are about to be drawn are those of the entries and the catalog. -/
theorem Coherent.caches_prepare {shelf : Shelf} {s : Stack} (h : Coherent shelf s) {place : Nat} {c : Catalog}
    (hc : shelf.catalog? place = some c) (device : δ) (pool : ScratchPool) :
    (s.prepare c device pool).stack.Caches c s.entries := by
  rw [Stack.prepare_stack]
  split
  · exact Stack.caches_compile _ c device
  · next fresh => exact (h.caches hc (Bool.eq_false_iff.mpr fresh)).of_eq rfl rfl rfl

end

theorem Coherent.continues {δ : Type} {shelf : Shelf} {a b : Application δ} (h : Coherent shelf a.stack)
    (hab : Application.Continues a b) : Coherent shelf b.stack := by
  obtain ⟨p, hp⟩ := hab.stack
  rw [hp]
  exact h.edited ⟨rfl, rfl, rfl, fun clean => ⟨clean, rfl⟩⟩

/-! ### Runs -/

/-- What holds of every session: catalogs are told apart by their versions, entries by their handles, and the
    stack fits the version it was compiled from. -/
structure Inv (w : Session) : Prop where
  shelf : w.shelf.Inv
  numbered : w.stack.Numbered
  coherent : Coherent w.shelf w.stack

/-- Without a live source an application changes nothing, and else it prepares the stack. -/
theorem Inv.apply {w : Session} (inv : w.Inv) {place : Nat} {c : Catalog} (hc : w.shelf.catalog? place = some c)
    {δ : Type} [Device δ] (device : δ) (pool : ScratchPool) (resolve : Resolver) (input : FrameInput) :
    Inv { w with stack := (w.stack.apply c device pool resolve input).stack } := by
  cases hkind : Device.textureKind? device input.source with
  | none =>
    rw [Stack.apply_of_dead _ _ _ _ _ hkind]
    exact inv
  | some kind =>
    have live : (Device.textureKind? device input.source).isSome := by rw [hkind]; rfl
    have later := w.stack.continues_apply c device pool resolve live
    exact ⟨inv.shelf, inv.numbered.of_eq (w.stack.entries_apply c device pool resolve input)
      (w.stack.nextNumber_apply c device pool resolve input),
      (inv.coherent.prepare inv.shelf hc device pool).continues later⟩

theorem Reachable.inv {w : Session} (h : w.Reachable) : w.Inv := by
  induction h with
  | start random => exact ⟨Shelf.Inv.initial, .new random, nofun⟩
  | catalog place op _ ih => exact ⟨ih.shelf.step place op, ih.numbered, ih.coherent.step place op⟩
  | edit e _ ih => exact ⟨ih.shelf, ih.numbered.edit e, ih.coherent.edited (.edit _ e)⟩
  | compile device hc _ ih => exact ⟨ih.shelf, ih.numbered.of_eq rfl rfl, .compile ih.shelf hc _ device⟩
  | apply device pool resolve input hc _ ih => exact ih.apply hc device pool resolve input

/-- What an application with a live source has drawn is what compiling the entries with the catalog gives,
    and a stack that is not stale keeps just that. -/
theorem apply_coherent {w : Session} (h : w.Reachable) {place : Nat} {c : Catalog}
    (hc : w.shelf.catalog? place = some c) {δ : Type} [Device δ] (device : δ) (pool : ScratchPool)
    (resolve : Resolver) (input : FrameInput) (live : (Device.textureKind? device input.source).isSome) :
    let compilation := Compilation.ofEntries c w.stack.entries
    let agrees := fun p q : Pass => p.members = q.members ∧ p.firstIndex = q.firstIndex ∧
      p.declarations = q.declarations ∧ p.uvCode = q.uvCode ∧ p.colorCode = q.colorCode ∧
      p.functions = q.functions ∧ p.source = Program.ofPass p
    let a := w.stack.apply c device pool resolve input
    (a.stack.entries = w.stack.entries ∧
      a.stack.passes = (w.stack.prepare c device pool).stack.passes ∧
      List.Forall₂ agrees a.stack.passes compilation.passes ∧
      a.stack.diagnostics = compilation.diagnostics) ∧
    (w.stack.isStale c = false →
      List.Forall₂ agrees w.stack.passes compilation.passes ∧ w.stack.diagnostics = compilation.diagnostics) := by
  intro compilation agrees a
  have inv := h.inv
  have later := w.stack.continues_apply c device pool resolve live
  have agreement : ∀ {p q : Pass}, p.BuiltFrom q → agrees p q := fun b =>
    ⟨b.members, b.firstIndex, b.declarations, b.uvCode, b.colorCode, b.functions, b.source.trans b.ofPass_eq.symm⟩
  have drawn : a.stack.Caches c w.stack.entries := by
    obtain ⟨p, hp⟩ := later.stack
    refine (inv.coherent.caches_prepare hc device pool).of_eq later.passes ?_ rfl
    rw [hp]
  refine ⟨⟨?_, later.passes, drawn.passes.imp fun _ _ => agreement, drawn.diagnostics⟩, fun fresh => ?_⟩
  · exact later.entries.trans (Stack.entries_prepare _ _ _ _)
  · have kept := inv.coherent.caches hc fresh
    exact ⟨kept.passes.imp fun _ _ => agreement, kept.diagnostics⟩

/-! ### A session with one entry -/

/-- A catalog with one effect, and a stack with one entry of it. -/
def rippled : Session where
  shelf := (Shelf.initial.step 0 .create).step 0 (.register "ripple" Effect.ripple)
  stack := (Stack.new (.fixed (.zero, .zero))).edit (.add "ripple")

theorem rippled_reachable : rippled.Reachable :=
  .edit (.add "ripple") (.catalog 0 (.register "ripple" Effect.ripple) (.catalog 0 .create (.start _)))

theorem catalog?_rippled : rippled.shelf.catalog? 0 = some (Catalog.rippling ⟨0⟩) := by
  have hr := Catalog.register_ripple ⟨0⟩
  simp only [rippled, Shelf.step, Shelf.make, Shelf.change, Shelf.put, Shelf.initial, Identities.next,
    Identities.initial, if_true, Option.map_some, hr, Except.map]

/-- The stack has not been compiled before, and its effect names a function that is nowhere. -/
theorem apply_coherent_rippled :
    let device := ((ReferenceDevice.new (2, 2)).upload (.solid 1 1 .white)).2
    rippled.Reachable ∧ rippled.shelf.catalog? 0 = some (Catalog.rippling ⟨0⟩) ∧
      (Device.textureKind? device ⟨1⟩).isSome ∧
      (let a := rippled.stack.apply (Catalog.rippling ⟨0⟩) device .empty (fun _ => none) ⟨⟨1⟩, none, none⟩
      a.stack.diagnostics = ⟨[], [(0, "wave")]⟩ ∧
        a.stack.passes.map (·.members) = [[⟨0, ⟨1⟩, Effect.ripple.named "ripple"⟩]]) := by
  intro device
  have h := apply_coherent rippled_reachable catalog?_rippled device .empty (fun _ => none) ⟨⟨1⟩, none, none⟩ rfl
  refine ⟨rippled_reachable, catalog?_rippled, rfl, h.1.2.2.2, ?_⟩
  exact (map_eq_of_forall₂ (h.1.2.2.1.imp fun _ _ hpq => hpq.1)).trans (Compilation.map_members_passes _ _)

end Session
end FxStack
