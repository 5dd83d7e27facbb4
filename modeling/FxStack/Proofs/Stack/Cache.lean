import FxStack.Proofs.Frame.Application
import FxStack.Proofs.Pass.Partition
import FxStack.Proofs.Stack.Edit

/-! What a stack keeps of its last compilation. Compilation sees the handles and names of the entries
    and the catalog, so a change of either must mark the stack or show in the version it was compiled
    from. Main statements: `caches_compile` and `Edited.edit`. -/

namespace FxStack

theorem map_eq_of_forall₂ {α β : Type} {f : α → β} {l l' : List α} (h : List.Forall₂ (fun x y => f x = f y) l l') :
    l.map f = l'.map f := by
  induction h with
  | nil => rfl
  | cons hxy _ ih => rw [List.map_cons, List.map_cons, hxy, ih]

theorem exists_mem_of_forall₂ {α β : Type} {R : α → β → Prop} {l : List α} {l' : List β} (h : List.Forall₂ R l l')
    {x : α} (hx : x ∈ l) : ∃ y ∈ l', R x y := by
  induction h with
  | nil => cases hx
  | @cons a b _ _ hab _ ih =>
    rcases List.mem_cons.mp hx with rfl | hx
    · exact ⟨b, List.mem_cons_self, hab⟩
    · obtain ⟨y, hy, hxy⟩ := ih hx
      exact ⟨y, List.mem_cons_of_mem b hy, hxy⟩

/-! ### Built passes -/

/-- `p` is the pass `q` with its program built, or tried in vain. -/
structure Pass.BuiltFrom (p q : Pass) : Prop where
  members : p.members = q.members
  functions : p.functions = q.functions
  source : p.source = Program.ofPass q

namespace Pass
variable {p q : Pass}

theorem BuiltFrom.firstIndex (h : p.BuiltFrom q) : p.firstIndex = q.firstIndex := by
  unfold Pass.firstIndex
  rw [h.members]

theorem BuiltFrom.declarations (h : p.BuiltFrom q) : p.declarations = q.declarations := by
  unfold Pass.declarations
  rw [h.members]

theorem BuiltFrom.uvCode (h : p.BuiltFrom q) : p.uvCode = q.uvCode := by
  unfold Pass.uvCode
  rw [h.members]

theorem BuiltFrom.colorCode (h : p.BuiltFrom q) : p.colorCode = q.colorCode := by
  unfold Pass.colorCode
  rw [h.members]

theorem BuiltFrom.ofPass_eq (h : p.BuiltFrom q) : Program.ofPass p = Program.ofPass q := by
  unfold Program.ofPass
  rw [h.declarations, h.functions, h.uvCode, h.colorCode]

section
variable {δ : Type} [Device δ]

theorem builtFrom_build (index : Nat) (p : Pass) (device : δ) : (p.build index device).1.BuiltFrom p := by
  unfold build
  dsimp only
  split <;> exact ⟨rfl, rfl, rfl⟩

theorem builtFrom_buildAll (ps : List Pass) :
    ∀ (index : Nat) (device : δ), List.Forall₂ BuiltFrom (buildAll index device ps).1 ps := by
  induction ps with
  | nil => exact fun _ _ => .nil
  | cons p ps ih => exact fun index device => .cons (builtFrom_build index p device) (ih _ _)

end
end Pass

/-! ### What compilation sees of entries -/

/-- The handle and the name of an entry, without its overrides. -/
def Entry.label (e : Entry) : EntryId × String := (e.id, e.name)

theorem Compilation.ofEntries_congr (c : Catalog) {es fs : List Entry} (h : es.map Entry.label = fs.map Entry.label) :
    ofEntries c es = ofEntries c fs := by
  -- Members and issues alike are read off the labels; overrides are not looked at.
  have hmembers : ∀ es, members c es = ((es.map Entry.label).zipIdx).filterMap
      fun l => (c.effect? l.1.2).map (Member.mk l.2 l.1.1) := by
    intro es
    rw [List.zipIdx_map, List.filterMap_map]
    rfl
  have hissues : ∀ es : List Entry, es.zipIdx.flatMap (issuesOf c) = ((es.map Entry.label).zipIdx).flatMap
      fun l => issuesOf c (⟨l.1.1, l.1.2, .empty⟩, l.2) := by
    intro es
    rw [List.zipIdx_map, List.flatMap_map]
    rfl
  unfold ofEntries
  rw [hmembers es, hmembers fs, hissues es, hissues fs, h]

/-! ### Caches -/

namespace Stack
variable {s t : Stack}

/-- The passes and the diagnostics that the stack keeps are those of the entries and the catalog. -/
structure Caches (s : Stack) (c : Catalog) (entries : List Entry) : Prop where
  passes : List.Forall₂ Pass.BuiltFrom s.passes (Compilation.ofEntries c entries).passes
  diagnostics : s.diagnostics = (Compilation.ofEntries c entries).diagnostics

theorem Caches.map_members {c : Catalog} {entries : List Entry} (h : s.Caches c entries) :
    s.passes.map (·.members) = Compilation.runs (Compilation.members c entries) := by
  rw [← Compilation.map_members_passes]
  exact map_eq_of_forall₂ (h.passes.imp fun _ _ hpq => hpq.members)

theorem Caches.of_eq {c : Catalog} {es fs : List Entry} (h : s.Caches c es) (hp : t.passes = s.passes)
    (hd : t.diagnostics = s.diagnostics) (hl : fs.map Entry.label = es.map Entry.label) : t.Caches c fs := by
  have hc := Compilation.ofEntries_congr c hl
  refine ⟨?_, ?_⟩
  · rw [hp, hc]
    exact h.passes
  · rw [hd, hc]
    exact h.diagnostics

section
variable {δ : Type} [Device δ]

theorem caches_compile (s : Stack) (c : Catalog) (device : δ) : (s.compile c device).1.Caches c s.entries :=
  ⟨Pass.builtFrom_buildAll _ 0 _, rfl⟩

end

/-! ### Changes -/

/-- Nothing of the last compilation is touched, and unless the stack is marked it still fits. -/
structure Edited (s t : Stack) : Prop where
  passes : t.passes = s.passes
  diagnostics : t.diagnostics = s.diagnostics
  compiledVersion : t.compiledVersion = s.compiledVersion
  labels : t.dirty = false → s.dirty = false ∧ t.entries.map Entry.label = s.entries.map Entry.label

theorem Edited.refl (s : Stack) : Edited s s := ⟨rfl, rfl, rfl, fun h => ⟨h, rfl⟩⟩

theorem label_updateOverrides (s : Stack) (id : EntryId) (f : KeyMap Value → KeyMap Value) :
    (s.updateOverrides id f).entries.map Entry.label = s.entries.map Entry.label := by
  unfold updateOverrides
  rw [List.map_map]
  refine List.map_congr_left fun e _ => ?_
  dsimp only [Function.comp_apply]
  split <;> rfl

theorem Edited.updateOverrides (s : Stack) (id : EntryId) (f : KeyMap Value → KeyMap Value) :
    Edited s (s.updateOverrides id f) :=
  ⟨rfl, rfl, rfl, fun h => ⟨h, label_updateOverrides s id f⟩⟩

theorem Edited.remove (s : Stack) (id : EntryId) : Edited s (s.remove id).2 := by
  unfold Stack.remove
  split
  · exact .refl s
  · exact ⟨rfl, rfl, rfl, nofun⟩

theorem Edited.move (s : Stack) (id : EntryId) (offset : Int) : Edited s (s.move id offset).2 := by
  unfold Stack.move
  split
  · exact .refl s
  · dsimp only
    split
    · exact .refl s
    · split
      · exact .refl s
      · exact ⟨rfl, rfl, rfl, nofun⟩

theorem Edited.clear (s : Stack) : Edited s s.clear := by
  unfold Stack.clear
  split
  · exact .refl s
  · exact ⟨rfl, rfl, rfl, nofun⟩

theorem Edited.setOverride (s : Stack) (id : EntryId) (key : String) (value : Value) :
    Edited s ((s.setOverride id key value).toOption.getD s) := by
  cases h : s.setOverride id key value with
  | error e => exact .refl s
  | ok t =>
    obtain ⟨-, -, rfl⟩ := setOverride_eq_ok.mp h
    exact .updateOverrides s id fun m => m.insert key value

/-- Every change of the list marks the stack. -/
theorem Edited.edit (s : Stack) (e : Edit) : Edited s (s.edit e) := by
  cases e with
  | add name => exact ⟨rfl, rfl, rfl, nofun⟩
  | remove id => exact .remove s id
  | move id offset => exact .move s id offset
  | clear => exact .clear s
  | markDirty => exact ⟨rfl, rfl, rfl, nofun⟩
  | load saved => exact ⟨rfl, rfl, rfl, nofun⟩
  | setOverride id key value => exact .setOverride s id key value
  | clearOverride id key => exact .updateOverrides s id fun m => m.erase key
  | setAntialias on => exact ⟨rfl, rfl, rfl, fun h => ⟨h, rfl⟩⟩
  | setFilter on => exact ⟨rfl, rfl, rfl, fun h => ⟨h, rfl⟩⟩
  | setRandom random => exact ⟨rfl, rfl, rfl, fun h => ⟨h, rfl⟩⟩

end Stack
end FxStack
