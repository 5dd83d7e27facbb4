import FxStack.Proofs.Catalog.Registration
import FxStack.Proofs.Stack.Holdings

/-! Stacks that share a device, over a whole run. The programs of the device are those that the stacks keep,
    each kept once, and those that somebody else has on it; so recompiling leaves nothing behind and takes
    nothing away that is in use. Main statement: `Studio.programs_kept`. -/

namespace FxStack

open Device (Course Reaches)
open DeviceOp (SparesPrograms)

/-! ### How often the antialias program is compiled -/

namespace Watched

/-- How often a program has been compiled under the label. -/
def timesCompiled {δ : Type} (d : Watched δ) (label : String) : Nat := d.calls.countP (·.compiles label)

variable {δ : Type} [Device δ] {d d' : Watched δ}

theorem timesCompiled_run (op : DeviceOp) (d : Watched δ) (label : String) :
    (op.run d).timesCompiled label = d.timesCompiled label + if op.compiles label then 1 else 0 := by
  unfold timesCompiled
  rw [run_eq, List.countP_append, List.countP_singleton]

theorem timesCompiled_reaches {label : String} (h : Reaches (·.compiles label = false) d d') :
    d'.timesCompiled label = d.timesCompiled label := by
  refine h.keeps (I := fun x => x.timesCompiled label = d.timesCompiled label) rfl fun op x hop hx => ?_
  rw [timesCompiled_run, hop]
  exact hx

theorem timesCompiled_spares (h : Reaches SparesPrograms d d') (label : String) :
    d'.timesCompiled label = d.timesCompiled label :=
  timesCompiled_reaches (h.mono fun _ hop => hop.compiles label)

end Watched

/-- How often the program has been compiled, to come to this state. -/
def AntialiasProgram.tries : AntialiasProgram → Nat
  | .notBuilt => 0
  | .ready _ | .failed => 1

theorem AntialiasProgram.tries_le_one (p : AntialiasProgram) : p.tries ≤ 1 := by cases p <;> simp [tries]

section
variable {δ : Type} [Device δ]

/-- Only the first of all calls for the antialias program compiles it. -/
theorem Application.tries_ensureAntialias (a : Application (Watched δ)) :
    a.ensureAntialias.2.device.timesCompiled Program.antialiasLabel + a.stack.antialiasProgram.tries =
      a.device.timesCompiled Program.antialiasLabel + a.ensureAntialias.2.stack.antialiasProgram.tries := by
  unfold ensureAntialias
  split
  · rfl
  · rfl
  · next hslot =>
    have compiled := Watched.timesCompiled_run (.compileProgram Program.antialiasLabel Program.antialias) a.device
      Program.antialiasLabel
    simp only [DeviceOp.run, DeviceOp.compiles, decide_true, if_true] at compiled
    rw [hslot]
    split
    · next hd =>
      rw [hd] at compiled
      exact compiled
    · next hd =>
      rw [hd] at compiled
      exact compiled

theorem Application.tries_finish (a : Application (Watched δ)) (t : TextureId) (destination : Option TextureId) :
    (a.finish t destination).device.timesCompiled Program.antialiasLabel + a.stack.antialiasProgram.tries =
      a.device.timesCompiled Program.antialiasLabel + (a.finish t destination).stack.antialiasProgram.tries := by
  have sampled : Reaches SparesPrograms a.device (Device.setSampler a.device t a.finalSampling) :=
    .one (.setSampler t _) trivial rfl
  have ended := (a.proceeds_finish t destination).mono fun _ shows => shows.spares
  rw [ended.stack, Watched.timesCompiled_spares ended.reaches, ← Watched.timesCompiled_spares sampled]
  unfold smoothed
  split
  · exact tries_ensureAntialias { a with device := Device.setSampler a.device t a.finalSampling }
  · rfl

namespace Stack
variable (s : Stack) (catalog : Catalog) (d : Watched δ)

theorem timesCompiled_compile :
    (s.compile catalog d).2.1.timesCompiled Program.antialiasLabel = d.timesCompiled Program.antialiasLabel :=
  Watched.timesCompiled_reaches ((s.course_compile catalog d).reaches.mono fun _ prepares => prepares.plain)

theorem tries_apply (pool : ScratchPool) (resolve : Resolver) (input : FrameInput) :
    (s.apply catalog d pool resolve input).device.timesCompiled Program.antialiasLabel + s.antialiasProgram.tries =
      d.timesCompiled Program.antialiasLabel +
        (s.apply catalog d pool resolve input).stack.antialiasProgram.tries := by
  cases hkind : Device.textureKind? d input.source with
  | none => rw [apply_of_dead _ _ _ _ _ hkind]
  | some kind =>
    obtain ⟨b, t, hb, hstack, hdevice⟩ := s.apply_proceeds catalog pool resolve hkind
    have prepared := Watched.timesCompiled_reaches ((s.course_prepare catalog d pool).reaches.mono fun _ prepares => prepares.plain)
    have hslot : b.stack.antialiasProgram = s.antialiasProgram := by rw [hb.stack, antialiasProgram_prepare]
    rw [hstack, hdevice, ← hslot, ← prepared, ← Watched.timesCompiled_spares hb.reaches]
    exact b.tries_finish t input.destination

end Stack
end

/-! ### Changes of a stack -/

/-- No change of its list takes a program from a stack. -/
theorem Stack.programs_edit (s : Stack) (e : Edit) :
    (s.edit e).passes = s.passes ∧ (s.edit e).antialiasProgram = s.antialiasProgram := by
  cases e with
  | add name => exact ⟨rfl, rfl⟩
  | remove id =>
    simp only [edit, remove]
    split <;> exact ⟨rfl, rfl⟩
  | move id offset =>
    simp only [edit, move]
    split
    · exact ⟨rfl, rfl⟩
    · split
      · exact ⟨rfl, rfl⟩
      · split <;> exact ⟨rfl, rfl⟩
  | clear =>
    simp only [edit, clear]
    split <;> exact ⟨rfl, rfl⟩
  | markDirty => exact ⟨rfl, rfl⟩
  | load saved => exact ⟨rfl, rfl⟩
  | setOverride id key value =>
    cases h : s.setOverride id key value with
    | error e =>
      simp only [edit, h]
      exact ⟨rfl, rfl⟩
    | ok t =>
      obtain ⟨-, -, rfl⟩ := setOverride_eq_ok.mp h
      simp only [edit, h]
      exact ⟨rfl, rfl⟩
  | clearOverride id key => exact ⟨rfl, rfl⟩
  | setAntialias on => exact ⟨rfl, rfl⟩
  | setFilter on => exact ⟨rfl, rfl⟩
  | setRandom random => exact ⟨rfl, rfl⟩

/-! ### Studios -/

/-- A stack, and how often it has compiled its antialias program. -/
structure Tenant where
  stack : Stack
  builds : Nat

/-- A device, the stacks that use it, and the programs that somebody else has on it. -/
structure Studio where
  device : ReferenceDevice
  tenants : List Tenant
  others : List Holding

namespace Studio

def holdings (w : Studio) : List Holding := w.tenants.flatMap (·.stack.holdings)

def watched (w : Studio) : Watched ReferenceDevice := ⟨w.device, []⟩

/-- The studio after the tenant at `place` has used the device. -/
def turn (w : Studio) (place : Nat) (u : Tenant) (s : Stack) (d : Watched ReferenceDevice) : Studio :=
  { w with
    device := d.inner
    tenants := w.tenants.set place ⟨s, u.builds + d.timesCompiled Program.antialiasLabel⟩ }

def edit (w : Studio) (place : Nat) (e : Stack.Edit) : Studio :=
  match w.tenants[place]? with
  | none => w
  | some u => { w with tenants := w.tenants.set place { u with stack := u.stack.edit e } }

def compile (w : Studio) (place : Nat) (catalog : Catalog) : Studio :=
  match w.tenants[place]? with
  | none => w
  | some u => w.turn place u (u.stack.compile catalog w.watched).1 (u.stack.compile catalog w.watched).2.1

def apply (w : Studio) (place : Nat) (catalog : Catalog) (pool : ScratchPool) (resolve : Resolver) (input : FrameInput) :
    Studio :=
  match w.tenants[place]? with
  | none => w
  | some u =>
    let a := u.stack.apply catalog w.watched pool resolve input
    w.turn place u a.stack a.device

/-- What happens to a device that stacks share. Somebody else may do with it what they like, but for deleting
    programs that are not theirs. -/
inductive Step (w : Studio) : Studio → Prop
  | create (random : Generator) : Step w { w with tenants := w.tenants ++ [⟨.new random, 0⟩] }
  | edit (place : Nat) (e : Stack.Edit) : Step w (w.edit place e)
  | compile (place : Nat) (catalog : Catalog) : Step w (w.compile place catalog)
  | apply (place : Nat) (catalog : Catalog) (pool : ScratchPool) (resolve : Resolver) (input : FrameInput) :
      Step w (w.apply place catalog pool resolve input)
  | reject (marker : String) : Step w { w with device := w.device.rejecting marker }
  | upload (i : Image) : Step w { w with device := (w.device.upload i).2 }
  | clearRecords : Step w { w with device := w.device.clearRecords }
  | device {op : DeviceOp} : op.SparesPrograms → Step w { w with device := op.run w.device }
  | compileProgram {label source : String} {p : ProgramId} {d : ReferenceDevice} :
      Device.compileProgram w.device label source = (.ok p, d) →
      Step w { w with device := d, others := (p, source) :: w.others }
  | deleteProgram {before after : List Holding} {p : ProgramId} {source : String} :
      w.others = before ++ (p, source) :: after →
      Step w { w with device := Device.deleteProgram w.device p, others := before ++ after }

inductive Reachable : Studio → Prop
  | start (size : Nat × Nat) : Reachable ⟨.new size, [], []⟩
  | step {w w' : Studio} : Reachable w → Step w w' → Reachable w'

variable {w w' : Studio}

/-- What holds of every studio. -/
structure Inv (w : Studio) : Prop where
  lists : w.device.Lists (w.holdings ++ w.others)
  builds : ∀ u ∈ w.tenants, u.builds = u.stack.antialiasProgram.tries

theorem holdings_perm {place : Nat} {u : Tenant} (hu : w.tenants[place]? = some u) :
    w.holdings.Perm (u.stack.holdings ++ (w.tenants.eraseIdx place).flatMap (·.stack.holdings)) := by
  obtain ⟨hlt, rfl⟩ := List.getElem?_eq_some_iff.mp hu
  exact (List.Perm.flatMap_right _ (List.getElem_cons_eraseIdx_perm hlt)).symm

theorem Inv.lists_tenant (inv : w.Inv) {place : Nat} {u : Tenant} (hu : w.tenants[place]? = some u) :
    w.device.Lists
      (u.stack.holdings ++ ((w.tenants.eraseIdx place).flatMap (·.stack.holdings) ++ w.others)) := by
  have listed := inv.lists.reorder ((holdings_perm hu).append_right w.others)
  rwa [List.append_assoc] at listed

/-- What a tenant does with its part of the programs is of no concern to the others. -/
theorem Inv.exchange (inv : w.Inv) {place : Nat} {u u' : Tenant} (hu : w.tenants[place]? = some u) {d : ReferenceDevice}
    (hlists : ∀ rest, w.device.Lists (u.stack.holdings ++ rest) → d.Lists (u'.stack.holdings ++ rest))
    (hbuilds : u.builds = u.stack.antialiasProgram.tries → u'.builds = u'.stack.antialiasProgram.tries) :
    Inv { w with device := d, tenants := w.tenants.set place u' } := by
  have hlt : place < w.tenants.length := (List.getElem?_eq_some_iff.mp hu).1
  refine ⟨?_, fun v hv => ?_⟩
  · have after := hlists _ (inv.lists_tenant hu)
    rw [← List.append_assoc] at after
    refine after.reorder (List.Perm.append_right w.others ?_)
    exact (List.Perm.flatMap_right (fun v : Tenant => v.stack.holdings) (List.set_perm_cons_eraseIdx hlt u')).symm
  · rcases List.mem_or_eq_of_mem_set hv with hv | rfl
    · exact inv.builds v hv
    · exact hbuilds (inv.builds u (List.mem_of_getElem? hu))

theorem Inv.step (inv : w.Inv) (h : Step w w') : w'.Inv := by
  cases h with
  | create random =>
    refine ⟨?_, fun u hu => ?_⟩
    · have hnew : holdings { w with tenants := w.tenants ++ [⟨.new random, 0⟩] } = w.holdings := by
        unfold holdings
        rw [List.flatMap_append]
        exact List.append_nil _
      rw [hnew]
      exact inv.lists
    · rcases List.mem_append.mp hu with hu | hu
      · exact inv.builds u hu
      · obtain rfl := List.mem_singleton.mp hu
        rfl
  | edit place e =>
    unfold edit
    split
    · exact inv
    · next u hu =>
      obtain ⟨hpasses, hslot⟩ := u.stack.programs_edit e
      refine inv.exchange hu (fun rest h => ?_) fun hb => ?_
      · rw [Stack.holdings_congr hpasses hslot]
        exact h
      · rw [hslot]
        exact hb
  | compile place catalog =>
    unfold compile
    split
    · exact inv
    · next u hu =>
      refine inv.exchange hu (fun rest h => u.stack.lists_compile (d := w.watched) catalog h) fun hb => ?_
      rw [u.stack.timesCompiled_compile catalog w.watched]
      exact hb
  | apply place catalog pool resolve input =>
    unfold apply
    split
    · exact inv
    · next u hu =>
      refine inv.exchange hu
        (fun rest h => u.stack.lists_apply (d := w.watched) catalog pool resolve input h) fun hb => ?_
      have tried := u.stack.tries_apply catalog w.watched pool resolve input
      -- The device is watched for this turn only, so nothing has been counted before.
      have hzero : w.watched.timesCompiled Program.antialiasLabel = 0 := rfl
      rw [hzero, Nat.zero_add] at tried
      rw [hb, Nat.add_comm]
      exact tried
  | reject marker => exact ⟨inv.lists.of_eq rfl (Nat.le_refl _), inv.builds⟩
  | upload i => exact ⟨inv.lists.of_eq rfl (Nat.le_succ _), inv.builds⟩
  | clearRecords => exact ⟨inv.lists.of_eq rfl (Nat.le_refl _), inv.builds⟩
  | device hop => exact ⟨inv.lists.reaches (d := w.device) (.one _ hop rfl), inv.builds⟩
  | compileProgram hc =>
    exact ⟨(inv.lists.compileProgram hc).reorder List.perm_middle.symm, inv.builds⟩
  | @deleteProgram before after p source hothers =>
    refine ⟨?_, inv.builds⟩
    have listed := inv.lists
    -- The program that goes is somebody else's; taken to the front, it comes off the list.
    rw [hothers, ← List.append_assoc] at listed
    have deleted := (listed.reorder List.perm_middle).deleteProgram
    rw [List.append_assoc] at deleted
    exact deleted

theorem Reachable.inv (h : w.Reachable) : w.Inv := by
  induction h with
  | start size => exact ⟨.new size, nofun⟩
  | step _ hs ih => exact ih.step hs

/-- Every program that a stack keeps is live with the text it was made from. No program is kept twice, neither
    by two passes nor by two stacks nor by somebody else, and no other program is live. A stack compiles its
    antialias program once at most. -/
theorem programs_kept (h : w.Reachable) :
    (∀ u ∈ w.tenants,
      (∀ p ∈ u.stack.passes, ∀ program, p.program = some program →
        ∃ x, w.device.program? program = some x ∧ x.source = p.source) ∧
      (∀ program, u.stack.antialiasProgram = .ready program →
        ∃ x, w.device.program? program = some x ∧ x.source = Program.antialias)) ∧
    ((w.holdings ++ w.others).map (·.1)).Nodup ∧
    (∀ program, (w.device.program? program).isSome ↔ program ∈ (w.holdings ++ w.others).map (·.1)) ∧
    (∀ u ∈ w.tenants, u.builds ≤ 1) := by
  have inv := h.inv
  have live : ∀ u ∈ w.tenants, ∀ e ∈ u.stack.holdings, ∃ x, w.device.program? e.1 = some x ∧ x.source = e.2 :=
    fun u hu e he => inv.lists.program? (List.mem_append_left _ (List.mem_flatMap.mpr ⟨u, hu, he⟩))
  refine ⟨fun u hu => ⟨fun p hp program hprogram => ?_, fun program hslot => ?_⟩, inv.lists.distinct, fun program => ?_,
    fun u hu => ?_⟩
  · exact live u hu (program, p.source) (Stack.mem_holdings_of_pass hp hprogram)
  · exact live u hu (program, Program.antialias) (Stack.mem_holdings_of_ready hslot)
  · constructor
    · intro hlive
      obtain ⟨x, hx⟩ := Option.isSome_iff_exists.mp hlive
      exact List.mem_map.mpr ⟨_, inv.lists.mem_of_program? hx, rfl⟩
    · intro hkept
      obtain ⟨e, he, rfl⟩ := List.mem_map.mp hkept
      obtain ⟨x, hx, -⟩ := inv.lists.program? he
      rw [hx]
      rfl
  · rw [inv.builds u hu]
    exact AntialiasProgram.tries_le_one _

/-! ### A studio with two stacks -/

/-- Two stacks with the same entry, of which one smooths edges, and a program of somebody else. -/
def shared : Studio where
  device := (Device.compileProgram ((ReferenceDevice.new (2, 2)).upload (.solid 1 1 .white)).2 "own" "void main()").2
  tenants :=
    [⟨((Stack.new (.fixed (.zero, .zero))).edit (.add "ripple")).edit (.setAntialias true), 0⟩,
      ⟨(Stack.new (.fixed (.zero, .zero))).edit (.add "ripple"), 0⟩]
  others := [(⟨2⟩, "void main()")]

theorem shared_reachable : shared.Reachable := by
  have started : Reachable ⟨((ReferenceDevice.new (2, 2)).upload (.solid 1 1 .white)).2, [], []⟩ :=
    .step (.start (2, 2)) (.upload _)
  have created := (started.step (.create (.fixed (.zero, .zero)))).step (.create (.fixed (.zero, .zero)))
  have edited := ((created.step (.edit 0 (.add "ripple"))).step (.edit 0 (.setAntialias true))).step
    (.edit 1 (.add "ripple"))
  exact edited.step (.compileProgram (p := ⟨2⟩) rfl)

/-- Both stacks compile their pass, and the one that smooths edges is applied twice. -/
theorem programs_kept_shared :
    let catalog := Catalog.rippling ⟨0⟩
    let frame := fun w : Studio => w.apply 0 catalog .empty (fun _ => none) ⟨⟨1⟩, none, none⟩
    let w := frame (frame ((shared.compile 0 catalog).compile 1 catalog))
    w.Reachable ∧ w.others = [(⟨2⟩, "void main()")] ∧ (w.device.program? ⟨2⟩).isSome ∧
      ((w.holdings ++ w.others).map (·.1)).Nodup ∧ ∀ u ∈ w.tenants, u.builds ≤ 1 := by
  intro catalog frame w
  have reachable : w.Reachable :=
    (((shared_reachable.step (.compile 0 catalog)).step (.compile 1 catalog)).step (.apply 0 _ _ _ _)).step
      (.apply 0 _ _ _ _)
  have others : w.others = [(⟨2⟩, "void main()")] := rfl
  obtain ⟨-, hdistinct, hlive, hbuilds⟩ := programs_kept reachable
  refine ⟨reachable, others, (hlive ⟨2⟩).mpr ?_, hdistinct, hbuilds⟩
  rw [others, List.map_append]
  exact List.mem_append_right _ List.mem_cons_self

end Studio
end FxStack
