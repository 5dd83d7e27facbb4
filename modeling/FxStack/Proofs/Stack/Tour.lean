import FxStack.Proofs.Frame.Mirror
import FxStack.Proofs.Frame.Provenance
import FxStack.Proofs.Stack.Studio
import Mathlib.Logic.Function.Basic

/-! A stack and a pool that are used with several devices. They keep handles but not the device that gave them, so
    what a call uses on its device may have come from another one. Each handle can be traced: programs of passes to
    the device with which they were compiled last, the antialias program to the one that was asked for it, and
    scratch textures to one on which they were created. If all of them are from one device, calls with that device
    touch nothing of others. Main statement: `Tour.handles_traced`. -/

namespace FxStack

open Device (Reaches)
open DeviceOp (Within)

/-- A stack and a pool, the devices with what they have given to them, and what others have been given. -/
structure Tour (δ : Type) where
  stack : Stack
  pool : ScratchPool
  devices : Nat → Ledger δ
  others : Nat → List Dealing
  /-- The device with which the passes were compiled last. -/
  home : Nat
  /-- The device that was last asked for the antialias program. -/
  smoother : Nat

/-! ### Calls of devices that behave alike -/

theorem Stack.call_mirror {δ ε : Type} [Device δ] [Device ε] {known : ProgramId → Prop} {f : δ → ε}
    (h : Device.Mirrors known f) (s : Stack) (pool : ScratchPool) (d : δ) (c : Call)
    (hknown : ∀ p ∈ (s.call pool d c).stack.programs, known p) : s.call pool (f d) c = (s.call pool d c).over f := by
  cases c with
  | compile catalog =>
    unfold call
    dsimp only
    rw [h.compile]
    rfl
  | apply catalog resolve input => exact s.apply_mirror h catalog d pool resolve input hknown

/-- The books make no difference. -/
theorem Ledger.mirrors (δ : Type) [Device δ] : Device.Mirrors (fun _ => True) (Ledger.inner : Ledger δ → δ) where
  compileProgram _ _ _ := rfl
  deleteProgram _ _ := rfl
  hasUniform _ _ _ _ := rfl
  createTexture _ _ := rfl
  textureKind? _ _ := rfl
  placeholderTexture _ := rfl
  setSampler _ _ _ := rfl
  setFixedFunction _ _ := rfl
  draw _ _ := rfl
  copy _ _ _ := rfl

namespace Tour

/-! ### Steps -/

section
variable {δ : Type} [Device δ] (t : Tour δ)

def edit (e : Stack.Edit) : Tour δ := { t with stack := t.stack.edit e }

/-- What comes of a call with device `k`. -/
def called (k : Nat) (c : Stack.Call) : Application (Ledger δ) := t.stack.call t.pool (t.devices k) c

/-- The tour after a call with device `k`. -/
def visit (k : Nat) (c : Stack.Call) : Tour δ where
  stack := (t.called k c).stack
  pool := (t.called k c).pool
  devices := Function.update t.devices k (t.called k c).device
  others := t.others
  home := if (t.called k c).report.recompiled then k else t.home
  smoother := if t.stack.antialiasProgram = .notBuilt then k else t.smoother

/-- Device `k` has become another, and nobody has been given anything. -/
def change (k : Nat) (d : δ) : Tour δ :=
  { t with devices := Function.update t.devices k ⟨d, (t.devices k).dealings⟩ }

/-- Somebody else makes an operation on device `k`. -/
def other (k : Nat) (op : DeviceOp) : Tour δ :=
  { t.change k (op.run (t.devices k).inner) with
    others := Function.update t.others k (t.others k ++ [⟨op, op.made (t.devices k).inner⟩]) }

end

section
variable {δ : Type} [Front δ]

/-- What happens to the stack, the pool and the devices. Apart from calls and operations anything may be done to a
    device, so long as its counter of handles does not go back. -/
inductive Step (t : Tour δ) : Tour δ → Prop
  | edit (e : Stack.Edit) : Step t (t.edit e)
  | visit (k : Nat) (c : Stack.Call) : Step t (t.visit k c)
  | other (k : Nat) (op : DeviceOp) : Step t (t.other k op)
  | change (k : Nat) {d : δ} :
      (Front.reference (t.devices k).inner).nextNumber ≤ (Front.reference d).nextNumber → Step t (t.change k d)

/-- At first there are a new stack and an empty pool, and devices that others may have used. -/
inductive Reachable : Tour δ → Prop
  | start (random : Generator) {devices : Nat → δ} {others : Nat → List Dealing} :
      (∀ k, Dealing.Apart (Front.reference (devices k)).nextNumber [] (others k)) →
      Reachable ⟨.new random, .empty, fun k => ⟨devices k, []⟩, others, 0, 0⟩
  | step {t t' : Tour δ} : Reachable t → Step t t' → Reachable t'

end

/-! ### Where handles come from -/

section
variable {δ : Type} {t : Tour δ} {home smoother : Nat} {maker : Nat → Prop}

/-- The program is one of the passes, and device `k` has given it for the text of the pass. -/
def OfPass (t : Tour δ) (k : Nat) (p : ProgramId) : Prop :=
  ∃ q ∈ t.stack.passes, q.program = some p ∧ (t.devices k).Gave p q.source

/-- The program is the antialias program, and device `k` has given it as such. -/
def OfAntialias (t : Tour δ) (k : Nat) (p : ProgramId) : Prop :=
  t.stack.antialiasProgram = .ready p ∧ (t.devices k).Gave p Program.antialias

/-- What the stack and the pool hold is from these devices. -/
structure From (t : Tour δ) (home smoother : Nat) (maker : Nat → Prop) : Prop where
  passes : ∀ q ∈ t.stack.passes, ∀ p, q.program = some p → (t.devices home).Gave p q.source
  antialias : ∀ p, t.stack.antialiasProgram = .ready p → (t.devices smoother).Gave p Program.antialias
  textures : ∀ u, t.pool.Holds u → ∃ k, maker k ∧ (t.devices k).Made u

/-- All that the stack and the pool hold is from device `k`. -/
def Resident (t : Tour δ) (k : Nat) : Prop := t.From k k (· = k)

/-- The handles that a call between two moments may use, traced to these devices. -/
def traced (t t' : Tour δ) (home home' smoother : Nat) (maker : Nat → Prop) (target : Option Target) :
    DeviceOp.Scope where
  deleted := t.OfPass home
  drawn p := t'.OfPass home' p ∨ t'.OfAntialias smoother p
  written x := (∃ u, x = .texture u ∧ ∃ k, maker k ∧ (t'.devices k).Made u) ∨ target = some x

theorem From.mono (h : t.From home smoother maker) {t' : Tour δ} (hpasses : t'.stack.passes = t.stack.passes)
    (hslot : t'.stack.antialiasProgram = t.stack.antialiasProgram) (hpool : t'.pool = t.pool)
    (hdealings : ∀ k, (t.devices k).dealings ⊆ (t'.devices k).dealings) : t'.From home smoother maker := by
  refine ⟨fun q hq p hp => ?_, fun p hp => ?_, fun u hu => ?_⟩
  · rw [hpasses] at hq
    exact (h.passes q hq p hp).imp fun _ hx => hdealings home hx
  · rw [hslot] at hp
    exact (h.antialias p hp).imp fun _ hx => hdealings smoother hx
  · rw [hpool] at hu
    obtain ⟨k, hk, hmade⟩ := h.textures u hu
    exact ⟨k, hk, hmade.imp fun _ hx => hdealings k hx⟩

theorem dealings_change (t : Tour δ) (k : Nat) (d : δ) :
    ∀ j, ((t.change k d).devices j).dealings = (t.devices j).dealings :=
  (Function.forall_update_iff t.devices fun j x => x.dealings = (t.devices j).dealings).mpr ⟨rfl, fun _ _ => rfl⟩

/-! ### Calls -/

variable [Device δ]

theorem conducts_called (t : Tour δ) (k : Nat) (c : Stack.Call) :
    t.stack.Conducts t.pool (t.devices k) c.target? (t.called k c) :=
  t.stack.conducts_call (t.devices k) t.pool c

@[simp] theorem devices_visit_self (t : Tour δ) (k : Nat) (c : Stack.Call) :
    (t.visit k c).devices k = (t.called k c).device := Function.update_self ..

theorem dealings_visit (t : Tour δ) (k : Nat) (c : Stack.Call) :
    ∀ j, (t.devices j).dealings ⊆ ((t.visit k c).devices j).dealings :=
  (Function.forall_update_iff t.devices fun j x => (t.devices j).dealings ⊆ x.dealings).mpr
    ⟨Ledger.subset_of_reaches (t.conducts_called k c).reaches, fun _ _ => List.Subset.refl _⟩

theorem From.made_of_supplies (h : t.From home smoother maker) {k : Nat} (hk : maker k) (c : Stack.Call)
    {u : TextureId} (hu : t.pool.Supplies (t.called k c).device u) :
    ∃ j, maker j ∧ ((t.visit k c).devices j).Made u := by
  rcases hu with hu | hu
  · obtain ⟨j, hj, hmade⟩ := h.textures u hu
    exact ⟨j, hj, hmade.imp fun _ hx => t.dealings_visit k c j hx⟩
  · refine ⟨k, hk, ?_⟩
    rw [devices_visit_self]
    exact hu

/-- A call brings handles of its own device and keeps others. -/
theorem From.visit (h : t.From home smoother maker) {k : Nat} (hk : maker k) (c : Stack.Call) :
    (t.visit k c).From (if (t.called k c).report.recompiled then k else home)
      (if t.stack.antialiasProgram = .notBuilt then k else smoother) maker := by
  have conducts := t.conducts_called k c
  refine ⟨fun q hq p hp => ?_, fun p hp => ?_, fun u hu => h.made_of_supplies hk c (conducts.pool u hu)⟩
  · split
    · next hre =>
      rw [devices_visit_self]
      exact conducts.renewed hre q hq p hp
    · next hre =>
      have hq' : q ∈ t.stack.passes := conducts.kept (Bool.eq_false_iff.mpr hre) ▸ hq
      exact (h.passes q hq' p hp).imp fun _ hx => t.dealings_visit k c home hx
  · rcases conducts.antialias with hsame | ⟨hslot, hgave⟩
    · have hp' : t.stack.antialiasProgram = .ready p := hsame ▸ hp
      rw [if_neg (by rw [hp']; nofun)]
      exact (h.antialias p hp').imp fun _ hx => t.dealings_visit k c smoother hx
    · rw [if_pos hslot, devices_visit_self]
      exact hgave p hp

/-- A call uses the handles that the stack and the pool hold before or after it. -/
theorem From.traces (h : t.From home smoother maker) {k : Nat} (hk : maker k) (c : Stack.Call) {home' smoother' : Nat}
    (h' : (t.visit k c).From home' smoother' maker) :
    Reaches (Within (traced t (t.visit k c) home home' smoother' maker c.target?)) (t.devices k)
      (t.called k c).device := by
  refine (t.conducts_called k c).reaches.mono fun op within => within.mono ?_ ?_ ?_
  · intro p hp
    obtain ⟨q, hq, hprogram⟩ := List.mem_filterMap.mp hp
    exact ⟨q, hq, hprogram, h.passes q hq p hprogram⟩
  · rintro p (hp | hp)
    · obtain ⟨q, hq, hprogram⟩ := List.mem_filterMap.mp hp
      exact Or.inl ⟨q, hq, hprogram, h'.passes q hq p hprogram⟩
    · exact Or.inr ⟨hp, h'.antialias p hp⟩
  · rintro x (⟨u, rfl, hu⟩ | hx)
    · exact Or.inl ⟨u, rfl, h.made_of_supplies hk c hu⟩
    · exact Or.inr hx

theorem Resident.visit {k : Nat} (h : t.Resident k) (c : Stack.Call) : (t.visit k c).Resident k := by
  have visited := From.visit h rfl c
  rwa [ite_self, ite_self] at visited

end

/-! ### Over a tour -/

section
variable {δ : Type} [Front δ] {t t' : Tour δ}

/-- What holds of every tour. -/
structure Inv (t : Tour δ) : Prop where
  holds : t.From t.home t.smoother fun _ => True
  apart : ∀ k, Dealing.Apart (Front.reference (t.devices k).inner).nextNumber (t.devices k).dealings (t.others k)

/-- What others have been given is kept apart from what the stack and the pool have been given, device by device. -/
theorem Inv.apart_update (inv : t.Inv) {k : Nat} {d : Ledger δ}
    (h : Dealing.Apart (Front.reference d.inner).nextNumber d.dealings (t.others k)) (j : Nat) :
    Dealing.Apart (Front.reference (Function.update t.devices k d j).inner).nextNumber
      (Function.update t.devices k d j).dealings (t.others j) :=
  (Function.forall_update_iff t.devices
    fun j x => Dealing.Apart (Front.reference x.inner).nextNumber x.dealings (t.others j)).mpr
      ⟨h, fun j _ => inv.apart j⟩ j

theorem Inv.step (inv : t.Inv) (h : Step t t') : t'.Inv := by
  cases h with
  | edit e =>
    obtain ⟨hpasses, hslot⟩ := t.stack.programs_edit e
    exact ⟨inv.holds.mono hpasses hslot rfl fun _ => List.Subset.refl _, inv.apart⟩
  | visit k c =>
    exact ⟨inv.holds.visit trivial c, inv.apart_update ((inv.apart k).reaches (t.conducts_called k c).reaches)⟩
  | other k op =>
    refine ⟨inv.holds.mono rfl rfl rfl fun j => (t.dealings_change k _ j).symm ▸ List.Subset.refl _, fun j => ?_⟩
    unfold other change
    by_cases hj : j = k
    · subst hj
      simp only [Function.update_self]
      exact ((inv.apart j).symm.run op).symm
    · simp only [Function.update_of_ne hj]
      exact inv.apart j
  | @change k d hd =>
    exact ⟨inv.holds.mono rfl rfl rfl fun j => (t.dealings_change k d j).symm ▸ List.Subset.refl _,
      inv.apart_update ((inv.apart k).mono hd)⟩

theorem Reachable.inv (h : t.Reachable) : t.Inv := by
  induction h with
  | start random hothers => exact ⟨⟨nofun, nofun, fun u hu => by rcases hu with hu | hu <;> cases hu⟩, hothers⟩
  | step _ hs ih => exact ih.step hs

/-- Where only one device has given anything, all is from there. -/
theorem Inv.resident (inv : t.Inv) {k : Nat} (h : ∀ j, j ≠ k → (t.devices j).dealings = []) : t.Resident k := by
  have only : ∀ j, ∀ x ∈ (t.devices j).dealings, j = k := by
    intro j x hx
    by_contra hj
    rw [h j hj] at hx
    cases hx
  refine ⟨fun q hq p hp => ?_, fun p hp => ?_, fun u hu => ?_⟩
  · obtain ⟨label, hx⟩ := inv.holds.passes q hq p hp
    exact ⟨label, only _ _ hx ▸ hx⟩
  · obtain ⟨label, hx⟩ := inv.holds.antialias p hp
    exact ⟨label, only _ _ hx ▸ hx⟩
  · obtain ⟨j, -, kind, hx⟩ := inv.holds.textures u hu
    exact ⟨j, only _ _ hx, kind, hx⟩

/-- What device `k` has given to the stack is nobody else's. -/
theorem Inv.spares_others {k : Nat} {c : Stack.Call} (inv : (t.visit k c).Inv) {maker : Nat → Prop}
    {target : Option Target} {op : DeviceOp} (h : op.Within (traced t (t.visit k c) k k k maker target))
    (p : ProgramId) (hp : op.Touches p) :
    ∀ y ∈ (t.visit k c).others k, y.made ≠ some p.number := by
  have gave : ∀ {source}, ((t.visit k c).devices k).Gave p source →
      ∀ y ∈ (t.visit k c).others k, y.made ≠ some p.number :=
    fun ⟨_, hx⟩ y hy => (inv.apart k).apart _ hx y hy _ rfl
  cases op with
  | deleteProgram q =>
    obtain rfl : q = p := hp
    obtain ⟨r, -, -, label, hx⟩ := h
    exact gave ⟨label, t.dealings_visit k c k hx⟩
  | draw call =>
    obtain rfl : call.program = p := hp
    rcases h.1 with ⟨r, -, -, hgave⟩ | ⟨-, hgave⟩
    · exact gave hgave
    · exact gave hgave
  | _ => exact hp.elim

end

/-! ### Traces -/

section
variable {δ : Type} [Front δ] {t : Tour δ}

/-- A call with device `k` does there what it would do without the books. -/
theorem called_inner (t : Tour δ) (k : Nat) (c : Stack.Call) :
    t.stack.call t.pool (t.devices k).inner c = (t.called k c).over Ledger.inner :=
  t.stack.call_mirror (Ledger.mirrors δ) t.pool (t.devices k) c fun _ _ => trivial

/-- What a call with device `k` deletes, draws with and writes there can be traced: programs of passes were given for
    their texts by the device with which the stack was compiled last, the antialias program by the one that was asked
    for it, and scratch textures were made by some device; and the call learns nothing of other programs. If all that
    is held is from device `k`, so is all that the call uses and all that is held then. This is so if only that device
    has been used. What a device has given to the stack or the pool it has given to nobody else. -/
theorem handles_traced (h : t.Reachable) (k : Nat) (c : Stack.Call) :
    (∃ new, ((t.visit k c).devices k).dealings = (t.devices k).dealings ++ new ∧
      (∀ x ∈ new, x.op.Within
        (traced t (t.visit k c) t.home (t.visit k c).home (t.visit k c).smoother (fun _ => True) c.target?)) ∧
      (t.Resident k → (t.visit k c).Resident k ∧
        ∀ x ∈ new, x.op.Within (traced t (t.visit k c) k k k (· = k) c.target?) ∧
          ∀ p, x.op.Touches p → ∀ y ∈ (t.visit k c).others k, y.made ≠ some p.number)) ∧
    (∀ answer : ProgramId → String → Option Bool,
      (∀ p, (t.visit k c).OfPass (t.visit k c).home p → ∀ name, answer p name = none) →
        t.stack.call t.pool (⟨t.devices k, answer⟩ : Masked (Ledger δ)) c = (t.called k c).over (⟨·, answer⟩)) ∧
    ((∀ j, j ≠ k → (t.devices j).dealings = []) → t.Resident k) ∧
    (∀ j, ∀ x ∈ ((t.visit k c).devices j).dealings, ∀ y ∈ (t.visit k c).others j, ∀ n,
      x.made = some n → y.made ≠ some n) := by
  have inv := h.inv
  have visited := inv.step (.visit k c)
  have traces := inv.holds.traces trivial c visited.holds
  refine ⟨?_, fun answer hanswer => ?_, inv.resident, fun j => (visited.apart j).apart⟩
  · obtain ⟨new, hnew, hops⟩ := Ledger.dealings_of_reaches traces
    rw [devices_visit_self]
    refine ⟨new, hnew, hops, fun resident => ⟨resident.visit c, ?_⟩⟩
    obtain ⟨new', hnew', hops'⟩ := Ledger.dealings_of_reaches (From.traces resident rfl c (resident.visit c))
    obtain rfl : new = new' := List.append_cancel_left (hnew.symm.trans hnew')
    exact fun x hx => ⟨hops' x hx, visited.spares_others (hops' x hx)⟩
  · refine t.stack.call_mirror (Masked.mirrors answer) t.pool (t.devices k) c fun p hp => hanswer p ?_
    obtain ⟨q, hq, hprogram⟩ := List.mem_filterMap.mp hp
    exact ⟨q, hq, hprogram, visited.holds.passes q hq p hprogram⟩

end
end Tour

/-! ### A program that goes with another device's handle -/

/-- The pass of one entry of the effect with a number and a texture. -/
def Pass.rippling : Pass := ⟨[⟨0, ⟨1⟩, Effect.ripple.named "ripple"⟩], [], "", none⟩

theorem Program.ofPass_rippling : ofPass .rippling =
    preamble ++ ("\n" ++ ("uniform float u_amount0;" ++ "\n" ++ ("uniform sampler2D u_map0;" ++ "\n"))) ++ mainStart ++
      sampleLine ++ mainEnd := by
  have declared : Pass.rippling.declarations = ["uniform float u_amount0;", "uniform sampler2D u_map0;"] := rfl
  have uv : indent Pass.rippling.uvCode = "" := rfl
  have color : indent Pass.rippling.colorCode = "" := rfl
  have functions : String.join (Pass.rippling.functions.map functionText) = "" := rfl
  unfold ofPass
  rw [declared, uv, color, functions]
  simp [declarationText, String.join, -String.reduceAppend]

theorem ReferenceDevice.programFault?_rippling {d : ReferenceDevice} (h : d.failMarkers = []) (label : String) :
    d.programFault? label (Program.ofPass .rippling) = none := by
  have accepted : Text.occursIn "void main()".toList (Program.ofPass .rippling).toList = true ∧
      Brackets.check (Program.ofPass .rippling).toList = .ok () := by
    rw [Program.ofPass_rippling]
    unfold Program.preamble Program.mainStart Program.sampleLine Program.mainEnd
    repeat rw [String.toList_append]
    repeat rw [String.toList_ofList]
    decide +kernel
  unfold programFault?
  rw [h, List.find?_nil, accepted.1, accepted.2]
  rfl

theorem Compilation.passes_rippling :
    (ofEntries (Catalog.rippling ⟨0⟩) [⟨⟨1⟩, "ripple", .empty⟩]).passes = [.rippling] := rfl

/-- A stack with one entry is compiled to one pass, after its programs have been deleted. -/
theorem Stack.compile_rippling {δ : Type} [Device δ] {s : Stack} (hs : s.entries = [⟨⟨1⟩, "ripple", .empty⟩]) (d : δ) :
    (s.compile (Catalog.rippling ⟨0⟩) d).1.passes =
        [(Pass.build 0 .rippling (s.programs.foldl Device.deleteProgram d)).1] ∧
      (s.compile (Catalog.rippling ⟨0⟩) d).2.1 =
        (Pass.build 0 .rippling (s.programs.foldl Device.deleteProgram d)).2.1 := by
  unfold compile
  dsimp only
  rw [hs, Compilation.passes_rippling]
  exact ⟨rfl, rfl⟩

theorem Ledger.build_rippling {d : Ledger ReferenceDevice} (h : d.inner.failMarkers = []) :
    (Pass.build 0 .rippling d).1.program = some ⟨d.inner.nextNumber⟩ ∧
      (Pass.build 0 .rippling d).2.1.inner.programs.map (·.1) =
        d.inner.programs.map (·.1) ++ [⟨d.inner.nextNumber⟩] := by
  have accepted := ReferenceDevice.programFault?_rippling h (Program.label 0 .rippling)
  have compiled : ∃ d', Device.compileProgram d (Program.label 0 .rippling) (Program.ofPass .rippling) =
      (.ok ⟨d.inner.nextNumber⟩, d') ∧
        d'.inner.programs.map (·.1) = d.inner.programs.map (·.1) ++ [⟨d.inner.nextNumber⟩] := by
    simp only [Device.compileProgram, passOn, ReferenceDevice.compileProgram, accepted]
    exact ⟨_, rfl, List.map_append⟩
  obtain ⟨d', hd, hprograms⟩ := compiled
  unfold Pass.build
  dsimp only
  rw [hd]
  exact ⟨rfl, hprograms⟩

namespace Tour

theorem stack_other {δ : Type} [Device δ] (t : Tour δ) (k : Nat) (op : DeviceOp) : (t.other k op).stack = t.stack := rfl

theorem stack_visit_compile {δ : Type} [Device δ] (t : Tour δ) (k : Nat) (catalog : Catalog) :
    (t.visit k (.compile catalog)).stack = (t.stack.compile catalog (t.devices k)).1 := rfl

theorem device_visit_compile {δ : Type} [Device δ] (t : Tour δ) (k : Nat) (catalog : Catalog) :
    (t.visit k (.compile catalog)).devices k = (t.stack.compile catalog (t.devices k)).2.1 := devices_visit_self ..

/-- A stack with one entry, and two new devices. -/
def rippling : Tour ReferenceDevice :=
  ⟨(Stack.new (.fixed (.zero, .zero))).edit (.add "ripple"), .empty, fun _ => ⟨.new (2, 2), []⟩, fun _ => [], 0, 0⟩

/-- The stack is compiled with device 0; then somebody else has a program compiled on device 1. -/
def crossing : Tour ReferenceDevice :=
  (rippling.visit 0 (.compile (Catalog.rippling ⟨0⟩))).other 1 (.compileProgram "other" "void main()")

theorem crossing_reachable : crossing.Reachable := by
  have started : Reachable
      (⟨.new (.fixed (.zero, .zero)), .empty, fun _ => ⟨.new (2, 2), []⟩, fun _ => [], 0, 0⟩ : Tour ReferenceDevice) :=
    .start _ fun _ => ⟨nofun, nofun, nofun⟩
  exact ((started.step (.edit (.add "ripple"))).step (.visit 0 _)).step (.other 1 _)

theorem crossing_stack :
    crossing.stack = (rippling.stack.compile (Catalog.rippling ⟨0⟩) (rippling.devices 0)).1 := by
  unfold crossing
  rw [stack_other, stack_visit_compile]

theorem crossing_programs : crossing.stack.programs = [⟨1⟩] := by
  unfold Stack.programs
  rw [crossing_stack, (Stack.compile_rippling rfl (rippling.devices 0)).1,
    List.filterMap_cons_some (Ledger.build_rippling rfl).1]
  rfl

theorem crossing_entries : crossing.stack.entries = [⟨⟨1⟩, "ripple", .empty⟩] := by
  have kept : ∀ (s : Stack) (c : Catalog) (d : Ledger ReferenceDevice), (s.compile c d).1.entries = s.entries :=
    fun _ _ _ => rfl
  rw [crossing_stack, kept]
  rfl

/-- Device 0 alone has given something, so a call with it is none of anybody else's business. -/
theorem handles_traced_crossing :
    let c := Stack.Call.compile (Catalog.rippling ⟨0⟩)
    crossing.Reachable ∧ (∀ j, j ≠ 0 → (crossing.devices j).dealings = []) ∧ (crossing.visit 0 c).Resident 0 ∧
      ∃ new, ((crossing.visit 0 c).devices 0).dealings = (crossing.devices 0).dealings ++ new ∧
        ∀ x ∈ new, ∀ p, x.op.Touches p → ∀ y ∈ (crossing.visit 0 c).others 0, y.made ≠ some p.number := by
  intro c
  have only : ∀ j, j ≠ 0 → (crossing.devices j).dealings = [] := by
    intro j hj
    calc (crossing.devices j).dealings = ((rippling.visit 0 c).devices j).dealings := dealings_change _ 1 _ j
      _ = [] := by rw [show (rippling.visit 0 c).devices j = rippling.devices j from Function.update_of_ne hj ..]; rfl
  obtain ⟨⟨new, hnew, -, hresident⟩, -, resident, -⟩ := handles_traced crossing_reachable 0 c
  obtain ⟨visited, hops⟩ := hresident (resident only)
  exact ⟨crossing_reachable, only, visited, new, hnew, fun x hx => (hops x hx).2⟩

/-- Compiled with device 1, which has given it nothing, the stack deletes there what has the number of its program: a
    program of somebody else. -/
theorem crossing_deletes :
    let t := crossing
    let t' := t.visit 1 (.compile (Catalog.rippling ⟨0⟩))
    t.Reachable ∧ (t.devices 1).dealings = [] ∧ ⟨.compileProgram "other" "void main()", some 1⟩ ∈ t.others 1 ∧
      ((t.devices 1).inner.program? ⟨1⟩).isSome ∧ ⟨.deleteProgram ⟨1⟩, none⟩ ∈ (t'.devices 1).dealings ∧
      (t'.devices 1).inner.program? ⟨1⟩ = none := by
  intro t t'
  have hdevice : t'.devices 1 = (Pass.build 0 .rippling (Device.deleteProgram (t.devices 1) ⟨1⟩)).2.1 := by
    have compiled : t'.devices 1 = (t.stack.compile (Catalog.rippling ⟨0⟩) (t.devices 1)).2.1 :=
      device_visit_compile ..
    have programs : t.stack.programs = [⟨1⟩] := crossing_programs
    rw [compiled, (Stack.compile_rippling crossing_entries (t.devices 1)).2, programs, List.foldl_cons, List.foldl_nil]
  have built : Reaches (DeviceOp.Prepares fun _ => False) (Device.deleteProgram (t.devices 1) ⟨1⟩) (t'.devices 1) := by
    rw [hdevice]
    exact (Pass.course_build 0 .rippling (Device.deleteProgram (t.devices 1) ⟨1⟩) []).reaches
  have numbered := (Ledger.build_rippling (d := Device.deleteProgram (t.devices 1) ⟨1⟩) rfl).2
  refine ⟨crossing_reachable, rfl, List.mem_cons_self, rfl, ?_, ?_⟩
  · exact Ledger.subset_of_reaches built List.mem_cons_self
  · rw [hdevice]
    refine List.lookup_eq_none_iff.mpr fun e he => ?_
    have hkey := List.mem_map_of_mem (f := (·.1)) he
    rw [numbered] at hkey
    obtain hkey : e.1 = ⟨2⟩ := List.mem_singleton.mp hkey
    rw [hkey]
    rfl

end Tour
end FxStack
