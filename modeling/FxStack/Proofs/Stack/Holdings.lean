import FxStack.Proofs.Device.Front
import FxStack.Proofs.Frame.Course
import FxStack.Proofs.Stack.Edit

/-! The programs that a stack keeps on a device: those of its passes and the one that smooths edges. Compiling
    and applying exchange them for others and leave alone what else the device has, so the programs of a device
    are a list of which each stack has its part. Main statements: `lists_compile` and `lists_apply`. -/

namespace FxStack

open Device (Course Reaches)
open DeviceOp (SparesPrograms)

/-! ### What is kept -/

/-- A program with its text. -/
abbrev Holding := ProgramId × String

def Pass.holding? (p : Pass) : Option Holding := p.program.map fun program => (program, p.source)

def AntialiasProgram.holding? : AntialiasProgram → Option Holding
  | .ready p => some (p, Program.antialias)
  | .notBuilt | .failed => none

namespace Stack

/-- The programs that a stack keeps. -/
def holdings (s : Stack) : List Holding := s.passes.filterMap Pass.holding? ++ s.antialiasProgram.holding?.toList

theorem mem_holdings_of_pass {s : Stack} {p : Pass} (hp : p ∈ s.passes) {program : ProgramId}
    (hprogram : p.program = some program) : (program, p.source) ∈ s.holdings := by
  refine List.mem_append_left _ (List.mem_filterMap.mpr ⟨p, hp, ?_⟩)
  unfold Pass.holding?
  rw [hprogram]
  rfl

theorem mem_holdings_of_ready {s : Stack} {program : ProgramId} (h : s.antialiasProgram = .ready program) :
    (program, Program.antialias) ∈ s.holdings := by
  refine List.mem_append_right _ ?_
  rw [h]
  exact List.mem_singleton.mpr rfl

theorem programs_eq (s : Stack) : s.programs = (s.passes.filterMap Pass.holding?).map (·.1) := by
  unfold programs
  rw [List.map_filterMap]
  congr 1
  funext p
  unfold Pass.holding?
  cases p.program <;> rfl

theorem holdings_congr {s t : Stack} (hp : t.passes = s.passes) (ha : t.antialiasProgram = s.antialiasProgram) :
    t.holdings = s.holdings := by
  unfold holdings
  rw [hp, ha]

end Stack

/-! ### The programs of a device -/

namespace ReferenceDevice

/-- The live programs are those of the list, each once and with its text. -/
structure Lists (d : ReferenceDevice) (hs : List Holding) : Prop where
  perm : (d.programs.map fun e => (e.1, e.2.source)).Perm hs
  distinct : (hs.map (·.1)).Nodup
  issued : ∀ e ∈ hs, e.1.number < d.nextNumber

namespace Lists
variable {d d' : ReferenceDevice} {hs hs' : List Holding} {p : ProgramId} {source : String}

theorem new (size : Nat × Nat) : (ReferenceDevice.new size).Lists [] := ⟨.nil, .nil, nofun⟩

theorem reorder (h : d.Lists hs) (hp : hs.Perm hs') : d.Lists hs' :=
  ⟨h.perm.trans hp, (hp.map _).nodup_iff.mp h.distinct, fun e he => h.issued e (hp.mem_iff.mpr he)⟩

theorem of_eq (h : d.Lists hs) (hp : d'.programs = d.programs) (hn : d.nextNumber ≤ d'.nextNumber) : d'.Lists hs :=
  ⟨by rw [hp]; exact h.perm, h.distinct, fun e he => Nat.lt_of_lt_of_le (h.issued e he) hn⟩

theorem reaches {δ : Type} [Front δ] {d d' : δ} (h : (Front.reference d).Lists hs) (hr : Reaches SparesPrograms d d') :
    (Front.reference d').Lists hs :=
  h.of_eq hr.programs hr.nextNumber

/-- A new program has a new number. -/
theorem compileProgram {label : String} (h : d.Lists hs) (hc : Device.compileProgram d label source = (.ok p, d')) :
    d'.Lists ((p, source) :: hs) := by
  obtain ⟨hp, hd⟩ := compileProgram_eq_ok hc
  have hnext : d'.nextNumber = d.nextNumber + 1 := by rw [hd]
  refine ⟨?_, List.nodup_cons.mpr ⟨fun hold => ?_, h.distinct⟩, fun e he => ?_⟩
  · rw [hd]
    simp only [List.map_append, List.map_cons, List.map_nil]
    exact (List.perm_append_singleton _ _).trans (h.perm.cons _)
  · obtain ⟨e, he, rfl⟩ := List.mem_map.mp hold
    have hlt := h.issued e he
    rw [hp] at hlt
    exact Nat.lt_irrefl _ hlt
  · rw [hnext]
    rcases List.mem_cons.mp he with rfl | he
    · exact hp ▸ Nat.lt_succ_self _
    · exact Nat.lt_succ_of_lt (h.issued e he)

theorem deleteProgram (h : d.Lists ((p, source) :: hs)) : (Device.deleteProgram d p : ReferenceDevice).Lists hs := by
  obtain ⟨hfree, hdistinct⟩ := List.nodup_cons.mp h.distinct
  refine ⟨?_, hdistinct, fun e he => h.issued e (List.mem_cons_of_mem _ he)⟩
  have hrest : ((p, source) :: hs).filter (·.1 ≠ p) = hs := by
    rw [List.filter_cons_of_neg (by simp), filter_fst_ne hfree]
  have hfilter := h.perm.filter (·.1 ≠ p)
  rw [hrest, List.filter_map] at hfilter
  exact hfilter

/-- What is listed is live with its text. -/
theorem program? (h : d.Lists hs) (hp : (p, source) ∈ hs) : ∃ x, d.program? p = some x ∧ x.source = source := by
  obtain ⟨e, he, heq⟩ := List.mem_map.mp (h.perm.mem_iff.mpr hp)
  cases heq
  have hkeys : (d.programs.map (·.1)).Nodup := by
    have hlisted := (h.perm.map (·.1)).nodup_iff.mpr h.distinct
    rwa [List.map_map] at hlisted
  exact ⟨e.2, lookup_of_mem hkeys he, rfl⟩

/-- What is live is listed. -/
theorem mem_of_program? (h : d.Lists hs) {x : CompiledProgram} (hp : d.program? p = some x) :
    (p, x.source) ∈ hs :=
  h.perm.mem_iff.mp (List.mem_map.mpr ⟨(p, x), mem_of_lookup hp, rfl⟩)

end Lists
end ReferenceDevice

/-! ### Compiling -/

section
variable {δ : Type} [Front δ] {d : δ} {hs rest : List Holding}

theorem Pass.lists_build (index : Nat) (p : Pass) (h : (Front.reference d).Lists hs) :
    (Front.reference (p.build index d).2.1).Lists ((p.build index d).1.holding?.toList ++ hs) := by
  unfold build
  dsimp only
  split
  · next hd => exact h.compileProgram (Front.compileProgram_ok hd)
  · next hd =>
    rw [Front.compileProgram_error hd]
    exact h

theorem Pass.lists_buildAll (ps : List Pass) : ∀ (index : Nat) {d : δ} {hs : List Holding},
    (Front.reference d).Lists hs →
      (Front.reference (buildAll index d ps).2.1).Lists ((buildAll index d ps).1.filterMap holding? ++ hs) := by
  induction ps with
  | nil => exact fun _ _ _ h => h
  | cons p ps ih =>
    intro index d hs h
    have hcons : ∀ (q : Pass) (qs : List Pass),
        (q :: qs).filterMap holding? = q.holding?.toList ++ qs.filterMap holding? := by
      intro q qs
      rw [List.filterMap_cons]
      cases q.holding? <;> rfl
    refine (ih (index + 1) (p.lists_build index h)).reorder ?_
    have hbuilt : (buildAll index d (p :: ps)).1 =
        (p.build index d).1 :: (buildAll (index + 1) (p.build index d).2.1 ps).1 := rfl
    rw [hbuilt, hcons, ← List.append_assoc]
    exact List.perm_append_comm.append_right hs

theorem lists_deletePrograms (hs : List Holding) : ∀ {d : δ}, (Front.reference d).Lists (hs ++ rest) →
    (Front.reference ((hs.map (·.1)).foldl Device.deleteProgram d)).Lists rest := by
  induction hs with
  | nil => exact fun h => h
  | cons e hs ih =>
    intro d h
    refine ih ?_
    rw [Front.reference_deleteProgram]
    exact h.deleteProgram

namespace Stack
variable (s : Stack) (catalog : Catalog)

/-- A compilation deletes the programs of the passes before, and what it makes is kept. -/
theorem lists_compile (h : (Front.reference d).Lists (s.holdings ++ rest)) :
    (Front.reference (s.compile catalog d).2.1).Lists ((s.compile catalog d).1.holdings ++ rest) := by
  unfold holdings at h
  rw [List.append_assoc] at h
  -- The antialias program is none of those that are deleted.
  have deleted := lists_deletePrograms _ h
  rw [← programs_eq] at deleted
  have built := Pass.lists_buildAll (Compilation.ofEntries catalog s.entries).passes 0 deleted
  rw [← List.append_assoc] at built
  exact built

theorem lists_prepare (pool : ScratchPool) (h : (Front.reference d).Lists (s.holdings ++ rest)) :
    (Front.reference (s.prepare catalog d pool).device).Lists ((s.prepare catalog d pool).stack.holdings ++ rest) := by
  have spared : ∀ d : δ, Reaches SparesPrograms d (Device.setFixedFunction d .fullscreen) :=
    fun d => .one (.setFixedFunction .fullscreen) trivial rfl
  unfold prepare
  dsimp only
  split
  · exact (lists_compile (s.setRandom _) catalog h).reaches (spared _)
  · exact h.reaches (spared d)

end Stack

/-! ### Applying -/

namespace Application

theorem lists_ensureAntialias (a : Application δ) (h : (Front.reference a.device).Lists (a.stack.holdings ++ rest)) :
    (Front.reference a.ensureAntialias.2.device).Lists (a.ensureAntialias.2.stack.holdings ++ rest) := by
  unfold ensureAntialias
  split
  · exact h
  · exact h
  · next hslot =>
    have hkept : a.stack.holdings = a.stack.passes.filterMap Pass.holding? := by
      unfold Stack.holdings
      rw [hslot]
      exact List.append_nil _
    rw [hkept] at h
    split
    · next p d hd =>
      refine (h.compileProgram (Front.compileProgram_ok hd)).reorder ?_
      have hlast : Stack.holdings { a.stack with antialiasProgram := .ready p } ++ rest =
          a.stack.passes.filterMap Pass.holding? ++ (p, Program.antialias) :: rest := by
        unfold Stack.holdings
        rw [List.append_assoc]
        rfl
      rw [hlast]
      exact List.perm_middle.symm
    · next hd =>
      have hnone : Stack.holdings { a.stack with antialiasProgram := .failed } =
          a.stack.passes.filterMap Pass.holding? := List.append_nil _
      rw [← Front.compileProgram_error hd, ← hnone] at h
      exact h

theorem lists_finish (a : Application δ) (t : TextureId) (destination : Option TextureId)
    (h : (Front.reference a.device).Lists (a.stack.holdings ++ rest)) :
    (Front.reference (a.finish t destination).device).Lists ((a.finish t destination).stack.holdings ++ rest) := by
  have sampled : Reaches SparesPrograms a.device (Device.setSampler a.device t a.finalSampling) :=
    .one (.setSampler t _) trivial rfl
  have ended := (a.proceeds_finish t destination).mono fun _ shows => shows.spares
  rw [ended.stack]
  refine ReferenceDevice.Lists.reaches ?_ ended.reaches
  unfold smoothed
  split
  · exact lists_ensureAntialias _ (h.reaches sampled)
  · exact h.reaches sampled

end Application

namespace Stack
variable (s : Stack) (catalog : Catalog)

theorem lists_apply (pool : ScratchPool) (resolve : Resolver) (input : FrameInput)
    (h : (Front.reference d).Lists (s.holdings ++ rest)) :
    (Front.reference (s.apply catalog d pool resolve input).device).Lists
      ((s.apply catalog d pool resolve input).stack.holdings ++ rest) := by
  cases hkind : Device.textureKind? d input.source with
  | none =>
    rw [apply_of_dead _ _ _ _ _ hkind]
    exact h
  | some kind =>
    obtain ⟨b, t, hb, hstack, hdevice⟩ := s.apply_proceeds catalog pool resolve hkind
    rw [hstack, hdevice]
    refine b.lists_finish t input.destination ?_
    rw [hb.stack]
    exact (s.lists_prepare catalog pool h).reaches hb.reaches

end Stack
end
end FxStack
