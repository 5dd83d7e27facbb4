import FxStack.Proofs.Device.Ledger
import FxStack.Proofs.ScratchPool.Loans

/-! Where the handles come from that a stack uses on a device. Programs that are deleted or drawn with are those
    of the passes before and after and the antialias program; new ones have been given out in the same call, and
    so have the scratch textures that have not been in the pool before. Main statement: `Stack.conducts_call`. -/

namespace FxStack

open Device (Reaches)
open DeviceOp (Draws Prepares Within)

variable {δ : Type} [Device δ]

/-! ### Programs of passes -/

theorem Pass.gave_build (index : Nat) (p : Pass) (d : Ledger δ) {program : ProgramId}
    (h : (p.build index d).1.program = some program) :
    (p.build index d).2.1.Gave program (p.build index d).1.source := by
  unfold build at h ⊢
  dsimp only at h ⊢
  rcases hd : Device.compileProgram d (Program.label index p) (Program.ofPass p) with ⟨e | q, d'⟩ <;> rw [hd] at h
  · cases h
  · cases h
    exact Ledger.gave_of_compileProgram hd

theorem Pass.gave_buildAll (ps : List Pass) : ∀ (index : Nat) (d : Ledger δ), ∀ q ∈ (buildAll index d ps).1,
    ∀ program, q.program = some program → (buildAll index d ps).2.1.Gave program q.source := by
  induction ps with
  | nil => exact fun _ _ => nofun
  | cons p ps ih =>
    intro index d q hq program hprogram
    rcases List.mem_cons.mp hq with rfl | hq
    · have later : Reaches (Prepares fun _ => False) (p.build index d).2.1 (buildAll index d (p :: ps)).2.1 :=
        (course_buildAll ps (index + 1) (p.build index d).2.1 []).reaches
      exact (p.gave_build index d hprogram).reaches later
    · exact ih (index + 1) (p.build index d).2.1 q hq program hprogram

theorem Stack.gave_compile (s : Stack) (catalog : Catalog) (d : Ledger δ) : ∀ q ∈ (s.compile catalog d).1.passes,
    ∀ program, q.program = some program → (s.compile catalog d).2.1.Gave program q.source :=
  Pass.gave_buildAll _ 0 _

/-! ### The antialias program -/

namespace Application

/-- The antialias program of `b` is that of `a`, unless there was none before and the device has given it. -/
def KeepsAntialias (a b : Application (Ledger δ)) : Prop :=
  b.stack.antialiasProgram = a.stack.antialiasProgram ∨ (a.stack.antialiasProgram = .notBuilt ∧
    ∀ p, b.stack.antialiasProgram = .ready p → b.device.Gave p Program.antialias)

theorem keepsAntialias_ensure (a : Application (Ledger δ)) : KeepsAntialias a a.ensureAntialias.2 := by
  unfold ensureAntialias
  split
  · exact Or.inl rfl
  · exact Or.inl rfl
  · next hslot =>
    split
    · next hd =>
      refine Or.inr ⟨hslot, fun p hp => ?_⟩
      cases hp
      exact Ledger.gave_of_compileProgram hd
    · exact Or.inr ⟨hslot, nofun⟩

theorem keepsAntialias_finish (a : Application (Ledger δ)) (t : TextureId) (destination : Option TextureId) :
    KeepsAntialias a (a.finish t destination) := by
  have ended := (a.proceeds_finish t destination).mono fun _ shows => shows.spares
  have smoothed : KeepsAntialias a
      ({ a with device := Device.setSampler a.device t a.finalSampling } : Application (Ledger δ)).smoothed := by
    unfold Application.smoothed
    split
    · exact keepsAntialias_ensure { a with device := Device.setSampler a.device t a.finalSampling }
    · exact Or.inl rfl
  unfold KeepsAntialias
  rw [ended.stack]
  exact smoothed.imp_right fun ⟨hslot, hgave⟩ => ⟨hslot, fun p hp => (hgave p hp).reaches ended.reaches⟩

end Application

/-! ### Scratch textures -/

namespace ScratchPool

/-- The texture waits in the pool or is on loan. -/
def Holds (pool : ScratchPool) (t : TextureId) : Prop := t ∈ pool.idle.map (·.2) ∨ t ∈ pool.loans.map (·.1)

/-- The texture is one of the pool, or the device has made it. -/
def Supplies (pool : ScratchPool) (d : Ledger δ) (t : TextureId) : Prop := pool.Holds t ∨ d.Made t

variable {pool pool' : ScratchPool} {d d' : Ledger δ} {kind : TextureKind} {t u : TextureId}

theorem holds_lend (h : (pool.lend kind t).Holds u) : u = t ∨ pool.Holds u := by
  rcases h with h | h
  · exact Or.inr (Or.inl h)
  · rcases List.mem_cons.mp h with rfl | h
    · exact Or.inl rfl
    · exact Or.inr (Or.inr (List.map_subset _ (List.filter_sublist).subset h))

theorem Supplies.reaches {P : DeviceOp → Prop} (h : pool.Supplies d t) (hd : Reaches P d d') : pool.Supplies d' t :=
  h.imp_right fun hmade => hmade.reaches hd

/-- What a pool has lent, and what it holds then, it has held before or had made. -/
theorem supplies_of_acquire (h : pool.acquire d kind = (.ok t, pool', d')) :
    pool.Supplies d' t ∧ ∀ u, pool'.Holds u → pool.Supplies d' u := by
  unfold acquire at h
  split at h
  · next idle hidle =>
    cases h
    have hperm := takeIdle?_eq_some hidle
    have hwaits : t ∈ pool.idle.map (·.2) := (hperm.map _).subset List.mem_cons_self
    refine ⟨Or.inl (Or.inl hwaits), fun u hu => Or.inl ?_⟩
    rcases holds_lend hu with rfl | hu
    · exact Or.inl hwaits
    · exact hu.imp_left fun hu => (hperm.map _).subset (List.mem_cons_of_mem _ hu)
  · split at h
    · next hcreate =>
      cases h
      have made := Ledger.made_of_createTexture hcreate
      refine ⟨Or.inr made, fun u hu => ?_⟩
      rcases holds_lend hu with rfl | hu
      · exact Or.inr made
      · exact Or.inl hu
    · cases h

theorem holds_release (t : TextureId) (h : (pool.release t).1.Holds u) : pool.Holds u := by
  unfold release at h
  split at h
  · exact h
  · next kind hloan =>
    rcases h with h | h
    · rw [List.map_append] at h
      rcases List.mem_append.mp h with h | h
      · exact Or.inl h
      · obtain rfl := List.mem_singleton.mp h
        exact Or.inr (List.mem_map_of_mem (mem_of_lookup hloan))
    · exact Or.inr (List.map_subset _ (List.filter_sublist).subset h)

theorem supplies_of_acquirePair {pair : TextureId × TextureId} {ns : List Notice}
    (h : pool.acquirePair d kind = (.ok pair, pool', d', ns)) :
    pool.Supplies d' pair.1 ∧ pool.Supplies d' pair.2 ∧ ∀ u, pool'.Holds u → pool.Supplies d' u := by
  obtain ⟨-, pool₁, d₁, hfirst, hsecond⟩ := acquirePair_eq_ok.mp h
  obtain ⟨supplied₁, held₁⟩ := supplies_of_acquire hfirst
  obtain ⟨supplied₂, held₂⟩ := supplies_of_acquire hsecond
  have later := pool₁.reaches_acquire d₁ kind
  rw [hsecond] at later
  have before : ∀ u, pool₁.Supplies d' u → pool.Supplies d' u := by
    rintro u (hu | hu)
    · exact (held₁ u hu).reaches later
    · exact Or.inr hu
  exact ⟨supplied₁.reaches later, before _ supplied₂, fun u hu => before u (held₂ u hu)⟩

theorem supplies_of_noPair {e : DeviceError} {ns : List Notice}
    (h : pool.acquirePair d kind = (.error e, pool', d', ns)) (hu : pool'.Holds u) : pool.Supplies d' u := by
  rcases acquirePair_eq_error h with rfl | ⟨t, pool₁, d₁, hfirst, hsecond, rfl⟩
  · exact Or.inl hu
  · have later := pool₁.reaches_acquire d₁ kind
    rw [hsecond] at later
    exact ((supplies_of_acquire hfirst).2 _ (holds_release t hu)).reaches later

end ScratchPool

/-! ### From the prepared stack -/

namespace Application

/-- The programs of the passes of a stack and its antialias program; the textures of a pool and those that the device
    has made, and one target more. -/
def scope (stack : Stack) (pool : ScratchPool) (d : Ledger δ) (deleted : ProgramId → Prop) (target : Option Target) :
    DeviceOp.Scope where
  deleted := deleted
  drawn p := p ∈ stack.programs ∨ stack.antialiasProgram = .ready p
  written x := (∃ t, x = .texture t ∧ pool.Supplies d t) ∨ target = some x

/-- `b` is the prepared application `a` in the end. -/
structure Concludes (target : Target) (a b : Application (Ledger δ)) : Prop where
  reaches : Reaches (Within (scope b.stack a.pool b.device (fun _ => False) (some target))) a.device b.device
  antialias : KeepsAntialias a b
  pool : ∀ t, b.pool.Holds t → a.pool.Supplies b.device t

variable {a b : Application (Ledger δ)} {t : TextureId} {destination : Option TextureId}

/-- The result is written with a program that is there or has just been given out. -/
theorem concludes_finish {s : DeviceOp.Scope} (h : Proceeds (Draws s) a b)
    (hdeleted : ∀ p, ¬s.deleted p) (hdrawn : ∀ p, s.drawn p → p ∈ a.stack.programs)
    (hwritten : ∀ x, s.written x → ∃ t, x = .texture t ∧ a.pool.Supplies b.device t)
    (hpool : ∀ t, b.pool.Holds t → a.pool.Supplies b.device t) :
    Concludes (.ofDestination destination) a (b.finish t destination) := by
  have ended := b.course_finish t destination
    (P := Within (.ofEnd (b.finish t destination).stack (.ofDestination destination))) trivial trivial
    fun op shows => shows.draws.2
  have kept := ends_finish b t destination
  have programs : (b.finish t destination).stack.programs = a.stack.programs := by
    unfold Stack.programs
    rw [kept.continues.passes, h.stack]
  refine ⟨?_, ?_, fun u hu => ?_⟩
  · refine (h.course.reaches.mono fun op draws => ?_).trans (ended.reaches.mono fun op within => ?_)
    · refine draws.2.mono (fun p hp => hdeleted p hp) (fun p hp => Or.inl ?_) fun x hx => Or.inl ?_
      · rw [programs]
        exact hdrawn p hp
      · obtain ⟨u, rfl, hu⟩ := hwritten x hx
        exact ⟨u, rfl, hu.reaches ended.reaches⟩
    · exact within.mono (fun _ => id) (fun _ => Or.inr) fun x hx => Or.inr (congrArg some hx.symm)
  · have finished := keepsAntialias_finish b t destination
    unfold KeepsAntialias at finished ⊢
    rwa [h.stack] at finished
  · rw [kept.pool] at hu
    exact (hpool u hu).reaches ended.reaches

theorem Concludes.giveBack {target : Target} (h : Concludes target a b) (pair : TextureId × TextureId) :
    Concludes target a (b.giveBack pair) :=
  ⟨h.reaches, h.antialias,
    fun t ht => h.pool t (ScratchPool.holds_release pair.1 (ScratchPool.holds_release pair.2 ht))⟩

theorem concludes_run (a : Application (Ledger δ)) (c : FrameContext) (input : FrameInput) (kind : TextureKind) :
    Concludes (.ofDestination input.destination) a (a.run c input kind) := by
  rcases hpair : a.pool.acquirePair a.device kind with ⟨e | pair, pool, d, ns⟩
  · obtain ⟨b, hb, hpool, -, -, hrun⟩ := run_unborrowed c input hpair
    rw [hrun]
    have asked := ((proceeds_asked hpair).trans (hb.mono fun _ => False.elim)).mono fun _ creates => creates.draws .none
    refine concludes_finish asked (fun _ => id) (fun _ => False.elim) (fun _ => False.elim) fun t ht => ?_
    rw [hpool] at ht
    exact (ScratchPool.supplies_of_noPair hpair ht).reaches hb.course.reaches
  · obtain ⟨b, hasked, hpool, -, hrun⟩ := run_borrowed c input hpair
    have hb := hasked _ ⟨trivial, pair.1, List.mem_cons_self, rfl⟩ (asks_issued c input hpair)
    have asked := (proceeds_asked hpair).mono fun _ creates =>
      creates.draws (.ofPasses a.stack.passes [pair.1, pair.2])
    obtain ⟨first, second, held⟩ := ScratchPool.supplies_of_acquirePair hpair
    rw [hrun]
    refine (concludes_finish (asked.trans hb) (fun _ => id) ?_ ?_ ?_).giveBack pair
    · rintro p ⟨q, hq, hprogram⟩
      exact List.mem_filterMap.mpr ⟨q, hq, hprogram⟩
    · rintro x ⟨u, hu, rfl⟩
      refine ⟨u, rfl, ScratchPool.Supplies.reaches ?_ hb.course.reaches⟩
      rcases List.mem_cons.mp hu with rfl | hu
      · exact first
      · obtain rfl := List.mem_singleton.mp hu
        exact second
    · intro u hu
      rw [hpool] at hu
      exact (held u hu).reaches hb.course.reaches

end Application

/-! ### Calls -/

namespace Stack

/-- What a stack does with a device: it is compiled, or applied to an image. -/
inductive Call
  | compile (catalog : Catalog)
  | apply (catalog : Catalog) (resolve : Resolver) (input : FrameInput)

/-- What comes of a call. A stack that is compiled counts as recompiled. -/
def call {ε : Type} [Device ε] (s : Stack) (pool : ScratchPool) (d : ε) : Call → Application ε
  | .compile catalog =>
    let (s, d, notices) := s.compile catalog d
    ⟨s, d, pool, { Report.empty with recompiled := true }, notices⟩
  | .apply catalog resolve input => s.apply catalog d pool resolve input

/-- Where the result of a call is written. -/
def Call.target? : Call → Option Target
  | .compile _ => none
  | .apply _ _ input => some (.ofDestination input.destination)

/-- `b` is what has come of a call of the stack with a device. -/
structure Conducts (s : Stack) (pool : ScratchPool) (d : Ledger δ) (target : Option Target)
    (b : Application (Ledger δ)) : Prop where
  reaches : Reaches (Within (Application.scope b.stack pool b.device (· ∈ s.programs) target)) d b.device
  renewed : b.report.recompiled = true → ∀ q ∈ b.stack.passes, ∀ p, q.program = some p → b.device.Gave p q.source
  kept : b.report.recompiled = false → b.stack.passes = s.passes
  antialias : b.stack.antialiasProgram = s.antialiasProgram ∨ (s.antialiasProgram = .notBuilt ∧
    ∀ p, b.stack.antialiasProgram = .ready p → b.device.Gave p Program.antialias)
  pool : ∀ t, b.pool.Holds t → pool.Supplies b.device t

section
variable (s : Stack) (catalog : Catalog) (d : Ledger δ) (pool : ScratchPool)

theorem recompiled_prepare : (s.prepare catalog d pool).report.recompiled = s.isStale catalog := rfl

theorem gave_prepare (h : s.isStale catalog = true) : ∀ q ∈ (s.prepare catalog d pool).stack.passes,
    ∀ p, q.program = some p → (s.prepare catalog d pool).device.Gave p q.source := by
  intro q hq p hp
  have hdevice : (s.prepare catalog d pool).device =
      Device.setFixedFunction ((s.setRandom s.random.next.2).compile catalog d).2.1 .fullscreen := by
    unfold prepare
    dsimp only
    rw [show (s.setRandom s.random.next.2).isStale catalog = true from h]
    rfl
  have set : Reaches (fun _ => True) ((s.setRandom s.random.next.2).compile catalog d).2.1
      (s.prepare catalog d pool).device := .one (.setFixedFunction .fullscreen) trivial hdevice.symm
  rw [prepare_stack, if_pos h] at hq
  exact (gave_compile _ catalog d q hq p hp).reaches set

theorem conducts_compile : Conducts s pool d none (s.call pool d (.compile catalog)) :=
  ⟨(s.course_compile catalog d).reaches.mono fun _ prepares => prepares.within, fun _ => s.gave_compile catalog d,
    nofun, Or.inl rfl, fun _ => Or.inl⟩

/-- Since the stack was prepared, no program has come to a pass. -/
theorem conducts_of_concludes {target : Target} {b : Application (Ledger δ)}
    (hb : Application.Continues (s.prepare catalog d pool) b)
    (h : Application.Concludes target (s.prepare catalog d pool) b) : Conducts s pool d (some target) b := by
  have prepared := (s.course_prepare catalog d pool).reaches
  refine ⟨?_, fun hre => ?_, fun hre => ?_, ?_, h.pool⟩
  · refine (prepared.mono fun _ prepares => prepares.within).trans (h.reaches.mono fun _ within => ?_)
    exact within.mono (fun _ => False.elim) (fun _ => id) fun _ => id
  · rw [hb.passes]
    rw [hb.recompiled] at hre
    exact fun q hq p hp => (s.gave_prepare catalog d pool hre q hq p hp).reaches h.reaches
  · rw [hb.recompiled, recompiled_prepare] at hre
    rw [hb.passes, prepare_stack, hre]
    rfl
  · rw [← s.antialiasProgram_prepare catalog d pool]
    exact h.antialias

theorem conducts_apply (resolve : Resolver) (input : FrameInput) :
    Conducts s pool d (some (.ofDestination input.destination)) (s.apply catalog d pool resolve input) := by
  cases hkind : Device.textureKind? d input.source with
  | none =>
    rw [apply_of_dead _ _ _ _ _ hkind]
    exact ⟨.refl, nofun, fun _ => rfl, Or.inl rfl, fun _ => Or.inl⟩
  | some kind =>
    have live : (Device.textureKind? d input.source).isSome := by rw [hkind]; rfl
    refine s.conducts_of_concludes catalog d pool (s.continues_apply catalog d pool resolve live) ?_
    rw [apply_of_live _ _ _ _ _ hkind]
    dsimp only
    generalize s.prepare catalog d pool = a
    split
    · exact Application.concludes_finish (.refl a) (s := .none) (fun _ => id) (fun _ => False.elim)
        (fun _ => False.elim) fun _ => Or.inl
    · exact Application.concludes_run a _ input _

/-- A call deletes programs of the passes that the stack had, and draws with those of the passes that it has then and
    with its antialias program. New ones of them have been given out in the call, and so have the scratch textures that
    were not in the pool. -/
theorem conducts_call (c : Call) : Conducts s pool d c.target? (s.call pool d c) := by
  cases c with
  | compile catalog => exact s.conducts_compile catalog d pool
  | apply catalog resolve input => exact s.conducts_apply catalog d pool resolve input

end
end Stack
end FxStack
