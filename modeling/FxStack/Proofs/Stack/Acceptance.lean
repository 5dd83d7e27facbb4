import FxStack.Proofs.Frame.Steady
import FxStack.Proofs.Stack.Studio

/-! Which texts a device compiles, and that a stack has a program for each of its passes of which the device compiles the
    text. A device never compiles a text that it has rejected before, since it never forgets a text that programs are
    rejected for. Main statement: `Studio.Reachable.served`. -/

namespace FxStack

open Device (Reaches)

/-! ### Texts that are compiled -/

namespace ReferenceDevice
variable {d d' : ReferenceDevice} {label source : String}

/-- Nothing that programs are rejected for occurs in the text, it has a main function, and its brackets are well
    nested. -/
structure Accepts (d : ReferenceDevice) (source : String) : Prop where
  markers : ∀ m ∈ d.failMarkers, Text.occursIn m.toList source.toList = false
  main : Text.occursIn "void main()".toList source.toList = true
  brackets : Brackets.check source.toList = .ok ()

theorem programFault?_eq_none : d.programFault? label source = none ↔ d.Accepts source := by
  unfold programFault?
  constructor
  · intro h
    split at h
    · cases h
    · next hmarkers =>
      split at h
      · next hmain =>
        split at h
        · next hbrackets =>
          exact ⟨fun m hm => by simpa using List.find?_eq_none.mp hmarkers m hm, hmain, hbrackets⟩
        · cases h
      · cases h
  · intro h
    rw [List.find?_eq_none.mpr fun m hm => by simp [h.markers m hm]]
    dsimp only
    rw [if_pos h.main, h.brackets]

theorem Accepts.of_subset (h : d'.Accepts source) (hsub : d.failMarkers ⊆ d'.failMarkers) : d.Accepts source :=
  ⟨fun m hm => h.markers m (hsub hm), h.main, h.brackets⟩

/-- An accepted text is compiled, under whatever label. -/
theorem Accepts.compiles (h : d.Accepts source) (label : String) :
    ∃ p d', Device.compileProgram d label source = (.ok p, d') := by
  show ∃ p d', d.compileProgram label source = (.ok p, d')
  unfold compileProgram
  rw [programFault?_eq_none.mpr h]
  exact ⟨_, _, rfl⟩

/-! ### Texts that programs are rejected for -/

theorem failMarkers_write {target : Target} {t : TextureId} (h : d.write target t = .ok d') :
    d'.failMarkers = d.failMarkers := by
  obtain ⟨x, size, -, -, rfl⟩ := write_eq_ok.mp h
  cases target <;> rfl

theorem failMarkers_draw {call : DrawCall} {r : Except DeviceError Unit} (h : Device.draw d call = (r, d')) :
    d'.failMarkers = d.failMarkers := by
  cases r with
  | error e => rw [draw_error h]
  | ok =>
    obtain ⟨program, w, -, hw, rfl⟩ := draw_eq_ok.mp h
    unfold writeInput at hw
    split at hw
    · exact (failMarkers_write hw :)
    · cases hw
      rfl

theorem failMarkers_copy {t : TextureId} {target : Target} {r : Except DeviceError Unit}
    (h : Device.copy d t target = (r, d')) : d'.failMarkers = d.failMarkers := by
  change d.copy t target = _ at h
  unfold ReferenceDevice.copy at h
  split at h
  · cases h
    rfl
  · split at h
    · cases h
      rfl
    · next w hw =>
      cases h
      exact (failMarkers_write hw :)

theorem failMarkers_run (op : DeviceOp) (d : ReferenceDevice) : (op.run d).failMarkers = d.failMarkers := by
  cases op with
  | compileProgram label source =>
    change (d.compileProgram label source).2.failMarkers = _
    unfold compileProgram
    split <;> rfl
  | createTexture kind =>
    change (d.createTexture kind).2.failMarkers = _
    unfold createTexture
    split <;> rfl
  | placeholderTexture =>
    change d.placeholderTexture.2.failMarkers = _
    unfold placeholderTexture
    split <;> rfl
  | draw call => exact failMarkers_draw rfl
  | copy source target => exact failMarkers_copy rfl
  | deleteProgram p => rfl
  | destroyTexture t => rfl
  | setSampler t sampler => rfl
  | setFixedFunction state => rfl

/-- No operation teaches a device to reject a text, or makes it forget one. -/
theorem failMarkers_reaches {P : DeviceOp → Prop} (h : Reaches P d d') : d'.failMarkers = d.failMarkers :=
  h.keeps (I := fun x => x.failMarkers = d.failMarkers) rfl fun op x _ hx => (failMarkers_run op x).trans hx

end ReferenceDevice

/-! ### Passes with a program -/

/-- Every pass has a program if the device compiles its text. -/
def Served (d : ReferenceDevice) (ps : List Pass) : Prop := ∀ p ∈ ps, d.Accepts p.source → p.program ≠ none

theorem Served.of_subset {d d' : ReferenceDevice} {ps : List Pass} (h : Served d ps)
    (hsub : d.failMarkers ⊆ d'.failMarkers) : Served d' ps :=
  fun p hp accepts => h p hp (accepts.of_subset hsub)

theorem Served.of_eq {d d' : ReferenceDevice} {ps : List Pass} (h : Served d ps) (heq : d'.failMarkers = d.failMarkers) :
    Served d' ps :=
  h.of_subset (heq ▸ List.Subset.refl _)

namespace Pass

theorem failMarkers_build (index : Nat) (p : Pass) (d : ReferenceDevice) :
    (p.build index d).2.1.failMarkers = d.failMarkers := by
  have course : Device.Course (DeviceOp.Prepares fun _ => False) d [] (p.build index d).2.1 _ := p.course_build index d []
  exact ReferenceDevice.failMarkers_reaches course.reaches

theorem program_build (index : Nat) (p : Pass) {d : ReferenceDevice} (h : d.Accepts (Program.ofPass p)) :
    (p.build index d).1.program ≠ none := by
  obtain ⟨program, d', hcompile⟩ := h.compiles (Program.label index p)
  unfold build
  dsimp only
  rw [hcompile]
  exact Option.some_ne_none program

theorem served_buildAll (ps : List Pass) : ∀ (index : Nat) (d : ReferenceDevice), Served d (buildAll index d ps).1 := by
  induction ps with
  | nil => exact fun _ _ p hp => absurd hp List.not_mem_nil
  | cons p ps ih =>
    intro index d q hq accepts
    rcases List.mem_cons.mp hq with heq | hq
    · have heq : q = (p.build index d).1 := heq
      rw [heq, (builtFrom_build index p d).source] at accepts
      rw [heq]
      exact program_build index p accepts
    · exact (ih (index + 1) (p.build index d).2.1).of_eq (failMarkers_build index p d).symm q hq accepts

end Pass

namespace Stack
variable (s : Stack) (catalog : Catalog) (d : ReferenceDevice)

theorem failMarkers_compile : (s.compile catalog d).2.1.failMarkers = d.failMarkers :=
  ReferenceDevice.failMarkers_reaches (s.course_compile catalog d).reaches

/-- The programs of a compilation are built after those before it have been deleted. -/
theorem served_compile : Served d (s.compile catalog d).1.passes := by
  have deleted : Reaches (fun _ => True) d (s.programs.foldl Device.deleteProgram d) :=
    .foldl (fun d p _ => .one (.deleteProgram p) trivial rfl) d
  exact (Pass.served_buildAll _ 0 _).of_eq (ReferenceDevice.failMarkers_reaches deleted).symm

theorem served_prepare (pool : ScratchPool) (h : Served d s.passes) : Served d (s.prepare catalog d pool).stack.passes := by
  rw [prepare_stack]
  split
  · exact (s.setRandom s.random.next.2).served_compile catalog d
  · exact h

theorem failMarkers_apply (pool : ScratchPool) (resolve : Resolver) (input : FrameInput) :
    (s.apply catalog d pool resolve input).device.failMarkers = d.failMarkers := by
  cases hkind : Device.textureKind? d input.source with
  | none => rw [apply_of_dead _ _ _ _ _ hkind]
  | some kind =>
    obtain ⟨b, t, hb, -, hdevice⟩ := s.apply_proceeds catalog pool resolve hkind
    have prepared := ReferenceDevice.failMarkers_reaches (s.course_prepare catalog d pool).reaches
    have drawn := ReferenceDevice.failMarkers_reaches hb.reaches
    have written := ReferenceDevice.failMarkers_reaches (b.told_finish t input.destination).reaches
    rw [hdevice, written, drawn, prepared]

theorem served_apply (pool : ScratchPool) (resolve : Resolver) (input : FrameInput) (h : Served d s.passes) :
    Served d (s.apply catalog d pool resolve input).stack.passes := by
  cases hkind : Device.textureKind? d input.source with
  | none =>
    rw [apply_of_dead _ _ _ _ _ hkind]
    exact h
  | some kind =>
    rw [(s.continues_apply catalog d pool resolve (Option.isSome_of_eq_some hkind)).passes]
    exact s.served_prepare catalog d pool h

end Stack

/-! ### Studios -/

namespace Studio
variable {w w' : Studio}

theorem served_turn {w : Studio} (h : ∀ u ∈ w.tenants, Served w.device u.stack.passes) {place : Nat} {u : Tenant} {s : Stack}
    {d : Watched ReferenceDevice} (hmarkers : d.inner.failMarkers = w.device.failMarkers)
    (hs : Served w.device s.passes) : ∀ v ∈ (w.turn place u s d).tenants, Served d.inner v.stack.passes := by
  intro v hv
  rcases List.mem_or_eq_of_mem_set hv with hv | rfl
  · exact (h v hv).of_eq hmarkers
  · exact hs.of_eq hmarkers

theorem Step.served (h : Step w w') (served : ∀ u ∈ w.tenants, Served w.device u.stack.passes) :
    ∀ u ∈ w'.tenants, Served w'.device u.stack.passes := by
  have mirrors := Watched.mirrors ReferenceDevice
  cases h with
  | create random =>
    intro u hu
    rcases List.mem_append.mp hu with hu | hu
    · exact served u hu
    · rw [List.mem_singleton.mp hu]
      exact fun p hp => absurd hp List.not_mem_nil
  | edit place e =>
    unfold Studio.edit
    split
    · exact served
    · next u hu =>
      intro v hv
      rcases List.mem_or_eq_of_mem_set hv with hv | rfl
      · exact served v hv
      · show Served w.device (u.stack.edit e).passes
        rw [(u.stack.programs_edit e).1]
        exact served u (List.mem_of_getElem? hu)
  | compile place catalog =>
    unfold Studio.compile
    split
    · exact served
    · next u hu =>
      have same : u.stack.compile catalog w.device = _ := mirrors.compile u.stack catalog w.watched
      refine served_turn served ?_ ?_
      · rw [← u.stack.failMarkers_compile catalog w.device, same]
        rfl
      · have compiled := u.stack.served_compile catalog w.device
        rw [same] at compiled
        exact compiled
  | apply place catalog pool resolve input =>
    unfold Studio.apply
    split
    · exact served
    · next u hu =>
      have same : u.stack.apply catalog w.device pool resolve input = _ :=
        u.stack.apply_mirror mirrors catalog w.watched pool resolve input fun _ _ => trivial
      refine served_turn served ?_ ?_
      · rw [← u.stack.failMarkers_apply catalog w.device pool resolve input, same]
        rfl
      · have applied := u.stack.served_apply catalog w.device pool resolve input (served u (List.mem_of_getElem? hu))
        rw [same] at applied
        exact applied
  | reject marker => exact fun u hu => (served u hu).of_subset (List.subset_append_left _ _)
  | upload i => exact fun u hu => (served u hu).of_eq rfl
  | clearRecords => exact fun u hu => (served u hu).of_eq rfl
  | @device op hop => exact fun u hu => (served u hu).of_eq (ReferenceDevice.failMarkers_run op w.device)
  | @compileProgram label source p d hc =>
    have markers := ReferenceDevice.failMarkers_run (.compileProgram label source) w.device
    simp only [DeviceOp.run, hc] at markers
    exact fun u hu => (served u hu).of_eq markers
  | deleteProgram hothers => exact fun u hu => (served u hu).of_eq rfl

/-- In every studio a stack has a program for each pass of which the device compiles the text. -/
theorem Reachable.served (h : w.Reachable) : ∀ u ∈ w.tenants, Served w.device u.stack.passes := by
  induction h with
  | start size => exact fun u hu => absurd hu List.not_mem_nil
  | step _ hs ih => exact hs.served ih

end Studio
end FxStack
