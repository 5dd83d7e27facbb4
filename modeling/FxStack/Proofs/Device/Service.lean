import FxStack.Proofs.Device.Footprint
import Mathlib.Data.List.Nodup

/-! The reference device as its callers have it: one device that every call changes in place, so that a call that fails
    may have changed it before. Whatever is called, in whatever order, textures keep images of their size and the
    display its own, every number is issued once for a texture or a program, and a failing call has changed nothing.
    Main statement: `ReferenceDevice.calls_keep`. -/

namespace FxStack
namespace ReferenceDevice

/-! ### Calls -/

/-- A computation on a device that is changed in place: a failure does not undo what was changed before it. -/
abbrev InPlace := EStateM DeviceError ReferenceDevice

namespace InPlace

def newNumber : InPlace Nat := do
  let n := (← get).nextNumber
  modify fun d => { d with nextNumber := n + 1 }
  return n

def addTexture (x : Texture) : InPlace TextureId := do
  let t : TextureId := ⟨← newNumber⟩
  modify fun d => { d with textures := d.textures ++ [(t, x)] }
  return t

def upload (i : Image) : InPlace TextureId := addTexture ⟨.rgba8 i.width i.height, i, .initial⟩

def createTexture (kind : TextureKind) : InPlace TextureId := do
  if kind.width = 0 ∨ kind.height = 0 then throw (.emptyTexture kind.width kind.height)
  addTexture ⟨kind, .blank kind.width kind.height, .initial⟩

/-- The placeholder, made and recorded if there is none. -/
def placeholderTexture : InPlace TextureId := do
  match (← get).placeholder with
  | some t => return t
  | none =>
    let t ← upload (.solid 1 1 .white)
    modify fun d => { d with placeholder := some t }
    return t

def destroyTexture (t : TextureId) : InPlace Unit := do
  modify fun d => { d with textures := d.textures.filter (·.1 ≠ t) }
  if (← get).placeholder = some t then modify fun d => { d with placeholder := none }

def compileProgram (label source : String) : InPlace ProgramId := do
  match (← get).programFault? label source with
  | some e => throw e
  | none =>
    let p : ProgramId := ⟨← newNumber⟩
    modify fun d =>
      { d with programs := d.programs ++ [(p, ⟨label, source, ActiveUniforms.ofText source.toList⟩)] }
    return p

/-- What has been looked up, or the failure if it is not there. -/
def found {α : Type} (e : DeviceError) : Option α → InPlace α
  | some x => return x
  | none => throw e

def sizeOf : Target → InPlace (Nat × Nat)
  | .display => return (← get).display.size
  | .texture t => return (← found (.unknownTarget t) ((← get).texture? t)).kind.size

/-- Looks the source up, then the target, and replaces the target's image. -/
def write (target : Target) (source : TextureId) : InPlace Unit := do
  let x ← found (.unknownSource source) ((← get).texture? source)
  let size ← sizeOf target
  modify (·.setPixels target (x.pixels.resample x.sampler.filter size))

def writeInput (call : DrawCall) : InPlace Unit :=
  match inputOf call.uniforms with
  | some t => write call.target t
  | none => pure ()

def draw (call : DrawCall) : InPlace Unit := do
  let program ← found (.unknownProgram call.program) ((← get).program? call.program)
  writeInput call
  modify fun d => { d with draws := d.draws ++ [recordOf call program.label] }

def copy (source : TextureId) (target : Target) : InPlace Unit := do
  if target = .texture source then return
  write target source
  modify fun d => { d with copies := d.copies + 1 }

end InPlace

/-- A call of the reference device: what every device can do, or what is to be done with this one only. -/
inductive Call
  | upload (i : Image)
  | operation (op : DeviceOp)
  | reject (marker : String)
  | clearRecords

namespace Call

/-- The call in place. It answers the number of what it has made, if it has made something. -/
def serve : Call → InPlace (Option Nat)
  | upload i => (fun t => some t.number) <$> InPlace.upload i
  | operation (.compileProgram label source) => (fun p => some p.number) <$> InPlace.compileProgram label source
  | operation (.deleteProgram p) => (fun _ => none) <$> modify (·.deleteProgram p)
  | operation (.createTexture kind) => (fun t => some t.number) <$> InPlace.createTexture kind
  | operation (.destroyTexture t) => (fun _ => none) <$> InPlace.destroyTexture t
  | operation .placeholderTexture => do
    let known := (← get).placeholder
    let t ← InPlace.placeholderTexture
    return if known.isSome then none else some t.number
  | operation (.setSampler t sampler) => (fun _ => none) <$> modify (·.setSampler t sampler)
  | operation (.setFixedFunction state) => (fun _ => none) <$> modify fun d => { d with fixedFunction := some state }
  | operation (.draw call) => (fun _ => none) <$> InPlace.draw call
  | operation (.copy source target) => (fun _ => none) <$> InPlace.copy source target
  | reject marker => (fun _ => none) <$> modify (·.rejecting marker)
  | clearRecords => (fun _ => none) <$> modify (·.clearRecords)

/-- The number of what the call makes, or why it fails, and the device after it. -/
def answer (d : ReferenceDevice) : Call → Except DeviceError (Option Nat) × ReferenceDevice
  | upload i => (.ok (some (d.upload i).1.number), (d.upload i).2)
  | operation (.compileProgram label source) =>
    (Device.compileProgram d label source).map (Except.map fun p => some p.number) id
  | operation (.createTexture kind) => (Device.createTexture d kind).map (Except.map fun t => some t.number) id
  | operation .placeholderTexture =>
    (.ok (if d.placeholder.isSome then none else some d.placeholderTexture.1.number), d.placeholderTexture.2)
  | operation (.draw call) => (Device.draw d call).map (Except.map fun _ => none) id
  | operation (.copy source target) => (Device.copy d source target).map (Except.map fun _ => none) id
  | operation op => (.ok none, op.run d)
  | reject marker => (.ok none, d.rejecting marker)
  | clearRecords => (.ok none, d.clearRecords)

end Call

/-! ### Calls in place and their answers -/

/-- What a call in place comes to that gives an answer and a device. -/
def outcome {α : Type} : Except DeviceError α × ReferenceDevice → EStateM.Result DeviceError ReferenceDevice α
  | (.ok a, d) => .ok a d
  | (.error e, d) => .error e d

namespace InPlace
variable (d : ReferenceDevice)

theorem run_createTexture (kind : TextureKind) :
    (createTexture kind).run d = outcome (Device.createTexture d kind) := by
  have hcreate : Device.createTexture d kind = d.createTexture kind := rfl
  rw [hcreate]
  unfold createTexture ReferenceDevice.createTexture
  split <;> rfl

theorem run_placeholderTexture :
    placeholderTexture.run d = .ok d.placeholderTexture.1 d.placeholderTexture.2 := by
  unfold placeholderTexture ReferenceDevice.placeholderTexture
  rw [EStateM.run_bind, EStateM.run_get]
  dsimp only
  cases d.placeholder <;> rfl

theorem run_destroyTexture (t : TextureId) : (destroyTexture t).run d = .ok () (d.destroyTexture t) := by
  unfold destroyTexture ReferenceDevice.destroyTexture
  rw [EStateM.run_bind, EStateM.run_modify]
  show (if d.placeholder = some t then _ else _ : InPlace Unit).run _ = _
  split <;> rfl

theorem run_compileProgram (label source : String) :
    (compileProgram label source).run d = outcome (Device.compileProgram d label source) := by
  have hcompile : Device.compileProgram d label source = d.compileProgram label source := rfl
  rw [hcompile]
  unfold compileProgram ReferenceDevice.compileProgram
  rw [EStateM.run_bind, EStateM.run_get]
  dsimp only
  cases d.programFault? label source <;> rfl

theorem run_found {α : Type} (e : DeviceError) (x : Option α) :
    (found e x).run d = match x with
      | some a => .ok a d
      | none => .error e d := by
  cases x <;> rfl

theorem run_sizeOf_texture (t : TextureId) :
    (sizeOf (.texture t)).run d = match d.targetSize? (.texture t) with
      | some size => .ok size d
      | none => .error (.unknownTarget t) d := by
  unfold sizeOf targetSize?
  dsimp only
  rw [EStateM.run_bind, EStateM.run_get]
  dsimp only
  cases d.texture? t <;> rfl

/-- Both ends are looked up before the image is replaced. -/
theorem run_write (target : Target) (source : TextureId) :
    (write target source).run d = match d.write target source with
      | .ok d' => .ok () d'
      | .error e => .error e d := by
  unfold write ReferenceDevice.write
  rw [EStateM.run_bind, EStateM.run_get]
  dsimp only
  rw [EStateM.run_bind, run_found]
  cases d.texture? source with
  | none => rfl
  | some x =>
    dsimp only
    cases target with
    | display => rfl
    | texture t =>
      rw [EStateM.run_bind, run_sizeOf_texture]
      cases d.targetSize? (.texture t) <;> rfl

theorem run_writeInput (call : DrawCall) :
    (writeInput call).run d = match d.writeInput call with
      | .ok d' => .ok () d'
      | .error e => .error e d := by
  unfold writeInput ReferenceDevice.writeInput
  cases inputOf call.uniforms with
  | none => rfl
  | some t => exact run_write d call.target t

theorem run_draw (call : DrawCall) : (draw call).run d = outcome (Device.draw d call) := by
  have hdraw : Device.draw d call = d.draw call := rfl
  rw [hdraw]
  unfold draw ReferenceDevice.draw
  rw [EStateM.run_bind, EStateM.run_get]
  dsimp only
  rw [EStateM.run_bind, run_found]
  cases d.program? call.program with
  | none => rfl
  | some program =>
    dsimp only
    rw [EStateM.run_bind, run_writeInput]
    cases d.writeInput call <;> rfl

theorem run_copy (source : TextureId) (target : Target) :
    (copy source target).run d = outcome (Device.copy d source target) := by
  have hcopy : Device.copy d source target = d.copy source target := rfl
  rw [hcopy]
  unfold copy ReferenceDevice.copy
  split
  · rfl
  · show (write target source >>= fun _ => modify _ : InPlace Unit).run d = _
    rw [EStateM.run_bind, run_write]
    cases d.write target source <;> rfl

variable {d}

theorem run_map {α β : Type} {x : InPlace α} {r : Except DeviceError α × ReferenceDevice} (h : x.run d = outcome r)
    (f : α → β) : (f <$> x).run d = outcome (r.map (Except.map f) id) := by
  show EStateM.map f x d = _
  have hx : x d = outcome r := h
  unfold EStateM.map
  rw [hx]
  rcases r with ⟨_ | _, _⟩ <;> rfl

end InPlace

/-- A call in place leaves the device that the call gives, also where it fails. -/
theorem Call.run_serve (q : Call) (d : ReferenceDevice) : q.serve.run d = outcome (q.answer d) := by
  cases q with
  | upload i => rfl
  | reject marker => rfl
  | clearRecords => rfl
  | operation op =>
    cases op with
    | compileProgram label source => exact InPlace.run_map (InPlace.run_compileProgram d label source) _
    | createTexture kind => exact InPlace.run_map (InPlace.run_createTexture d kind) _
    | draw call => exact InPlace.run_map (InPlace.run_draw d call) _
    | copy source target => exact InPlace.run_map (InPlace.run_copy d source target) _
    | destroyTexture t =>
      exact InPlace.run_map (r := (.ok (), d.destroyTexture t)) (InPlace.run_destroyTexture d t) _
    | placeholderTexture =>
      show (InPlace.placeholderTexture >>= fun t => pure _ : InPlace (Option Nat)).run d = _
      rw [EStateM.run_bind, InPlace.run_placeholderTexture]
      rfl
    | deleteProgram p => rfl
    | setSampler t sampler => rfl
    | setFixedFunction state => rfl

/-! ### What calls do -/

theorem copy_error {d d' : ReferenceDevice} {source : TextureId} {target : Target} {e : DeviceError}
    (h : Device.copy d source target = (.error e, d')) : d' = d := by
  change d.copy source target = _ at h
  unfold ReferenceDevice.copy at h
  split at h
  · cases h
  · split at h
    · cases h
      rfl
    · cases h

theorem eq_error_of_map {α β : Type} {f : α → β} {r : Except DeviceError α × ReferenceDevice} {e : DeviceError}
    {d : ReferenceDevice} (h : r.map (Except.map f) id = (.error e, d)) : r = (.error e, d) := by
  rcases r with ⟨_ | _, _⟩ <;> cases h
  rfl

namespace Call
variable {d d' : ReferenceDevice} {q : Call}

/-- A call that fails has left the device as it was. -/
theorem answer_error {e : DeviceError} (h : q.answer d = (.error e, d')) : d' = d := by
  cases q with
  | upload i => cases h
  | reject marker => cases h
  | clearRecords => cases h
  | operation op =>
    cases op with
    | compileProgram label source => exact compileProgram_eq_error (eq_error_of_map h)
    | createTexture kind => exact createTexture_error (eq_error_of_map h)
    | draw call => exact draw_error (eq_error_of_map h)
    | copy source target => exact copy_error (eq_error_of_map h)
    | _ => cases h

/-- The device after the call, which may have failed. -/
def after (d : ReferenceDevice) (q : Call) : ReferenceDevice :=
  match q.serve.run d with
  | .ok _ d' => d'
  | .error _ d' => d'

/-- The number that the call issues. -/
def issued (d : ReferenceDevice) (q : Call) : Option Nat :=
  match q.serve.run d with
  | .ok n _ => n
  | .error .. => none

theorem after_eq (d : ReferenceDevice) (q : Call) : q.after d = (q.answer d).2 := by
  unfold after
  rw [run_serve]
  rcases q.answer d with ⟨_ | _, _⟩ <;> rfl

theorem issued_eq (d : ReferenceDevice) (q : Call) : q.issued d = (q.answer d).1.toOption.join := by
  unfold issued
  rw [run_serve]
  rcases q.answer d with ⟨_ | _, _⟩ <;> rfl

end Call

/-! ### What calls keep -/

/-- What holds of a device with a display of a given size that has issued some numbers. -/
structure Sound (size : Nat × Nat) (issued : List Nat) (d : ReferenceDevice) : Prop where
  wellFormed : d.WellFormed
  display : d.display.size = size
  below : ∀ n ∈ issued, n < d.nextNumber
  distinct : issued.Nodup
  textures : ∀ t, (d.texture? t).isSome → t.number ∈ issued
  programs : ∀ p, (d.program? p).isSome → p.number ∈ issued
  apart : ∀ t p, (d.texture? t).isSome → (d.program? p).isSome → t.number ≠ p.number
  placeholder : ∀ t, d.placeholder = some t → (d.texture? t).isSome

namespace Sound
variable {size : Nat × Nat} {issued : List Nat} {d d' : ReferenceDevice}

theorem new (size : Nat × Nat) : Sound (max size.1 1, max size.2 1) [] (ReferenceDevice.new size) :=
  ⟨.new size, rfl, nofun, List.nodup_nil, nofun, nofun, nofun, nofun⟩

/-- Nothing is made, and no texture and no placeholder is lost. -/
theorem of_keeps (h : Sound size issued d) {written : Target → Prop} (hkeeps : Keeps written d d')
    (hnext : d'.nextNumber = d.nextNumber) (htextures : ∀ t, (d'.texture? t).isSome → (d.texture? t).isSome)
    (hprograms : ∀ p, (d'.program? p).isSome → (d.program? p).isSome)
    (hplaceholder : d'.placeholder = d.placeholder) : Sound size issued d' := by
  refine ⟨hkeeps.wellFormed h.wellFormed, hkeeps.displaySize.trans h.display, fun n hn => ?_, h.distinct,
    fun t ht => h.textures t (htextures t ht), fun p hp => h.programs p (hprograms p hp),
    fun t p ht hp => h.apart t p (htextures t ht) (hprograms p hp), fun t ht => ?_⟩
  · rw [hnext]
    exact h.below n hn
  · obtain ⟨x, hx⟩ := Option.isSome_iff_exists.mp (h.placeholder t (hplaceholder ▸ ht))
    obtain ⟨y, hy, -⟩ := hkeeps.textures t x hx
    rw [hy]
    rfl

theorem of_same (h : Sound size issued d) (hnext : d'.nextNumber = d.nextNumber) (htextures : d'.textures = d.textures)
    (hprograms : d'.programs = d.programs) (hdisplay : d'.display = d.display)
    (hplaceholder : d'.placeholder = d.placeholder) : Sound size issued d' := by
  have hkeeps : Keeps (fun _ => False) d d' := .of_eq hnext htextures hdisplay hplaceholder
  refine h.of_keeps hkeeps hnext (fun t => ?_) (fun p => ?_) hplaceholder
  · rw [texture?, htextures]
    exact id
  · rw [program?, hprograms]
    exact id

/-- A number that comes next is in no use yet. -/
theorem notMem (h : Sound size issued d) : d.nextNumber ∉ issued := fun hmem => Nat.lt_irrefl _ (h.below _ hmem)

theorem below_concat (h : Sound size issued d) : ∀ n ∈ issued ++ [d.nextNumber], n < d.nextNumber + 1 := by
  intro n hn
  rcases List.mem_append.mp hn with hn | hn
  · exact Nat.lt_succ_of_lt (h.below n hn)
  · exact Nat.lt_succ_of_le (Nat.le_of_eq (List.mem_singleton.mp hn))

theorem distinct_concat (h : Sound size issued d) : (issued ++ [d.nextNumber]).Nodup :=
  List.nodup_append.mpr ⟨h.distinct, List.nodup_singleton _, fun _ hn _ hm heq =>
    h.notMem (List.mem_singleton.mp hm ▸ heq ▸ hn)⟩

theorem addTexture (h : Sound size issued d) {x : Texture} (hx : x.pixels.size = x.kind.size) :
    Sound size (issued ++ [d.nextNumber]) (d.addTexture x).2 := by
  have found : ∀ t, ((d.addTexture x).2.texture? t).isSome → (d.texture? t).isSome ∨ t.number = d.nextNumber := by
    intro t ht
    rw [texture?_addTexture] at ht
    by_cases hnew : t = ⟨d.nextNumber⟩
    · exact .inr (congrArg TextureId.number hnew)
    · exact .inl (by simpa [hnew] using ht)
  refine ⟨h.wellFormed.addTexture hx, h.display, h.below_concat, h.distinct_concat, fun t ht => ?_,
    fun p hp => List.mem_append_left _ (h.programs p hp), fun t p ht hp => ?_, fun t ht => ?_⟩
  · rcases found t ht with hold | hnew
    · exact List.mem_append_left _ (h.textures t hold)
    · exact List.mem_append_right _ (List.mem_singleton.mpr hnew)
  · rcases found t ht with hold | hnew
    · exact h.apart t p hold hp
    · exact fun heq => h.notMem (hnew ▸ heq ▸ h.programs p hp)
  · rw [texture?_addTexture, Option.isSome_or, h.placeholder t ht, Bool.true_or]

theorem addProgram (h : Sound size issued d) (x : CompiledProgram) :
    Sound size (issued ++ [d.nextNumber])
      { d with nextNumber := d.nextNumber + 1, programs := d.programs ++ [(⟨d.nextNumber⟩, x)] } := by
  have found : ∀ p, ((d.programs ++ [(ProgramId.mk d.nextNumber, x)]).lookup p).isSome →
      (d.program? p).isSome ∨ p.number = d.nextNumber := by
    intro p hp
    rw [List.lookup_append, lookup_cons_ite] at hp
    by_cases hnew : p = ⟨d.nextNumber⟩
    · exact .inr (congrArg ProgramId.number hnew)
    · exact .inl (by simpa [hnew, program?] using hp)
  refine ⟨⟨fun t y hy => Nat.lt_succ_of_lt (h.wellFormed.issued t y hy), h.wellFormed.sized⟩, h.display,
    h.below_concat, h.distinct_concat, fun t ht => List.mem_append_left _ (h.textures t ht), fun p hp => ?_,
    fun t p ht hp => ?_, h.placeholder⟩
  · rcases found p hp with hold | hnew
    · exact List.mem_append_left _ (h.programs p hold)
    · exact List.mem_append_right _ (List.mem_singleton.mpr hnew)
  · rcases found p hp with hold | hnew
    · exact h.apart t p ht hold
    · exact fun heq => h.notMem (hnew ▸ heq ▸ h.textures t ht)

theorem destroyTexture (h : Sound size issued d) (t : TextureId) : Sound size issued (d.destroyTexture t) := by
  have lived : ∀ u, ((d.destroyTexture t).texture? u).isSome → (d.texture? u).isSome := by
    intro u hu
    rw [texture?_destroyTexture] at hu
    split at hu
    · cases hu
    · exact hu
  refine ⟨h.wellFormed.destroyTexture t, h.display, h.below, h.distinct, fun u hu => h.textures u (lived u hu),
    h.programs, fun u p hu hp => h.apart u p (lived u hu) hp, fun u hu => ?_⟩
  -- A placeholder that is still recorded is not the texture that went.
  change (if d.placeholder = some t then none else d.placeholder) = some u at hu
  split at hu
  · cases hu
  · next hne =>
    have hut : u ≠ t := fun heq => hne (heq ▸ hu)
    rw [texture?_destroyTexture, if_neg hut]
    exact h.placeholder u hu

theorem placeholderTexture (h : Sound size issued d) :
    Sound size (issued ++ (if d.placeholder.isSome then none else some d.placeholderTexture.1.number).toList)
      d.placeholderTexture.2 := by
  unfold ReferenceDevice.placeholderTexture
  cases hp : d.placeholder with
  | some t => simpa using h
  | none =>
    have added : Sound size (issued ++ [d.nextNumber]) (d.addTexture ⟨.rgba8 1 1, .solid 1 1 .white, .initial⟩).2 :=
      h.addTexture rfl
    refine ⟨⟨added.wellFormed.issued, added.wellFormed.sized⟩, added.display, added.below, added.distinct,
      added.textures, added.programs, added.apart, fun t ht => ?_⟩
    obtain rfl := Option.some.inj ht
    show ((d.addTexture ⟨.rgba8 1 1, .solid 1 1 .white, .initial⟩).2.texture? ⟨d.nextNumber⟩).isSome
    rw [texture?_addTexture, if_pos rfl, Option.isSome_or, Bool.or_comm]
    rfl

/-- One target's image may have been replaced. -/
theorem painted (h : Sound size issued d) {target : Target} (hpainted : Painted target d d')
    (hkeeps : Keeps (· = target) d d') : Sound size issued d' := by
  obtain ⟨e, draws, copies, rfl | ⟨i, rfl⟩, rfl⟩ := hpainted
  · exact h.of_keeps hkeeps rfl (fun _ => id) (fun _ => id) rfl
  · cases target with
    | display => exact h.of_keeps hkeeps rfl (fun _ => id) (fun _ => id) rfl
    | texture t =>
      refine h.of_keeps hkeeps rfl (fun u hu => ?_) (fun _ => id) rfl
      change ((d.updateTexture t fun x => { x with pixels := i }).texture? u).isSome at hu
      rw [texture?_updateTexture] at hu
      split at hu
      · simpa using hu
      · exact hu

theorem deleteProgram (h : Sound size issued d) (p : ProgramId) : Sound size issued (d.deleteProgram p) := by
  refine h.of_keeps (Still.deleteProgram d p).keeps rfl (fun _ => id) (fun q hq => ?_) rfl
  change ((d.programs.filter (·.1 ≠ p)).lookup q).isSome at hq
  rw [lookup_filter_ne] at hq
  split at hq
  · cases hq
  · exact hq

theorem setSampler (h : Sound size issued d) (t : TextureId) (sampler : Sampler) :
    Sound size issued (d.setSampler t sampler) := by
  refine h.of_keeps (Quiet.setSampler d t sampler).keeps rfl (fun u hu => ?_) (fun _ => id) rfl
  rw [show (d.setSampler t sampler).texture? u = _ from texture?_setSampler d t u sampler] at hu
  split at hu
  · simpa using hu
  · exact hu

/-- No call breaks what holds, whether it fails or not. -/
theorem serve (h : Sound size issued d) (q : Call) : Sound size (issued ++ (q.issued d).toList) (q.after d) := by
  rw [Call.issued_eq, Call.after_eq]
  -- What a call does that issues nothing.
  have silent : ∀ {r : Except DeviceError Unit × ReferenceDevice}, Sound size issued r.2 →
      Sound size (issued ++ (r.map (Except.map fun _ => (none : Option Nat)) id).1.toOption.join.toList)
        (r.map (Except.map fun _ => (none : Option Nat)) id).2 := by
    rintro ⟨_ | _, e⟩ he <;> simpa [Except.map, Except.toOption] using he
  have quiet : ∀ {e : ReferenceDevice}, Sound size issued e → Sound size (issued ++ []) e := by
    intro e he
    rwa [List.append_nil]
  cases q with
  | upload i => exact h.addTexture rfl
  | reject marker => exact quiet (h.of_same rfl rfl rfl rfl rfl)
  | clearRecords => exact quiet (h.of_same rfl rfl rfl rfl rfl)
  | operation op =>
    cases op with
    | compileProgram label source =>
      change Sound size (_ ++ ((d.compileProgram label source).map (Except.map _) id).1.toOption.join.toList)
        ((d.compileProgram label source).map (Except.map _) id).2
      unfold ReferenceDevice.compileProgram
      cases d.programFault? label source with
      | some e => exact quiet h
      | none => exact h.addProgram _
    | createTexture kind =>
      change Sound size (_ ++ ((d.createTexture kind).map (Except.map _) id).1.toOption.join.toList)
        ((d.createTexture kind).map (Except.map _) id).2
      unfold ReferenceDevice.createTexture
      split
      · exact quiet h
      · exact h.addTexture rfl
    | draw call => exact silent (h.painted (painted_draw d call) (.draw rfl))
    | copy source target => exact silent (h.painted (painted_copy d source target) (.copy rfl))
    | destroyTexture t => exact quiet (h.destroyTexture t)
    | placeholderTexture => exact h.placeholderTexture
    | deleteProgram p => exact quiet (h.deleteProgram p)
    | setSampler t sampler => exact quiet (h.setSampler t sampler)
    | setFixedFunction state => exact quiet (h.of_same rfl rfl rfl rfl rfl)

end Sound

/-! ### Many calls -/

/-- The device after calls, one after another. -/
def Call.afterAll (d : ReferenceDevice) (calls : List Call) : ReferenceDevice := calls.foldl after d

/-- The numbers that calls issue, one after another. -/
def Call.issuedAll (d : ReferenceDevice) : List Call → List Nat
  | [] => []
  | q :: rest => (q.issued d).toList ++ issuedAll (q.after d) rest

theorem Sound.serveAll {size : Nat × Nat} {issued : List Nat} {d : ReferenceDevice} (h : Sound size issued d)
    (calls : List Call) : Sound size (issued ++ Call.issuedAll d calls) (Call.afterAll d calls) := by
  induction calls generalizing issued d with
  | nil =>
    show Sound size (issued ++ []) d
    rwa [List.append_nil]
  | cons q rest ih =>
    show Sound size (issued ++ ((q.issued d).toList ++ Call.issuedAll (q.after d) rest)) _
    rw [← List.append_assoc]
    exact ih (h.serve q)

/-- After any calls of a new device, each live texture's image has its size, the display has the size it had, no number
    has been issued twice and whatever lives has an issued number of its own, and a recorded placeholder is live. The
    next call leaves what its answer says, and the very same device if it fails. -/
theorem calls_keep (size : Nat × Nat) (calls : List Call) :
    let d := Call.afterAll (new size) calls
    let issued := Call.issuedAll (new size) calls
    (∀ t x, d.texture? t = some x → x.pixels.size = x.kind.size) ∧
    d.display.size = (max size.1 1, max size.2 1) ∧
    (issued.Nodup ∧ (∀ t x, d.texture? t = some x → t.number ∈ issued) ∧
      (∀ p x, d.program? p = some x → p.number ∈ issued) ∧
      ∀ t p x y, d.texture? t = some x → d.program? p = some y → t.number ≠ p.number) ∧
    (∀ t, d.placeholder = some t → ∃ x, d.texture? t = some x) ∧
    ∀ q : Call, q.serve.run d = outcome (q.answer d) ∧ ∀ e d', q.serve.run d = .error e d' → d' = d := by
  intro d issued
  have h : Sound (max size.1 1, max size.2 1) issued d := (Sound.new size).serveAll calls
  refine ⟨h.wellFormed.sized, h.display, ⟨h.distinct, fun t x hx => h.textures t (by rw [hx]; rfl),
    fun p x hx => h.programs p (by rw [hx]; rfl),
    fun t p x y hx hy => h.apart t p (by rw [hx]; rfl) (by rw [hy]; rfl)⟩,
    fun t ht => Option.isSome_iff_exists.mp (h.placeholder t ht), fun q => ⟨q.run_serve d, fun e d' he => ?_⟩⟩
  rw [q.run_serve] at he
  rcases hanswer : q.answer d with ⟨e' | n, d''⟩ <;> rw [hanswer] at he <;> cases he
  exact Call.answer_error hanswer

-- A placeholder that was destroyed is made anew, with another number; what fails issues none.
example : Call.issuedAll (new (4, 4)) [.operation .placeholderTexture, .operation .placeholderTexture,
    .operation (.destroyTexture ⟨1⟩), .operation (.createTexture (.rgba8 0 2)), .operation .placeholderTexture] =
      [1, 2] := rfl

end ReferenceDevice
end FxStack
