import FxStack.Proofs.Frame.Replay

/-! The end of an application. Once the stack has had its chance to build the antialias program, the result is written
    with the program if there is one, and copied where there is none or the draw fails. Between live textures that
    depends on nothing but the program and the target, so it comes out alike when it is done over again. Main
    statement: `Application.finish_again`. -/

namespace FxStack

open Device (Reaches)

/-! ### Writing with what there is -/

def AntialiasProgram.ready? : AntialiasProgram → Option ProgramId
  | ready p => some p
  | notBuilt | failed => none

namespace Application

section
variable {δ : Type} [Device δ] (a : Application δ)

/-- The program with which the result is drawn, if the stack asks for one and has it. -/
def smoother? : Option ProgramId := if a.stack.antialias then a.stack.antialiasProgram.ready? else none

/-- The application with the texture sampled as the stack says. -/
def sampled (t : TextureId) : Application δ := { a with device := Device.setSampler a.device t a.finalSampling }

/-- The application after the texture has been written to the target, be it with the program or without. -/
def writeOut (t : TextureId) (target : Target) : Application δ :=
  match a.smoother? with
  | none => a.copyOut t target
  | some p =>
    match Device.draw a.device ⟨p, target, antialiasBindings a.device t⟩ with
    | (.ok (), device) => { a with device }
    | (.error e, device) => ({ a with device }.fail e (.antialiasDrawFailed e)).copyOut t target

section
variable {a : Application δ} {t : TextureId} {target : Target} {p : ProgramId} {d : δ}

theorem writeOut_plain (h : a.smoother? = none) (t : TextureId) (target : Target) :
    a.writeOut t target = a.copyOut t target := by
  unfold writeOut
  rw [h]

theorem writeOut_drawn (h : a.smoother? = some p)
    (hd : Device.draw a.device ⟨p, target, antialiasBindings a.device t⟩ = (.ok (), d)) :
    a.writeOut t target = { a with device := d } := by
  unfold writeOut
  rw [h]
  dsimp only
  rw [hd]

theorem writeOut_refused {e : DeviceError} (h : a.smoother? = some p)
    (hd : Device.draw a.device ⟨p, target, antialiasBindings a.device t⟩ = (.error e, d)) :
    a.writeOut t target = ({ a with device := d }.fail e (.antialiasDrawFailed e)).copyOut t target := by
  unfold writeOut
  rw [h]
  dsimp only
  rw [hd]

end

theorem smoother?_ensureAntialias (h : a.stack.antialias = true) :
    a.ensureAntialias.2.smoother? = a.ensureAntialias.1 := by
  unfold ensureAntialias
  split
  · next p hready => exact (if_pos h).trans (congrArg AntialiasProgram.ready? hready)
  · next hfailed => exact (if_pos h).trans (congrArg AntialiasProgram.ready? hfailed)
  · split <;> exact if_pos h

/-- An application ends when its texture has been sampled, the program has been asked for, and the result is written. -/
theorem finish_eq (t : TextureId) (destination : Option TextureId) :
    a.finish t destination = (a.sampled t).smoothed.writeOut t (.ofDestination destination) := by
  unfold finish
  extract_lets b target
  change _ = b.smoothed.writeOut t target
  clear_value b target
  unfold smoothed
  cases hon : b.stack.antialias with
  | false =>
    have hnone : b.smoother? = none := by
      unfold smoother?
      rw [hon]
      rfl
    rw [if_neg nofun, if_neg nofun, writeOut_plain hnone]
  | true =>
    have hsmoother := b.smoother?_ensureAntialias hon
    unfold drawAntialias writeOut
    simp only [if_true, hsmoother]
    rcases b.ensureAntialias with ⟨_ | p, b'⟩
    · rfl
    · dsimp only
      rcases Device.draw b'.device ⟨p, target, antialiasBindings b'.device t⟩ with ⟨e | _, d⟩ <;> rfl

theorem report_smoothed : a.smoothed.report = a.report := by
  unfold smoothed ensureAntialias
  split
  · split
    · rfl
    · rfl
    · split <;> rfl
  · rfl

end

end Application

theorem DeviceOp.Shows.calm {stack : Stack} {target : Target} {op : DeviceOp} (h : op.Shows stack target) : op.Calm := by
  cases op with
  | draw call => trivial
  | copy source t => trivial
  | _ => exact h.elim

/-- The stack will not have its antialias program compiled, whatever it is applied to. -/
def Stack.Smooth (s : Stack) : Prop := s.antialias = true → s.antialiasProgram ≠ .notBuilt

namespace Application
section
variable {δ : Type} [Device δ] {a : Application δ}

theorem smoothed_of_smooth (h : a.stack.Smooth) : a.smoothed = a := by
  unfold smoothed
  split
  · next hon =>
    unfold ensureAntialias
    split
    · rfl
    · rfl
    · next hslot => exact absurd hslot (h hon)
  · rfl

theorem smooth_smoothed (a : Application δ) : a.smoothed.stack.Smooth := by
  unfold smoothed ensureAntialias Stack.Smooth
  split
  · split
    · next hslot => simp [hslot]
    · next hslot => simp [hslot]
    · split <;> simp [note]
  · next hoff => exact fun hon => absurd hon hoff

theorem smooth_finish (a : Application δ) (t : TextureId) (destination : Option TextureId) :
    (a.finish t destination).stack.Smooth := by
  rw [(a.proceeds_finish t destination).stack]
  exact smooth_smoothed _

end

/-! ### Writing over again -/

section
variable {x y : Application ReferenceDevice} {t : TextureId} {ρ : TextureId → TextureId} {kind : TextureKind}
  {size size' : Nat × Nat} {target : Target} {recompiled : Bool}

theorem copyOut_live (hk : Device.textureKind? x.device t = some kind)
    (hsize : x.device.targetSize? target = some size) :
    (x.copyOut t target).report = x.report ∧ (x.copyOut t target).device.draws = x.device.draws := by
  obtain ⟨d, hd⟩ := ReferenceDevice.copy_made hk hsize
  unfold copyOut
  rw [hd]
  exact ⟨rfl, ReferenceDevice.draws_copy hd⟩

/-- `y'` reports and draws as `x'` does, though `y` may have been written from another texture. -/
structure WrittenAgain (ρ : TextureId → TextureId) (recompiled : Bool) (x x' y y' : Application ReferenceDevice) :
    Prop where
  report : y'.report = { x'.report with recompiled }
  draws : ∃ last, last.length ≤ 1 ∧ x'.device.draws = x.device.draws ++ last ∧
    y'.device.draws = y.device.draws ++ last.map (·.reread ρ)

theorem writeOut_again (hreport : y.report = { x.report with recompiled }) (hsmoother : y.smoother? = x.smoother?)
    (hprograms : y.device.programs = x.device.programs) (hx : Device.textureKind? x.device t = some kind)
    (hy : Device.textureKind? y.device (ρ t) = some kind) (hsize : x.device.targetSize? target = some size)
    (hsize' : y.device.targetSize? target = some size') :
    WrittenAgain ρ recompiled x (x.writeOut t target) y (y.writeOut (ρ t) target) := by
  cases hx' : x.smoother? with
  | none =>
    rw [writeOut_plain hx', writeOut_plain (hsmoother.trans hx')]
    obtain ⟨hr, hd⟩ := copyOut_live hx hsize
    obtain ⟨hr', hd'⟩ := copyOut_live hy hsize'
    refine ⟨by rw [hr', hr, hreport], [], Nat.zero_le 1, ?_, ?_⟩
    · rw [hd, List.append_nil]
    · rw [hd', List.map_nil, List.append_nil]
  | some p =>
    have hy' := hsmoother.trans hx'
    have hbindings : antialiasBindings y.device (ρ t) = rereadUniforms ρ (antialiasBindings x.device t) := by
      unfold antialiasBindings
      rw [hx, hy]
      rfl
    have hprogram : y.device.program? p = x.device.program? p := congrArg (List.lookup p) hprograms
    cases hp : x.device.program? p with
    | none =>
      have hd : Device.draw x.device ⟨p, target, antialiasBindings x.device t⟩ = _ := ReferenceDevice.draw_unknown hp
      have hd' : Device.draw y.device ⟨p, target, antialiasBindings y.device (ρ t)⟩ = _ :=
        ReferenceDevice.draw_unknown (hprogram.trans hp)
      rw [writeOut_refused hx' hd, writeOut_refused hy' hd']
      obtain ⟨hr, hdraws⟩ := copyOut_live (x := x.fail _ _) hx hsize
      obtain ⟨hr', hdraws'⟩ := copyOut_live (x := y.fail _ _) hy hsize'
      refine ⟨?_, [], Nat.zero_le 1, ?_, ?_⟩
      · rw [hr', hr]
        simp only [fail, note, Report.fail, hreport]
      · rw [hdraws, List.append_nil]
        rfl
      · rw [hdraws', List.map_nil, List.append_nil]
        rfl
    | some program =>
      obtain ⟨d, hd, hdraws⟩ :=
        ReferenceDevice.draw_made ⟨p, target, antialiasBindings x.device t⟩ hp rfl hx hsize
      obtain ⟨d', hd', hdraws'⟩ :=
        ReferenceDevice.draw_made ⟨p, target, antialiasBindings y.device (ρ t)⟩ (hprogram.trans hp) rfl hy hsize'
      rw [writeOut_drawn hx' hd, writeOut_drawn hy' hd']
      refine ⟨hreport, [_], Nat.le_refl 1, hdraws, ?_⟩
      rw [List.map_singleton]
      refine hdraws'.trans ?_
      rw [hbindings]
      rfl

theorem quiet_smoothed (x : Application ReferenceDevice) (t : TextureId) :
    x.device.Quiet (x.sampled t).smoothed.device := by
  have sampled : x.device.Quiet (x.sampled t).device := .setSampler x.device t x.finalSampling
  refine sampled.trans ?_
  unfold smoothed
  split
  · exact (still_ensureAntialias _).toQuiet
  · exact .refl _

/-- Writing the result leaves the device at rest when the antialias program will not be built any more. -/
theorem rests_finish (h : y.stack.Smooth) (t : TextureId) (destination : Option TextureId) :
    y.device.Rests (y.finish t destination).device ∧ (y.finish t destination).stack = y.stack := by
  have proceeds := y.proceeds_finish t destination
  rw [smoothed_of_smooth (a := { y with device := Device.setSampler y.device t y.finalSampling }) h] at proceeds
  refine ⟨?_, proceeds.stack⟩
  have sampled : y.device.Rests (Device.setSampler y.device t y.finalSampling) := .setSampler ..
  exact sampled.trans (.reaches (proceeds.reaches.mono fun _ shows => shows.calm))

/-- Programs that there are stay as they are, whether or not the antialias program joins them. -/
theorem program?_smoothed (x : Application ReferenceDevice) {p : ProgramId} (hp : p.number < x.device.nextNumber) :
    x.smoothed.device.program? p = x.device.program? p := by
  unfold smoothed ensureAntialias
  split
  · split
    · rfl
    · rfl
    · split
      · next q d hd =>
        obtain ⟨rfl, rfl⟩ := ReferenceDevice.compileProgram_eq_ok hd
        have hne : p ≠ ⟨x.device.nextNumber⟩ := fun heq => absurd (congrArg ProgramId.number heq) (Nat.ne_of_lt hp)
        change List.lookup p (x.device.programs ++ _) = List.lookup p x.device.programs
        rw [List.lookup_append, lookup_cons_ite, if_neg hne, List.lookup_nil, Option.or_none]
      · next hd => rw [note, ReferenceDevice.compileProgram_eq_error hd]
  · rfl

theorem program?_finish (x : Application ReferenceDevice) (t : TextureId) (destination : Option TextureId) {p : ProgramId}
    (hp : p.number < x.device.nextNumber) : (x.finish t destination).device.program? p = x.device.program? p := by
  have proceeds := x.proceeds_finish t destination
  have written : (x.sampled t).smoothed.device.Rests (x.finish t destination).device :=
    .reaches (proceeds.reaches.mono fun _ shows => shows.calm)
  exact (written.program? p).trans (program?_smoothed (x.sampled t) hp)

/-- When a stack has ended an application, it ends another one alike, and leaves the device at rest. -/
theorem finish_again (destination : Option TextureId) (hreport : y.report = { x.report with recompiled })
    (hstack : y.stack = (x.finish t destination).stack) (hrests : (x.finish t destination).device.Rests y.device)
    (hx : Device.textureKind? x.device t = some kind) (hy : Device.textureKind? y.device (ρ t) = some kind)
    (hsize : x.device.targetSize? (.ofDestination destination) = some size) :
    WrittenAgain ρ recompiled x (x.finish t destination) y (y.finish (ρ t) destination) ∧
      y.device.Rests (y.finish (ρ t) destination).device ∧ (y.finish (ρ t) destination).stack = y.stack := by
  have proceeds := x.proceeds_finish t destination
  have hend : y.stack = (x.sampled t).smoothed.stack := hstack.trans proceeds.stack
  have smooth : y.stack.Smooth := hstack ▸ x.smooth_finish t destination
  refine ⟨?_, rests_finish smooth (ρ t) destination⟩
  obtain ⟨size', hsize'⟩ := hrests.accepts ((x.keeps_finish rfl t destination).targetSize? hsize)
  have quiet := quiet_smoothed x t
  have quiet' : y.device.Quiet (y.sampled (ρ t)).device := .setSampler ..
  have hkept : (x.finish t destination).device.programs = (x.sampled t).smoothed.device.programs :=
    (ReferenceDevice.Rests.reaches (proceeds.reaches.mono fun _ shows => shows.calm)).programs
  have again := writeOut_again (x := (x.sampled t).smoothed) (y := y.sampled (ρ t)) (ρ := ρ) (t := t)
    (by rw [report_smoothed]; exact hreport) (by unfold smoother?; rw [← hend]; rfl) (hrests.programs.trans hkept)
    (quiet.keeps.textureKind? hx) (quiet'.keeps.textureKind? hy) (quiet.keeps.targetSize? hsize)
    (quiet'.keeps.targetSize? hsize')
  rw [finish_eq, finish_eq, smoothed_of_smooth (a := y.sampled (ρ t)) smooth]
  obtain ⟨last, hlength, hdraws, hdraws'⟩ := again.draws
  exact ⟨again.report, last, hlength, by rw [hdraws, quiet.draws], by rw [hdraws', quiet'.draws]⟩

end
end Application
end FxStack
