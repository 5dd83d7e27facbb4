import FxStack.Proofs.Frame.Alternation

/-! What a report without failures tells. A pass that is not drawn is reported, and so is an image that cannot be
    borrowed, copied or drawn. The one thing that a report does not tell is that the device has rejected the antialias
    program, for which a plain copy stands in; the stack tells it. Main statement: `Stack.apply_delivers`. -/

namespace FxStack

namespace Application

theorem errors_fail {δ : Type} (a : Application δ) (e : DeviceError) (n : Notice) : (a.fail e n).report.errors ≠ [] := by
  simp [fail, note, Report.fail]

section Delivered

variable {δ : Type} [Device δ]

/-- The last thing that the device has done is to write the texture to the target, through the antialias program if
    the stack asks for it and the device has not rejected that program, and as a plain copy otherwise. -/
def Delivered (t : TextureId) (target : Target) (b : Application δ) : Prop :=
  if b.stack.antialias ∧ b.stack.antialiasProgram ≠ .failed then
    ∃ p d, b.stack.antialiasProgram = .ready p ∧ Device.draw d ⟨p, target, antialiasBindings d t⟩ = (.ok (), b.device)
  else ∃ d, Device.copy d t target = (.ok (), b.device)

variable {a b : Application δ} {t : TextureId} {target : Target}

theorem ensureAntialias_some {p : ProgramId} (h : a.ensureAntialias = (some p, b)) :
    b.stack.antialiasProgram = .ready p ∧ b.report = a.report := by
  unfold ensureAntialias at h
  split at h
  · next hp =>
    cases h
    exact ⟨hp, rfl⟩
  · cases h
  · split at h
    · cases h
      exact ⟨rfl, rfl⟩
    · cases h

theorem ensureAntialias_none (h : a.ensureAntialias = (none, b)) :
    b.stack.antialiasProgram = .failed ∧ b.report = a.report := by
  unfold ensureAntialias at h
  split at h
  · cases h
  · next hp =>
    cases h
    exact ⟨hp, rfl⟩
  · split at h
    · cases h
    · cases h
      exact ⟨rfl, rfl⟩

theorem drawAntialias_made (h : a.drawAntialias t target = (true, b)) :
    b.report = a.report ∧ ∃ p d, b.stack.antialiasProgram = .ready p ∧
      Device.draw d ⟨p, target, antialiasBindings d t⟩ = (.ok (), b.device) := by
  unfold drawAntialias at h
  split at h
  · cases h
  · next p c hc =>
    obtain ⟨hready, hreport⟩ := ensureAntialias_some hc
    split at h
    · next hd =>
      cases h
      exact ⟨hreport, p, c.device, hready, hd⟩
    · cases h

/-- An antialias draw that is not made is reported, unless the device has rejected the program. -/
theorem drawAntialias_missing (h : a.drawAntialias t target = (false, b)) (clean : b.report.errors = []) :
    b.report = a.report ∧ b.stack.antialiasProgram = .failed := by
  unfold drawAntialias at h
  split at h
  · next c hc =>
    cases h
    exact (ensureAntialias_none hc).symm
  · split at h
    · cases h
    · cases h
      exact absurd clean (errors_fail _ _ _)

theorem copyOut_clean (clean : (a.copyOut t target).report.errors = []) :
    (a.copyOut t target).report = a.report ∧ Device.copy a.device t target = (.ok (), (a.copyOut t target).device) := by
  unfold copyOut at clean ⊢
  split at clean
  · next hd => simp [hd]
  · exact absurd clean (errors_fail _ _ _)

theorem antialias_drawAntialias (a : Application δ) (t : TextureId) (target : Target) :
    (a.drawAntialias t target).2.stack.antialias = a.stack.antialias := by
  obtain ⟨p, hp⟩ := (ends_drawAntialias a t target).stack
  rw [hp]

theorem stack_copyOut (a : Application δ) (t : TextureId) (target : Target) : (a.copyOut t target).stack = a.stack := by
  unfold copyOut
  split <;> rfl

/-- Writing the result without a failure delivers it. -/
theorem finish_clean {destination : Option TextureId} (clean : (a.finish t destination).report.errors = []) :
    (a.finish t destination).report = a.report ∧ Delivered t (.ofDestination destination) (a.finish t destination) := by
  let start : Application δ := { a with device := Device.setSampler a.device t a.finalSampling }
  have hflag := start.antialias_drawAntialias t (.ofDestination destination)
  by_cases smooth : a.stack.antialias = true
  · rcases hdraw : start.drawAntialias t (.ofDestination destination) with ⟨_ | _, b⟩
    · have hfinish : a.finish t destination = b.copyOut t (.ofDestination destination) := by
        unfold finish
        simp only [smooth, if_true]
        rw [hdraw]
      rw [hdraw] at hflag
      rw [hfinish] at clean ⊢
      obtain ⟨hreport, hcopy⟩ := copyOut_clean clean
      obtain ⟨hstart, hfailed⟩ := drawAntialias_missing hdraw (hreport ▸ clean)
      refine ⟨hreport.trans hstart, ?_⟩
      unfold Delivered
      rw [stack_copyOut, if_neg fun h => h.2 hfailed]
      exact ⟨_, hcopy⟩
    · have hfinish : a.finish t destination = b := by
        unfold finish
        simp only [smooth, if_true]
        rw [hdraw]
      rw [hdraw] at hflag
      rw [hfinish]
      obtain ⟨hreport, p, d, hready, hd⟩ := drawAntialias_made hdraw
      refine ⟨hreport, ?_⟩
      unfold Delivered
      rw [if_pos ⟨hflag.trans smooth, by rw [hready]; nofun⟩]
      exact ⟨p, d, hready, hd⟩
  · have hfinish : a.finish t destination = start.copyOut t (.ofDestination destination) := by
      unfold finish
      exact if_neg smooth
    rw [hfinish] at clean ⊢
    obtain ⟨hreport, hcopy⟩ := copyOut_clean clean
    refine ⟨hreport, ?_⟩
    unfold Delivered
    rw [stack_copyOut, if_neg fun h => smooth h.1]
    exact ⟨_, hcopy⟩

theorem errors_fail_finish (a : Application δ) (e : DeviceError) (n : Notice) (t : TextureId)
    (destination : Option TextureId) : ((a.fail e n).finish t destination).report.errors ≠ [] := by
  intro clean
  obtain ⟨hreport, -⟩ := finish_clean clean
  rw [hreport] at clean
  exact errors_fail a e n clean

end Delivered

end Application

namespace FrameContext

variable {δ : Type} [Device δ] {c : FrameContext} {index n : Nat} {f : Frame δ} {ps : List Pass}

/-- If the run has not stopped at a pass, every pass has been drawn. -/
theorem Stops.all (h : c.Stops index f ps n) (complete : (c.runPasses index f ps).report.abortedAt = none) :
    n = ps.length ∧ (c.issued index f ps).map (·.pass) = ps ∧
      ∀ x ∈ c.issued index f ps, x.result c.resolve c.entries = .ok () := by
  rcases h.stop with ⟨hn, -, hlength⟩ | ⟨p, -, hstopped, -⟩
  · refine ⟨hn, List.ext_getElem? fun i => ?_, fun x hx => ?_⟩
    · rw [List.getElem?_map]
      cases hx : (c.issued index f ps)[i]? with
      | none =>
        rw [List.getElem?_eq_none_iff] at hx
        exact (List.getElem?_eq_none (by omega)).symm
      | some x => exact (h.passes i x hx).symm
    · obtain ⟨i, hi⟩ := List.getElem?_of_mem hx
      have hlt := (List.getElem?_eq_some_iff.mp hi).1
      exact h.made i x hi (by omega)
  · rw [hstopped] at complete
    cases complete

end FrameContext

/-- The draws of all passes have been made, and the image that they leave in the last target is delivered. -/
structure Application.Drawn {δ : Type} [Device δ] (a b : Application δ) (draws : List (IssuedDraw δ))
    (c : FrameContext) (input : FrameInput) : Prop where
  executed : b.report.passesExecuted = a.report.passesExecuted + a.stack.passes.length
  passes : draws.map (·.pass) = a.stack.passes
  made : ∀ x ∈ draws, x.result c.resolve c.entries = .ok ()
  delivered : ∃ x t, draws.getLast? = some x ∧ x.call.target = .texture t ∧
    b.Delivered t (.ofDestination input.destination)

section Run

variable {δ : Type} [Device δ] {a : Application δ} {c : FrameContext} {input : FrameInput} {kind : TextureKind}

theorem Application.run_clean (clean : (a.run c input kind).report.errors = [])
    (complete : (a.run c input kind).report.abortedAt = none) (hne : a.stack.passes ≠ []) :
    a.Drawn (a.run c input kind) (a.issued c input kind) c input := by
  rcases hpair : a.pool.acquirePair a.device kind with ⟨e | pair, pool, d, notices⟩
  · rw [run_of_noScratch hpair] at clean
    exact absurd clean (errors_fail_finish _ _ _ _ _)
  rcases hcopy : Device.copy d input.source (.texture pair.1) with ⟨e | _, d'⟩
  · rw [run_of_copyFailed hpair hcopy] at clean
    exact absurd clean (errors_fail_finish _ _ _ _ _)
  rw [run_of_borrowed hpair hcopy] at clean complete ⊢
  rw [issued_of_borrowed hpair hcopy]
  let f : Frame δ := ⟨d', pair.1, pair.2, (a.borrowed pool d notices).report, (a.borrowed pool d notices).notices⟩
  obtain ⟨n, stops⟩ := c.stops_runPasses a.stack.passes 0 f
  obtain ⟨hreport, hdelivered⟩ := finish_clean clean
  have hreport : ((({ a.borrowed pool d notices with device := d' } : Application δ).runPasses c pair
      input.destination).giveBack pair).report = (c.runPasses 0 f a.stack.passes).report := hreport
  rw [hreport] at complete
  obtain ⟨hn, hpasses, hmade⟩ := stops.all complete
  refine ⟨by rw [hreport, stops.executed, hn]; rfl, hpasses, hmade, ?_⟩
  -- There is a last draw, since there is a pass, and its target is what is written at the end.
  obtain ⟨k, rfl⟩ : ∃ k, n = k + 1 := by
    refine Nat.exists_eq_succ_of_ne_zero fun hzero => hne (List.eq_nil_of_length_eq_zero ?_)
    omega
  have hlength : (c.issued 0 f a.stack.passes).length = k + 1 := by
    rw [← List.length_map (f := fun x : IssuedDraw δ => x.pass), hpasses, ← hn]
  have hlast : (c.issued 0 f a.stack.passes)[k]? = (c.issued 0 f a.stack.passes).getLast? := by
    rw [List.getLast?_eq_getElem?, hlength]
    rfl
  obtain ⟨x, hx⟩ : ∃ x, (c.issued 0 f a.stack.passes)[k]? = some x :=
    ⟨_, List.getElem?_eq_getElem (by rw [hlength]; exact Nat.lt_succ_self k)⟩
  exact ⟨x, _, hlast ▸ hx, stops.target hx, hdelivered⟩

end Run

namespace Stack

variable {δ : Type} [Device δ] (s : Stack) (catalog : Catalog) (device : δ) (pool : ScratchPool) (resolve : Resolver)
  (input : FrameInput)

/-- The texture is the image that the passes have made: the target of the last draw, or the source if there are no
    passes. -/
def Image (t : TextureId) : Prop :=
  match (s.issued catalog device pool resolve input).getLast? with
  | none => t = input.source
  | some x => x.call.target = .texture t

/-- If a report has no failures and no pass at which the application stopped, the source was live, every pass has
    been drawn, and the image that they made has been delivered. -/
theorem apply_delivers (clean : (s.apply catalog device pool resolve input).report.errors = [])
    (complete : (s.apply catalog device pool resolve input).report.abortedAt = none) :
    let a := s.apply catalog device pool resolve input
    (Device.textureKind? device input.source).isSome ∧ a.report.passCount = a.stack.passes.length ∧
      a.report.passesExecuted = a.report.passCount ∧
      (s.issued catalog device pool resolve input).map (·.pass) = a.stack.passes ∧
      (∀ x ∈ s.issued catalog device pool resolve input, x.result resolve s.entries = .ok ()) ∧
      ∃ t, s.Image catalog device pool resolve input t ∧ a.Delivered t (.ofDestination input.destination) := by
  cases hkind : Device.textureKind? device input.source with
  | none =>
    rw [apply_of_dead _ _ _ _ _ hkind] at clean
    cases clean
  | some kind =>
    have live : (Device.textureKind? device input.source).isSome := by rw [hkind]; rfl
    have kept := continues_apply s catalog device pool resolve live
    have hcount : (s.prepare catalog device pool).report.passCount = (s.prepare catalog device pool).stack.passes.length := rfl
    have happly := apply_of_live s catalog device pool resolve hkind
    dsimp only at happly ⊢
    rw [kept.passes, kept.passCount, hcount]
    by_cases hempty : (s.prepare catalog device pool).stack.passes = []
    · have hissued : s.issued catalog device pool resolve input = [] := by
        rcases issued_eq s catalog device pool resolve input with hnil | ⟨_, f, -, hissued⟩
        · exact hnil
        · rw [hissued, hempty]
          rfl
      rw [if_pos (by simpa using hempty)] at happly
      rw [happly] at clean ⊢
      obtain ⟨hreport, hdelivered⟩ := Application.finish_clean clean
      unfold Image
      rw [hissued, hempty, hreport]
      exact ⟨rfl, rfl, rfl, rfl, nofun, input.source, rfl, hdelivered⟩
    · rw [if_neg (by simpa using hempty)] at happly
      rw [happly] at clean complete ⊢
      obtain ⟨hexecuted, hpasses, hmade, x, t, hlast, htarget, hdelivered⟩ := Application.run_clean clean complete hempty
      unfold Image
      rw [issued_of_live hkind, hlast]
      exact ⟨rfl, rfl, hexecuted.trans (Nat.zero_add _), hpasses,
        fun x hx => entries_prepare s catalog device pool ▸ hmade x hx, t, htarget, hdelivered⟩

theorem apply_delivers_doubled :
    let a := doubled.apply (Catalog.rippling ⟨0⟩) canvas .empty (fun _ => none) ⟨⟨1⟩, none, none⟩
    a.report.errors = [] ∧ a.report.abortedAt = none ∧ a.report.passCount = 2 ∧ a.report.passesExecuted = 2 ∧
      ∃ t, doubled.Image (Catalog.rippling ⟨0⟩) canvas .empty (fun _ => none) ⟨⟨1⟩, none, none⟩ t ∧
        a.Delivered t .display := by
  have h := apply_delivers doubled (Catalog.rippling ⟨0⟩) canvas .empty (fun _ => none) ⟨⟨1⟩, none, none⟩ rfl rfl
  exact ⟨rfl, rfl, h.2.1, h.2.2.1.trans h.2.1, h.2.2.2.2.2⟩

end Stack

/-! ### A rejected antialias program -/

theorem Text.occursIn_append (part rest : List Char) : occursIn part (part ++ rest) = true := by
  cases part with
  | nil => cases rest <;> rfl
  | cons c part => simp [occursIn]

theorem Program.occursIn_antialias : Text.occursIn "#extension".toList antialias.toList = true := by
  obtain ⟨rest, hrest⟩ : ∃ rest, antialias = "#extension GL_OES_standard_derivatives : enable\n" ++ rest := by
    unfold antialias
    simp only [String.append_assoc]
    exact ⟨_, rfl⟩
  have hline : "#extension GL_OES_standard_derivatives : enable\n" =
      "#extension" ++ " GL_OES_standard_derivatives : enable\n" := rfl
  rw [hrest, hline, String.append_assoc, String.toList_append]
  exact Text.occursIn_append _ _

theorem ReferenceDevice.compileProgram_rejected {d : ReferenceDevice} {marker label source : String}
    (h : d.failMarkers = [marker]) (occurs : Text.occursIn marker.toList source.toList = true) :
    Device.compileProgram d label source = (.error (.rejectedProgram label marker), d) := by
  simp [Device.compileProgram, compileProgram, programFault?, h, occurs]

/-- Without a program the antialias draw is not made, and the report does not tell. -/
theorem Application.finish_rejected {δ : Type} [Device δ] {a : Application δ} {t : TextureId} {destination : Option TextureId}
    {d : δ} {e : DeviceError} (smooth : a.stack.antialias = true) (first : a.stack.antialiasProgram = .notBuilt)
    (h : Device.compileProgram (Device.setSampler a.device t a.finalSampling) Program.antialiasLabel Program.antialias =
      (.error e, d)) :
    a.finish t destination = (({ a with device := d, stack := { a.stack with antialiasProgram := .failed } }.note
      (.antialiasFailed e)).copyOut t (.ofDestination destination)) := by
  simp [finish, smooth, drawAntialias, ensureAntialias, first, h]

/-- A device with a texture, which rejects every program with an extension. -/
def ReferenceDevice.plain : ReferenceDevice :=
  ((ReferenceDevice.new (4, 4)).upload (.solid 2 2 .white)).2.rejecting "#extension"

/-- A stack without entries that asks for smooth edges. -/
def Stack.smooth : Stack := (Stack.new (.fixed (.zero, .zero))).setAntialias true

/-- The report of an image that was copied since the device has rejected the antialias program has no failure. -/
theorem Stack.antialias_rejected :
    let a := smooth.apply (Catalog.empty ⟨0⟩) ReferenceDevice.plain .empty (fun _ => none) ⟨⟨1⟩, none, none⟩
    a.report.errors = [] ∧ a.report.abortedAt = none ∧ a.stack.antialias = true ∧ a.device.draws = [] := by
  have live : Device.textureKind? ReferenceDevice.plain ⟨1⟩ = some (.rgba8 2 2) := rfl
  have empty : (smooth.prepare (Catalog.empty ⟨0⟩) ReferenceDevice.plain .empty).stack.passes.isEmpty = true := rfl
  rw [(apply_of_live _ _ _ _ _ live).trans (if_pos empty),
    Application.finish_rejected rfl rfl (ReferenceDevice.compileProgram_rejected rfl Program.occursIn_antialias)]
  exact ⟨rfl, rfl, rfl, rfl⟩

end FxStack
