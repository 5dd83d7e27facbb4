import FxStack.Proofs.Frame.Application
import FxStack.Proofs.Frame.Still
import FxStack.Proofs.Frame.Slots

/-! The draws of passes that an application asks for. A pass is drawn from a frame that holds the texture it
    reads, and that texture is what the pass before has written. Main statement: `Stack.recorded_apply`, by
    which the reference device records just these draws, but for one that fails. -/

namespace FxStack

/-- A draw of a pass, with the frame that it is issued from. -/
structure IssuedDraw (δ : Type) where
  pass : Pass
  program : ProgramId
  frame : Frame δ
  call : DrawCall

/-! ### Issued draws -/

section
variable {δ : Type} [Device δ]

def FrameContext.drawOf (c : FrameContext) (f : Frame δ) (p : Pass) (program : ProgramId) : IssuedDraw δ :=
  ⟨p, program, f, c.call program f (p.gather c.resolve c.entries f.device)⟩

/-- The draws of the passes from number `index` on, up to the first that is not made. -/
def FrameContext.issued (c : FrameContext) (index : Nat) (f : Frame δ) : List Pass → List (IssuedDraw δ)
  | [] => []
  | p :: ps =>
    match p.program with
    | none => []
    | some program =>
      ⟨p, program, f, c.call program f (p.gather c.resolve c.entries f.device)⟩ ::
        match c.runPass index p f with
        | (true, f) => issued c (index + 1) f ps
        | (false, _) => []

/-- The draws of the passes of an application that has got its scratch textures. -/
def Application.issued (a : Application δ) (c : FrameContext) (input : FrameInput) (kind : TextureKind) :
    List (IssuedDraw δ) :=
  match a.pool.acquirePair a.device kind with
  | (.error _, _, _, _) => []
  | (.ok pair, pool, device, notices) =>
    match Device.copy device input.source (.texture pair.1) with
    | (.error _, _) => []
    | (.ok (), device') =>
      let b := a.borrowed pool device notices
      c.issued 0 ⟨device', pair.1, pair.2, b.report, b.notices⟩ b.stack.passes

/-- The draws of passes that applying a stack issues. -/
def Stack.issued (s : Stack) (catalog : Catalog) (device : δ) (pool : ScratchPool) (resolve : Resolver)
    (input : FrameInput) : List (IssuedDraw δ) :=
  match Device.textureKind? device input.source with
  | none => []
  | some kind =>
    let size := frameSize device input kind
    let a := s.prepare catalog device pool
    a.issued ⟨a.stack.entries, resolve, .of size a.report.random, input.depth⟩ input (kind.resized size)

end

namespace FrameContext
variable (c : FrameContext)

section
variable {δ : Type} [Device δ]

/-- What is drawn is the pass with its program and what it gathers. -/
theorem of_mem_issued (ps : List Pass) : ∀ {index : Nat} {f : Frame δ} {x : IssuedDraw δ}, x ∈ c.issued index f ps →
    x.pass ∈ ps ∧ x.pass.program = some x.program ∧
      x.call = c.call x.program x.frame (x.pass.gather c.resolve c.entries x.frame.device) := by
  induction ps with
  | nil => exact fun hx => by cases hx
  | cons p ps ih =>
    intro index f x hx
    unfold issued at hx
    split at hx
    · cases hx
    · next program hp =>
      rcases List.mem_cons.mp hx with rfl | hx
      · exact ⟨List.mem_cons_self, hp, rfl⟩
      · split at hx
        · obtain ⟨hpass, hprogram, hcall⟩ := ih hx
          exact ⟨List.mem_cons_of_mem _ hpass, hprogram, hcall⟩
        · cases hx

/-- The draws of a frame go to and fro between its two textures. -/
theorem issued_alternate (ps : List Pass) : ∀ {index : Nat} {f : Frame δ} {i : Nat} {x : IssuedDraw δ},
    (c.issued index f ps)[i]? = some x →
    (x.frame.input, x.frame.output) = if i % 2 = 0 then (f.input, f.output) else (f.output, f.input) := by
  induction ps with
  | nil => exact fun hx => by simp [issued] at hx
  | cons p ps ih =>
    intro index f i x hx
    unfold issued at hx
    split at hx
    · simp at hx
    · cases i with
      | zero =>
        obtain rfl := Option.some.inj hx
        rfl
      | succ i =>
        rw [List.getElem?_cons_succ] at hx
        split at hx
        · next g hg =>
          -- The other draws start from the exchanged textures, at a position of the other parity.
          obtain ⟨hin, hout⟩ := c.runPass_flip hg
          rw [ih hx, hin, hout]
          rcases Nat.mod_two_eq_zero_or_one i with h | h
          · rw [if_pos h, if_neg (by omega)]
          · rw [if_neg (by omega), if_pos (by omega)]
        · simp at hx

end

end FrameContext

/-! ### On the reference device -/

/-- The draw that a record is of. -/
def RecordedDraw.call (r : RecordedDraw) : DrawCall := ⟨r.program, r.target, r.uniforms⟩

/-- Nothing is drawn, though textures may be copied. -/
structure Undrawn (d d' : ReferenceDevice) : Prop where
  draws : d'.draws = d.draws
  placeholder : ∀ t, d.placeholder = some t → d'.placeholder = some t

theorem Undrawn.trans {d d' d'' : ReferenceDevice} (h : Undrawn d d') (h' : Undrawn d' d'') : Undrawn d d'' :=
  ⟨h'.draws.trans h.draws, fun t ht => h'.placeholder t (h.placeholder t ht)⟩

theorem Undrawn.of_quiet {d d' : ReferenceDevice} (h : ReferenceDevice.Quiet d d') : Undrawn d d' :=
  ⟨h.draws, h.keeps.placeholder⟩

theorem Undrawn.copy {d d' : ReferenceDevice} {t : TextureId} {target : Target} {r : Except DeviceError Unit}
    (h : Device.copy d t target = (r, d')) : Undrawn d d' :=
  ⟨ReferenceDevice.draws_copy h, (ReferenceDevice.Keeps.copy h).placeholder⟩

/-- Writing the result draws once at most, and keeps the placeholder. -/
structure DrawsOnce (d d' : ReferenceDevice) : Prop where
  draws : ∃ last, d'.draws = d.draws ++ last ∧ last.length ≤ 1
  placeholder : ∀ t, d.placeholder = some t → d'.placeholder = some t

theorem DrawsOnce.of_undrawn {d d' : ReferenceDevice} (h : Undrawn d d') : DrawsOnce d d' :=
  ⟨⟨[], by rw [h.draws, List.append_nil], Nat.zero_le 1⟩, h.placeholder⟩

/-- If the result is drawn, it is drawn once, from the texture to the target. -/
structure DrawsResult (t : TextureId) (target : Target) (d d' : ReferenceDevice) : Prop where
  draws : ∃ last, d'.draws = d.draws ++ last ∧ last.length ≤ 1 ∧
    ∀ r ∈ last, r.target = target ∧ ReferenceDevice.inputOf r.uniforms = some t
  placeholder : ∀ t, d.placeholder = some t → d'.placeholder = some t

theorem DrawsResult.of_undrawn {t : TextureId} {target : Target} {d d' : ReferenceDevice} (h : Undrawn d d') :
    DrawsResult t target d d' :=
  ⟨⟨[], by rw [h.draws, List.append_nil], Nat.zero_le 1, nofun⟩, h.placeholder⟩

/-- What the draws `xs` of passes make of a device `d` and a report `r`: those that succeed are recorded, the
    report lists what they miss, and their slots are bound. -/
structure Recorded (entries : List Entry) (resolve : Resolver) (xs : List (IssuedDraw ReferenceDevice))
    (d : ReferenceDevice) (r : Report) (d' : ReferenceDevice) (r' : Report) : Prop where
  draws : ∃ n, r'.passesExecuted = r.passesExecuted + n ∧ (n = xs.length ∨ n + 1 = xs.length) ∧
    d'.draws.map (·.call) = d.draws.map (·.call) ++ (xs.take n).map (·.call)
  missingTextures : r'.missingTextures =
    r.missingTextures ++ xs.flatMap fun x => x.pass.slots.flatMap (·.missing entries resolve)
  placeholderUniforms : r'.placeholderUniforms =
    r.placeholderUniforms ++ xs.flatMap fun x => x.pass.slots.flatMap (·.unresolved entries resolve)
  placeholder : ∀ t, d.placeholder = some t → d'.placeholder = some t
  bound : ∀ x ∈ xs, Slot.Binds entries resolve d'.placeholder GlobalUniform.firstEffectUnit x.pass.slots
    (x.pass.gather resolve entries x.frame.device).bindings

theorem Recorded.nil {entries : List Entry} {resolve : Resolver} {d d' : ReferenceDevice} {r r' : Report}
    (hd : Undrawn d d') (hn : r'.passesExecuted = r.passesExecuted)
    (hm : r'.missingTextures = r.missingTextures) (hp : r'.placeholderUniforms = r.placeholderUniforms) :
    Recorded entries resolve [] d r d' r' :=
  ⟨⟨0, hn, Or.inl rfl, by simp [hd.draws]⟩, by simp [hm], by simp [hp], hd.placeholder,
    fun _ hx => absurd hx List.not_mem_nil⟩

theorem Recorded.of_undrawn {entries : List Entry} {resolve : Resolver} {xs : List (IssuedDraw ReferenceDevice)}
    {d₀ d d' : ReferenceDevice} {r r' : Report} (h : Recorded entries resolve xs d r d' r')
    (hd : Undrawn d₀ d) : Recorded entries resolve xs d₀ r d' r' :=
  ⟨by rw [← hd.draws]; exact h.draws, h.missingTextures, h.placeholderUniforms,
    fun t ht => h.placeholder t (hd.placeholder t ht), h.bound⟩

namespace FrameContext
variable (c : FrameContext)

/-- What a pass whose draw succeeds does to a frame. -/
theorem runPass_drawn {index : Nat} {p : Pass} {f g : Frame ReferenceDevice} (h : c.runPass index p f = (true, g)) :
    ∃ program, p.program = some program ∧
      Device.draw (p.gather c.resolve c.entries f.device).device
        (c.call program f (p.gather c.resolve c.entries f.device)) = (.ok (), g.device) ∧
      g.report.passesExecuted = f.report.passesExecuted + 1 ∧
      g.report.missingTextures =
        f.report.missingTextures ++ (p.gather c.resolve c.entries f.device).missingTextures ∧
      g.report.placeholderUniforms =
        f.report.placeholderUniforms ++ (p.gather c.resolve c.entries f.device).placeholderUniforms := by
  unfold runPass at h
  split at h
  · cases h
  · next program hp =>
    dsimp only at h
    split at h
    · next d hd =>
      cases h
      exact ⟨program, hp, hd, rfl, rfl, rfl⟩
    · cases h

/-- What a pass whose draw fails does to a frame. -/
theorem runPass_failed {index : Nat} {p : Pass} {program : ProgramId} {f g : Frame ReferenceDevice}
    (hp : p.program = some program) (h : c.runPass index p f = (false, g)) :
    g.device = (p.gather c.resolve c.entries f.device).device ∧
      g.report.passesExecuted = f.report.passesExecuted ∧
      g.report.missingTextures =
        f.report.missingTextures ++ (p.gather c.resolve c.entries f.device).missingTextures ∧
      g.report.placeholderUniforms =
        f.report.placeholderUniforms ++ (p.gather c.resolve c.entries f.device).placeholderUniforms := by
  unfold runPass at h
  rw [hp] at h
  dsimp only at h
  split at h
  · cases h
  · next e d hd =>
    cases h
    exact ⟨ReferenceDevice.draw_error hd, rfl, rfl, rfl⟩

/-- A draw that fails is not recorded, but its slots are bound. -/
theorem recorded_failed {index : Nat} {p : Pass} {program : ProgramId} {f g : Frame ReferenceDevice}
    (hp : p.program = some program) (h : c.runPass index p f = (false, g)) :
    Recorded c.entries c.resolve [⟨p, program, f, c.call program f (p.gather c.resolve c.entries f.device)⟩]
      f.device f.report g.device g.report := by
  obtain ⟨gathered, quiet, hmissing, hplaceholders⟩ := p.gathers_slots c.resolve c.entries f.device
  obtain ⟨hdevice, hn, hm, hpl⟩ := c.runPass_failed hp h
  refine ⟨⟨0, hn, Or.inr rfl, ?_⟩, ?_, ?_, fun t ht => ?_, fun x hx => ?_⟩
  · simp [hdevice, quiet.draws]
  · simp [hm, hmissing]
  · simp [hpl, hplaceholders]
  · rw [hdevice]
    exact quiet.keeps.placeholder t ht
  · obtain rfl := List.mem_singleton.mp hx
    rw [hdevice]
    exact gathered

/-- A draw that succeeds is recorded before those that come after it. -/
theorem recorded_drawn {index : Nat} {p : Pass} {program : ProgramId} {f g : Frame ReferenceDevice}
    (hp : p.program = some program) (h : c.runPass index p f = (true, g)) {xs : List (IssuedDraw ReferenceDevice)}
    {d : ReferenceDevice} {r : Report} (rest : Recorded c.entries c.resolve xs g.device g.report d r) :
    Recorded c.entries c.resolve (⟨p, program, f, c.call program f (p.gather c.resolve c.entries f.device)⟩ :: xs)
      f.device f.report d r := by
  obtain ⟨gathered, quiet, hmissing, hplaceholders⟩ := p.gathers_slots c.resolve c.entries f.device
  obtain ⟨program', hp', hdraw, hn, hm, hpl⟩ := c.runPass_drawn h
  obtain rfl := Option.some.inj (hp.symm.trans hp')
  obtain ⟨label, hrecord⟩ := ReferenceDevice.draws_draw hdraw
  have drawn := (ReferenceDevice.Keeps.draw hdraw).placeholder
  obtain ⟨n, hrn, hlen, hrdraws⟩ := rest.draws
  refine ⟨⟨n + 1, by omega, ?_, ?_⟩, ?_, ?_, fun t ht => ?_, fun x hx => ?_⟩
  · rw [List.length_cons]
    omega
  · rw [hrdraws, hrecord, quiet.draws]
    simp only [List.map_append, List.map_cons, List.map_nil, List.append_assoc, List.take_succ_cons,
      List.singleton_append]
    rfl
  · rw [rest.missingTextures, hm, hmissing, List.flatMap_cons, List.append_assoc]
  · rw [rest.placeholderUniforms, hpl, hplaceholders, List.flatMap_cons, List.append_assoc]
  · exact rest.placeholder t (drawn t (quiet.keeps.placeholder t ht))
  · rcases List.mem_cons.mp hx with rfl | hx
    · exact gathered.mono fun t ht => rest.placeholder t (drawn t ht)
    · exact rest.bound x hx

theorem recorded_runPasses (ps : List Pass) : ∀ (index : Nat) (f : Frame ReferenceDevice),
    Recorded c.entries c.resolve (c.issued index f ps) f.device f.report
      (c.runPasses index f ps).device (c.runPasses index f ps).report := by
  induction ps with
  | nil => exact fun _ f => .nil (.of_quiet (.refl _)) rfl rfl rfl
  | cons p ps ih =>
    intro index f
    unfold runPasses issued
    cases hp : p.program with
    | none =>
      have habort : c.runPass index p f = (false, f.abort index (.unbuiltPass index)) := by
        unfold runPass
        rw [hp]
      rw [habort]
      exact .nil (.of_quiet (.refl _)) rfl rfl rfl
    | some program =>
      rcases hrun : c.runPass index p f with ⟨_ | _, g⟩
      · exact c.recorded_failed hp hrun
      · exact c.recorded_drawn hp hrun (ih (index + 1) g)

end FrameContext

/-! ### Over a whole application -/

namespace Application
variable (a : Application ReferenceDevice)

theorem undrawn_copyOut {d : ReferenceDevice} (h : a.device = d) (t : TextureId) (target : Target) :
    Undrawn d (a.copyOut t target).device := by
  subst h
  unfold copyOut
  split
  · next hd => exact .copy hd
  · next hd => exact .copy hd

theorem drawsResult_finish {d : ReferenceDevice} (h : a.device = d) (t : TextureId) (destination : Option TextureId) :
    DrawsResult t (.ofDestination destination) d (a.finish t destination).device := by
  subst h
  have start : ReferenceDevice.Quiet a.device (Device.setSampler a.device t a.finalSampling) := .setSampler _ _ _
  unfold finish
  dsimp only
  split
  · split
    · next b hb =>
      obtain ⟨p, d, hq, hd⟩ := drawAntialias_true _ hb
      obtain ⟨label, hlabel⟩ := ReferenceDevice.draws_draw hd
      have before := start.trans hq.toQuiet
      refine ⟨⟨_, by rw [hlabel, before.draws], by simp, fun r hr => ?_⟩, fun u hu => ?_⟩
      · obtain rfl := List.mem_singleton.mp hr
        exact ⟨rfl, rfl⟩
      · exact (ReferenceDevice.Keeps.draw hd).placeholder u (before.keeps.placeholder u hu)
    · next b hb =>
      have before := start.trans (drawAntialias_false _ hb).toQuiet
      exact .of_undrawn ((Undrawn.of_quiet before).trans (b.undrawn_copyOut rfl t _))
  · exact .of_undrawn ((Undrawn.of_quiet start).trans (undrawn_copyOut _ (by rfl) t _))

theorem drawsOnce_finish {d : ReferenceDevice} (h : a.device = d) (t : TextureId) (destination : Option TextureId) :
    DrawsOnce d (a.finish t destination).device := by
  obtain ⟨⟨last, hlast, hlength, -⟩, hplaceholder⟩ := a.drawsResult_finish h t destination
  exact ⟨⟨last, hlast, hlength⟩, hplaceholder⟩

end Application

section
variable {δ : Type} [Device δ] {a : Application δ} {c : FrameContext} {input : FrameInput} {kind : TextureKind}

theorem Application.issued_of_noScratch {e : DeviceError} {pool : ScratchPool} {d : δ} {notices : List Notice}
    (h : a.pool.acquirePair a.device kind = (.error e, pool, d, notices)) : a.issued c input kind = [] := by
  unfold issued
  rw [h]

theorem Application.issued_of_copyFailed {pair : TextureId × TextureId} {pool : ScratchPool} {d d' : δ}
    {notices : List Notice} {e : DeviceError} (h : a.pool.acquirePair a.device kind = (.ok pair, pool, d, notices))
    (hcopy : Device.copy d input.source (.texture pair.1) = (.error e, d')) : a.issued c input kind = [] := by
  unfold issued
  rw [h]
  dsimp only
  rw [hcopy]

theorem Application.issued_of_borrowed {pair : TextureId × TextureId} {pool : ScratchPool} {d d' : δ}
    {notices : List Notice} (h : a.pool.acquirePair a.device kind = (.ok pair, pool, d, notices))
    (hcopy : Device.copy d input.source (.texture pair.1) = (.ok (), d')) :
    a.issued c input kind = c.issued 0 ⟨d', pair.1, pair.2, (a.borrowed pool d notices).report,
      (a.borrowed pool d notices).notices⟩ a.stack.passes := by
  unfold issued
  rw [h]
  dsimp only
  rw [hcopy]
  rfl

end

namespace Application
variable (a : Application ReferenceDevice)

/-- An application that runs its passes leaves what the draws do, and then writes the result. -/
theorem recorded_run (c : FrameContext) (input : FrameInput) (kind : TextureKind) :
    ∃ d r, Recorded c.entries c.resolve (a.issued c input kind) a.device a.report d r ∧
      DrawsOnce d (a.run c input kind).device ∧ ∃ errors, (a.run c input kind).report = { r with errors } := by
  rcases hpair : a.pool.acquirePair a.device kind with ⟨e | pair, pool, d, notices⟩
  · have borrowed := Undrawn.of_quiet (ScratchPool.still_acquirePair hpair).toQuiet
    rw [run_of_noScratch hpair, issued_of_noScratch hpair]
    exact ⟨d, a.report, .nil borrowed rfl rfl rfl, drawsOnce_finish _ (by rfl) _ _, report_fail_finish _ _ _ _ _⟩
  · have borrowed := Undrawn.of_quiet (ScratchPool.still_acquirePair hpair).toQuiet
    rcases hcopy : Device.copy d input.source (.texture pair.1) with ⟨e | _, d'⟩
    · rw [run_of_copyFailed hpair hcopy, issued_of_copyFailed hpair hcopy]
      exact ⟨d', (a.borrowed pool d notices).report, .nil (borrowed.trans (.copy hcopy)) rfl rfl rfl,
        drawsOnce_finish _ (by rfl) _ _, report_fail_finish _ _ _ _ _⟩
    · rw [run_of_borrowed hpair hcopy, issued_of_borrowed hpair hcopy]
      let start : Frame ReferenceDevice :=
        ⟨d', pair.1, pair.2, (a.borrowed pool d notices).report, (a.borrowed pool d notices).notices⟩
      have passes := (c.recorded_runPasses a.stack.passes 0 start).of_undrawn (borrowed.trans (.copy hcopy))
      refine ⟨(c.runPasses 0 start a.stack.passes).device, (c.runPasses 0 start a.stack.passes).report, ?_,
        drawsOnce_finish _ (by rfl) _ _, (ends_finish _ _ _).report⟩
      exact ⟨passes.draws, passes.missingTextures, passes.placeholderUniforms, passes.placeholder, passes.bound⟩

end Application

namespace Stack

section
variable {δ : Type} [Device δ] {s : Stack} {catalog : Catalog} {device : δ} {pool : ScratchPool} {resolve : Resolver}
  {input : FrameInput}

theorem issued_of_live {kind : TextureKind} (h : Device.textureKind? device input.source = some kind) :
    s.issued catalog device pool resolve input = (s.prepare catalog device pool).issued
      ⟨(s.prepare catalog device pool).stack.entries, resolve,
        .of (frameSize device input kind) (s.prepare catalog device pool).report.random, input.depth⟩
      input (kind.resized (frameSize device input kind)) := by
  unfold issued
  rw [h]

variable (s catalog device pool resolve input)

/-- The draws of an application are those of its passes from the first frame on, if it comes to it. -/
theorem issued_eq : s.issued catalog device pool resolve input = [] ∨
    ∃ kind f, Device.textureKind? device input.source = some kind ∧
      s.issued catalog device pool resolve input = FrameContext.issued
        ⟨(s.prepare catalog device pool).stack.entries, resolve,
          .of (frameSize device input kind) (s.prepare catalog device pool).report.random, input.depth⟩
        0 f (s.prepare catalog device pool).stack.passes := by
  unfold issued
  split
  · exact Or.inl rfl
  · next kind hkind =>
    dsimp only
    unfold Application.issued
    split
    · exact Or.inl rfl
    · dsimp only
      split
      · exact Or.inl rfl
      · exact Or.inr ⟨kind, _, hkind, rfl⟩

variable {s catalog device pool resolve input}

theorem of_mem_issued {x : IssuedDraw δ} (h : x ∈ s.issued catalog device pool resolve input) :
    ∃ kind, Device.textureKind? device input.source = some kind ∧
      x.pass ∈ (s.prepare catalog device pool).stack.passes ∧ x.pass.program = some x.program ∧
      x.call = FrameContext.call
        ⟨s.entries, resolve, .of (frameSize device input kind) (s.prepare catalog device pool).report.random,
          input.depth⟩ x.program x.frame (x.pass.gather resolve s.entries x.frame.device) := by
  rcases issued_eq s catalog device pool resolve input with hnil | ⟨kind, f, hkind, hissued⟩
  · rw [hnil] at h
    cases h
  · rw [hissued] at h
    obtain ⟨hpass, hprogram, hcall⟩ := FrameContext.of_mem_issued _ _ h
    rw [entries_prepare] at hcall
    exact ⟨kind, hkind, hpass, hprogram, hcall⟩

/-- A draw reads what the draw before it has written. -/
theorem input_issued_succ {i : Nat} {x y : IssuedDraw δ} (hx : (s.issued catalog device pool resolve input)[i]? = some x)
    (hy : (s.issued catalog device pool resolve input)[i + 1]? = some y) : x.call.target = .texture y.frame.input := by
  have htarget : x.call.target = .texture x.frame.output := by
    obtain ⟨kind, -, -, -, hcall⟩ := of_mem_issued (List.mem_of_getElem? hx)
    rw [hcall]
    rfl
  rcases issued_eq s catalog device pool resolve input with hnil | ⟨kind, f, -, hissued⟩
  · rw [hnil] at hx
    simp at hx
  · rw [hissued] at hx hy
    have hxf := FrameContext.issued_alternate _ _ hx
    have hyf := FrameContext.issued_alternate _ _ hy
    rw [htarget]
    rcases Nat.mod_two_eq_zero_or_one i with h | h
    · rw [if_pos h, Prod.mk.injEq] at hxf
      rw [if_neg (by omega), Prod.mk.injEq] at hyf
      rw [hxf.2, hyf.1]
    · rw [if_neg (by omega), Prod.mk.injEq] at hxf
      rw [if_pos (by omega), Prod.mk.injEq] at hyf
      rw [hxf.2, hyf.1]

end

/-- The device records the draws that an application issues, but for one that fails, and then at most one
    draw of the result. -/
theorem recorded_apply (s : Stack) (catalog : Catalog) (device : ReferenceDevice) (pool : ScratchPool)
    (resolve : Resolver) (input : FrameInput) :
    ∃ d r, Recorded s.entries resolve (s.issued catalog device pool resolve input) device .empty d r ∧
      DrawsOnce d (s.apply catalog device pool resolve input).device ∧
      ∃ errors, (s.apply catalog device pool resolve input).report = { r with errors } := by
  cases hkind : Device.textureKind? device input.source with
  | none =>
    have hissued : s.issued catalog device pool resolve input = [] := by
      unfold issued
      rw [hkind]
    rw [apply_of_dead _ _ _ _ _ hkind, hissued]
    exact ⟨device, .empty, .nil (.of_quiet (.refl _)) rfl rfl rfl, .of_undrawn (.of_quiet (.refl _)), _, rfl⟩
  | some kind =>
    have prepared := Undrawn.of_quiet (s.still_prepare catalog device pool).toQuiet
    rw [apply_of_live _ _ _ _ _ hkind]
    dsimp only
    split
    · next hempty =>
      have hissued : s.issued catalog device pool resolve input = [] := by
        rcases issued_eq s catalog device pool resolve input with hnil | ⟨_, f, -, hissued⟩
        · exact hnil
        · rw [hissued, List.isEmpty_iff.mp hempty]
          rfl
      rw [hissued]
      exact ⟨_, (s.prepare catalog device pool).report, .nil prepared rfl rfl rfl,
        Application.drawsOnce_finish _ rfl _ _, (Application.ends_finish _ _ _).report⟩
    · obtain ⟨d, r, recorded, once, errors, hreport⟩ := (s.prepare catalog device pool).recorded_run
        ⟨(s.prepare catalog device pool).stack.entries, resolve,
          .of (frameSize device input kind) (s.prepare catalog device pool).report.random, input.depth⟩ input
        (kind.resized (frameSize device input kind))
      have passes := recorded.of_undrawn prepared
      rw [issued_of_live hkind]
      simp only [entries_prepare] at passes once hreport ⊢
      exact ⟨d, r, ⟨passes.draws, passes.missingTextures, passes.placeholderUniforms, passes.placeholder, passes.bound⟩,
        once, errors, hreport⟩

end Stack
end FxStack
