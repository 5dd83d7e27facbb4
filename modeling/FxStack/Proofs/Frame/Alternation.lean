import FxStack.Proofs.Frame.Issued
import FxStack.Proofs.Frame.Rig
import FxStack.Proofs.ScratchPool.Loans
import FxStack.Proofs.Stack.Cache
import FxStack.Proofs.Stack.Studio

/-! How passes go to and fro between two scratch textures, and where they stop. A pass reads what the one before
    it has written, as long as passes are drawn; the first one that is not drawn ends the run, and the result is
    written from what there is. Main statement: `Stack.passes_alternate`. -/

namespace FxStack

/-! ### Passes one after the other -/

/-- What comes of a draw, when its uniforms have been gathered. -/
def IssuedDraw.result {δ : Type} [Device δ] (x : IssuedDraw δ) (resolve : Resolver) (entries : List Entry) :
    Except DeviceError Unit :=
  (Device.draw (x.pass.gather resolve entries x.frame.device).device x.call).1

namespace FrameContext
variable {δ : Type} [Device δ] (c : FrameContext)

/-- The passes `ps` from number `index` on have been run from the frame `f`, and `n` of them have been drawn. -/
structure Stops (index : Nat) (f : Frame δ) (ps : List Pass) (n : Nat) : Prop where
  executed : (c.runPasses index f ps).report.passesExecuted = f.report.passesExecuted + n
  input : (c.runPasses index f ps).input = if n % 2 = 0 then f.input else f.output
  passes : ∀ (i : Nat) (x : IssuedDraw δ), (c.issued index f ps)[i]? = some x → ps[i]? = some x.pass
  made : ∀ (i : Nat) (x : IssuedDraw δ), (c.issued index f ps)[i]? = some x → i < n → x.result c.resolve c.entries = .ok ()
  stop : n = ps.length ∧ (c.runPasses index f ps).report.abortedAt = f.report.abortedAt ∧
      (c.issued index f ps).length = n ∨
    ∃ p, ps[n]? = some p ∧ (c.runPasses index f ps).report.abortedAt = some (index + n) ∧
      (p.program = none ∧ (c.issued index f ps).length = n ∨
        ∃ x e, (c.issued index f ps)[n]? = some x ∧ (c.issued index f ps).length = n + 1 ∧
          x.result c.resolve c.entries = .error e)

theorem stops_nil (index : Nat) (f : Frame δ) : c.Stops index f [] 0 :=
  ⟨rfl, rfl, nofun, nofun, Or.inl ⟨rfl, rfl, rfl⟩⟩

theorem stops_unbuilt (index : Nat) (f : Frame δ) {p : Pass} (ps : List Pass) (h : p.program = none) :
    c.Stops index f (p :: ps) 0 := by
  have hrun : c.runPasses index f (p :: ps) = f.abort index (.unbuiltPass index) := by
    unfold runPasses runPass
    rw [h]
  have hissued : c.issued index f (p :: ps) = [] := by
    unfold issued
    rw [h]
  refine ⟨by rw [hrun]; rfl, by rw [hrun]; rfl, fun i x hx => ?_, fun i _ _ hi => absurd hi (Nat.not_lt_zero i),
    Or.inr ⟨p, rfl, by rw [hrun]; rfl, Or.inl ⟨h, by rw [hissued]; rfl⟩⟩⟩
  rw [hissued] at hx
  cases hx

section
variable {c} {index : Nat} {f : Frame δ} {p : Pass} {ps : List Pass} {program : ProgramId}

theorem runPass_built (c : FrameContext) (index : Nat) (f : Frame δ) (hp : p.program = some program) :
    (c.runPass index p f).1 = true ∧ (c.drawOf f p program).result c.resolve c.entries = .ok () ∧
        (c.runPass index p f).2.report.passesExecuted = f.report.passesExecuted + 1 ∧
        (c.runPass index p f).2.report.abortedAt = f.report.abortedAt ∨
      ∃ e, (c.runPass index p f).1 = false ∧ (c.drawOf f p program).result c.resolve c.entries = .error e ∧
        (c.runPass index p f).2.report.passesExecuted = f.report.passesExecuted ∧
        (c.runPass index p f).2.report.abortedAt = some index ∧ (c.runPass index p f).2.input = f.input := by
  unfold runPass
  rw [hp]
  dsimp only [Frame.absorb]
  split
  · next hd => exact Or.inl ⟨rfl, congrArg Prod.fst hd, rfl, rfl⟩
  · next e d hd => exact Or.inr ⟨e, rfl, congrArg Prod.fst hd, rfl, rfl, rfl⟩

theorem stops_failed (hp : p.program = some program) {g : Frame δ} (hrun : c.runPass index p f = (false, g)) :
    c.Stops index f (p :: ps) 0 := by
  have hlater : c.runPasses index f (p :: ps) = g := by
    unfold runPasses
    rw [hrun]
  have hissued : c.issued index f (p :: ps) = [c.drawOf f p program] := by
    unfold issued
    rw [hp, hrun]
    rfl
  rcases runPass_built c index f hp with ⟨htrue, -⟩ | ⟨e, -, hresult, hexecuted, haborted, hinput⟩
  · rw [hrun] at htrue
    cases htrue
  · rw [hrun] at hexecuted haborted hinput
    refine ⟨by rw [hlater]; exact hexecuted, by rw [hlater]; exact hinput, fun i x hx => ?_,
      fun i _ _ hi => absurd hi (Nat.not_lt_zero i),
      Or.inr ⟨p, rfl, by rw [hlater]; exact haborted, Or.inr ⟨c.drawOf f p program, e, by rw [hissued]; rfl,
        by rw [hissued]; rfl, hresult⟩⟩⟩
    rw [hissued] at hx
    cases i with
    | zero =>
      obtain rfl := Option.some.inj hx
      rfl
    | succ i => cases hx

theorem stops_drawn (hp : p.program = some program) {g : Frame δ} (hrun : c.runPass index p f = (true, g)) {n : Nat}
    (rest : c.Stops (index + 1) g ps n) : c.Stops index f (p :: ps) (n + 1) := by
  have hlater : c.runPasses index f (p :: ps) = c.runPasses (index + 1) g ps := by
    conv_lhs => unfold runPasses
    rw [hrun]
  have hissued : c.issued index f (p :: ps) = c.drawOf f p program :: c.issued (index + 1) g ps := by
    conv_lhs => unfold issued
    rw [hp, hrun]
    rfl
  obtain ⟨hin, hout⟩ := c.runPass_flip hrun
  rcases runPass_built c index f hp with ⟨-, hresult, hexecuted, haborted⟩ | ⟨e, hfalse, -⟩
  · rw [hrun] at hexecuted haborted
    refine ⟨?_, ?_, fun i x hx => ?_, fun i x hx hi => ?_, ?_⟩
    · rw [hlater, rest.executed, hexecuted]
      omega
    · -- The rest starts from the other texture, and its draws are one fewer.
      rw [hlater, rest.input, hin, hout]
      rcases Nat.mod_two_eq_zero_or_one n with h | h
      · rw [if_pos h, if_neg (by omega)]
      · rw [if_neg (by omega), if_pos (by omega)]
    · rw [hissued] at hx
      cases i with
      | zero =>
        obtain rfl := Option.some.inj hx
        rfl
      | succ i => exact rest.passes i x hx
    · rw [hissued] at hx
      cases i with
      | zero =>
        obtain rfl := Option.some.inj hx
        exact hresult
      | succ i => exact rest.made i x hx (Nat.lt_of_succ_lt_succ hi)
    · rw [hlater, hissued]
      rcases rest.stop with ⟨hn, hnone, hlength⟩ | ⟨q, hq, hsome, hwhy⟩
      · refine Or.inl ⟨by rw [hn]; rfl, hnone.trans haborted, by rw [List.length_cons, hlength]⟩
      · refine Or.inr ⟨q, hq, by rw [hsome, Nat.add_assoc, Nat.add_comm 1], ?_⟩
        rcases hwhy with ⟨hq', hlength⟩ | ⟨x, e, hx, hlength, hresult⟩
        · exact Or.inl ⟨hq', by rw [List.length_cons, hlength]⟩
        · exact Or.inr ⟨x, e, hx, by rw [List.length_cons, hlength], hresult⟩
  · rw [hrun] at hfalse
    cases hfalse

end

/-- Passes are drawn in order up to the first that has no program or cannot be drawn. -/
theorem stops_runPasses (ps : List Pass) : ∀ (index : Nat) (f : Frame δ), ∃ n, c.Stops index f ps n := by
  induction ps with
  | nil => exact fun index f => ⟨0, c.stops_nil index f⟩
  | cons p ps ih =>
    intro index f
    cases hp : p.program with
    | none => exact ⟨0, c.stops_unbuilt index f ps hp⟩
    | some program =>
      rcases hrun : c.runPass index p f with ⟨_ | _, g⟩
      · exact ⟨0, stops_failed hp hrun⟩
      · obtain ⟨n, rest⟩ := ih (index + 1) g
        exact ⟨n + 1, stops_drawn hp hrun rest⟩

/-! ### What is drawn -/

/-- A draw reads the input of its frame and writes the output. -/
theorem reads_of_mem_issued {index : Nat} {f : Frame δ} {ps : List Pass} {x : IssuedDraw δ}
    (hx : x ∈ c.issued index f ps) :
    x.pass.program = some x.call.program ∧ ReferenceDevice.inputOf x.call.uniforms = some x.frame.input ∧
      x.call.target = .texture x.frame.output := by
  obtain ⟨-, hprogram, hcall⟩ := c.of_mem_issued ps hx
  rw [hcall]
  exact ⟨hprogram, rfl, rfl⟩

theorem apart_of_mem_issued {index : Nat} {f : Frame δ} {ps : List Pass} (hne : f.input ≠ f.output) {x : IssuedDraw δ}
    (hx : x ∈ c.issued index f ps) : x.frame.input ≠ x.frame.output := by
  obtain ⟨i, hi⟩ := List.getElem?_of_mem hx
  have hframe := c.issued_alternate ps hi
  split at hframe
  · rw [Prod.mk.injEq] at hframe
    rw [hframe.1, hframe.2]
    exact hne
  · rw [Prod.mk.injEq] at hframe
    rw [hframe.1, hframe.2]
    exact hne.symm

theorem Stops.target {c : FrameContext} {index n : Nat} {f : Frame δ} {ps : List Pass} (h : c.Stops index f ps (n + 1))
    {x : IssuedDraw δ} (hx : (c.issued index f ps)[n]? = some x) :
    x.call.target = .texture (c.runPasses index f ps).input := by
  obtain ⟨-, -, htarget⟩ := c.reads_of_mem_issued (List.mem_of_getElem? hx)
  have hframe := c.issued_alternate ps hx
  rw [htarget, h.input]
  rcases Nat.mod_two_eq_zero_or_one n with hn | hn
  · rw [if_pos hn, Prod.mk.injEq] at hframe
    rw [if_neg (by omega), hframe.2]
  · rw [if_neg (by omega), Prod.mk.injEq] at hframe
    rw [if_pos (by omega), hframe.2]

end FrameContext

/-! ### Where nothing is missing -/

/-- The two textures of the frame are live, and so are the programs of the passes that have one. -/
structure Frame.Equipped (f : Frame ReferenceDevice) (ps : List Pass) : Prop where
  input : (f.device.texture? f.input).isSome
  output : (f.device.texture? f.output).isSome
  programs : ∀ p ∈ ps, ∀ program, p.program = some program → (f.device.program? program).isSome

theorem ReferenceDevice.Keeps.isSome_texture? {written : Target → Prop} {d d' : ReferenceDevice}
    (h : d.Keeps written d') {t : TextureId} (ht : (d.texture? t).isSome) : (d'.texture? t).isSome := by
  obtain ⟨x, hx⟩ := Option.isSome_iff_exists.mp ht
  obtain ⟨y, hy, -⟩ := h.textures t x hx
  rw [hy]
  rfl

theorem ReferenceDevice.program?_reaches {d d' : ReferenceDevice} (h : Device.Reaches DeviceOp.SparesPrograms d d')
    (program : ProgramId) : d'.program? program = d.program? program :=
  congrArg (List.lookup program) h.programs

namespace FrameContext
variable (c : FrameContext) {f : Frame ReferenceDevice} {p : Pass} {ps : List Pass}

/-- A draw fails for want of its program or its textures only. -/
theorem result_of_equipped (h : f.Equipped (p :: ps)) {program : ProgramId} (hp : p.program = some program) :
    (c.drawOf f p program).result c.resolve c.entries = .ok () := by
  obtain ⟨-, quiet, -, -⟩ := p.gathers_slots c.resolve c.entries f.device
  have spared := ReferenceDevice.program?_reaches (p.spares_gather c.resolve c.entries f.device) program
  have live := h.programs p List.mem_cons_self program hp
  rw [← spared] at live
  have hin := quiet.keeps.isSome_texture? h.input
  have hout := quiet.keeps.isSome_texture? h.output
  unfold IssuedDraw.result drawOf
  generalize p.gather c.resolve c.entries f.device = g at live hin hout ⊢
  obtain ⟨y, hy⟩ := Option.isSome_iff_exists.mp live
  obtain ⟨x, hx⟩ := Option.isSome_iff_exists.mp hin
  obtain ⟨z, hz⟩ := Option.isSome_iff_exists.mp hout
  have hsize : g.device.targetSize? (.texture f.output) = some z.kind.size :=
    congrArg (Option.map fun z : Texture => z.kind.size) hz
  have hwritten : g.device.writeInput (c.call program f g) = .ok _ :=
    ReferenceDevice.write_eq_ok.mpr ⟨x, z.kind.size, hx, hsize, rfl⟩
  exact congrArg Prod.fst (ReferenceDevice.draw_eq_ok.mpr ⟨y, _, hy, hwritten, rfl⟩)

theorem equipped_runPass (h : f.Equipped (p :: ps)) {index : Nat} {g : Frame ReferenceDevice}
    (hrun : c.runPass index p f = (true, g)) : g.Equipped ps := by
  obtain ⟨hin, hout⟩ := c.runPass_flip hrun
  have keeps := (c.keeps_runPass index p f).1
  have spared := c.spares_runPass index p f
  rw [hrun] at keeps spared
  refine ⟨?_, ?_, fun q hq program hprogram => ?_⟩
  · rw [hin]
    exact keeps.isSome_texture? h.output
  · rw [hout]
    exact keeps.isSome_texture? h.input
  · rw [ReferenceDevice.program?_reaches spared]
    exact h.programs q (List.mem_cons_of_mem _ hq) program hprogram

theorem result_of_mem_issued (ps : List Pass) : ∀ {index : Nat} {f : Frame ReferenceDevice}, f.Equipped ps →
    ∀ x ∈ c.issued index f ps, x.result c.resolve c.entries = .ok () := by
  induction ps with
  | nil => exact fun _ _ hx => by cases hx
  | cons p ps ih =>
    intro index f h x hx
    cases hp : p.program with
    | none =>
      unfold issued at hx
      rw [hp] at hx
      cases hx
    | some program =>
      unfold issued at hx
      rw [hp] at hx
      rcases List.mem_cons.mp hx with rfl | hx
      · exact c.result_of_equipped h hp
      · rcases hrun : c.runPass index p f with ⟨_ | _, g⟩
        · rw [hrun] at hx
          cases hx
        · rw [hrun] at hx
          exact ih (c.equipped_runPass h hrun) x hx

/-- Where nothing is missing, passes stop at the first that has no program. -/
theorem Stops.abortedAt {index n : Nat} (h : c.Stops index f ps n) (equipped : f.Equipped ps) :
    (c.runPasses index f ps).report.abortedAt =
      ((ps.findIdx? (·.program.isNone)).map (index + ·)).or f.report.abortedAt := by
  -- Only a pass with its program comes to a draw, whether the draw succeeds or not.
  have built : ∀ i < (c.issued index f ps).length, ∀ p, ps[i]? = some p → p.program.isNone = false := by
    intro i hi p hp
    have hx := List.getElem?_eq_getElem hi
    obtain ⟨hprogram, -⟩ := c.reads_of_mem_issued (List.getElem_mem hi)
    rw [← Option.some.inj ((h.passes i _ hx).symm.trans hp), hprogram]
    rfl
  rcases h.stop with ⟨hn, hnone, hlength⟩ | ⟨p, hp, hsome, ⟨hp', hlength⟩ | ⟨x, e, hx, -, hresult⟩⟩
  · have hfind : ps.findIdx? (·.program.isNone) = none := by
      rw [List.findIdx?_eq_none_iff]
      intro p hp
      obtain ⟨i, hi⟩ := List.getElem?_of_mem hp
      have hlt := (List.getElem?_eq_some_iff.mp hi).1
      exact built i (by omega) p hi
    rw [hnone, hfind]
    rfl
  · have hfind : ps.findIdx? (·.program.isNone) = some n := by
      obtain ⟨hlt, hget⟩ := List.getElem?_eq_some_iff.mp hp
      refine List.findIdx?_eq_some_iff_getElem.mpr ⟨hlt, by rw [hget, hp']; rfl, fun i hi => ?_⟩
      rw [built i (by omega) _ (List.getElem?_eq_getElem (by omega))]
      exact Bool.false_ne_true
    rw [hsome, hfind]
    rfl
  · rw [c.result_of_mem_issued ps equipped x (List.mem_of_getElem? hx)] at hresult
    cases hresult

end FrameContext

/-! ### Over a whole application -/

namespace Stack

/-- Applying the stack to a live source borrows the two textures for its passes, and copies the source into the
    first one. -/
def Borrows (s : Stack) (catalog : Catalog) (d : ReferenceDevice) (pool : ScratchPool) (input : FrameInput)
    (pair : TextureId × TextureId) : Prop :=
  ∃ source pool' lent ns copied, Device.textureKind? d input.source = some source ∧
    (s.prepare catalog d pool).stack.passes ≠ [] ∧
    pool.acquirePair (s.prepare catalog d pool).device (source.resized (frameSize d input source)) =
      (.ok pair, pool', lent, ns) ∧
    Device.copy lent input.source (.texture pair.1) = (.ok (), copied)

/-- The passes of `s` are run from the frame `f` to `g`, and then the result is written from `b`. -/
structure Runs (s : Stack) (catalog : Catalog) (d : ReferenceDevice) (pool : ScratchPool) (resolve : Resolver)
    (input : FrameInput) (pair : TextureId × TextureId) (c : FrameContext) (f g : Frame ReferenceDevice)
    (b : Application ReferenceDevice) : Prop where
  context : c.entries = s.entries ∧ c.resolve = resolve
  first : f.input = pair.1
  second : f.output = pair.2
  draws : f.device.draws = d.draws
  report : f.report = { (s.prepare catalog d pool).report with scratchAcquired := 2 }
  issued : s.issued catalog d pool resolve input = c.issued 0 f (s.prepare catalog d pool).stack.passes
  ran : g = c.runPasses 0 f (s.prepare catalog d pool).stack.passes
  stack : b.stack = (s.prepare catalog d pool).stack
  device : b.device = g.device
  executed : b.report = g.report
  apply : s.apply catalog d pool resolve input = (b.finish g.input input.destination).giveBack pair

variable {s : Stack} {catalog : Catalog} {d : ReferenceDevice} {pool : ScratchPool} {input : FrameInput}
  {pair : TextureId × TextureId}

theorem Borrows.runs (h : s.Borrows catalog d pool input pair) (resolve : Resolver) :
    ∃ c f g b, s.Runs catalog d pool resolve input pair c f g b ∧
      ∃ kind pool' lent ns, pool.acquirePair (s.prepare catalog d pool).device kind = (.ok pair, pool', lent, ns) ∧
        Device.copy lent input.source (.texture pair.1) = (.ok (), f.device) := by
  obtain ⟨source, pool', lent, ns, copied, hsource, hpasses, hpair, hcopy⟩ := h
  have hlent := Undrawn.of_quiet (ScratchPool.still_acquirePair hpair).toQuiet
  have hprepared := Undrawn.of_quiet (s.still_prepare catalog d pool).toQuiet
  have hdraws := ((hprepared.trans hlent).trans (.copy hcopy)).draws
  let c : FrameContext := ⟨(s.prepare catalog d pool).stack.entries, resolve,
    .of (frameSize d input source) (s.prepare catalog d pool).report.random, input.depth⟩
  let a := (s.prepare catalog d pool).borrowed pool' lent ns
  let f : Frame ReferenceDevice := ⟨copied, pair.1, pair.2, a.report, a.notices⟩
  let g := c.runPasses 0 f a.stack.passes
  have hrun := Application.run_of_borrowed (c := c) (a := s.prepare catalog d pool) hpair hcopy
  have happly := apply_of_live s catalog d pool resolve hsource
  dsimp only at happly
  rw [if_neg (by simpa using hpasses), hrun] at happly
  have hissued : s.issued catalog d pool resolve input = c.issued 0 f a.stack.passes := by
    rw [issued_of_live hsource]
    exact Application.issued_of_borrowed hpair hcopy
  exact ⟨c, f, g, { a with device := g.device, report := g.report, notices := g.notices },
    ⟨⟨entries_prepare s catalog d pool, rfl⟩, rfl, rfl, hdraws, rfl, hissued, rfl, rfl, rfl, rfl, happly⟩,
    _, pool', lent, ns, hpair, hcopy⟩

/-- The two textures of an application are different, whoever has used the pool before. -/
theorem Borrows.ne (h : s.Borrows catalog d pool input pair) (used : pool.UsedWith d) : pair.1 ≠ pair.2 := by
  obtain ⟨source, pool', lent, ns, copied, -, -, hpair, -⟩ := h
  have prepared := used.numbered.mono (s.course_prepare catalog d pool).reaches.nextNumber
  obtain ⟨⟨pool₁, lends₁, lends₂⟩, -⟩ := prepared.acquirePair_ok hpair
  exact lends₁.ne lends₂

/-- A frame with pixels has its two textures, for the pool lends what it does not have. -/
theorem borrows_of_drawable (wf : d.WellFormed) (backed : pool.Backed d) {source : TextureKind}
    (hsource : Device.textureKind? d input.source = some source)
    (hsize : (frameSize d input source).1 ≠ 0 ∧ (frameSize d input source).2 ≠ 0)
    (hpasses : (s.prepare catalog d pool).stack.passes ≠ []) : ∃ pair, s.Borrows catalog d pool input pair := by
  have still := s.still_prepare catalog d pool
  have wf' := still.keeps.wellFormed wf
  have hkind : (source.resized (frameSize d input source)).width ≠ 0 ∧
      (source.resized (frameSize d input source)).height ≠ 0 := hsize
  obtain ⟨pair, pool', lent, hpair, borrowed⟩ :=
    ScratchPool.acquirePair_drawable wf' (backed.mono still.keeps) hkind
  obtain ⟨x, hx, hxkind⟩ := borrowed.first
  obtain ⟨y, hy, -⟩ := Option.map_eq_some_iff.mp hsource
  have htarget : lent.targetSize? (.texture pair.1) = some x.kind.size := by
    simp only [ReferenceDevice.targetSize?, hx, Option.map_some]
  obtain ⟨copied, hcopy, -⟩ := ReferenceDevice.copy_live (borrowed.still.keeps.wellFormed wf')
    (borrowed.still.textures _ _ (still.textures _ _ hy)) htarget
  exact ⟨pair, source, pool', lent, [], copied, hsource, hpasses, hpair, hcopy⟩

/-- Nothing is missing for the passes if the pool has its textures and the stack its programs. -/
theorem equipped_of_borrowed (wf : d.WellFormed) (backed : pool.Backed d) {rest : List Holding}
    (lists : d.Lists (s.holdings ++ rest)) {kind : TextureKind} {pool' : ScratchPool} {lent : ReferenceDevice}
    {ns : List Notice} {f : Frame ReferenceDevice} (hin : f.input = pair.1) (hout : f.output = pair.2)
    (hpair : pool.acquirePair (s.prepare catalog d pool).device kind = (.ok pair, pool', lent, ns))
    (hcopy : Device.copy lent input.source (.texture pair.1) = (.ok (), f.device)) :
    f.Equipped (s.prepare catalog d pool).stack.passes := by
  have prepared := (s.still_prepare catalog d pool).keeps
  have copied := ReferenceDevice.Keeps.copy hcopy
  -- Without pixels no texture can be had, so the pair that was lent is a drawable one.
  have textures : (lent.texture? pair.1).isSome ∧ (lent.texture? pair.2).isSome := by
    by_cases hk : kind.width ≠ 0 ∧ kind.height ≠ 0
    · obtain ⟨pair', _, _, hpair', borrowed⟩ :=
        ScratchPool.acquirePair_drawable (prepared.wellFormed wf) (backed.mono prepared) hk
      cases hpair.symm.trans hpair'
      obtain ⟨x, hx, -⟩ := borrowed.first
      obtain ⟨y, hy, -⟩ := borrowed.second
      exact ⟨by rw [hx]; rfl, by rw [hy]; rfl⟩
    · cases hpair.symm.trans (ScratchPool.acquirePair_empty (backed.mono prepared) hk)
  refine ⟨?_, ?_, fun p hp program hprogram => ?_⟩
  · rw [hin]
    exact copied.isSome_texture? textures.1
  · rw [hout]
    exact copied.isSome_texture? textures.2
  · have asked := (pool.course_acquirePair (s.prepare catalog d pool).device kind []).reaches
    rw [hpair] at asked
    have spared := (asked.mono fun _ creates => creates.spares.1).trans (.one (.copy input.source (.texture pair.1)) trivial (congrArg Prod.snd hcopy))
    have listed := (s.lists_prepare (d := d) catalog pool lists).reaches spared
    have kept : (program, p.source) ∈ (s.prepare catalog d pool).stack.holdings :=
      Stack.mem_holdings_of_pass hp hprogram
    obtain ⟨x, hx, -⟩ := listed.program? (List.mem_append_left rest kept)
    have hx : f.device.program? program = some x := hx
    rw [hx]
    rfl

/-! What follows for the draws, the result and the report. -/

section
variable {resolve : Resolver} {c : FrameContext} {f g : Frame ReferenceDevice} {b : Application ReferenceDevice} {n : Nat}

theorem Runs.passes (h : s.Runs catalog d pool resolve input pair c f g b) :
    (s.apply catalog d pool resolve input).stack.passes = (s.prepare catalog d pool).stack.passes := by
  rw [h.apply, ← h.stack]
  exact (Application.ends_finish _ _ _).continues.passes

/-- Writing the result changes nothing of the report but its errors. -/
theorem Runs.reported (h : s.Runs catalog d pool resolve input pair c f g b) :
    ∃ errors, (s.apply catalog d pool resolve input).report = { g.report with errors } := by
  obtain ⟨errors, hreport⟩ := (Application.ends_finish b g.input input.destination).report
  rw [h.executed] at hreport
  rw [h.apply]
  exact ⟨errors, hreport⟩

theorem Runs.passCount (h : s.Runs catalog d pool resolve input pair c f g b) :
    (s.apply catalog d pool resolve input).report.passCount =
      (s.apply catalog d pool resolve input).stack.passes.length := by
  obtain ⟨errors, hreport⟩ := h.reported
  have hcount := (c.continues_runPasses (s.prepare catalog d pool).stack.passes 0 f).passCount
  rw [← h.ran, h.report] at hcount
  rw [hreport, h.passes]
  exact hcount

theorem Runs.passesExecuted (h : s.Runs catalog d pool resolve input pair c f g b)
    (stops : c.Stops 0 f (s.prepare catalog d pool).stack.passes n) :
    (s.apply catalog d pool resolve input).report.passesExecuted = n := by
  obtain ⟨errors, hreport⟩ := h.reported
  have hexecuted := stops.executed
  rw [← h.ran, h.report] at hexecuted
  rw [hreport]
  exact hexecuted.trans (Nat.zero_add n)

theorem Runs.abortedAt (h : s.Runs catalog d pool resolve input pair c f g b) :
    (s.apply catalog d pool resolve input).report.abortedAt = g.report.abortedAt ∧ f.report.abortedAt = none := by
  obtain ⟨errors, hreport⟩ := h.reported
  rw [hreport, h.report]
  exact ⟨rfl, rfl⟩

theorem Runs.reads_apart (h : s.Runs catalog d pool resolve input pair c f g b) (hne : pair.1 ≠ pair.2)
    {x : IssuedDraw ReferenceDevice} (hx : x ∈ s.issued catalog d pool resolve input) :
    ∃ t, ReferenceDevice.inputOf x.call.uniforms = some t ∧ x.call.target ≠ .texture t := by
  rw [h.issued] at hx
  obtain ⟨-, hreads, htarget⟩ := c.reads_of_mem_issued hx
  have hapart := c.apart_of_mem_issued (by rw [h.first, h.second]; exact hne) hx
  refine ⟨_, hreads, fun heq => ?_⟩
  rw [htarget] at heq
  exact hapart (Target.texture.inj heq).symm

theorem Runs.reads_first (h : s.Runs catalog d pool resolve input pair c f g b) {x : IssuedDraw ReferenceDevice}
    (hx : (s.issued catalog d pool resolve input)[0]? = some x) :
    ReferenceDevice.inputOf x.call.uniforms = some pair.1 := by
  rw [h.issued] at hx
  have hframe : x.frame.input = f.input := congrArg Prod.fst (c.issued_alternate _ hx)
  rw [(c.reads_of_mem_issued (List.mem_of_getElem? hx)).2.1, hframe, h.first]

theorem Runs.reads_next (h : s.Runs catalog d pool resolve input pair c f g b) {i : Nat}
    {x y : IssuedDraw ReferenceDevice} (hx : (s.issued catalog d pool resolve input)[i]? = some x)
    (hy : (s.issued catalog d pool resolve input)[i + 1]? = some y) :
    ∃ t, x.call.target = .texture t ∧ ReferenceDevice.inputOf y.call.uniforms = some t := by
  refine ⟨y.frame.input, input_issued_succ hx hy, ?_⟩
  rw [h.issued] at hy
  exact (c.reads_of_mem_issued (List.mem_of_getElem? hy)).2.1

/-- The device records the `n` draws that are made, and the result is written from what the last one has
    written. -/
theorem Runs.written (h : s.Runs catalog d pool resolve input pair c f g b)
    (stops : c.Stops 0 f (s.prepare catalog d pool).stack.passes n) :
    b.device.draws.map (·.call) =
        d.draws.map (·.call) ++ ((s.issued catalog d pool resolve input).take n).map (·.call) ∧
      (n = 0 → g.input = pair.1) ∧
      (∀ i x, n = i + 1 → (s.issued catalog d pool resolve input)[i]? = some x → x.call.target = .texture g.input) ∧
      ∃ last, (s.apply catalog d pool resolve input).device.draws = b.device.draws ++ last ∧ last.length ≤ 1 ∧
        ∀ r ∈ last, r.target = .ofDestination input.destination ∧ ReferenceDevice.inputOf r.uniforms = some g.input := by
  obtain ⟨last, hlast, hone, hreads⟩ := (b.drawsResult_finish rfl g.input input.destination).draws
  obtain ⟨m, hm, -, hrecorded⟩ := (c.recorded_runPasses (s.prepare catalog d pool).stack.passes 0 f).draws
  -- Both counts are read off the same report.
  obtain rfl : m = n := by
    have hexecuted := stops.executed
    omega
  refine ⟨?_, fun hn => ?_, fun i x hn hx => ?_, last, ?_, hone, hreads⟩
  · rw [h.device, h.ran, hrecorded, h.draws, h.issued]
  · have hinput := stops.input
    rw [← h.ran, hn] at hinput
    exact hinput.trans h.first
  · rw [h.issued] at hx
    rw [hn] at stops
    rw [h.ran]
    exact stops.target hx
  · rw [← hlast]
    exact congrArg (fun a => a.device.draws) h.apply

/-- Without an obstacle all passes are drawn, and else the report says where they stop. -/
theorem Runs.ended (h : s.Runs catalog d pool resolve input pair c f g b)
    (stops : c.Stops 0 f (s.prepare catalog d pool).stack.passes n) :
    n = (s.prepare catalog d pool).stack.passes.length ∧
        (s.apply catalog d pool resolve input).report.abortedAt = none ∧
        (s.issued catalog d pool resolve input).length = n ∨
      ∃ p, (s.prepare catalog d pool).stack.passes[n]? = some p ∧
        (s.apply catalog d pool resolve input).report.abortedAt = some n ∧
        (p.program = none ∧ (s.issued catalog d pool resolve input).length = n ∨
          ∃ x e, (s.issued catalog d pool resolve input)[n]? = some x ∧
            (s.issued catalog d pool resolve input).length = n + 1 ∧ x.result resolve s.entries = .error e) := by
  obtain ⟨habort, hstart⟩ := h.abortedAt
  obtain ⟨hentries, hresolve⟩ := h.context
  rw [habort, h.ran, h.issued, ← hentries, ← hresolve]
  rcases stops.stop with ⟨hlength, hnone, hissued⟩ | ⟨p, hp, hsome, hwhy⟩
  · exact Or.inl ⟨hlength, hnone.trans hstart, hissued⟩
  · exact Or.inr ⟨p, hp, by rw [hsome, Nat.zero_add], hwhy⟩

end

/-- With its two scratch textures an application goes to and fro. They are different, so no pass writes what it
    reads. The first pass reads the copy of the source, each other one what the one before it has written, and
    the result is written from what the last one has written. The passes are drawn in order up to the first that
    has no program or cannot be drawn, which is reported. If the pool has its textures and the stack has its
    programs, that is the first pass that has no program. -/
theorem passes_alternate (used : pool.UsedWith d) (h : s.Borrows catalog d pool input pair) (resolve : Resolver) :
    let a := s.apply catalog d pool resolve input
    let draws := s.issued catalog d pool resolve input
    let passes := a.stack.passes
    let n := a.report.passesExecuted
    let reads := fun (call : DrawCall) t => ReferenceDevice.inputOf call.uniforms = some t
    pair.1 ≠ pair.2 ∧
    (∀ x ∈ draws, ∃ t, reads x.call t ∧ x.call.target ≠ .texture t) ∧
    (∀ x, draws[0]? = some x → reads x.call pair.1) ∧
    (∀ i x y, draws[i]? = some x → draws[i + 1]? = some y → ∃ t, x.call.target = .texture t ∧ reads y.call t) ∧
    (∀ i x, draws[i]? = some x → passes[i]? = some x.pass ∧ x.pass.program = some x.call.program ∧
      (i < n → x.result resolve s.entries = .ok ())) ∧
    (∃ (b : Application ReferenceDevice) (t : TextureId), b.stack = (s.prepare catalog d pool).stack ∧
      b.device.draws.map (·.call) = d.draws.map (·.call) ++ (draws.take n).map (·.call) ∧
      (n = 0 → t = pair.1) ∧ (∀ i x, n = i + 1 → draws[i]? = some x → x.call.target = .texture t) ∧
      a = (b.finish t input.destination).giveBack pair ∧
      ∃ last, a.device.draws = b.device.draws ++ last ∧ last.length ≤ 1 ∧
        ∀ r ∈ last, r.target = .ofDestination input.destination ∧ reads r.call t) ∧
    a.report.passCount = passes.length ∧
    (n = passes.length ∧ a.report.abortedAt = none ∧ draws.length = n ∨
      ∃ p, passes[n]? = some p ∧ a.report.abortedAt = some n ∧
        (p.program = none ∧ draws.length = n ∨
          ∃ x e, draws[n]? = some x ∧ draws.length = n + 1 ∧ x.result resolve s.entries = .error e)) ∧
    (∀ w : Studio, w.Reachable → w.device = d → (∃ u ∈ w.tenants, u.stack = s) → Rig.Reachable ⟨d, pool⟩ →
      a.report.abortedAt = passes.findIdx? (·.program.isNone)) := by
  intro a draws passes n reads
  obtain ⟨c, f, g, b, runs, kind, pool', lent, ns, hpair, hcopy⟩ := h.runs resolve
  obtain ⟨m, stops⟩ := c.stops_runPasses (s.prepare catalog d pool).stack.passes 0 f
  rw [← runs.passesExecuted stops] at stops
  have hpasses : passes = (s.prepare catalog d pool).stack.passes := runs.passes
  refine ⟨h.ne used, fun x hx => runs.reads_apart (h.ne used) hx, fun x hx => runs.reads_first hx,
    fun i x y hx hy => runs.reads_next hx hy, fun i x hx => ?_, ?_, runs.passCount, ?_, ?_⟩
  · have hissued : (c.issued 0 f (s.prepare catalog d pool).stack.passes)[i]? = some x := by
      rw [← runs.issued]
      exact hx
    rw [hpasses, ← runs.context.1, ← runs.context.2]
    exact ⟨stops.passes i x hissued, (c.reads_of_mem_issued (List.mem_of_getElem? hissued)).1, stops.made i x hissued⟩
  · obtain ⟨hdraws, hnone, hlast, hwritten⟩ := runs.written stops
    exact ⟨b, g.input, runs.stack, hdraws, hnone, hlast, runs.apply, hwritten⟩
  · rw [hpasses]
    exact runs.ended stops
  · rintro w hw rfl ⟨u, hu, rfl⟩ hr
    obtain ⟨place, hplace⟩ := List.getElem?_of_mem hu
    -- The rig answers for the textures of the pool, the studio for the programs of the stack.
    have inv := hr.inv
    have equipped := equipped_of_borrowed inv.wellFormed inv.backed (hw.inv.lists_tenant hplace) runs.first runs.second
      hpair hcopy
    obtain ⟨habort, hstart⟩ := runs.abortedAt
    rw [hpasses, habort, runs.ran, stops.abortedAt c equipped, hstart, Option.or_none]
    simp only [Nat.zero_add, Option.map_id']

/-! ### Two passes, and one -/

def canvas : ReferenceDevice :=
  (Device.compileProgram ((ReferenceDevice.new (2, 2)).upload (.solid 1 1 .white)).2 "own" "void main()").2

/-- A stack with two passes, which both have the program. -/
def doubled : Stack :=
  { Stack.new (.fixed (.zero, .zero)) with
    dirty := false
    passes := [⟨[], [], "void main()", some ⟨2⟩⟩, ⟨[], [], "void main()", some ⟨2⟩⟩]
    compiledVersion := some (Catalog.rippling ⟨0⟩).version }

/-- A device with two textures lends scratch textures to a stack with one entry. -/
theorem borrows_rippling : ∃ pair, Rig.rippling.Borrows (Catalog.rippling ⟨0⟩) Rig.pair.device Rig.pair.pool
    ⟨⟨1⟩, none, none⟩ pair := by
  have inv := Rig.pair_reachable.inv
  have hsource : Device.textureKind? Rig.pair.device ⟨1⟩ = some (.rgba8 1 1) := rfl
  refine borrows_of_drawable inv.wellFormed inv.backed hsource (by decide) fun hnone => ?_
  have hmembers := (caches_compile (Rig.rippling.setRandom Rig.rippling.random.next.2) (Catalog.rippling ⟨0⟩)
    Rig.pair.device).map_members
  rw [prepare_stack, if_pos (show Rig.rippling.isStale (Catalog.rippling ⟨0⟩) = true from rfl)] at hnone
  rw [hnone] at hmembers
  have hone : Compilation.runs (Compilation.members (Catalog.rippling ⟨0⟩) Rig.rippling.entries) =
    [[⟨0, ⟨1⟩, Effect.ripple.named "ripple"⟩]] := rfl
  rw [show (Rig.rippling.setRandom Rig.rippling.random.next.2).entries = Rig.rippling.entries from rfl, hone] at hmembers
  cases hmembers

theorem studio_rippling : Studio.Reachable ⟨Rig.pair.device, [⟨Rig.rippling, 0⟩], []⟩ :=
  ((((Studio.Reachable.start (2, 2)).step (.upload (.solid 1 1 .white))).step (.upload (.blank 1 1))).step
    (.create (.fixed (.zero, .zero)))).step (.edit 0 (.add "ripple"))

/-- Two passes are drawn there and back, and the result is written from the first texture. Where nobody
    interferes, one pass is drawn unless it has no program. -/
theorem passes_alternate_doubled :
    (doubled.Borrows (Catalog.rippling ⟨0⟩) canvas .empty ⟨⟨1⟩, none, none⟩ (⟨3⟩, ⟨4⟩) ∧
      (doubled.issued (Catalog.rippling ⟨0⟩) canvas .empty (fun _ => none) ⟨⟨1⟩, none, none⟩).map (·.call.target) =
        [.texture ⟨4⟩, .texture ⟨3⟩] ∧
      ∃ b : Application ReferenceDevice,
        doubled.apply (Catalog.rippling ⟨0⟩) canvas .empty (fun _ => none) ⟨⟨1⟩, none, none⟩ =
          (b.finish ⟨3⟩ none).giveBack (⟨3⟩, ⟨4⟩)) ∧
    ∃ pair, Rig.rippling.Borrows (Catalog.rippling ⟨0⟩) Rig.pair.device Rig.pair.pool ⟨⟨1⟩, none, none⟩ pair ∧
      (let a := Rig.rippling.apply (Catalog.rippling ⟨0⟩) Rig.pair.device Rig.pair.pool (fun _ => none)
        ⟨⟨1⟩, none, none⟩
      a.report.abortedAt = a.stack.passes.findIdx? (·.program.isNone)) := by
  have borrows : doubled.Borrows (Catalog.rippling ⟨0⟩) canvas .empty ⟨⟨1⟩, none, none⟩ (⟨3⟩, ⟨4⟩) :=
    ⟨.rgba8 1 1, _, _, _, _, rfl, nofun, rfl, rfl⟩
  have targets : (doubled.issued (Catalog.rippling ⟨0⟩) canvas .empty (fun _ => none) ⟨⟨1⟩, none, none⟩).map
      (·.call.target) = [.texture ⟨4⟩, .texture ⟨3⟩] := rfl
  have executed : (doubled.apply (Catalog.rippling ⟨0⟩) canvas .empty (fun _ => none)
      ⟨⟨1⟩, none, none⟩).report.passesExecuted = 2 := rfl
  refine ⟨⟨borrows, targets, ?_⟩, ?_⟩
  · have alternate := passes_alternate (.start canvas) borrows (fun _ => none)
    dsimp only at alternate
    rw [executed] at alternate
    obtain ⟨-, -, -, -, -, ⟨b, t, -, -, -, hlast, happly, -⟩, -⟩ := alternate
    -- The draw at position 1 is the last one, so the result is written from its target.
    have hmap := congrArg (fun l => l[1]?) targets
    rw [List.getElem?_map] at hmap
    obtain ⟨x, hx, hwritten⟩ := Option.map_eq_some_iff.mp hmap
    obtain rfl := Target.texture.inj (hwritten.symm.trans (hlast 1 x rfl hx))
    exact ⟨b, happly⟩
  · obtain ⟨pair, hpair⟩ := borrows_rippling
    have used : Rig.pair.pool.UsedWith Rig.pair.device := .start _
    have alternate := passes_alternate used hpair (fun _ => none)
    dsimp only at alternate
    obtain ⟨-, -, -, -, -, -, -, -, hstop⟩ := alternate
    have stopped := hstop _ studio_rippling rfl ⟨_, List.mem_cons_self, rfl⟩ Rig.pair_reachable
    exact ⟨pair, hpair, stopped⟩

end Stack
end FxStack
