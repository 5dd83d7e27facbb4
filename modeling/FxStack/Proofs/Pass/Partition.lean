import FxStack.Proofs.Catalog.Registration
import FxStack.Pass
import Mathlib.Data.List.SplitBy

/-! The passes of a compilation partition the entries whose effects are known. They are cut before each
    effect that starts a pass and nowhere else, so no cut that keeps such effects at the front of their
    run has fewer runs. One more entry changes the last pass only, as a sweep over the entries with one
    open pass would. -/

namespace FxStack
namespace Compilation

/-! ### Members -/

theorem mem_members {c : Catalog} {entries : List Entry} {m : Member} :
    m ∈ members c entries ↔
      ∃ e, entries[m.index]? = some e ∧ e.id = m.entry ∧ c.effect? e.name = some m.effect := by
  unfold members member?
  simp only [List.mem_filterMap, Option.map_eq_some_iff, Prod.exists, List.mk_mem_zipIdx_iff_getElem?]
  constructor
  · rintro ⟨e, i, he, effect, heff, rfl⟩
    exact ⟨e, he, rfl, heff⟩
  · rintro ⟨e, he, hid, heff⟩
    exact ⟨e, m.index, he, m.effect, heff, by cases m; cases hid; rfl⟩

/-- Members stand in the order of the stack, each entry once. -/
theorem pairwise_index_members (c : Catalog) (entries : List Entry) :
    (members c entries).Pairwise fun m n => m.index < n.index := by
  unfold members
  refine List.Pairwise.filterMap (S := fun m n : Member => m.index < n.index) (member? c) ?_
    (R := fun d e : Entry × Nat => d.2 < e.2) ?_
  · intro d e hlt m hm n hn
    simp only [member?, Option.map_eq_some_iff] at hm hn
    obtain ⟨_, -, rfl⟩ := hm
    obtain ⟨_, -, rfl⟩ := hn
    exact hlt
  · rw [← List.pairwise_map (f := Prod.snd) (R := (· < ·)), List.zipIdx_map_snd]
    exact List.pairwise_lt_range'

theorem members_concat (c : Catalog) (entries : List Entry) (e : Entry) :
    members c (entries ++ [e]) = members c entries ++ (member? c (e, entries.length)).toList := by
  unfold members
  rw [List.zipIdx_append, List.filterMap_append]
  cases h : member? c (e, entries.length) <;> simp [h]

/-! ### Runs -/

/-- A cut of members into consecutive runs in which an effect that starts a pass stands only first. -/
def IsCut (ms : List Member) (cut : List (List Member)) : Prop :=
  cut.flatten = ms ∧ ∀ run ∈ cut, ∀ m ∈ run.tail, m.effect.breaksPass = false

theorem forall_mem_tail_of_isChain {α : Type} {p : α → Prop} {l : List α} (h : l.IsChain fun _ x => p x) :
    ∀ x ∈ l.tail, p x := by
  induction l with
  | nil => simp
  | cons a l ih =>
    intro x hx
    cases l with
    | nil => cases hx
    | cons b l =>
      rw [List.isChain_cons_cons] at h
      rcases List.mem_cons.mp hx with rfl | hx
      · exact h.1
      · exact ih h.2 x hx

theorem ne_nil_of_mem_runs {ms run : List Member} (h : run ∈ runs ms) : run ≠ [] :=
  List.ne_nil_of_mem_splitBy h

theorem isCut_runs (ms : List Member) : IsCut ms (runs ms) := by
  refine ⟨List.flatten_splitBy _ ms, fun run hrun m hm => ?_⟩
  have chain := List.isChain_of_mem_splitBy hrun
  simpa using forall_mem_tail_of_isChain chain m hm

/-- Every run after the first starts with an effect that starts a pass. -/
theorem head_of_mem_tail_runs {ms run : List Member} (h : run ∈ (runs ms).tail) :
    ∃ m rest, run = m :: rest ∧ m.effect.breaksPass = true := by
  have chain := List.isChain_getLast_head_splitBy (fun _ m : Member => !m.effect.breaksPass) ms
  have starts := chain.imp (S := fun _ run => ∃ m rest, run = m :: rest ∧ m.effect.breaksPass = true) ?_
  · exact forall_mem_tail_of_isChain starts run h
  · rintro before run ⟨-, hne, hbreak⟩
    obtain ⟨m, rest, rfl⟩ := List.exists_cons_of_ne_nil hne
    exact ⟨m, rest, rfl, by simpa using hbreak⟩

/-! ### The least number of runs -/

/-- The number of members whose effects start a pass. -/
def breaks (ms : List Member) : Nat := ms.countP (·.effect.breaksPass)

theorem breaks_le_one {run : List Member} (h : ∀ m ∈ run.tail, m.effect.breaksPass = false) : breaks run ≤ 1 := by
  cases run with
  | nil => simp [breaks]
  | cons m run =>
    have htail : run.countP (·.effect.breaksPass) = 0 := by
      rw [List.countP_eq_zero]
      intro n hn
      simpa using h n hn
    unfold breaks
    rw [List.countP_cons, htail]
    split <;> simp

theorem breaks_flatten_le {cut : List (List Member)}
    (h : ∀ run ∈ cut, ∀ m ∈ run.tail, m.effect.breaksPass = false) : breaks cut.flatten ≤ cut.length := by
  induction cut with
  | nil => simp [breaks]
  | cons run cut ih =>
    have hrun := breaks_le_one (h run List.mem_cons_self)
    have hcut := ih fun r hr => h r (List.mem_cons_of_mem _ hr)
    have hsum : breaks (run ++ cut.flatten) = breaks run + breaks cut.flatten := List.countP_append
    rw [List.flatten_cons, List.length_cons, hsum]
    omega

/-- Each effect that starts a pass, but for the first member's, needs a run of its own. -/
theorem IsCut.breaks_tail_lt {ms : List Member} {cut : List (List Member)} (h : IsCut ms cut) (hne : ms ≠ []) :
    breaks ms.tail < cut.length := by
  obtain ⟨rfl, hcut⟩ := h
  induction cut with
  | nil => simp at hne
  | cons run cut ih =>
    have hrest : ∀ r ∈ cut, ∀ m ∈ r.tail, m.effect.breaksPass = false :=
      fun r hr => hcut r (List.mem_cons_of_mem _ hr)
    cases run with
    | nil =>
      -- A run without members only makes the cut longer.
      rw [List.flatten_cons, List.nil_append] at hne ⊢
      exact Nat.lt_succ_of_lt (ih hrest hne)
    | cons m run =>
      -- The first member may start a pass without needing a run for it; no other of its run does.
      have hrun : breaks run = 0 := by
        unfold breaks
        rw [List.countP_eq_zero]
        intro n hn
        simpa using hcut _ List.mem_cons_self n hn
      have hle := breaks_flatten_le hrest
      have hsum : breaks (run ++ cut.flatten) = breaks run + breaks cut.flatten := List.countP_append
      rw [List.flatten_cons, List.cons_append, List.tail_cons, List.length_cons, hsum]
      omega

theorem length_le_breaks_flatten {cut : List (List Member)}
    (h : ∀ run ∈ cut, ∃ m rest, run = m :: rest ∧ m.effect.breaksPass = true) :
    cut.length ≤ breaks cut.flatten := by
  induction cut with
  | nil => simp
  | cons run cut ih =>
    obtain ⟨m, rest, rfl, hm⟩ := h run List.mem_cons_self
    have hcut := ih fun r hr => h r (List.mem_cons_of_mem _ hr)
    have hhead : breaks (m :: rest) = breaks rest + 1 := List.countP_cons_of_pos hm
    have hsum : breaks (m :: rest ++ cut.flatten) = breaks (m :: rest) + breaks cut.flatten := List.countP_append
    rw [List.flatten_cons, List.length_cons, hsum, hhead]
    omega

theorem length_runs_le (ms : List Member) : (runs ms).length ≤ breaks ms.tail + 1 := by
  cases hr : runs ms with
  | nil => simp
  | cons first rest =>
    have hfirst : first ≠ [] := ne_nil_of_mem_runs (hr ▸ List.mem_cons_self)
    obtain ⟨m, run, rfl⟩ := List.exists_cons_of_ne_nil hfirst
    have hrest : rest.length ≤ breaks rest.flatten := length_le_breaks_flatten fun r h =>
      head_of_mem_tail_runs (by rw [hr]; exact h)
    have hms : ms = m :: (run ++ rest.flatten) := by
      rw [← (isCut_runs ms).1, hr]
      simp
    have hsum : breaks (run ++ rest.flatten) = breaks run + breaks rest.flatten := List.countP_append
    rw [hms, List.tail_cons, List.length_cons, hsum]
    omega

/-- No cut has fewer runs. -/
theorem length_runs_le_of_isCut {ms : List Member} {cut : List (List Member)} (h : IsCut ms cut) :
    (runs ms).length ≤ cut.length := by
  by_cases hne : ms = []
  · simp [hne, runs]
  · exact Nat.le_trans (length_runs_le ms) (h.breaks_tail_lt hne)

/-! ### One entry more -/

theorem runs_concat_of_breaks {ms : List Member} {m : Member} (h : m.effect.breaksPass = true) :
    runs (ms ++ [m]) = runs ms ++ [[m]] :=
  List.splitBy_append_cons [] fun _ _ => by simp [h]

/-- A member that starts no pass joins the last run. -/
theorem runs_concat_of_joins {ms : List Member} {m : Member} (h : m.effect.breaksPass = false)
    {before : List (List Member)} {last : List Member} (hr : runs ms = before ++ [last]) :
    runs (ms ++ [m]) = before ++ [last ++ [m]] := by
  obtain ⟨hflat, hnil, hchain, hlink⟩ := List.splitBy_eq_iff.mp hr
  have hlast : last ≠ [] := fun heq => hnil (by simp [heq])
  refine List.splitBy_eq_iff.mpr ⟨by simp [hflat], ?_, ?_, ?_⟩
  · intro hm
    rcases List.mem_append.mp hm with hm | hm
    · exact hnil (List.mem_append_left _ hm)
    · simp at hm
  · intro run hrun
    rcases List.mem_append.mp hrun with hrun | hrun
    · exact hchain run (List.mem_append_left _ hrun)
    · obtain rfl := List.mem_singleton.mp hrun
      refine List.isChain_append.mpr ⟨hchain last (by simp), List.isChain_singleton m, ?_⟩
      simp [h]
  · rw [List.isChain_append] at hlink ⊢
    refine ⟨hlink.1, List.isChain_singleton _, fun prev hprev next hnext => ?_⟩
    obtain ⟨hp, hl, hbreak⟩ := hlink.2.2 prev hprev last (by simp)
    obtain rfl : last ++ [m] = next := by simpa using hnext
    exact ⟨hp, by simp, by rwa [List.head_append_of_ne_nil hl]⟩

/-- The runs after one member more: the last run is left open for it unless it starts a pass. -/
def extendRuns (rs : List (List Member)) (m : Member) : List (List Member) :=
  match rs.getLast? with
  | none => [[m]]
  | some last => if m.effect.breaksPass then rs ++ [[m]] else rs.dropLast ++ [last ++ [m]]

theorem runs_concat (ms : List Member) (m : Member) : runs (ms ++ [m]) = extendRuns (runs ms) m := by
  unfold extendRuns
  cases hr : (runs ms).getLast? with
  | none =>
    have hms : ms = [] := List.splitBy_eq_nil.mp (List.getLast?_eq_none_iff.mp hr)
    subst hms
    rfl
  | some last =>
    obtain ⟨before, hb⟩ := List.getLast?_eq_some_iff.mp hr
    cases hm : m.effect.breaksPass with
    | true => simp only [runs_concat_of_breaks hm, if_true]
    | false => simp only [runs_concat_of_joins hm hb, hb, Bool.false_eq_true, if_false, List.dropLast_concat]

/-- A sweep over the members from left to right that keeps one run open finds the runs. -/
theorem runs_eq_foldl (ms : List Member) : runs ms = ms.foldl extendRuns [] := by
  induction ms using List.reverseRecOn with
  | nil => rfl
  | append_singleton ms m ih => rw [runs_concat, ih, List.foldl_append, List.foldl_cons, List.foldl_nil]

/-! ### What the cut depends on -/

/-- The entry and the effect of a member, without its position. -/
def content (m : Member) : EntryId × Effect := (m.entry, m.effect)

/-- Runs are cut in the same places where only what starts a pass is kept of the members. -/
theorem map_runs {α : Type} (g : Member → α) (breaks : α → Bool) (h : ∀ m, breaks (g m) = m.effect.breaksPass)
    (ms : List Member) : (runs ms).map (List.map g) = (ms.map g).splitBy fun _ x => !breaks x := by
  obtain ⟨hflat, hnil, hchain, hlink⟩ := List.splitBy_eq_iff.mp (rfl : runs ms = runs ms)
  symm
  refine List.splitBy_eq_iff.mpr ⟨?_, ?_, ?_, ?_⟩
  · rw [← List.map_flatten, ← hflat]
  · intro hm
    obtain ⟨run, hrun, heq⟩ := List.mem_map.mp hm
    exact ne_nil_of_mem_runs hrun (List.map_eq_nil_iff.mp heq)
  · intro images himages
    obtain ⟨run, hrun, rfl⟩ := List.mem_map.mp himages
    rw [List.isChain_map]
    exact (hchain run hrun).imp fun _ m hm => by rwa [h]
  · rw [List.isChain_map]
    refine hlink.imp ?_
    rintro prev next ⟨hp, hn, hbreak⟩
    refine ⟨by simpa using hp, by simpa using hn, ?_⟩
    rw [List.head_map, h]
    exact hbreak

theorem map_content_runs (ms : List Member) :
    (runs ms).map (List.map content) = (ms.map content).splitBy fun _ x => !x.2.breaksPass :=
  map_runs content (fun x => x.2.breaksPass) (fun _ => rfl) ms

theorem map_content_members (c : Catalog) (entries : List Entry) :
    (members c entries).map content = entries.filterMap fun e => (c.effect? e.name).map (Prod.mk e.id) := by
  induction entries using List.reverseRecOn with
  | nil => rfl
  | append_singleton entries e ih =>
    rw [members_concat, List.map_append, ih, List.filterMap_append]
    cases he : c.effect? e.name <;> simp [member?, he, content]

/-! ### Problems -/

theorem unknownEffects_ofEntries (c : Catalog) (entries : List Entry) :
    (ofEntries c entries).diagnostics.unknownEffects =
      (entries.zipIdx.filter fun e => (c.effect? e.1.name).isNone).map fun e => (e.2, e.1.name) := by
  simp only [diagnostics, ofEntries, Diagnostics.ofIssues]
  induction entries.zipIdx with
  | nil => rfl
  | cons e es ih =>
    rw [List.flatMap_cons, List.filterMap_append, ih]
    cases he : c.effect? e.1.name with
    | none => simp [issuesOf, he]
    | some effect => simp [issuesOf, he, List.filterMap_map]

theorem missingFunctions_ofEntries (c : Catalog) (entries : List Entry) :
    (ofEntries c entries).diagnostics.missingFunctions =
      (members c entries).flatMap fun m =>
        (m.effect.functions.filter fun f => (c.function? f).isNone).map (Prod.mk m.index) := by
  simp only [diagnostics, ofEntries, Diagnostics.ofIssues, members]
  induction entries.zipIdx with
  | nil => rfl
  | cons e es ih =>
    rw [List.flatMap_cons, List.filterMap_append, ih]
    cases he : c.effect? e.1.name with
    | none => simp [issuesOf, he, member?]
    | some effect => simp [issuesOf, he, member?, List.filterMap_map]

/-! ### The partition -/

theorem map_members_passes (c : Catalog) (entries : List Entry) :
    (ofEntries c entries).passes.map (·.members) = runs (members c entries) := by
  unfold ofEntries
  rw [List.map_map]
  exact List.map_id _

theorem mem_runs_of_mem_passes {c : Catalog} {entries : List Entry} {p : Pass} (h : p ∈ (ofEntries c entries).passes) :
    p.members ∈ runs (members c entries) := by
  rw [← map_members_passes]
  exact List.mem_map_of_mem h

theorem mem_members_of_mem_passes {c : Catalog} {entries : List Entry} {p : Pass} {m : Member}
    (hp : p ∈ (ofEntries c entries).passes) (hm : m ∈ p.members) : m ∈ members c entries := by
  rw [← (isCut_runs (members c entries)).1]
  exact List.mem_flatten_of_mem (mem_runs_of_mem_passes hp) hm

/-- A pass starts at its first member, and no other member of it starts a pass. -/
theorem exists_first_of_mem_passes {c : Catalog} {entries : List Entry} {p : Pass}
    (h : p ∈ (ofEntries c entries).passes) :
    ∃ m rest, p.members = m :: rest ∧ p.firstIndex = m.index ∧ ∀ n ∈ rest, n.effect.breaksPass = false := by
  have hrun := mem_runs_of_mem_passes h
  obtain ⟨m, rest, hm⟩ := List.exists_cons_of_ne_nil (ne_nil_of_mem_runs hrun)
  refine ⟨m, rest, hm, by simp [Pass.firstIndex, hm], fun n hn => ?_⟩
  exact (isCut_runs _).2 p.members hrun n (by rw [hm]; exact hn)

/-- The functions of a catalog have no part in the cut. -/
theorem map_members_passes_congr {c c' : Catalog} (h : c'.effects = c.effects) (entries : List Entry) :
    (ofEntries c' entries).passes.map (·.members) = (ofEntries c entries).passes.map (·.members) := by
  have hsame : member? c' = member? c := funext fun e => by simp only [member?, Catalog.effect?, h]
  rw [map_members_passes, map_members_passes, members, hsame]
  rfl

theorem map_content_passes (c : Catalog) (entries : List Entry) :
    (ofEntries c entries).passes.map (·.members.map content) =
      (entries.filterMap fun e => (c.effect? e.name).map (Prod.mk e.id)).splitBy fun _ x => !x.2.breaksPass := by
  rw [← map_content_members, ← map_content_runs, ← map_members_passes, List.map_map]
  rfl

/-- Entries of unknown effects have no part in the cut. -/
theorem map_content_passes_filter (c : Catalog) (entries : List Entry) :
    (ofEntries c (entries.filter fun e => (c.effect? e.name).isSome)).passes.map (·.members.map content) =
      (ofEntries c entries).passes.map (·.members.map content) := by
  rw [map_content_passes, map_content_passes, List.filterMap_filter]
  refine congrArg (fun f => (entries.filterMap f).splitBy _) (funext fun e => ?_)
  cases c.effect? e.name <;> rfl

/-- The passes hold exactly the entries with a known effect, in order; they are a cut with the fewest
    runs; what is unknown is listed and changes nothing else. -/
theorem ofEntries_partition {c : Catalog} (hc : c.Built) (entries : List Entry) :
    let passes := (ofEntries c entries).passes
    let resolved := entries.zipIdx.filterMap fun e => (c.effect? e.1.name).map (Member.mk e.2 e.1.id)
    (passes.flatMap (·.members) = resolved ∧
      resolved.Pairwise (fun m n => m.index < n.index) ∧
      ∀ m ∈ resolved, ∃ e, entries[m.index]? = some e ∧ m.entry = e.id ∧
        c.effect? e.name = some m.effect ∧ m.effect.name = e.name) ∧
    ((∀ p ∈ passes, ∃ m rest, p.members = m :: rest ∧ p.firstIndex = m.index ∧
        ∀ n ∈ rest, n.effect.breaksPass = false) ∧
      ∀ p ∈ passes.tail, ∃ m rest, p.members = m :: rest ∧ m.effect.breaksPass = true) ∧
    (IsCut resolved (passes.map (·.members)) ∧ ∀ cut, IsCut resolved cut → passes.length ≤ cut.length) ∧
    ((ofEntries c entries).diagnostics.unknownEffects =
        (entries.zipIdx.filter fun e => (c.effect? e.1.name).isNone).map (fun e => (e.2, e.1.name)) ∧
      (ofEntries c entries).diagnostics.missingFunctions =
        resolved.flatMap fun m =>
          (m.effect.functions.filter fun f => (c.function? f).isNone).map (Prod.mk m.index)) ∧
    ((∀ c' : Catalog, c'.effects = c.effects →
        (ofEntries c' entries).passes.map (·.members) = passes.map (·.members)) ∧
      (ofEntries c (entries.filter fun e => (c.effect? e.name).isSome)).passes.map (·.members.map content) =
        passes.map (·.members.map content)) := by
  intro passes resolved
  have hmembers : passes.map (·.members) = runs resolved := map_members_passes c entries
  have hcut : IsCut resolved (passes.map (·.members)) := by
    rw [hmembers]
    exact isCut_runs resolved
  refine ⟨⟨?_, pairwise_index_members c entries, fun m hm => ?_⟩,
    ⟨fun p hp => exists_first_of_mem_passes hp, fun p hp => ?_⟩, ⟨hcut, fun cut h => ?_⟩,
    ⟨unknownEffects_ofEntries c entries, missingFunctions_ofEntries c entries⟩,
    ⟨fun c' hc' => map_members_passes_congr hc' entries, map_content_passes_filter c entries⟩⟩
  · rw [List.flatMap_def, hcut.1]
  · obtain ⟨e, he, hid, heff⟩ := mem_members.mp hm
    exact ⟨e, he, hid.symm, heff, (hc.sound e.name m.effect heff).2⟩
  · exact head_of_mem_tail_runs (by rw [← hmembers, ← List.map_tail]; exact List.mem_map_of_mem hp)
  · rw [← List.length_map (·.members), hmembers]
    exact length_runs_le_of_isCut h

/-- Two entries of one effect that starts a pass, and an unknown one between them. -/
theorem ofEntries_partition_ripple :
    (Catalog.rippling ⟨0⟩).Built ∧
      (let entries : List Entry := [⟨⟨1⟩, "ripple", .empty⟩, ⟨⟨2⟩, "fog", .empty⟩, ⟨⟨3⟩, "ripple", .empty⟩]
      let compilation := ofEntries (Catalog.rippling ⟨0⟩) entries
      compilation.passes.flatMap (·.members) =
          [⟨0, ⟨1⟩, Effect.ripple.named "ripple"⟩, ⟨2, ⟨3⟩, Effect.ripple.named "ripple"⟩] ∧
        compilation.diagnostics.unknownEffects = [(1, "fog")] ∧
        compilation.diagnostics.missingFunctions = [(0, "wave"), (2, "wave")] ∧
        ∀ cut, IsCut (members (Catalog.rippling ⟨0⟩) entries) cut → 2 ≤ cut.length) := by
  have h := ofEntries_partition (Catalog.rippling_built ⟨0⟩)
    [⟨⟨1⟩, "ripple", .empty⟩, ⟨⟨2⟩, "fog", .empty⟩, ⟨⟨3⟩, "ripple", .empty⟩]
  exact ⟨Catalog.rippling_built ⟨0⟩, h.1.1, h.2.2.2.1.1, h.2.2.2.1.2, h.2.2.1.2⟩

end Compilation
end FxStack
