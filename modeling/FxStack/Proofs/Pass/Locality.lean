import FxStack.Proofs.Pass.Sweep
import Mathlib.Data.List.Sort

/-! What the text of a pass depends on: its members at their positions, and the functions that they name. Entries before
    and behind a pass may change; as long as the pass starts and ends where it did, its program is the same text. Main
    statement: `Compilation.text_local`. -/

namespace FxStack

/-! ### Places -/

/-- The position and the effect of a member, without the handle of its entry. -/
def Member.place (m : Member) : Nat × Effect := (m.index, m.effect)

/-- The effect at a position, if there is an entry whose effect is known. -/
def Compilation.effectAt? (c : Catalog) (entries : List Entry) (i : Nat) : Option Effect :=
  entries[i]?.bind fun e => c.effect? e.name

theorem Compilation.place_mem_members {c : Catalog} {entries : List Entry} {i : Nat} {effect : Effect} :
    (∃ m ∈ members c entries, m.place = (i, effect)) ↔ effectAt? c entries i = some effect := by
  unfold effectAt? Member.place
  simp only [Option.bind_eq_some_iff]
  constructor
  · rintro ⟨m, hm, hplace⟩
    obtain ⟨rfl, rfl⟩ := Prod.mk.inj hplace
    obtain ⟨e, he, -, heffect⟩ := mem_members.mp hm
    exact ⟨e, he, heffect⟩
  · rintro ⟨e, he, heffect⟩
    exact ⟨⟨i, e.id, effect⟩, mem_members.mpr ⟨e, he, rfl, heffect⟩, rfl⟩

theorem Compilation.effectAt?_of_mem {c : Catalog} {entries : List Entry} {m : Member} (h : m ∈ members c entries) :
    effectAt? c entries m.index = some m.effect :=
  place_mem_members.mp ⟨m, h, rfl⟩

namespace Pass

/-- The position of the last member. -/
def lastIndex (p : Pass) : Nat := (p.members.getLast?.map (·.index)).getD 0

/-- What is generated for the members of a pass depends on their places only. -/
theorem map_members_congr {p q : Pass} (h : p.members.map Member.place = q.members.map Member.place) {α : Type}
    (f : Member → α) (hf : ∀ m n, m.place = n.place → f m = f n) : p.members.map f = q.members.map f := by
  have through : ∀ ms : List Member, ms.map f = (ms.map Member.place).map fun x => f ⟨x.1, ⟨0⟩, x.2⟩ := by
    intro ms
    rw [List.map_map]
    exact List.map_congr_left fun m _ => hf _ _ rfl
  rw [through, through, h]

end Pass

/-- The text of a pass depends on the places of its members and on its functions. -/
theorem Program.ofPass_congr {p q : Pass} (h : p.members.map Member.place = q.members.map Member.place)
    (hfunctions : p.functions = q.functions) : ofPass p = ofPass q := by
  have hdeclarations : p.declarations = q.declarations := by
    have hmap := Pass.map_members_congr h Member.declarations fun m n hmn => by
      obtain ⟨hindex, heffect⟩ := Prod.mk.inj hmn
      rw [Member.declarations, Member.declarations, hindex, heffect]
    rw [Pass.declarations, Pass.declarations, List.flatMap_def, List.flatMap_def, hmap]
  have hblock : ∀ {m n : Member} (code : Template), m.place = n.place → m.block code = n.block code := by
    intro m n code hmn
    obtain ⟨hindex, heffect⟩ := Prod.mk.inj hmn
    rw [Member.block, Member.block, hindex, heffect]
  have huv : p.uvCode = q.uvCode := by
    refine congrArg String.join (Pass.map_members_congr h Member.uvBlock fun m n hmn => ?_)
    rw [Member.uvBlock, Member.uvBlock, show m.effect = n.effect from (Prod.mk.inj hmn).2]
    cases n.effect.uvCode with
    | none => rw [Option.map_none, Option.map_none]
    | some code =>
      rw [Option.map_some, Option.map_some, Option.getD_some, Option.getD_some]
      exact hblock code hmn
  have hcolor : p.colorCode = q.colorCode := by
    refine congrArg String.join (Pass.map_members_congr h Member.colorBlock fun m n hmn => ?_)
    rw [Member.colorBlock, Member.colorBlock, show m.effect = n.effect from (Prod.mk.inj hmn).2]
    exact hblock _ hmn
  rw [ofPass, ofPass, hdeclarations, hfunctions, huv, hcolor]

/-! ### Stretches of the stack -/

namespace Compilation
variable {c c' : Catalog} {entries entries' : List Entry}

/-- The members at positions from `a` to `b`. -/
def stretch (a b : Nat) (ms : List Member) : List Member := ms.filter fun m => a ≤ m.index ∧ m.index ≤ b

theorem filter_append_filter {ms : List Member} (h : ms.Pairwise fun m n => m.index < n.index) (a : Nat) :
    (ms.filter fun m => m.index < a) ++ (ms.filter fun m => a ≤ m.index) = ms := by
  induction ms with
  | nil => rfl
  | cons m ms ih =>
    obtain ⟨hm, hms⟩ := List.pairwise_cons.mp h
    by_cases hlt : m.index < a
    · rw [List.filter_cons_of_pos (by simpa using hlt), List.filter_cons_of_neg (by simpa using hlt), List.cons_append,
        ih hms]
    · have hle : ∀ n ∈ m :: ms, a ≤ n.index := by
        intro n hn
        rcases List.mem_cons.mp hn with rfl | hn
        · omega
        · have := hm n hn
          omega
      have hbefore : (m :: ms).filter (fun n => n.index < a) = [] :=
        List.filter_eq_nil_iff.mpr fun n hn => by simpa using hle n hn
      have hbehind : (m :: ms).filter (fun n => a ≤ n.index) = m :: ms :=
        List.filter_eq_self.mpr fun n hn => by simpa using hle n hn
      rw [hbefore, hbehind, List.nil_append]

/-- The members before a stretch, those in it and those behind it. -/
theorem eq_append_stretch {ms : List Member} (h : ms.Pairwise fun m n => m.index < n.index) {a b : Nat} (hab : a ≤ b) :
    ms = (ms.filter fun m => m.index < a) ++ stretch a b ms ++ (ms.filter fun m => b < m.index) := by
  conv_lhs => rw [← filter_append_filter h a]
  rw [List.append_assoc]
  congr 1
  rw [← filter_append_filter (h.filter fun m => a ≤ m.index) (b + 1), List.filter_filter, List.filter_filter]
  congr 1 <;>
    refine List.filter_congr fun m _ => ?_ <;>
    rw [Bool.eq_iff_iff] <;>
    simp only [Bool.and_eq_true, decide_eq_true_eq] <;>
    omega

theorem isChain_cons_of_forall {α : Type} {p : α → Prop} {l : List α} (h : ∀ x ∈ l, p x) (a : α) :
    (a :: l).IsChain fun _ x => p x := by
  induction l generalizing a with
  | nil => exact List.isChain_singleton a
  | cons b l ih =>
    exact List.isChain_cons_cons.mpr ⟨h b List.mem_cons_self, ih (fun x hx => h x (List.mem_cons_of_mem _ hx)) b⟩

/-- Members between two places where a pass starts are a run. -/
theorem mem_runs_of_append {before mid after : List Member} (hne : mid ≠ [])
    (hmid : ∀ m ∈ mid.tail, m.effect.breaksPass = false)
    (hstart : before = [] ∨ ∀ m ∈ mid.head?, m.effect.breaksPass = true)
    (hstop : ∀ m ∈ after.head?, m.effect.breaksPass = true) : mid ∈ runs (before ++ mid ++ after) := by
  have hrun : runs mid = [mid] := by
    obtain ⟨m, rest, rfl⟩ := List.exists_cons_of_ne_nil hne
    exact List.splitBy_of_isChain hne (isChain_cons_of_forall (fun n hn => by simpa using hmid n hn) m)
  have hleft : runs (before ++ mid) = runs before ++ runs mid := by
    refine List.splitBy_append fun x hx y hy => ?_
    rcases hstart with rfl | hstart
    · cases hx
    · rw [hstart y hy, Bool.not_true]
  have hright : runs (before ++ mid ++ after) = runs (before ++ mid) ++ runs after :=
    List.splitBy_append fun x _ y hy => by rw [hstop y hy, Bool.not_true]
  rw [hright, hleft, hrun]
  simp

/-- A stretch in which the same effects stand at the same positions. -/
theorem map_place_stretch {a b : Nat}
    (h : ∀ i, a ≤ i → i ≤ b → effectAt? c' entries' i = effectAt? c entries i) :
    (stretch a b (members c' entries')).map Member.place = (stretch a b (members c entries)).map Member.place := by
  have sorted : ∀ (c : Catalog) (entries : List Entry),
      ((stretch a b (members c entries)).map Member.place).Pairwise fun x y => x.1 < y.1 := fun c entries =>
    List.pairwise_map.mpr ((pairwise_index_members c entries).filter _)
  have mem_iff : ∀ (c : Catalog) (entries : List Entry) (x : Nat × Effect),
      x ∈ (stretch a b (members c entries)).map Member.place ↔
        (a ≤ x.1 ∧ x.1 ≤ b) ∧ effectAt? c entries x.1 = some x.2 := by
    intro c entries x
    rw [← place_mem_members]
    unfold stretch
    simp only [List.mem_map, List.mem_filter, decide_eq_true_eq]
    constructor
    · rintro ⟨m, ⟨hm, hspan⟩, rfl⟩
      exact ⟨hspan, m, hm, rfl⟩
    · rintro ⟨hspan, m, hm, hplace⟩
      obtain ⟨hindex, -⟩ := Prod.mk.inj hplace
      exact ⟨m, ⟨hm, hindex ▸ hspan⟩, hplace⟩
  have : Std.Irrefl fun x y : Nat × Effect => x.1 < y.1 := ⟨fun _ => Nat.lt_irrefl _⟩
  have : Std.Antisymm fun x y : Nat × Effect => x.1 < y.1 := ⟨fun _ _ hxy hyx => absurd hyx (Nat.lt_asymm hxy)⟩
  refine List.Pairwise.eq_of_mem_iff (sorted c' entries') (sorted c entries) fun x => ?_
  rw [mem_iff, mem_iff]
  constructor
  · rintro ⟨hspan, hx⟩
    exact ⟨hspan, by rwa [← h x.1 hspan.1 hspan.2]⟩
  · rintro ⟨hspan, hx⟩
    exact ⟨hspan, by rwa [h x.1 hspan.1 hspan.2]⟩

end Compilation

namespace Pass
variable {p : Pass}

theorem exists_first (h : p.members ≠ []) : ∃ m ∈ p.members, m.index = p.firstIndex := by
  obtain ⟨m, rest, hm⟩ := List.exists_cons_of_ne_nil h
  exact ⟨m, hm ▸ List.mem_cons_self, by simp [firstIndex, hm]⟩

theorem exists_last (h : p.members ≠ []) : ∃ m ∈ p.members, m.index = p.lastIndex :=
  ⟨p.members.getLast h, List.getLast_mem h, by simp [lastIndex, List.getLast?_eq_some_getLast h]⟩

theorem between (hp : p.members.Pairwise fun m n => m.index < n.index) {m : Member} (hm : m ∈ p.members) :
    p.firstIndex ≤ m.index ∧ m.index ≤ p.lastIndex := by
  constructor
  · obtain ⟨first, rest, hfirst⟩ := List.exists_cons_of_ne_nil (List.ne_nil_of_mem hm)
    rw [hfirst] at hp hm
    simp only [firstIndex, hfirst, List.head?_cons, Option.map_some, Option.getD_some]
    rcases List.mem_cons.mp hm with rfl | hm
    · exact Nat.le_refl _
    · exact Nat.le_of_lt ((List.pairwise_cons.mp hp).1 m hm)
  · obtain ⟨init, last, hlast⟩ := (List.eq_nil_or_concat' p.members).resolve_left (List.ne_nil_of_mem hm)
    rw [hlast] at hp hm
    simp only [lastIndex, hlast, List.getLast?_concat, Option.map_some, Option.getD_some]
    rcases List.mem_append.mp hm with hm | hm
    · exact Nat.le_of_lt ((List.pairwise_append.mp hp).2.2 m hm last (List.mem_singleton_self last))
    · rw [List.mem_singleton.mp hm]

end Pass

namespace Compilation
variable {c c' : Catalog} {entries entries' : List Entry} {p : Pass}

theorem ne_nil_of_mem_passes (h : p ∈ (ofEntries c entries).passes) : p.members ≠ [] :=
  ne_nil_of_mem_runs (mem_runs_of_mem_passes h)

/-- A pass has all members between its first and its last position. -/
theorem members_eq_stretch (h : p ∈ (ofEntries c entries).passes) :
    p.members = stretch p.firstIndex p.lastIndex (members c entries) := by
  obtain ⟨left, right, hruns⟩ := List.append_of_mem (mem_runs_of_mem_passes h)
  have hms : members c entries = left.flatten ++ (p.members ++ right.flatten) := by
    rw [← (isCut_runs (members c entries)).1, hruns]
    simp
  have hsorted := pairwise_index_members c entries
  rw [hms] at hsorted ⊢
  obtain ⟨-, hrest, hleft⟩ := List.pairwise_append.mp hsorted
  obtain ⟨hp, -, hright⟩ := List.pairwise_append.mp hrest
  obtain ⟨first, hfirst, hfirstIndex⟩ := Pass.exists_first (ne_nil_of_mem_passes h)
  obtain ⟨last, hlast, hlastIndex⟩ := Pass.exists_last (ne_nil_of_mem_passes h)
  have hbefore : stretch p.firstIndex p.lastIndex left.flatten = [] := by
    refine List.filter_eq_nil_iff.mpr fun m hm => ?_
    have := hleft m hm first (List.mem_append_left _ hfirst)
    simp only [decide_eq_true_eq]
    omega
  have hmid : stretch p.firstIndex p.lastIndex p.members = p.members :=
    List.filter_eq_self.mpr fun m hm => decide_eq_true (Pass.between hp hm)
  have hbehind : stretch p.firstIndex p.lastIndex right.flatten = [] := by
    refine List.filter_eq_nil_iff.mpr fun m hm => ?_
    have := hright last hlast m hm
    simp only [decide_eq_true_eq]
    omega
  unfold stretch at hbefore hmid hbehind ⊢
  rw [List.filter_append, List.filter_append, hbefore, hmid, hbehind, List.append_nil, List.nil_append]

end Compilation

/-! ### Passes that stay -/

open Compilation in
/-- The entries from a pass's first to its last position have the effects they had, it still starts and ends there, and
    the functions that its members name are the same. -/
structure Pass.Stays (p : Pass) (c : Catalog) (entries : List Entry) (c' : Catalog) (entries' : List Entry) : Prop where
  inside : ∀ i, p.firstIndex ≤ i → i ≤ p.lastIndex → effectAt? c' entries' i = effectAt? c entries i
  /-- The first effect starts a pass, or nothing before it is known. -/
  start : (∃ effect, effectAt? c entries p.firstIndex = some effect ∧ effect.breaksPass = true) ∨
    ∀ i < p.firstIndex, effectAt? c' entries' i = none
  /-- The first known effect behind the pass starts another. -/
  stop : ∀ i effect, p.lastIndex < i → effectAt? c' entries' i = some effect →
    (∀ j, p.lastIndex < j → j < i → effectAt? c' entries' j = none) → effect.breaksPass = true
  functions : ∀ m ∈ p.members, ∀ name ∈ m.effect.functions, c'.function? name = c.function? name

namespace Compilation
variable {c c' : Catalog} {entries entries' : List Entry} {p : Pass}

theorem map_place_stays (h : p ∈ (ofEntries c entries).passes) (hs : p.Stays c entries c' entries') :
    (stretch p.firstIndex p.lastIndex (members c' entries')).map Member.place = p.members.map Member.place := by
  conv_rhs => rw [members_eq_stretch h]
  exact map_place_stretch hs.inside

theorem functionsOf_stays (hs : p.Stays c entries c' entries') {ms : List Member}
    (hplaces : ms.map Member.place = p.members.map Member.place) :
    Pass.functionsOf c' ms = Pass.functionsOf c p.members := by
  have hnames : ms.flatMap (·.effect.functions) = p.members.flatMap (·.effect.functions) := by
    have hmap := congrArg (List.flatMap fun x => x.2.functions) hplaces
    rwa [List.flatMap_map, List.flatMap_map] at hmap
  rw [Pass.functionsOf_eq, Pass.functionsOf_eq, hnames]
  unfold Pass.functionsNamed
  refine List.filterMap_congr fun name hname => ?_
  obtain ⟨m, hm, hmname⟩ := List.mem_flatMap.mp (List.mem_eraseDups.mp hname)
  rw [hs.functions m hm name hmname]

theorem before_eq_nil {a : Nat} (h : ∀ i < a, effectAt? c entries i = none) :
    ((members c entries).filter fun m => m.index < a) = [] := by
  refine List.filter_eq_nil_iff.mpr fun m hm hlt => ?_
  have hnone := h m.index (of_decide_eq_true hlt)
  rw [effectAt?_of_mem hm] at hnone
  cases hnone

/-- If the first known effect behind a position starts a pass, so does the first member there. -/
theorem breaksPass_behind {b : Nat}
    (h : ∀ i effect, b < i → effectAt? c entries i = some effect →
      (∀ j, b < j → j < i → effectAt? c entries j = none) → effect.breaksPass = true) {m : Member}
    (hm : m ∈ ((members c entries).filter fun m => b < m.index).head?) : m.effect.breaksPass = true := by
  obtain ⟨rest, hrest⟩ := List.head?_eq_some_iff.mp hm
  have hsorted := (pairwise_index_members c entries).filter fun m => b < m.index
  have mem_iff : ∀ n, n ∈ m :: rest ↔ n ∈ members c entries ∧ b < n.index := by
    intro n
    rw [← hrest, List.mem_filter, decide_eq_true_iff]
  obtain ⟨hmem, hlt⟩ := (mem_iff m).mp List.mem_cons_self
  refine h m.index m.effect hlt (effectAt?_of_mem hmem) fun j hj hjm => ?_
  -- A member between the position and `m` would stand before `m` in the list.
  cases hat : effectAt? c entries j with
  | none => rfl
  | some effect =>
    obtain ⟨n, hn, hplace⟩ := place_mem_members.mpr hat
    obtain ⟨rfl, -⟩ := Prod.mk.inj hplace
    rw [hrest] at hsorted
    rcases List.mem_cons.mp ((mem_iff n).mpr ⟨hn, hj⟩) with rfl | hnrest
    · exact absurd hjm (Nat.lt_irrefl _)
    · exact absurd hjm (Nat.lt_asymm ((List.pairwise_cons.mp hsorted).1 n hnrest))

/-- A pass that stays is a run of the other compilation too. -/
theorem mem_runs_of_stays (h : p ∈ (ofEntries c entries).passes) (hs : p.Stays c entries c' entries') :
    stretch p.firstIndex p.lastIndex (members c' entries') ∈ runs (members c' entries') := by
  obtain ⟨m, rest, hm, hfirst, hrest⟩ := exists_first_of_mem_passes h
  have hmem : m ∈ p.members := hm ▸ List.mem_cons_self
  have hkept : m ∈ stretch p.firstIndex p.lastIndex (members c entries) := members_eq_stretch h ▸ hmem
  obtain ⟨hmember, hspan⟩ := List.mem_filter.mp hkept
  have hms := eq_append_stretch (pairwise_index_members c' entries') (Nat.le_trans (of_decide_eq_true hspan).1
    (of_decide_eq_true hspan).2)
  have hplaces := map_place_stays h hs
  generalize stretch p.firstIndex p.lastIndex (members c' entries') = mid at hms hplaces
  rw [hm] at hplaces
  obtain ⟨n, others, rfl, hn, hothers⟩ := List.map_eq_cons_iff.mp hplaces
  rw [hms]
  refine mem_runs_of_append (List.cons_ne_nil _ _) (fun x hx => ?_) ?_ fun x hx => breaksPass_behind hs.stop hx
  · have hplace : x.place ∈ rest.map Member.place := hothers ▸ List.mem_map_of_mem hx
    obtain ⟨y, hy, hyx⟩ := List.mem_map.mp hplace
    rw [← show y.effect = x.effect from (Prod.mk.inj hyx).2]
    exact hrest y hy
  · rcases hs.start with ⟨effect, heffect, hbreaks⟩ | hnone
    · refine .inr fun x hx => ?_
      obtain rfl := Option.some.inj hx
      have hat := effectAt?_of_mem hmember
      rw [← hfirst, heffect] at hat
      rw [show n.effect = m.effect from (Prod.mk.inj hn).2, ← Option.some.inj hat]
      exact hbreaks
    · exact .inl (before_eq_nil hnone)

/-- A pass that stays has the same text in the other compilation. -/
theorem exists_pass_of_stays (h : p ∈ (ofEntries c entries).passes) (hs : p.Stays c entries c' entries') :
    ∃ q ∈ (ofEntries c' entries').passes, q.members.map Member.place = p.members.map Member.place ∧
      Program.ofPass q = Program.ofPass p := by
  have hplaces := map_place_stays h hs
  refine ⟨Pass.ofMembers c' (stretch p.firstIndex p.lastIndex (members c' entries')),
    List.mem_map_of_mem (mem_runs_of_stays h hs), hplaces, Program.ofPass_congr hplaces ?_⟩
  rw [functions_of_mem_passes h, ← Pass.functionsOf_eq]
  exact functionsOf_stays hs hplaces

/-- A sweep that generates everything as it goes makes the passes. What a pass declares and its blocks of code are those
    of its own members in their order, and its functions are those that they name and the catalog has, each once and in
    the order of first mention, whatever other passes have. A pass that stays where it is keeps its text. -/
theorem text_local (c : Catalog) (entries : List Entry) :
    let passes := (ofEntries c entries).passes
    sweep c entries = passes.map OpenPass.ofPass ∧
    ∀ p ∈ passes,
      let mentions := p.members.flatMap (·.effect.functions)
      ((∀ m ∈ p.members, (m.effect.uniforms.toList.map (·.1)).Pairwise (· < ·)) ∧
        p.declarations = p.members.flatMap (fun m => m.effect.uniforms.toList.map fun u => u.2.declaration m.index) ∧
        p.uvCode = String.join (p.members.map fun m => (m.effect.uvCode.map m.block).getD "") ∧
        p.colorCode = String.join (p.members.map fun m => m.block m.effect.code)) ∧
      ((p.functions.map (·.name)).Nodup ∧
        (∀ f, f ∈ p.functions ↔ f.name ∈ mentions ∧ c.function? f.name = some f.body) ∧
        p.functions.Pairwise (fun f g => mentions.idxOf f.name < mentions.idxOf g.name) ∧
        ∀ name ∈ mentions, (c.function? name).isSome → (p.functions.map (·.name)).count name = 1) ∧
      ∀ (c' : Catalog) (entries' : List Entry), p.Stays c entries c' entries' →
        ∃ q ∈ (ofEntries c' entries').passes, q.members.map Member.place = p.members.map Member.place ∧
          Program.ofPass q = Program.ofPass p := by
  intro passes
  refine ⟨sweep_eq c entries, fun p hp => ?_⟩
  intro mentions
  have hfunctions : p.functions = Pass.functionsNamed c mentions := functions_of_mem_passes hp
  have hnodup : (p.functions.map (·.name)).Nodup := by
    rw [hfunctions]
    exact Pass.nodup_functionsNamed c mentions
  have hmem : ∀ f, f ∈ p.functions ↔ f.name ∈ mentions ∧ c.function? f.name = some f.body := by
    rw [hfunctions]
    exact fun f => Pass.mem_functionsNamed
  refine ⟨⟨fun m _ => ?_, ?_, rfl, rfl⟩, ⟨hnodup, hmem, ?_, fun name hname hsome => ?_⟩,
    fun c' entries' hs => exists_pass_of_stays hp hs⟩
  · exact List.pairwise_map.mpr m.effect.uniforms.sorted
  · unfold Pass.declarations Member.declarations KeyMap.values
    simp only [List.map_map]
    rfl
  · rw [hfunctions]
    exact Pass.pairwise_functionsNamed c mentions
  · obtain ⟨body, hbody⟩ := Option.isSome_iff_exists.mp hsome
    exact List.count_eq_one_of_mem hnodup (List.mem_map.mpr ⟨⟨name, body⟩, (hmem _).mpr ⟨hname, hbody⟩, rfl⟩)

/-- Of three passes of one effect the middle one stays when the first entry becomes unknown and the last one goes; it
    has the function of the effect although the pass before it has it too. -/
theorem text_local_rippling :
    let c := (Catalog.rippling ⟨0⟩).registerFunction "wave" "float wave(float x) \x7b return sin(x); \x7d"
    let entries : List Entry := [⟨⟨1⟩, "ripple", .empty⟩, ⟨⟨2⟩, "ripple", .empty⟩, ⟨⟨3⟩, "ripple", .empty⟩]
    let entries' : List Entry := [⟨⟨1⟩, "fog", .empty⟩, ⟨⟨2⟩, "ripple", .empty⟩]
    ∃ p, (ofEntries c entries).passes[1]? = some p ∧ p.Stays c entries c entries' ∧
      (p.functions.map (·.name)).count "wave" = 1 ∧
      ∃ q ∈ (ofEntries c entries').passes, Program.ofPass q = Program.ofPass p := by
  intro c entries entries'
  obtain ⟨p, hp, hfirst, hlast, hnames⟩ : ∃ p, (ofEntries c entries).passes[1]? = some p ∧ p.firstIndex = 1 ∧
      p.lastIndex = 1 ∧ "wave" ∈ p.members.flatMap (·.effect.functions) := ⟨_, rfl, rfl, rfl, List.mem_cons_self⟩
  have stays : p.Stays c entries c entries' := by
    have known : c.effect? "ripple" = some (Effect.ripple.named "ripple") := by
      show (KeyMap.empty.insert "ripple" _).get? "ripple" = _
      rw [KeyMap.get?_insert, if_pos rfl]
    refine ⟨fun i hi hi' => ?_, .inl ⟨Effect.ripple.named "ripple", ?_, rfl⟩, fun i effect hi heffect _ => ?_, fun _ _ _ _ => rfl⟩
    · obtain rfl : i = 1 := by omega
      show c.effect? "ripple" = c.effect? "ripple"
      rfl
    · rw [hfirst]
      exact known
    · have hnone : entries'[i]? = none := List.getElem?_eq_none (by show 2 ≤ i; omega)
      unfold effectAt? at heffect
      rw [hnone] at heffect
      cases heffect
  obtain ⟨-, ⟨-, -, -, honce⟩, hstays⟩ := (text_local c entries).2 p (List.mem_of_getElem? hp)
  obtain ⟨q, hq, -, htext⟩ := hstays c entries' stays
  exact ⟨p, hp, stays, honce "wave" hnames rfl, q, hq, htext⟩

end Compilation
end FxStack
