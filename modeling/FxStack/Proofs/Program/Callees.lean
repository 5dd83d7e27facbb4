import FxStack.Program.Text
import FxStack.Proofs.Pass.Mention
import FxStack.Proofs.Pass.Partition

/-! Shared functions that call each other. If every effect names a function behind those that it calls, so does every
    pass, however effects are merged in it: what is kept of a function is its first mention, and before that stands
    what the same effect has named before it. Main statement: `Compilation.callees_precede`. -/

namespace FxStack

/-! ### Names in order -/

/-- Each mention of a name is preceded by those that it calls, as far as the catalog has them. -/
def CalleesFirst (c : Catalog) (calls : String → String → Prop) (names : List String) : Prop :=
  ∀ before g after, names = before ++ g :: after → ∀ f, calls g f → (c.function? f).isSome → f ∈ before

namespace CalleesFirst
variable {c : Catalog} {calls : String → String → Prop}

theorem nil : CalleesFirst c calls [] := fun before g after h => by simp at h

theorem concat {names : List String} (h : CalleesFirst c calls names) {g : String}
    (hg : ∀ f, calls g f → (c.function? f).isSome → f ∈ names) : CalleesFirst c calls (names ++ [g]) := by
  intro before g' after heq f hcall hsome
  rcases List.eq_nil_or_concat' after with rfl | ⟨after, last, rfl⟩
  · obtain ⟨rfl, hlast⟩ := List.append_inj' heq rfl
    obtain ⟨rfl, -⟩ := List.cons.inj hlast
    exact hg f hcall hsome
  · rw [← List.cons_append, ← List.append_assoc] at heq
    exact h before g' after (List.append_inj' heq rfl).1 f hcall hsome

/-- What precedes a mention in its own list precedes it in any list that this is a part of. -/
theorem append {names more : List String} (h : CalleesFirst c calls names) (hmore : CalleesFirst c calls more) :
    CalleesFirst c calls (names ++ more) := by
  intro before g after heq f hcall hsome
  rcases List.append_eq_append_iff.mp heq with ⟨between, rfl, hrest⟩ | ⟨between, rfl, hrest⟩
  · exact List.mem_append_right _ (hmore between g after hrest f hcall hsome)
  · cases between with
    | nil => exact absurd (hmore [] g after hrest.symm f hcall hsome) List.not_mem_nil
    | cons g' rest =>
      obtain ⟨rfl, rfl⟩ := List.cons.inj hrest
      exact h before g rest rfl f hcall hsome

theorem flatMap {α : Type} {names : α → List String} {xs : List α} (h : ∀ x ∈ xs, CalleesFirst c calls (names x)) :
    CalleesFirst c calls (xs.flatMap names) := by
  induction xs with
  | nil => exact nil
  | cons x xs ih =>
    rw [List.flatMap_cons]
    exact (h x List.mem_cons_self).append (ih fun y hy => h y (List.mem_cons_of_mem _ hy))

/-- Keeping first mentions only moves nothing behind what calls it. -/
theorem functionsNamed {names : List String} (h : CalleesFirst c calls names) {before after : List SharedFunction}
    {g : SharedFunction} (heq : Pass.functionsNamed c names = before ++ g :: after) {f body : String}
    (hcall : calls g.name f) (hbody : c.function? f = some body) : ⟨f, body⟩ ∈ before := by
  have hg : g ∈ Pass.functionsNamed c names := heq ▸ List.mem_append_right _ List.mem_cons_self
  obtain ⟨earlier, later, rfl, hfirst⟩ := List.eq_append_cons_of_mem (Pass.mem_functionsNamed.mp hg).1
  have hf : f ∈ earlier := h earlier g.name later rfl f hcall (by rw [hbody]; rfl)
  have hmem : SharedFunction.mk f body ∈ before ++ g :: after :=
    heq ▸ Pass.mem_functionsNamed.mpr ⟨List.mem_append_left _ hf, hbody⟩
  rcases List.mem_append.mp hmem with hbefore | hbehind
  · exact hbefore
  rcases List.mem_cons.mp hbehind with rfl | hafter
  · exact absurd hf hfirst
  -- Behind `g` there are only functions that are mentioned later.
  have hsorted := Pass.pairwise_functionsNamed c (earlier ++ g.name :: later)
  rw [heq] at hsorted
  have hlt := (List.pairwise_cons.mp (List.pairwise_append.mp hsorted).2.1).1 _ hafter
  rw [List.idxOf_append_of_notMem hfirst, List.idxOf_append_of_mem hf] at hlt
  have := List.idxOf_lt_length_iff.mpr hf
  omega

end CalleesFirst

/-! ### Texts of programs -/

/-- Of two functions of a pass the text of the one before stands before the text of the other. -/
theorem Program.ofPass_eq {p : Pass} {early late after : List SharedFunction} {f g : SharedFunction}
    (h : p.functions = early ++ f :: late ++ g :: after) :
    ofPass p = (preamble ++ declarationText p.declarations ++ String.join (early.map functionText)) ++ functionText f ++
      String.join (late.map functionText) ++ functionText g ++
      (String.join (after.map functionText) ++ mainStart ++ indent p.uvCode ++ sampleLine ++ indent p.colorCode ++
        mainEnd) := by
  unfold ofPass
  rw [h]
  simp only [List.map_append, List.map_cons, String.join_append, String.join_cons, String.append_assoc]

/-! ### Passes -/

namespace Compilation

/-- If each effect of a catalog names those functions first that a function calls, then in each pass of any entries
    every function stands behind those that it calls, in the list of functions and in the text of the program. -/
theorem callees_precede {c : Catalog} {calls : String → String → Prop}
    (h : ∀ name effect, c.effect? name = some effect → CalleesFirst c calls effect.functions) (entries : List Entry)
    {p : Pass} (hp : p ∈ (ofEntries c entries).passes) {before after : List SharedFunction} {g : SharedFunction}
    (heq : p.functions = before ++ g :: after) {f body : String} (hcall : calls g.name f)
    (hbody : c.function? f = some body) :
    ∃ early late, before = early ++ ⟨f, body⟩ :: late ∧
      Program.ofPass p =
        (Program.preamble ++ Program.declarationText p.declarations ++ String.join (early.map Program.functionText)) ++
          Program.functionText ⟨f, body⟩ ++ String.join (late.map Program.functionText) ++ Program.functionText g ++
          (String.join (after.map Program.functionText) ++ Program.mainStart ++ Program.indent p.uvCode ++
            Program.sampleLine ++ Program.indent p.colorCode ++ Program.mainEnd) := by
  have ordered : CalleesFirst c calls (p.members.flatMap (·.effect.functions)) := by
    refine .flatMap fun m hm => ?_
    have hmember : m ∈ members c entries := by
      rw [← (isCut_runs (members c entries)).1]
      exact List.mem_flatten_of_mem (mem_runs_of_mem_passes hp) hm
    obtain ⟨e, -, -, heffect⟩ := mem_members.mp hmember
    exact h e.name m.effect heffect
  have hnamed := (functions_of_mem_passes hp).symm.trans heq
  obtain ⟨early, late, rfl⟩ := List.append_of_mem (ordered.functionsNamed hnamed hcall hbody)
  exact ⟨early, late, rfl, Program.ofPass_eq heq⟩

end Compilation

/-- Two effects that name the same functions in different orders, of which one calls another. -/
def Catalog.cloudy : Catalog :=
  { Catalog.empty ⟨0⟩ with
    effects := .ofList [
      ("clouds", { Effect.ripple with functions := ["hash", "noise", "tint"], breaksPass := false }),
      ("grain", { Effect.ripple with functions := ["tint", "hash", "noise"], breaksPass := false })]
    functions := .ofList [
      ("hash", "float hash(vec2 p) \x7b return fract(p.x * p.y); \x7d"),
      ("noise", "float noise(vec2 p) \x7b return hash(floor(p)); \x7d"),
      ("tint", "vec3 tint(vec3 c) \x7b return c * c; \x7d")] }

/-- Whichever effect comes first, the callee does. -/
theorem Compilation.callees_precede_cloudy :
    let calls := fun g f => g = "noise" ∧ f = "hash"
    (∀ name effect, Catalog.cloudy.effect? name = some effect → CalleesFirst .cloudy calls effect.functions) ∧
      ∀ names ∈ [["grain", "clouds"], ["clouds", "grain"]],
        ∃ p ∈ (ofEntries .cloudy (names.map fun name => ⟨⟨1⟩, name, .empty⟩)).passes, ∃ before after noise,
          p.functions = before ++ ⟨"noise", noise⟩ :: after ∧
            ∃ early late hash, before = early ++ ⟨"hash", hash⟩ :: late := by
  intro calls
  have silent : ∀ {names : List String} {g : String}, g ≠ "noise" → ∀ f, calls g f →
      (Catalog.cloudy.function? f).isSome → f ∈ names := fun hg _ hcall _ => absurd hcall.1 hg
  have noisy : ∀ {names : List String}, "hash" ∈ names → ∀ f, calls "noise" f →
      (Catalog.cloudy.function? f).isSome → f ∈ names := fun hhash _ hcall _ => hcall.2 ▸ hhash
  have clouds : CalleesFirst .cloudy calls ["hash", "noise", "tint"] :=
    ((CalleesFirst.nil.concat (silent (by decide))).concat (noisy (by decide))).concat (silent (by decide))
  have grain : CalleesFirst .cloudy calls ["tint", "hash", "noise"] :=
    ((CalleesFirst.nil.concat (silent (by decide))).concat (silent (by decide))).concat (noisy (by decide))
  have ordered : ∀ name effect, Catalog.cloudy.effect? name = some effect →
      CalleesFirst .cloudy calls effect.functions := by
    intro name effect h
    rcases List.mem_cons.mp (KeyMap.mem_toList_of_get? h) with heq | hmem
    · obtain ⟨-, rfl⟩ := Prod.mk.inj heq
      exact clouds
    · obtain ⟨-, rfl⟩ := Prod.mk.inj (List.mem_singleton.mp hmem)
      exact grain
  have precedes : ∀ {entries : List Entry} {p : Pass} {before after : List SharedFunction} {body : String},
      p ∈ (ofEntries .cloudy entries).passes → p.functions = before ++ ⟨"noise", body⟩ :: after →
        ∃ early late body', before = early ++ ⟨"hash", body'⟩ :: late := by
    intro entries p before after body hp heq
    obtain ⟨early, late, hbefore, -⟩ := callees_precede ordered entries hp heq ⟨rfl, rfl⟩ rfl
    exact ⟨early, late, _, hbefore⟩
  refine ⟨ordered, fun names hnames => ?_⟩
  rcases List.mem_pair.mp hnames with rfl | rfl
  · obtain ⟨p, hp, tint, hash, noise, heq⟩ :
        ∃ p ∈ (ofEntries .cloudy [⟨⟨1⟩, "grain", .empty⟩, ⟨⟨1⟩, "clouds", .empty⟩]).passes, ∃ tint hash noise,
          p.functions = [⟨"tint", tint⟩, ⟨"hash", hash⟩] ++ ⟨"noise", noise⟩ :: [] :=
      ⟨_, List.mem_cons_self, _, _, _, rfl⟩
    exact ⟨p, hp, _, _, _, heq, precedes hp heq⟩
  · obtain ⟨p, hp, hash, noise, tint, heq⟩ :
        ∃ p ∈ (ofEntries .cloudy [⟨⟨1⟩, "clouds", .empty⟩, ⟨⟨1⟩, "grain", .empty⟩]).passes, ∃ hash noise tint,
          p.functions = [⟨"hash", hash⟩] ++ ⟨"noise", noise⟩ :: [⟨"tint", tint⟩] :=
      ⟨_, List.mem_cons_self, _, _, _, rfl⟩
    exact ⟨p, hp, _, _, _, heq, precedes hp heq⟩

end FxStack
