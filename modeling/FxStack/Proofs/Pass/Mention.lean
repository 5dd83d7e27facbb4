import FxStack.Pass
import Mathlib.Data.List.Basic
import Mathlib.Data.List.Induction

/-! The shared functions of a pass: those that its members name and the catalog has, each once, in the order in which
    they are named first. -/

namespace FxStack

/-! ### First mentions -/

theorem eraseDups_concat (names : List String) (name : String) :
    (names ++ [name]).eraseDups = names.eraseDups ++ if name ∈ names then [] else [name] := by
  rw [List.eraseDups_append]
  by_cases h : name ∈ names <;> simp [List.removeAll, List.eraseDups_cons, h]

/-- What is kept stands in the order in which it comes first. -/
theorem pairwise_idxOf_eraseDups (names : List String) :
    names.eraseDups.Pairwise fun a b => names.idxOf a < names.idxOf b := by
  induction names using List.reverseRecOn with
  | nil => exact List.Pairwise.nil
  | append_singleton names name ih =>
    have earlier : ∀ a ∈ names.eraseDups, (names ++ [name]).idxOf a = names.idxOf a := fun a ha =>
      List.idxOf_append_of_mem (List.mem_eraseDups.mp ha)
    have kept : names.eraseDups.Pairwise fun a b => (names ++ [name]).idxOf a < (names ++ [name]).idxOf b :=
      ih.imp_of_mem fun ha hb hlt => by rwa [earlier _ ha, earlier _ hb]
    rw [eraseDups_concat]
    split
    · rwa [List.append_nil]
    · next h =>
      refine List.pairwise_append.mpr ⟨kept, List.pairwise_singleton _ _, fun a ha b hb => ?_⟩
      obtain rfl := List.mem_singleton.mp hb
      rw [earlier a ha, List.idxOf_append_of_notMem h]
      exact Nat.lt_of_lt_of_le (List.idxOf_lt_length_iff.mpr (List.mem_eraseDups.mp ha)) (Nat.le_add_right _ _)

namespace Pass
variable {c : Catalog} {names : List String}

/-- The functions of a catalog with the given names, each at its first mention. -/
def functionsNamed (c : Catalog) (names : List String) : List SharedFunction :=
  names.eraseDups.filterMap fun name => (c.function? name).map (SharedFunction.mk name)

theorem functionsOf_eq (c : Catalog) (ms : List Member) :
    functionsOf c ms = functionsNamed c (ms.flatMap (·.effect.functions)) := rfl

theorem mem_functionsNamed {f : SharedFunction} :
    f ∈ functionsNamed c names ↔ f.name ∈ names ∧ c.function? f.name = some f.body := by
  unfold functionsNamed
  simp only [List.mem_filterMap, List.mem_eraseDups, Option.map_eq_some_iff]
  constructor
  · rintro ⟨name, hname, body, hbody, rfl⟩
    exact ⟨hname, hbody⟩
  · rintro ⟨hname, hbody⟩
    exact ⟨f.name, hname, f.body, hbody, rfl⟩

theorem map_name_functionsNamed (c : Catalog) (names : List String) :
    (functionsNamed c names).map (·.name) = names.eraseDups.filter fun name => (c.function? name).isSome := by
  unfold functionsNamed
  induction names.eraseDups with
  | nil => rfl
  | cons name rest ih => cases h : c.function? name <;> simp [h, ih]

/-- The functions stand in the order in which their names come first. -/
theorem pairwise_functionsNamed (c : Catalog) (names : List String) :
    (functionsNamed c names).Pairwise fun f g => names.idxOf f.name < names.idxOf g.name := by
  rw [← List.pairwise_map (f := SharedFunction.name) (R := fun a b => names.idxOf a < names.idxOf b),
    map_name_functionsNamed]
  exact (pairwise_idxOf_eraseDups names).filter _

theorem nodup_functionsNamed (c : Catalog) (names : List String) : ((functionsNamed c names).map (·.name)).Nodup := by
  refine List.pairwise_map.mpr ((pairwise_functionsNamed c names).imp fun {f g} hlt heq => ?_)
  rw [heq] at hlt
  exact Nat.lt_irrefl _ hlt

theorem functionsNamed_concat (c : Catalog) (names : List String) (name : String) :
    functionsNamed c (names ++ [name]) =
      functionsNamed c names ++
        if name ∈ names then [] else ((c.function? name).map (SharedFunction.mk name)).toList := by
  unfold functionsNamed
  rw [eraseDups_concat, List.filterMap_append]
  split
  · rfl
  · cases h : c.function? name <;> simp [h]

end Pass

/-- A pass of a compilation has the functions that its own members name. -/
theorem Compilation.functions_of_mem_passes {c : Catalog} {entries : List Entry} {p : Pass}
    (h : p ∈ (ofEntries c entries).passes) :
    p.functions = Pass.functionsNamed c (p.members.flatMap (·.effect.functions)) := by
  obtain ⟨run, -, rfl⟩ := List.mem_map.mp h
  rfl

end FxStack
