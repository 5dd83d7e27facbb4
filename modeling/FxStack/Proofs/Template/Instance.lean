import FxStack.Proofs.Template.Grammar

/-! The instances of templates. A template with a place for the position has another instance at each position, and one
    without has the same at all. Source forms that are read one by one are read as one when they are put together, also
    where a dollar sign meets another, and its instances are put together from theirs. Main statement:
    `Template.parse_instances`. -/

namespace FxStack.Template

/-! ### Positions -/

theorem position_mem_itemsOfSegment {s : Segment} : Item.position ∈ itemsOfSegment s ↔ s = .position := by
  cases s <;> simp [itemsOfSegment]

theorem position_mem_items {t : Template} : Item.position ∈ t.items ↔ t.isInstanced = true := by
  simp only [items, isInstanced, List.mem_flatMap, position_mem_itemsOfSegment, List.any_eq_true, decide_eq_true_eq]

theorem instantiate_eq_name (t : Template) (i : Nat) : t.instantiate i = name i t.items :=
  String.toList_injective (by rw [toList_instantiate, name, String.toList_ofList])

theorem instantiate_injective {t : Template} (h : t.isInstanced = true) : Function.Injective t.instantiate := by
  intro i j hij
  rw [instantiate_eq_name, instantiate_eq_name] at hij
  exact name_injective (position_mem_items.mpr h) hij

theorem instantiate_congr {t : Template} (h : t.isInstanced = false) (i j : Nat) : t.instantiate i = t.instantiate j := by
  have hitems : Item.position ∉ t.items := fun hmem => by
    rw [position_mem_items.mp hmem] at h
    cases h
  rw [instantiate_eq_name, instantiate_eq_name, name, name, flatMap_spell_congr hitems i j]

/-! ### Source forms behind one another -/

theorem parse_eq_ok_iff {s : String} {t : Template} : parse s = .ok t ↔ ∃ items, Spells items s.toList ∧ ofItems items = t := by
  simp only [parse, Json.map_eq_ok, readItems_eq_ok_iff]

theorem instantiate_ofItems_append (xs ys : List Item) (i : Nat) :
    (ofItems (xs ++ ys)).instantiate i = (ofItems xs).instantiate i ++ (ofItems ys).instantiate i := by
  rw [instantiate_ofItems, instantiate_ofItems, instantiate_ofItems, List.flatMap_append, String.ofList_append]

/-- What two source forms spell, they spell one after the other. -/
theorem parse_append {s s' : String} {t u : Template} (ht : parse s = .ok t) (hu : parse s' = .ok u) :
    ∃ v, parse (s ++ s') = .ok v ∧ ∀ i, v.instantiate i = t.instantiate i ++ u.instantiate i := by
  obtain ⟨xs, hxs, rfl⟩ := parse_eq_ok_iff.mp ht
  obtain ⟨ys, hys, rfl⟩ := parse_eq_ok_iff.mp hu
  have hspells : Spells (xs ++ ys) (s ++ s').toList := by
    rw [String.toList_append]
    exact hxs.append hys
  exact ⟨_, parse_eq_ok_iff.mpr ⟨_, hspells, rfl⟩, instantiate_ofItems_append xs ys⟩

/-! ### Instances -/

/-- A template that has been parsed tells positions apart if it has a place for one, and else knows none. Behind its source
    form every other one may stand, and the instances stand behind one another too. -/
theorem parse_instances {s : String} {t : Template} (h : parse s = .ok t) :
    (t.isInstanced = true → ∀ i j, i ≠ j → t.instantiate i ≠ t.instantiate j) ∧
    (t.isInstanced = false → ∀ i j, t.instantiate i = t.instantiate j) ∧
    ∀ s' u, parse s' = .ok u → ∃ v, parse (s ++ s') = .ok v ∧ ∀ i, v.instantiate i = t.instantiate i ++ u.instantiate i := by
  refine ⟨?_, instantiate_congr, ?_⟩
  · intro ht i j hij heq
    exact hij (instantiate_injective ht heq)
  · intro s' u hu
    exact parse_append h hu

/-- Digits stand before and behind the place of the position, and a dollar sign before the source form that comes next. -/
theorem parse_instances_seam :
    ∃ t, parse "1$\x7bid\x7d1$$" = .ok t ∧ t.isInstanced = true ∧ t.instantiate 1 ≠ t.instantiate 11 ∧
      ∃ u, parse "$\x7bid\x7d" = .ok u ∧ ∃ v, parse ("1$\x7bid\x7d1$$" ++ "$\x7bid\x7d") = .ok v ∧
        v.instantiate 12 = t.instantiate 12 ++ u.instantiate 12 := by
  have ht : parse "1$\x7bid\x7d1$$" = .ok ⟨[.text ['1'], .position, .text ['1', '$']]⟩ := by decide +kernel
  have hu : parse "$\x7bid\x7d" = .ok ⟨[.position]⟩ := by decide +kernel
  obtain ⟨happart, -, hbehind⟩ := parse_instances ht
  obtain ⟨v, hv, hinstances⟩ := hbehind _ _ hu
  exact ⟨_, ht, rfl, happart rfl 1 11 (by decide), _, hu, v, hv, hinstances 12⟩

end FxStack.Template
