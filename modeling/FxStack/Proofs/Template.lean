import FxStack.Proofs.Json.Decoding

/-! The source form of a template. It writes the items of the template one after the other, and what is written is
    read item by item, so a template that has been parsed is parsed again from its source form. Main statement:
    `Template.parse_source`. -/

namespace FxStack.Template

def sourceOfItem : Item → List Char
  | .char c => sourceChar c
  | .position => sourceOfSegment .position

theorem flatMap_consChar (c : Char) (ss : List Segment) :
    (consChar c ss).flatMap sourceOfSegment = sourceChar c ++ ss.flatMap sourceOfSegment := by
  unfold consChar
  split <;> simp [sourceOfSegment]

/-- Characters of one text are written alike as characters on their own. -/
theorem source_ofItems (items : List Item) : (ofItems items).source = String.ofList (items.flatMap sourceOfItem) := by
  unfold source ofItems
  congr 1
  induction items with
  | nil => rfl
  | cons item items ih =>
    rw [List.foldr_cons, List.flatMap_cons, ← ih]
    cases item with
    | char c => exact flatMap_consChar c _
    | position => rfl

/-- Every item is read from what it writes, wherever it stands. -/
theorem readItems_flatMap (items : List Item) : ∀ offset : Nat,
    readItems offset none (items.flatMap sourceOfItem) = .ok items := by
  induction items with
  | nil => exact fun _ => by simp [readItems]
  | cons item items ih =>
    intro offset
    rw [List.flatMap_cons]
    cases item with
    | position =>
      have hname : Text.trim ['i', 'd'] = parameter := by decide
      simp [sourceOfItem, sourceOfSegment, parameter, readItems, hname, ih, Except.map]
    | char c =>
      by_cases hc : c = '$'
      · simp [sourceOfItem, sourceChar, hc, readItems, ih, Except.map]
      · simp only [sourceOfItem, sourceChar, if_neg hc, List.singleton_append]
        rw [readItems.eq_def]
        simp [hc, ih, Except.map]

theorem parse_source_ofItems (items : List Item) : parse (ofItems items).source = .ok (ofItems items) := by
  unfold parse
  rw [source_ofItems, String.toList_ofList, readItems_flatMap]
  rfl

/-- A template that comes from a source form is parsed again from its own. -/
theorem parse_source {s : String} {t : Template} (h : parse s = .ok t) : parse t.source = .ok t := by
  obtain ⟨items, -, rfl⟩ := Json.map_eq_ok.mp h
  exact parse_source_ofItems items

end FxStack.Template
