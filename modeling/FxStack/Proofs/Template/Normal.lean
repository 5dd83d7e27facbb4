import FxStack.Proofs.Template
import FxStack.Proofs.Template.Symbols
import Mathlib.Data.List.Chain

/-! Templates in normal form: texts are not empty and never meet. Items are collected into such a template and no other,
    so it is known by what it says, and since a position is written as another character at 0 than at 1, it is known by
    two of its instances. Main statement: `Template.parse_canonical`. -/

namespace FxStack.Template

/-! ### Normal form -/

/-- No text is empty, and of two neighbours one is the place of a position. -/
structure Normal (t : Template) : Prop where
  filled : .text [] ∉ t.segments
  apart : t.segments.IsChain fun a b => a = .position ∨ b = .position

theorem ofItems_char (c : Char) (items : List Item) :
    ofItems (.char c :: items) = ⟨consChar c (ofItems items).segments⟩ := rfl

theorem ofItems_position (items : List Item) :
    ofItems (.position :: items) = ⟨.position :: (ofItems items).segments⟩ := rfl

theorem Normal.tail {s : Segment} {ss : List Segment} (h : Normal ⟨s :: ss⟩) : Normal ⟨ss⟩ :=
  ⟨fun hs => h.filled (List.mem_cons_of_mem s hs), h.apart.tail⟩

theorem Normal.consPosition {ss : List Segment} (h : Normal ⟨ss⟩) : Normal ⟨.position :: ss⟩ :=
  ⟨fun hs => h.filled ((List.mem_cons.mp hs).resolve_left nofun), List.isChain_cons.mpr ⟨fun _ _ => .inl rfl, h.apart⟩⟩

/-- A character lengthens the text in front of which it comes, and else is a text of its own. -/
theorem Normal.consChar (c : Char) {ss : List Segment} (h : Normal ⟨ss⟩) : Normal ⟨consChar c ss⟩ := by
  cases ss with
  | nil => exact ⟨by simp [Template.consChar], by simp [Template.consChar]⟩
  | cons s ss =>
    cases s with
    | position =>
      exact ⟨fun hs => h.filled ((List.mem_cons.mp hs).resolve_left nofun),
        List.isChain_cons.mpr ⟨fun y hy => .inr (Option.some.inj hy).symm, h.apart⟩⟩
    | text cs =>
      refine ⟨fun hs => h.filled (List.mem_cons_of_mem _ ((List.mem_cons.mp hs).resolve_left nofun)), ?_⟩
      obtain ⟨hnext, hrest⟩ := List.isChain_cons.mp h.apart
      exact List.isChain_cons.mpr ⟨fun y hy => .inr ((hnext y hy).resolve_left nofun), hrest⟩

theorem normal_ofItems (items : List Item) : (ofItems items).Normal := by
  induction items with
  | nil => exact ⟨List.not_mem_nil, .nil⟩
  | cons x items ih =>
    cases x with
    | char c => exact ih.consChar c
    | position => exact ih.consPosition

theorem normal_of_parse {s : String} {t : Template} (h : parse s = .ok t) : t.Normal := by
  obtain ⟨items, -, rfl⟩ := Json.map_eq_ok.mp h
  exact normal_ofItems items

/-! ### The items of a normal template -/

/-- The characters of a text are one text again if none follows it. -/
theorem foldr_consChar {c : Char} {cs : List Char} {ss : List Segment}
    (h : ∀ s ∈ ss.head?, s = .position) : (c :: cs).foldr consChar ss = .text (c :: cs) :: ss := by
  induction cs generalizing c with
  | nil =>
    cases ss with
    | nil => rfl
    | cons s ss =>
      obtain rfl := h s rfl
      rfl
  | cons d cs ih =>
    rw [List.foldr_cons, ih]
    rfl

theorem ofItems_map_char (cs : List Char) (items : List Item) :
    ofItems (cs.map .char ++ items) = ⟨cs.foldr consChar (ofItems items).segments⟩ := by
  induction cs with
  | nil => rfl
  | cons c cs ih => rw [List.map_cons, List.cons_append, ofItems_char, ih, List.foldr_cons]

theorem Normal.ofItems_items {t : Template} (h : t.Normal) : ofItems t.items = t := by
  obtain ⟨ss⟩ := t
  induction ss with
  | nil => rfl
  | cons s ss ih =>
    have hrest : ofItems (ss.flatMap itemsOfSegment) = ⟨ss⟩ := ih h.tail
    cases s with
    | position =>
      show ofItems (.position :: ss.flatMap itemsOfSegment) = _
      rw [ofItems_position, hrest]
    | text cs =>
      show ofItems (cs.map .char ++ ss.flatMap itemsOfSegment) = _
      rw [ofItems_map_char, hrest]
      -- An empty text would be lost, and a text behind this one would be joined to it.
      cases cs with
      | nil => exact absurd List.mem_cons_self h.filled
      | cons c cs =>
        rw [foldr_consChar fun s hs => ((List.isChain_cons.mp h.apart).1 s hs).resolve_left nofun]

/-! ### Instances -/

/-- At 0 and 1 every item is one character. -/
theorem exists_spell_eq (x : Item) {i : Nat} (hi : i < 2) : ∃ c, spell i x = [c] := by
  cases x with
  | char c => exact ⟨c, rfl⟩
  | position => exact ⟨Nat.digitChar i, Nat.toDigits_of_lt_base (by omega)⟩

/-- A character is the same one at 0 and at 1, and a position is not. -/
theorem eq_of_spell {x y : Item} (h : ∀ i < 2, spell i x = spell i y) : x = y := by
  have h0 : spell 0 x = spell 0 y := h 0 (by decide)
  have h1 : spell 1 x = spell 1 y := h 1 (by decide)
  cases x with
  | char c =>
    cases y with
    | char d => exact congrArg Item.char (List.singleton_inj.mp h0)
    | position => exact absurd (h0.symm.trans h1) (by decide)
  | position =>
    cases y with
    | char d => exact absurd (h0.trans h1.symm) (by decide)
    | position => rfl

theorem eq_of_flatMap_spell {xs : List Item} : ∀ {ys : List Item},
    (∀ i < 2, xs.flatMap (spell i) = ys.flatMap (spell i)) → xs = ys := by
  induction xs with
  | nil =>
    intro ys h
    cases ys with
    | nil => rfl
    | cons y ys =>
      obtain ⟨c, hc⟩ := exists_spell_eq y (i := 0) (by decide)
      simpa [hc] using h 0 (by decide)
  | cons x xs ih =>
    intro ys h
    cases ys with
    | nil =>
      obtain ⟨c, hc⟩ := exists_spell_eq x (i := 0) (by decide)
      simpa [hc] using h 0 (by decide)
    | cons y ys =>
      have parts : ∀ i < 2, spell i x = spell i y ∧ xs.flatMap (spell i) = ys.flatMap (spell i) := by
        intro i hi
        obtain ⟨c, hc⟩ := exists_spell_eq x hi
        obtain ⟨d, hd⟩ := exists_spell_eq y hi
        have hlists := h i hi
        rw [List.flatMap_cons, List.flatMap_cons, hc, hd] at hlists
        exact ⟨by rw [hc, hd, (List.cons.inj hlists).1], (List.cons.inj hlists).2⟩
      rw [eq_of_spell fun i hi => (parts i hi).1, ih fun i hi => (parts i hi).2]

theorem Normal.eq_of_instantiate {t u : Template} (ht : t.Normal) (hu : u.Normal)
    (h : ∀ i < 2, t.instantiate i = u.instantiate i) : t = u := by
  have hitems : t.items = u.items := eq_of_flatMap_spell fun i hi => by
    rw [← toList_instantiate, ← toList_instantiate, h i hi]
  rw [← ht.ofItems_items, hitems, hu.ofItems_items]

/-- A template that has been parsed is parsed again from its source form, is in normal form, and is the only one with
    its instances at positions 0 and 1 that is parsed from any source form. -/
theorem parse_canonical {s : String} {t : Template} (h : parse s = .ok t) :
    (parse t.source = .ok t ∧ (parse t.source).map source = .ok t.source ∧
      ∀ i, (parse t.source).map (·.instantiate i) = .ok (t.instantiate i)) ∧
    (.text [] ∉ t.segments ∧ t.segments.IsChain fun a b => a = .position ∨ b = .position) ∧
    ∀ s' u, parse s' = .ok u → (∀ i < 2, t.instantiate i = u.instantiate i) → t = u := by
  have again := parse_source h
  have normal := normal_of_parse h
  refine ⟨⟨again, by rw [again]; rfl, fun i => by rw [again]; rfl⟩, ⟨normal.filled, normal.apart⟩, ?_⟩
  intro s' u hu hagree
  exact normal.eq_of_instantiate (normal_of_parse hu) hagree

/-- A dollar sign before the place of a position, and after it a text that reads like such a place. -/
def dollars : Template := ⟨[.text ['$'], .position, .text ['$', '\x7b', 'i', 'd', '\x7d']]⟩

/-- Blanks around the name of the place are not written again, and a template parsed from that text is the same one. -/
theorem parse_canonical_dollars :
    parse "$$$\x7b id\t\x7d$$\x7bid\x7d" = .ok dollars ∧ dollars.source = "$$$\x7bid\x7d$$\x7bid\x7d" ∧
    parse dollars.source = .ok dollars ∧ (parse dollars.source).map (·.instantiate 12) = .ok "$12$\x7bid\x7d" ∧
    .text [] ∉ dollars.segments ∧
    ∃ u, parse "$$$\x7bid\x7d$$\x7bid\x7d" = .ok u ∧ (∀ i < 2, dollars.instantiate i = u.instantiate i) ∧
      dollars = u := by
  have h : parse "$$$\x7b id\t\x7d$$\x7bid\x7d" = .ok dollars := by decide +kernel
  have hsource : dollars.source = "$$$\x7bid\x7d$$\x7bid\x7d" := by decide +kernel
  have hinstance : dollars.instantiate 12 = "$12$\x7bid\x7d" := by decide +kernel
  have hcanonical := parse_canonical h
  have again := hcanonical.1.1
  refine ⟨h, hsource, again, by rw [hcanonical.1.2.2 12, hinstance], hcanonical.2.1.1, dollars, by rw [← hsource, again],
    fun _ _ => rfl, ?_⟩
  exact hcanonical.2.2 dollars.source dollars again fun _ _ => rfl

end FxStack.Template
