import FxStack.Program.ActiveUniforms
import FxStack.Proofs.Text.Runs
import FxStack.Proofs.Uniform.Name

/-! Names in code into which the position of an entry is written. Such a name comes from a symbol of the template, a
    run of name characters and places of the position, so it is known before any position is. One symbol never spells
    the same name at two positions, and neither do two symbols that end with the position as names of uniforms do.
    Main statement: `Effect.shared_name`. -/

namespace FxStack

namespace Template

/-! ### Symbols -/

def itemsOfSegment : Segment → List Item
  | .text cs => cs.map .char
  | .position => [.position]

/-- What a template says, one character or position at a time. -/
def items (t : Template) : List Item := t.segments.flatMap itemsOfSegment

/-- Whether an item is part of a name. A position is, as digits are. -/
def isNameItem : Item → Bool
  | .char c => ActiveUniforms.isNameChar c
  | .position => true

/-- The names of a template that carry the position, with the places where they do. -/
def symbols (t : Template) : List (List Item) :=
  (t.items.splitOnP fun x => !isNameItem x).filter (·.contains .position)

def spell (i : Nat) : Item → List Char
  | .char c => [c]
  | .position => Nat.toDigits 10 i

/-- The name that a symbol is at position `i`. -/
def name (i : Nat) (symbol : List Item) : String := String.ofList (symbol.flatMap (spell i))

/-! ### Names of an instance -/

/-- The characters of an item at position `i`, each with whether the position is written there. -/
def write (i : Nat) : Item → List (Char × Bool)
  | .char c => [(c, false)]
  | .position => (Nat.toDigits 10 i).map fun d => (d, true)

/-- The characters of an instance, each with whether the position is written there. -/
def written (t : Template) (i : Nat) : List (Char × Bool) := t.items.flatMap (write i)

/-- The longest runs of name characters of an instance in which the position is written. -/
def namesAt (t : Template) (i : Nat) : List String :=
  (((t.written i).splitOnP fun x => !ActiveUniforms.isNameChar x.1).filter fun run => run.any (·.2)).map
    fun run => String.ofList (run.map (·.1))

theorem map_fst_write (i : Nat) (x : Item) : (write i x).map (·.1) = spell i x := by
  cases x <;> simp [write, spell, Function.comp_def]

theorem map_fst_flatMap_write (i : Nat) (xs : List Item) :
    (xs.flatMap (write i)).map (·.1) = xs.flatMap (spell i) := by
  simp only [List.map_flatMap, map_fst_write]

theorem spell_itemsOfSegment (i : Nat) (s : Segment) : (itemsOfSegment s).flatMap (spell i) = expand i s := by
  cases s <;> simp [itemsOfSegment, spell, expand, List.flatMap_map]

theorem toList_instantiate (t : Template) (i : Nat) : (t.instantiate i).toList = t.items.flatMap (spell i) := by
  rw [items, List.flatMap_assoc, instantiate, String.toList_ofList]
  simp only [spell_itemsOfSegment]

/-- The written characters are those of the instance. -/
theorem map_fst_written (t : Template) (i : Nat) : (t.written i).map (·.1) = (t.instantiate i).toList := by
  rw [written, map_fst_flatMap_write, toList_instantiate]

/-- They are words of the instance. -/
theorem mem_tokens_of_mem_namesAt {t : Template} {i : Nat} {n : String} (h : n ∈ t.namesAt i) :
    n.toList ∈ ActiveUniforms.tokens (t.instantiate i).toList := by
  obtain ⟨run, hrun, rfl⟩ := List.mem_map.mp h
  obtain ⟨hrun, hwritten⟩ := List.mem_filter.mp hrun
  unfold ActiveUniforms.tokens
  rw [Text.runs_eq_splitOnP, ← map_fst_written, splitOnP_map, String.toList_ofList, List.mem_filter]
  refine ⟨List.mem_map.mpr ⟨run, hrun, rfl⟩, ?_⟩
  have hne : run ≠ [] := by
    rintro rfl
    cases hwritten
  simpa using hne

/-! ### Spelling -/

theorem toDigits_eq_toList (n : Nat) : Nat.toDigits 10 n = (toString n).toList := by
  rw [Nat.toString_eq_repr, Nat.toList_repr]

theorem isNameChar_of_mem_toDigits {n : Nat} {c : Char} (h : c ∈ Nat.toDigits 10 n) :
    ActiveUniforms.isNameChar c = true := by
  rw [toDigits_eq_toList] at h
  simp [ActiveUniforms.isNameChar, Char.isAlphanum, isDigit_of_mem_toString h]

theorem any_snd_write {i : Nat} {x : Item} : (write i x).any (·.2) = (.position == x) := by
  cases x with
  | char c => rfl
  | position =>
    obtain ⟨d, ds, hdigits⟩ := List.exists_cons_of_ne_nil (Nat.toDigits_ne_nil (n := i) (b := 10))
    simp [write, hdigits]

/-- The names of an instance are what the symbols are there. -/
theorem namesAt_eq (t : Template) (i : Nat) : t.namesAt i = t.symbols.map (name i) := by
  have hsplit : (t.written i).splitOnP (fun x => !ActiveUniforms.isNameChar x.1) =
      (t.items.splitOnP fun x => !isNameItem x).map (·.flatMap (write i)) := by
    refine splitOnP_flatMap (fun x hx => ?_) (fun x hx y hy => ?_) _
    · cases x with
      | char c => exact ⟨(c, false), rfl, hx⟩
      | position => cases hx
    · cases x with
      | char c => simpa [List.mem_singleton.mp hy, isNameItem] using hx
      | position =>
        obtain ⟨d, hd, rfl⟩ := List.mem_map.mp hy
        simp [isNameChar_of_mem_toDigits hd]
  have hmarked (w : List Item) : (w.flatMap (write i)).any (·.2) = w.contains .position := by
    simp only [List.any_flatMap, any_snd_write, List.contains_eq_any_beq]
  have hname (w : List Item) : String.ofList ((w.flatMap (write i)).map (·.1)) = name i w := by
    rw [map_fst_flatMap_write, name]
  unfold namesAt symbols
  rw [hsplit, List.filter_map, List.map_map]
  simp only [Function.comp_def, hmarked, hname]

/-! ### One symbol -/

theorem flatMap_spell_congr {w : List Item} (h : Item.position ∉ w) (i j : Nat) :
    w.flatMap (spell i) = w.flatMap (spell j) := by
  refine List.flatMap_congr fun x hx => ?_
  cases x with
  | char c => rfl
  | position => exact absurd hx h

theorem length_flatMap_spell_le {i j : Nat} (h : (Nat.toDigits 10 i).length ≤ (Nat.toDigits 10 j).length)
    (w : List Item) : (w.flatMap (spell i)).length ≤ (w.flatMap (spell j)).length := by
  induction w with
  | nil => simp
  | cons x w ih =>
    rw [List.flatMap_cons, List.flatMap_cons, List.length_append, List.length_append]
    cases x with
    | char c => exact Nat.add_le_add_left ih 1
    | position => exact Nat.add_le_add h ih

theorem toDigits_injective {i j : Nat} (h : Nat.toDigits 10 i = Nat.toDigits 10 j) : i = j :=
  toString_injective (by rw [← toDigits_eq_toList, ← toDigits_eq_toList, h])

/-- One symbol is a different name at each position. -/
theorem name_injective {w : List Item} (hw : Item.position ∈ w) {i j : Nat} (h : name i w = name j w) : i = j := by
  obtain ⟨u, v, rfl, hu⟩ := List.eq_append_cons_of_mem hw
  have hlists := String.ofList_injective h
  rw [List.flatMap_append, List.flatMap_append, flatMap_spell_congr hu i j, List.flatMap_cons, List.flatMap_cons] at hlists
  have hrest := List.append_cancel_left hlists
  -- If one position had more digits, then so many more characters would follow in each later place.
  have hdigits : (Nat.toDigits 10 i).length = (Nat.toDigits 10 j).length := by
    have hlength := congrArg List.length hrest
    rw [List.length_append, List.length_append] at hlength
    rcases Nat.le_total (Nat.toDigits 10 i).length (Nat.toDigits 10 j).length with hle | hle
    · have hv := length_flatMap_spell_le hle v
      simp only [spell] at hlength
      omega
    · have hv := length_flatMap_spell_le hle v
      simp only [spell] at hlength
      omega
  exact toDigits_injective (List.append_inj_left hrest hdigits)

/-! ### Two symbols -/

/-- Whether a symbol ends with the position, as a name of a uniform does, behind a character that is no digit. -/
def endsWithPosition (w : List Item) : Bool :=
  match w.reverse with
  | .position :: .char c :: _ => !c.isDigit
  | _ => false

theorem eq_append_of_endsWithPosition {w : List Item} (h : endsWithPosition w = true) :
    ∃ u c, w = u ++ [.char c] ++ [.position] ∧ c.isDigit = false := by
  unfold endsWithPosition at h
  split at h
  · next c u hw =>
    refine ⟨u.reverse, c, ?_, by simpa using h⟩
    rw [← List.reverse_inj, hw]
    simp
  · cases h

/-- Symbols that end with the position are different names at different positions. -/
theorem eq_of_name_eq {v w : List Item} (hv : endsWithPosition v = true) (hw : endsWithPosition w = true) {i j : Nat}
    (h : name i v = name j w) : i = j := by
  obtain ⟨v, c, rfl, hc⟩ := eq_append_of_endsWithPosition hv
  obtain ⟨w, d, rfl, hd⟩ := eq_append_of_endsWithPosition hw
  have hlists := String.ofList_injective h
  simp only [List.flatMap_append, List.flatMap_singleton, spell, toDigits_eq_toList] at hlists
  exact (append_toString_inj (by simpa using hc) (by simpa using hd) hlists).2

end Template

/-! ### Effects -/

namespace Effect

def symbols (e : Effect) : List (List Template.Item) := e.code.symbols ++ (e.uvCode.map Template.symbols).getD []

/-- The names in the code of the entry at position `i` in which the position is written. -/
def namesAt (e : Effect) (i : Nat) : List String := e.code.namesAt i ++ (e.uvCode.map (·.namesAt i)).getD []

theorem namesAt_eq (e : Effect) (i : Nat) : e.namesAt i = e.symbols.map (Template.name i) := by
  unfold namesAt symbols
  cases e.uvCode <;> simp [Template.namesAt_eq]

theorem position_mem_of_mem_symbols {e : Effect} {w : List Template.Item} (h : w ∈ e.symbols) :
    Template.Item.position ∈ w := by
  have hsymbol (t : Template) (ht : w ∈ t.symbols) : Template.Item.position ∈ w := by
    simpa using (List.mem_filter.mp ht).2
  rcases List.mem_append.mp h with h | h
  · exact hsymbol _ h
  · cases huv : e.uvCode with
    | none => simp [huv] at h
    | some t =>
      rw [huv] at h
      exact hsymbol t h

/-- The names are words of the code that is written for the position. -/
theorem mem_tokens_of_mem_namesAt {e : Effect} {i : Nat} {n : String} (h : n ∈ e.namesAt i) :
    ∃ t ∈ e.uvCode.toList ++ [e.code], n.toList ∈ ActiveUniforms.tokens (t.instantiate i).toList := by
  rcases List.mem_append.mp h with h | h
  · exact ⟨e.code, by simp, Template.mem_tokens_of_mem_namesAt h⟩
  · cases huv : e.uvCode with
    | none => simp [huv] at h
    | some t =>
      rw [huv] at h
      exact ⟨t, by simp, Template.mem_tokens_of_mem_namesAt h⟩

/-- A name that an effect has at two positions comes from two symbols, of which one does not end with the position as
    names of uniforms do. It is a word of the code at either position. -/
theorem shared_name {e : Effect} {i j : Nat} (hij : i ≠ j) {n : String} (hi : n ∈ e.namesAt i) (hj : n ∈ e.namesAt j) :
    (∃ v ∈ e.symbols, ∃ w ∈ e.symbols, n = Template.name i v ∧ n = Template.name j w ∧ v ≠ w ∧
      ¬(Template.endsWithPosition v = true ∧ Template.endsWithPosition w = true)) ∧
    (∃ t ∈ e.uvCode.toList ++ [e.code], n.toList ∈ ActiveUniforms.tokens (t.instantiate i).toList) ∧
      ∃ t ∈ e.uvCode.toList ++ [e.code], n.toList ∈ ActiveUniforms.tokens (t.instantiate j).toList := by
  refine ⟨?_, mem_tokens_of_mem_namesAt hi, mem_tokens_of_mem_namesAt hj⟩
  rw [namesAt_eq] at hi hj
  obtain ⟨v, hv, hvn⟩ := List.mem_map.mp hi
  obtain ⟨w, hw, hwn⟩ := List.mem_map.mp hj
  refine ⟨v, hv, w, hw, hvn.symm, hwn.symm, ?_, ?_⟩
  · rintro rfl
    exact hij (Template.name_injective (position_mem_of_mem_symbols hv) (hvn.trans hwn.symm))
  · rintro ⟨hvend, hwend⟩
    exact hij (Template.eq_of_name_eq hvend hwend (hvn.trans hwn.symm))

/-- An effect with two names, of which one ends with a digit before the position is written. -/
def twin : Effect := ofCode (.ofMarked '@' "float a@ = 0.0; float a1@ = 1.0;")

theorem twin_namesAt (i : Nat) : twin.namesAt i = [Template.name i [.char 'a', .position],
    Template.name i [.char 'a', .char '1', .position]] := by
  have hsymbols : twin.symbols = [[.char 'a', .position], [.char 'a', .char '1', .position]] := by
    unfold twin Template.ofMarked
    rw [String.toList_ofList]
    decide +kernel
  rw [namesAt_eq, hsymbols]
  rfl

theorem mem_namesAt_twin : "a11" ∈ twin.namesAt 11 ∧ "a11" ∈ twin.namesAt 1 := by
  rw [twin_namesAt, twin_namesAt]
  decide

theorem shared_name_twin : 11 ≠ 1 ∧ "a11" ∈ twin.namesAt 11 ∧ "a11" ∈ twin.namesAt 1 ∧
    (∃ v ∈ twin.symbols, ∃ w ∈ twin.symbols, "a11" = Template.name 11 v ∧ "a11" = Template.name 1 w ∧ v ≠ w ∧
      ¬(Template.endsWithPosition v = true ∧ Template.endsWithPosition w = true)) ∧
    (∃ t ∈ [twin.code], "a11".toList ∈ ActiveUniforms.tokens (t.instantiate 11).toList) ∧
      ∃ t ∈ [twin.code], "a11".toList ∈ ActiveUniforms.tokens (t.instantiate 1).toList :=
  ⟨by decide, mem_namesAt_twin.1, mem_namesAt_twin.2,
    shared_name (by decide) mem_namesAt_twin.1 mem_namesAt_twin.2⟩

/-- Its entries at positions 11 and 1 have a name in common, though the effect is accepted. -/
theorem twin_shares :
    Template.parse "float a$\x7bid\x7d = 0.0; float a1$\x7bid\x7d = 1.0;" = .ok twin.code ∧
    (∃ c', (Catalog.empty ⟨0⟩).register "twin" twin = .ok (none, c')) ∧
    "a11" ∈ twin.namesAt 11 ∧ "a11" ∈ twin.namesAt 1 :=
  ⟨by decide +kernel, ⟨_, Catalog.register_eq_ok.mpr ⟨validate_eq_ok.mp rfl, rfl, rfl⟩⟩, mem_namesAt_twin⟩

end Effect

/-! ### Built-in effects -/

namespace Builtin

theorem endsWithPosition_of_mem_symbols : ∀ e ∈ effects.values, ∀ w ∈ e.symbols, Template.endsWithPosition w = true := by
  unfold effects brightnessContrast invert hueSaturation vignette grain dither fog lut aberration lensDistortion pixelate
    code Template.ofMarked
  -- Texts as lists of characters are computed with; texts as bytes would be decoded first.
  repeat rw [String.toList_append]
  repeat rw [String.toList_ofList]
  decide +kernel

/-- Two entries of one built-in effect have no name in common. -/
theorem namesAt_disjoint {e : Effect} (he : e ∈ effects.values) {i j : Nat} (hij : i ≠ j) :
    (e.namesAt i).Disjoint (e.namesAt j) := by
  intro n hi hj
  rw [Effect.namesAt_eq] at hi hj
  obtain ⟨v, hv, rfl⟩ := List.mem_map.mp hi
  obtain ⟨w, hw, hname⟩ := List.mem_map.mp hj
  exact hij (Template.eq_of_name_eq (endsWithPosition_of_mem_symbols e he v hv)
    (endsWithPosition_of_mem_symbols e he w hw) hname.symm)

end Builtin
end FxStack
