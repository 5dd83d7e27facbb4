import FxStack.Proofs.Json.Numeral
import FxStack.Proofs.Json.Quoted

/-! The texts that spell a tree: its tokens, with blanks between them. The reader finds the tree in every
    text that spells it, and both printers spell the trees that they print. Main statements:
    `readValue_of_spells`, `read_of_spelled`, `read_pretty` and `read_compact`. -/

namespace FxStack.Json

/-! ### Lists of items and members -/

@[simp] theorem itemsOf_nil : itemsOf [] = .done := rfl

@[simp] theorem itemsOf_cons (j : Json) (js : List Json) : itemsOf (j :: js) = .item j (itemsOf js) := rfl

@[simp] theorem membersOf_nil : membersOf [] = .done := rfl

@[simp] theorem membersOf_cons (m : String × Json) (ms : List (String × Json)) :
    membersOf (m :: ms) = .member (some m.1) m.2 (membersOf ms) := rfl

/-! ### Spelling -/

/-- Nothing but blanks. -/
def Blanks (w : List Char) : Prop := ∀ c ∈ w, isBlank c = true

mutual

/-- The text spells the tree. -/
inductive Spells : Json → List Char → Prop
  | null : Spells .null ['n', 'u', 'l', 'l']
  | yes : Spells (.bool true) ['t', 'r', 'u', 'e']
  | no : Spells (.bool false) ['f', 'a', 'l', 's', 'e']
  | number {n : Numeral} {cs : List Char} : n.Spells cs → Spells (.number n) cs
  | string {s : String} {cs : List Char} : SpellsString s cs → Spells (.string s) cs
  | array {is : Items} {cs : List Char} : SpellsItems is cs → Spells (.array is) ('[' :: cs)
  | object {ms : Members} {cs : List Char} : SpellsMembers ms cs → Spells (.object ms) ('\x7b' :: cs)

/-- The text spells all items of an array, from its opening bracket on. -/
inductive SpellsItems : Items → List Char → Prop
  | done {w : List Char} : Blanks w → SpellsItems .done (w ++ [']'])
  | item {w cs ds : List Char} {j : Json} {is : Items} : Blanks w → Spells j cs → SpellsMoreItems is ds →
      SpellsItems (.item j is) (w ++ cs ++ ds)

/-- The text spells the items after an item. -/
inductive SpellsMoreItems : Items → List Char → Prop
  | done {w : List Char} : Blanks w → SpellsMoreItems .done (w ++ [']'])
  | item {w w' cs ds : List Char} {j : Json} {is : Items} : Blanks w → Blanks w' → Spells j cs →
      SpellsMoreItems is ds → SpellsMoreItems (.item j is) (w ++ ',' :: (w' ++ cs ++ ds))

/-- The text spells all members of an object, from its opening brace on. -/
inductive SpellsMembers : Members → List Char → Prop
  | done {w : List Char} : Blanks w → SpellsMembers .done (w ++ ['\x7d'])
  | member {cs ds : List Char} {k : String} {j : Json} {ms : Members} : SpellsMember k j cs →
      SpellsMoreMembers ms ds → SpellsMembers (.member (some k) j ms) (cs ++ ds)

/-- The text spells the members after a member. -/
inductive SpellsMoreMembers : Members → List Char → Prop
  | done {w : List Char} : Blanks w → SpellsMoreMembers .done (w ++ ['\x7d'])
  | member {w cs ds : List Char} {k : String} {j : Json} {ms : Members} : Blanks w → SpellsMember k j cs →
      SpellsMoreMembers ms ds → SpellsMoreMembers (.member (some k) j ms) (w ++ ',' :: (cs ++ ds))

/-- The text spells a key and its value. -/
inductive SpellsMember : String → Json → List Char → Prop
  | intro {w w' w'' ks cs : List Char} {k : String} {j : Json} : Blanks w → SpellsString k ks → Blanks w' → Blanks w'' →
      Spells j cs → SpellsMember k j (w ++ ks ++ w' ++ ':' :: (w'' ++ cs))

end

/-- The text is the tree spelled out between blanks. -/
inductive Spelled (j : Json) : String → Prop
  | intro {w cs w' : List Char} : Blanks w → Spells j cs → Blanks w' → Spelled j (String.ofList (w ++ cs ++ w'))

theorem SpellsMember.length_pos {k : String} {j : Json} {cs : List Char} (h : SpellsMember k j cs) : 0 < cs.length := by
  cases h
  simp only [List.length_append, List.length_cons]
  omega

/-! ### Reading what is spelled -/

theorem skipBlanks_append {w : List Char} (h : Blanks w) (cs : List Char) : skipBlanks (w ++ cs) = skipBlanks cs :=
  List.dropWhile_append_of_pos h

theorem endsNumeral_cons {c : Char} (hc : isBlank c = true ∨ c ∈ [',', ']', '\x7d']) (cs : List Char) :
    EndsNumeral (c :: cs) := by
  have plain : ∀ d ∈ [' ', '\n', '\t', '\r', ',', ']', '\x7d'], Digit.ofChar? d = none ∧ d ≠ '.' ∧ d ≠ 'e' ∧ d ≠ 'E' := by
    simp only [List.forall_mem_cons, List.not_mem_nil, false_implies, implies_true]
    decide
  intro d hd
  obtain rfl := Option.some.inj hd
  rcases hc with hc | hc
  · have hblank : c ∈ [' ', '\n', '\t', '\r'] := by simpa [isBlank, or_assoc] using hc
    exact plain c (List.mem_append_left [',', ']', '\x7d'] hblank)
  · exact plain c (List.mem_append_right [' ', '\n', '\t', '\r'] hc)

theorem endsNumeral_blanks {w : List Char} (h : Blanks w) : EndsNumeral w := by
  cases w with
  | nil => exact endsNumeral_nil
  | cons c w => exact endsNumeral_cons (.inl (h c List.mem_cons_self)) w

theorem endsNumeral_append {w : List Char} (h : Blanks w) {c : Char} (hc : c ∈ [',', ']', '\x7d']) (cs : List Char) :
    EndsNumeral (w ++ c :: cs) := by
  cases w with
  | nil => exact endsNumeral_cons (.inr hc) cs
  | cons b w => exact endsNumeral_cons (.inl (h b List.mem_cons_self)) _

theorem SpellsMoreItems.endsNumeral {is : Items} {ds : List Char} (h : SpellsMoreItems is ds) (rest : List Char) :
    EndsNumeral (ds ++ rest) := by
  cases h with
  | done hw =>
    rw [List.append_assoc]
    exact endsNumeral_append hw (by decide) _
  | item hw _ _ _ =>
    rw [List.append_assoc]
    exact endsNumeral_append hw (by decide) _

theorem SpellsMoreMembers.endsNumeral {ms : Members} {ds : List Char} (h : SpellsMoreMembers ms ds) (rest : List Char) :
    EndsNumeral (ds ++ rest) := by
  cases h with
  | done hw =>
    rw [List.append_assoc]
    exact endsNumeral_append hw (by decide) _
  | member hw _ _ =>
    rw [List.append_assoc]
    exact endsNumeral_append hw (by decide) _

/-- A digit starts no word, string, array or object. -/
theorem digit_plain (d : Digit) : isBlank d.char = false ∧ d.char ∉ ['n', 't', 'f', '"', '[', ']', '\x7b', '-'] := by
  revert d
  decide

theorem Spells.exists_eq_cons {j : Json} {cs : List Char} (h : Spells j cs) :
    ∃ c ds, cs = c :: ds ∧ isBlank c = false ∧ c ≠ ']' := by
  cases h with
  | number hn =>
    obtain ⟨c, ds, rfl, hstart⟩ := hn.exists_eq_cons
    rcases hstart with ⟨rfl, -⟩ | ⟨⟨d, rfl⟩, -⟩
    · exact ⟨_, _, rfl, rfl, by decide⟩
    · have hplain := digit_plain d
      exact ⟨_, _, rfl, hplain.1, by simp_all⟩
  | string hs =>
    obtain ⟨us, rfl, -⟩ := readString_of_spells hs
    exact ⟨_, _, rfl, rfl, by decide⟩
  | _ => exact ⟨_, _, rfl, rfl, by decide⟩

theorem readWord_append (j : Json) (ws rest : List Char) : readWord j ws (ws ++ rest) = (j, rest) := by
  induction ws with
  | nil => rfl
  | cons w ws ih => simpa [readWord] using ih

theorem readValue_number {n : Numeral} {cs : List Char} (hn : n.Spells cs) (fuel : Nat) {rest : List Char}
    (h : EndsNumeral rest) : readValue (fuel + 1) (cs ++ rest) = (.number n, rest) := by
  obtain ⟨c, ds, rfl, hstart⟩ := hn.exists_eq_cons
  rw [readValue, List.cons_append]
  rcases hstart with ⟨rfl, hnegative, hunsigned⟩ | ⟨⟨d, rfl⟩, hnegative, hunsigned⟩
  · have hread := readNumeral_of_spells hunsigned h
    rw [hnegative] at hread
    simp [skipBlanks, isBlank, hread]
  · have hplain := digit_plain d
    have hread := readNumeral_of_spells hunsigned h
    simp only [List.mem_cons, List.not_mem_nil, or_false, not_or] at hplain
    rw [hnegative, List.cons_append] at hread
    simp [skipBlanks, hplain, Digit.ofChar?_char, hread]

section Blank

variable {w : List Char} (hw : Blanks w) (fuel : Nat) (cs : List Char)
include hw

theorem readValue_append : readValue fuel (w ++ cs) = readValue fuel cs := by
  cases fuel with
  | zero => rfl
  | succ fuel => rw [readValue, readValue, skipBlanks_append hw]

theorem readItems_append : readItems fuel (w ++ cs) = readItems fuel cs := by
  cases fuel with
  | zero => rfl
  | succ fuel => rw [readItems, readItems, skipBlanks_append hw]

theorem readMoreItems_append : readMoreItems fuel (w ++ cs) = readMoreItems fuel cs := by
  cases fuel with
  | zero => rfl
  | succ fuel => rw [readMoreItems, readMoreItems, skipBlanks_append hw]

theorem readMembers_append : readMembers fuel (w ++ cs) = readMembers fuel cs := by
  cases fuel with
  | zero => rfl
  | succ fuel => rw [readMembers, readMembers, skipBlanks_append hw]

theorem readMoreMembers_append : readMoreMembers fuel (w ++ cs) = readMoreMembers fuel cs := by
  cases fuel with
  | zero => rfl
  | succ fuel => rw [readMoreMembers, readMoreMembers, skipBlanks_append hw]

theorem readMember_append : readMember fuel (w ++ cs) = readMember fuel cs := by
  cases fuel with
  | zero => rfl
  | succ fuel => rw [readMember, readMember, skipBlanks_append hw]

end Blank

theorem skipBlanks_cons {c : Char} (h : isBlank c = false) (cs : List Char) : skipBlanks (c :: cs) = c :: cs :=
  List.dropWhile_cons_of_neg (by simp [h])

mutual

/-- The reader finds the tree in every text that spells it. Twice the length of the text is fuel enough, since no
    two calls in a row take no character. -/
theorem readValue_of_spells {j : Json} {cs : List Char} : Spells j cs → ∀ (fuel : Nat) (rest : List Char),
    2 * cs.length ≤ fuel → EndsNumeral rest → readValue fuel (cs ++ rest) = (j, rest)
  | .null, fuel + 1, rest, _, _ => by
    simpa [readValue, skipBlanks, isBlank] using readWord_append .null ['u', 'l', 'l'] rest
  | .yes, fuel + 1, rest, _, _ => by
    simpa [readValue, skipBlanks, isBlank] using readWord_append (.bool true) ['r', 'u', 'e'] rest
  | .no, fuel + 1, rest, _, _ => by
    simpa [readValue, skipBlanks, isBlank] using readWord_append (.bool false) ['a', 'l', 's', 'e'] rest
  | .number hn, fuel + 1, _, _, hrest => readValue_number hn fuel hrest
  | .number hn, 0, _, hfuel, _ => by
    obtain ⟨c, ds, rfl, -⟩ := hn.exists_eq_cons
    simp at hfuel
  | .string hs, 0, _, hfuel, _ => by
    obtain ⟨us, rfl, -⟩ := readString_of_spells hs
    simp at hfuel
  | .string hs, fuel + 1, rest, _, _ => by
    obtain ⟨us, rfl, hread⟩ := readString_of_spells hs
    simp [readValue, skipBlanks, isBlank, hread]
  | .array hitems, fuel + 1, rest, hfuel, _ => by
    have hread := readItems_of_spells hitems fuel rest (by grind)
    simp [readValue, skipBlanks, isBlank, hread]
  | .object hmembers, fuel + 1, rest, hfuel, _ => by
    have hread := readMembers_of_spells hmembers fuel rest (by grind)
    simp [readValue, skipBlanks, isBlank, hread]

theorem readItems_of_spells {is : Items} {cs : List Char} : SpellsItems is cs → ∀ (fuel : Nat) (rest : List Char),
    2 * cs.length + 1 ≤ fuel → readItems fuel (cs ++ rest) = (is, rest)
  | .done hw, fuel + 1, rest, _ => by
    rw [List.append_assoc, readItems_append hw]
    simp [readItems, skipBlanks, isBlank]
  | .item hw hhead htail, fuel + 1, rest, hfuel => by
    have hread := readValue_of_spells hhead fuel _ (by grind) (htail.endsNumeral rest)
    have hmore := readMoreItems_of_spells htail fuel rest (by grind)
    obtain ⟨c, cs', rfl, hblank, hclose⟩ := hhead.exists_eq_cons
    rw [List.append_assoc, List.append_assoc, readItems_append hw]
    rw [List.cons_append] at hread ⊢
    simp [readItems, skipBlanks_cons hblank, hclose, hread, hmore]

theorem readMoreItems_of_spells {is : Items} {cs : List Char} : SpellsMoreItems is cs →
    ∀ (fuel : Nat) (rest : List Char), 2 * cs.length ≤ fuel → readMoreItems fuel (cs ++ rest) = (is, rest)
  | .done hw, 0, _, hfuel => by simp at hfuel
  | .done hw, fuel + 1, rest, _ => by
    rw [List.append_assoc, readMoreItems_append hw]
    simp [readMoreItems, skipBlanks, isBlank]
  | .item hw hw' hhead htail, 0, _, hfuel => by simp at hfuel
  | .item hw hw' hhead htail, fuel + 1, rest, hfuel => by
    have hread := readValue_of_spells hhead fuel _ (by grind) (htail.endsNumeral rest)
    have hmore := readMoreItems_of_spells htail fuel rest (by grind)
    rw [List.append_assoc, readMoreItems_append hw]
    simp [readMoreItems, skipBlanks, isBlank, readValue_append hw', hread, hmore]

theorem readMembers_of_spells {ms : Members} {cs : List Char} : SpellsMembers ms cs →
    ∀ (fuel : Nat) (rest : List Char), 2 * cs.length + 1 ≤ fuel → readMembers fuel (cs ++ rest) = (ms, rest)
  | .done hw, fuel + 1, rest, _ => by
    rw [List.append_assoc, readMembers_append hw]
    simp [readMembers, skipBlanks, isBlank]
  | .member hmember htail, 1, rest, hfuel => by
    have hpos := hmember.length_pos
    grind
  | .member hmember htail, fuel + 2, rest, hfuel => by
    have hpos := hmember.length_pos
    have hmore := readMoreMembers_of_spells htail fuel rest (by grind)
    have hread := readMember_of_spells hmember fuel (by grind) (htail.endsNumeral rest) hmore
    cases hmember with
    | intro hw hkey hw' hw'' hvalue =>
      obtain ⟨us, rfl, -⟩ := readString_of_spells hkey
      simp only [List.append_assoc, readMembers_append hw, readMember_append hw] at hread ⊢
      simp_all [readMembers, skipBlanks, isBlank]

theorem readMoreMembers_of_spells {ms : Members} {cs : List Char} : SpellsMoreMembers ms cs →
    ∀ (fuel : Nat) (rest : List Char), 2 * cs.length ≤ fuel → readMoreMembers fuel (cs ++ rest) = (ms, rest)
  | .done hw, 0, _, hfuel => by simp at hfuel
  | .done hw, fuel + 1, rest, _ => by
    rw [List.append_assoc, readMoreMembers_append hw]
    simp [readMoreMembers, skipBlanks, isBlank]
  | .member hw hmember htail, 0, _, hfuel => by simp at hfuel
  | .member hw hmember htail, 1, _, hfuel => by grind
  | .member hw hmember htail, fuel + 2, rest, hfuel => by
    have hmore := readMoreMembers_of_spells htail fuel rest (by grind)
    have hread := readMember_of_spells hmember fuel (by grind) (htail.endsNumeral rest) hmore
    rw [List.append_assoc, readMoreMembers_append hw]
    simp [readMoreMembers, skipBlanks, isBlank, hread]

theorem readMember_of_spells {k : String} {j : Json} {cs : List Char} : SpellsMember k j cs →
    ∀ (fuel : Nat) {ds rest : List Char} {ms : Members}, 2 * cs.length ≤ fuel + 1 → EndsNumeral ds →
      readMoreMembers fuel ds = (ms, rest) → readMember (fuel + 1) (cs ++ ds) = (.member (some k) j ms, rest)
  | .intro hw hkey hw' hw'' hvalue, fuel, ds, rest, ms, hfuel, hds, hmore => by
    have hread := readValue_of_spells hvalue fuel _ (by grind) hds
    obtain ⟨us, rfl, hstring⟩ := readString_of_spells hkey
    simp only [List.append_assoc, readMember_append hw]
    simp [readMember, skipBlanks_cons, isBlank, hstring, skipBlanks_append hw', readValue_append hw'', hread, hmore]

end

/-- A text is read as the tree that it spells between blanks. -/
theorem read_of_spelled {j : Json} {text : String} (h : Spelled j text) : read text = ⟨j, false⟩ := by
  cases h with
  | @intro w cs w' hw h hw' =>
    have hread := readValue_of_spells h (2 * (w ++ cs ++ w').length + 2) w' (by grind) (endsNumeral_blanks hw')
    have hblank := skipBlanks_append hw' []
    rw [List.append_nil] at hblank
    rw [read, String.toList_ofList]
    dsimp only
    rw [List.append_assoc, readValue_append hw, ← List.append_assoc, hread, hblank]
    rfl

/-! ### Printing -/

mutual

/-- Nothing in the tree is garbled, broken or cut short. -/
def Whole : Json → Prop
  | .null | .bool _ | .number _ | .string _ => True
  | .garbled | .broken _ => False
  | .array is => WholeItems is
  | .object ms => WholeMembers ms

def WholeItems : Items → Prop
  | .done => True
  | .item j is => Whole j ∧ WholeItems is
  | .cut _ => False

def WholeMembers : Members → Prop
  | .done => True
  | .member k j ms => k.isSome ∧ Whole j ∧ WholeMembers ms
  | .cut _ | .noKey _ _ => False

end

theorem WholeItems.exists_itemsOf : ∀ {is : Items}, WholeItems is → ∃ js, is = itemsOf js
  | .done, _ => ⟨[], rfl⟩
  | .item j is, h => by
    obtain ⟨js, rfl⟩ := WholeItems.exists_itemsOf h.2
    exact ⟨j :: js, rfl⟩

theorem WholeMembers.exists_membersOf : ∀ {ms : Members}, WholeMembers ms → ∃ es, ms = membersOf es
  | .done, _ => ⟨[], rfl⟩
  | .member (some k) j ms, h => by
    obtain ⟨es, rfl⟩ := WholeMembers.exists_membersOf h.2.2
    exact ⟨(k, j) :: es, rfl⟩

mutual

/-- What is spelled out is whole. -/
theorem Spells.whole {j : Json} {cs : List Char} : Spells j cs → Whole j
  | .null | .yes | .no | .number _ | .string _ => trivial
  | .array h => h.whole
  | .object h => h.whole

theorem SpellsItems.whole {is : Items} {cs : List Char} : SpellsItems is cs → WholeItems is
  | .done _ => trivial
  | .item _ h hmore => ⟨h.whole, hmore.whole⟩

theorem SpellsMoreItems.whole {is : Items} {cs : List Char} : SpellsMoreItems is cs → WholeItems is
  | .done _ => trivial
  | .item _ _ h hmore => ⟨h.whole, hmore.whole⟩

theorem SpellsMembers.whole {ms : Members} {cs : List Char} : SpellsMembers ms cs → WholeMembers ms
  | .done _ => trivial
  | .member h hmore => ⟨rfl, h.whole, hmore.whole⟩

theorem SpellsMoreMembers.whole {ms : Members} {cs : List Char} : SpellsMoreMembers ms cs → WholeMembers ms
  | .done _ => trivial
  | .member _ h hmore => ⟨rfl, h.whole, hmore.whole⟩

theorem SpellsMember.whole {k : String} {j : Json} {cs : List Char} : SpellsMember k j cs → Whole j
  | .intro _ _ _ _ h => h.whole

end

theorem Spelled.whole {j : Json} {text : String} (h : Spelled j text) : Whole j := by
  obtain ⟨-, h, -⟩ := h
  exact h.whole

theorem whole_list {js : List Json} : Whole (list js) ↔ ∀ j ∈ js, Whole j := by
  unfold list
  rw [Whole]
  induction js with
  | nil => simp [WholeItems]
  | cons j js ih => simpa [WholeItems] using fun _ => ih

theorem whole_record {ms : List (String × Json)} : Whole (record ms) ↔ ∀ m ∈ ms, Whole m.2 := by
  unfold record
  rw [Whole]
  induction ms with
  | nil => simp [WholeMembers]
  | cons m ms ih => simpa [WholeMembers] using fun _ => ih

theorem blanks_nil : Blanks [] := nofun

theorem blanks_space : Blanks [' '] := by simp [Blanks, isBlank]

theorem blanks_newline (depth : Nat) : Blanks (newline depth) := by simp [Blanks, newline, isBlank]

section Parts

variable {w cs ds : List Char} {j : Json} {is : Items} {ms : Members}

/-- An item is spelled alike as the first one and, after a comma, as a later one. -/
theorem spells_item (hw : Blanks w) (h : Spells j cs) (hmore : SpellsMoreItems is ds) :
    SpellsItems (.item j is) (w ++ cs ++ ds) ∧ SpellsMoreItems (.item j is) (',' :: (w ++ cs ++ ds)) :=
  ⟨.item hw h hmore, .item blanks_nil hw h hmore⟩

theorem spells_member {w' : List Char} {k : String} (hw : Blanks w) (hw' : Blanks w') (h : Spells j cs)
    (hmore : SpellsMoreMembers ms ds) :
    SpellsMembers (.member (some k) j ms) (w ++ stringText k ++ ':' :: (w' ++ cs) ++ ds) ∧
      SpellsMoreMembers (.member (some k) j ms) (',' :: (w ++ stringText k ++ ':' :: (w' ++ cs) ++ ds)) := by
  have hmember := SpellsMember.intro hw (spellsString_stringText k) blanks_nil hw' h
  rw [List.append_nil] at hmember
  exact ⟨.member hmember hmore, .member blanks_nil hmember hmore⟩

end Parts

mutual

theorem spells_compactChars : (j : Json) → Whole j → Spells j (compactChars j)
  | .null, _ => .null
  | .bool true, _ => .yes
  | .bool false, _ => .no
  | .number n, _ => .number n.spells_text
  | .string s, _ => .string (spellsString_stringText s)
  | .array .done, _ => .array (.done blanks_nil)
  | .array (.item j is), h => .array (spells_compactItems (.item j is) h nofun).1
  | .object .done, _ => .object (.done blanks_nil)
  | .object (.member k j ms), h => .object (spells_compactMembers (.member k j ms) h nofun).1

theorem spells_compactItems : (is : Items) → WholeItems is → is ≠ .done →
    SpellsItems is (compactItems is) ∧ SpellsMoreItems is (',' :: compactItems is)
  | .item j .done, h, _ => spells_item blanks_nil (spells_compactChars j h.1) (.done blanks_nil)
  | .item j (.item j' is), h, _ =>
    spells_item blanks_nil (spells_compactChars j h.1) (spells_compactItems (.item j' is) h.2 nofun).2

theorem spells_compactMembers : (ms : Members) → WholeMembers ms → ms ≠ .done →
    SpellsMembers ms (compactMembers ms) ∧ SpellsMoreMembers ms (',' :: compactMembers ms)
  | .member (some k) j .done, h, _ => by
    simpa [compactMembers] using
      spells_member blanks_nil blanks_nil (k := k) (spells_compactChars j h.2.1) (.done blanks_nil)
  | .member (some k) j (.member k' j' ms), h, _ => by
    simpa [compactMembers] using spells_member blanks_nil blanks_nil (k := k) (spells_compactChars j h.2.1)
      (spells_compactMembers (.member k' j' ms) h.2.2 nofun).2

end

mutual

theorem spells_prettyChars (depth : Nat) : (j : Json) → Whole j → Spells j (prettyChars depth j)
  | .null, _ => .null
  | .bool true, _ => .yes
  | .bool false, _ => .no
  | .number n, _ => .number n.spells_text
  | .string s, _ => .string (spellsString_stringText s)
  | .array .done, _ => .array (.done blanks_nil)
  | .array (.item j is), h => .array (spells_prettyItems (depth + 1) (.item j is) h nofun).1
  | .object .done, _ => .object (.done blanks_nil)
  | .object (.member k j ms), h => .object (spells_prettyMembers (depth + 1) (.member k j ms) h nofun).1

theorem spells_prettyItems (depth : Nat) : (is : Items) → WholeItems is → is ≠ .done →
    SpellsItems is (prettyItems depth is) ∧ SpellsMoreItems is (',' :: prettyItems depth is)
  | .item j .done, h, _ => by
    simpa [prettyItems] using
      spells_item (blanks_newline depth) (spells_prettyChars depth j h.1) (.done (blanks_newline (depth - 1)))
  | .item j (.item j' is), h, _ =>
    spells_item (blanks_newline depth) (spells_prettyChars depth j h.1)
      (spells_prettyItems depth (.item j' is) h.2 nofun).2

theorem spells_prettyMembers (depth : Nat) : (ms : Members) → WholeMembers ms → ms ≠ .done →
    SpellsMembers ms (prettyMembers depth ms) ∧ SpellsMoreMembers ms (',' :: prettyMembers depth ms)
  | .member (some k) j .done, h, _ => by
    simpa [prettyMembers] using spells_member (blanks_newline depth) blanks_space (k := k)
      (spells_prettyChars depth j h.2.1) (.done (blanks_newline (depth - 1)))
  | .member (some k) j (.member k' j' ms), h, _ => by
    simpa [prettyMembers] using spells_member (blanks_newline depth) blanks_space (k := k)
      (spells_prettyChars depth j h.2.1) (spells_prettyMembers depth (.member k' j' ms) h.2.2 nofun).2

end

theorem Spells.spelled {j : Json} {cs : List Char} (h : Spells j cs) : Spelled j (String.ofList cs) := by
  simpa using Spelled.intro blanks_nil h blanks_nil

theorem read_compact {j : Json} (h : Whole j) : read j.compact = ⟨j, false⟩ :=
  read_of_spelled (spells_compactChars j h).spelled

theorem read_pretty {j : Json} (h : Whole j) : read j.pretty = ⟨j, false⟩ :=
  read_of_spelled (spells_prettyChars 0 j h).spelled

end FxStack.Json
