import FxStack.Proofs.Template.Normal

/-! The source forms of templates. A text is one exactly if it spells items one after the other; every other text starts
    like one up to a dollar sign at which no item starts, and the error tells the byte of that sign and what is wrong
    with it. Main statement: `Template.parse_grammar`. -/

namespace FxStack

/-- The byte of the dollar sign at fault. -/
def TemplateError.offset : TemplateError → Nat
  | .unknownParameter _ k => k
  | .unterminated k => k
  | .strayDollar k => k

namespace Template
variable {cs us rest : List Char} {offset place : Nat} {x : Item} {items : List Item} {e : TemplateError}

/-! ### Bytes -/

/-- The number of bytes of a text. -/
def byteSize (cs : List Char) : Nat := (String.ofList cs).utf8ByteSize

@[simp]
theorem byteSize_nil : byteSize [] = 0 := by
  simp [byteSize]

@[simp]
theorem byteSize_cons (c : Char) (cs : List Char) : byteSize (c :: cs) = c.utf8Size + byteSize cs := by
  simp [byteSize]

@[simp]
theorem byteSize_append (as bs : List Char) : byteSize (as ++ bs) = byteSize as + byteSize bs := by
  simp [byteSize]

/-! ### The first place of a character -/

/-- The text before the first `c` and the text behind it. -/
def find (c : Char) : List Char → Option (List Char × List Char)
  | [] => none
  | d :: ds => if d = c then some ([], ds) else (find c ds).map fun parts => (d :: parts.1, parts.2)

theorem find_append_cons {c : Char} {before : List Char} (h : c ∉ before) (after : List Char) :
    find c (before ++ c :: after) = some (before, after) := by
  induction before with
  | nil => simp [find]
  | cons d before ih =>
    obtain ⟨hd, hbefore⟩ := List.ne_and_not_mem_of_not_mem_cons h
    rw [List.cons_append, find, if_neg (Ne.symm hd), ih hbefore]
    rfl

theorem find_eq_none {c : Char} (h : c ∉ cs) : find c cs = none := by
  induction cs with
  | nil => rfl
  | cons d cs ih =>
    obtain ⟨hd, hcs⟩ := List.ne_and_not_mem_of_not_mem_cons h
    rw [find, if_neg (Ne.symm hd), ih hcs]
    rfl

theorem find_cases (c : Char) (cs : List Char) :
    c ∉ cs ∧ find c cs = none ∨ ∃ before after, cs = before ++ c :: after ∧ c ∉ before ∧ find c cs = some (before, after) := by
  by_cases h : c ∈ cs
  · obtain ⟨before, after, rfl, hbefore⟩ := List.eq_append_cons_of_mem h
    exact .inr ⟨before, after, rfl, hbefore, find_append_cons hbefore after⟩
  · exact .inl ⟨h, find_eq_none h⟩

/-! ### Grammar -/

/-- The spellings of an item in a source form. -/
inductive Spelled : Item → List Char → Prop
  | char {c : Char} (h : c ≠ '$') : Spelled (.char c) [c]
  | dollar : Spelled (.char '$') ['$', '$']
  | position {name : List Char} (hclose : '\x7d' ∉ name) (hname : Text.trim name = parameter) :
      Spelled .position ('$' :: '\x7b' :: name ++ ['\x7d'])

/-- A text that spells items one after the other. -/
inductive Spells : List Item → List Char → Prop
  | nil : Spells [] []
  | cons {x : Item} {xs : List Item} {us cs : List Char} (hx : Spelled x us) (hxs : Spells xs cs) :
      Spells (x :: xs) (us ++ cs)

theorem Spells.append {xs ys : List Item} {us vs : List Char} (h : Spells xs us) (h' : Spells ys vs) :
    Spells (xs ++ ys) (us ++ vs) := by
  induction h with
  | nil => exact h'
  | @cons x xs us cs hx _ ih =>
    rw [List.append_assoc]
    exact .cons hx ih

theorem Spelled.spells (h : Spelled x us) : Spells [x] us := by
  simpa using Spells.cons h .nil

theorem spells_text (h : '$' ∉ cs) : Spells (cs.map .char) cs := by
  induction cs with
  | nil => exact .nil
  | cons c cs ih =>
    obtain ⟨hc, hcs⟩ := List.ne_and_not_mem_of_not_mem_cons h
    exact .cons (.char (Ne.symm hc)) (ih hcs)

/-- What is wrong with a dollar sign, given the text behind it. -/
inductive Fault : TemplateError → List Char → Prop
  | stray {k : Nat} {after : List Char} (h : ∀ c ∈ after.head?, c ≠ '$' ∧ c ≠ '\x7b') : Fault (.strayDollar k) after
  | unterminated {k : Nat} {inner : List Char} (h : '\x7d' ∉ inner) : Fault (.unterminated k) ('\x7b' :: inner)
  | unknown {k : Nat} {name tail : List Char} (hclose : '\x7d' ∉ name) (hname : Text.trim name ≠ parameter) :
      Fault (.unknownParameter (String.ofList (Text.trim name)) k) ('\x7b' :: name ++ '\x7d' :: tail)

/-- A text starts with an item, unless it starts with a dollar sign at fault. -/
theorem exists_item_or_fault (c : Char) (cs : List Char) :
    (∃ x us rest, Spelled x us ∧ c :: cs = us ++ rest) ∨ (c = '$' ∧ ∀ k, ∃ e, e.offset = k ∧ Fault e cs) := by
  by_cases hc : c = '$'
  · subst hc
    by_cases hdollar : cs.head? = some '$'
    · obtain ⟨rest, rfl⟩ := List.head?_eq_some_iff.mp hdollar
      exact .inl ⟨.char '$', ['$', '$'], rest, .dollar, rfl⟩
    by_cases hopen : cs.head? = some '\x7b'
    · obtain ⟨inner, rfl⟩ := List.head?_eq_some_iff.mp hopen
      by_cases hclose : '\x7d' ∈ inner
      · obtain ⟨name, rest, rfl, hfirst⟩ := List.eq_append_cons_of_mem hclose
        by_cases hname : Text.trim name = parameter
        · exact .inl ⟨.position, _, rest, .position hfirst hname, by simp⟩
        · exact .inr ⟨rfl, fun k => ⟨.unknownParameter _ k, rfl, .unknown hfirst hname⟩⟩
      · exact .inr ⟨rfl, fun k => ⟨.unterminated k, rfl, .unterminated hclose⟩⟩
    · refine .inr ⟨rfl, fun k => ⟨.strayDollar k, rfl, .stray fun d hd => ⟨?_, ?_⟩⟩⟩
      · rintro rfl
        exact hdollar hd
      · rintro rfl
        exact hopen hd
  · exact .inl ⟨.char c, [c], cs, .char hc, rfl⟩

/-- No item starts at a dollar sign at fault. -/
theorem Fault.not_spelled (h : Fault e cs) (hx : Spelled x us) : ¬us <+: '$' :: cs := by
  rintro ⟨rest, hrest⟩
  cases hx with
  | char hc => exact hc (List.cons.inj hrest).1
  | dollar =>
    obtain ⟨-, rfl⟩ := List.cons.inj hrest
    cases h with
    | stray h => exact (h '$' rfl).1 rfl
  | @position name hclose hname =>
    obtain rfl : '\x7b' :: (name ++ '\x7d' :: rest) = cs := by simpa using hrest
    generalize hinner : name ++ '\x7d' :: rest = inner at h
    cases h with
    | stray h => exact (h '\x7b' rfl).2 rfl
    | unterminated h => exact h (hinner ▸ List.mem_append_right _ List.mem_cons_self)
    | @unknown k other tail hclose' hname' =>
      -- Both names end at the first closing brace.
      obtain rfl : name = other := by
        have hfound : some (name, rest) = some (other, tail) := by
          rw [← find_append_cons hclose rest, hinner]
          exact find_append_cons hclose' tail
        exact (Prod.mk.inj (Option.some.inj hfound)).1
      exact hname' hname

/-- A text spells items up to its end or up to a dollar sign at fault. -/
theorem exists_spells (cs : List Char) :
    ∃ items us, Spells items us ∧
      (cs = us ∨ ∃ after, cs = us ++ '$' :: after ∧ ∀ k, ∃ e, e.offset = k ∧ Fault e after) := by
  induction hn : cs.length using Nat.strongRecOn generalizing cs with
  | ind n ih =>
    subst hn
    cases cs with
    | nil => exact ⟨[], [], .nil, .inl rfl⟩
    | cons c cs =>
      rcases exists_item_or_fault c cs with ⟨x, us, rest, hx, heq⟩ | ⟨rfl, hfault⟩
      · have hlt : rest.length < (c :: cs).length := by
          rw [heq, List.length_append]
          cases hx <;> simp
        obtain ⟨items, vs, hvs, hstop⟩ := ih _ hlt rest rfl
        refine ⟨x :: items, us ++ vs, .cons hx hvs, ?_⟩
        rw [heq]
        rcases hstop with rfl | ⟨after, rfl, hfault⟩
        · exact .inl rfl
        · exact .inr ⟨after, (List.append_assoc ..).symm, hfault⟩
      · exact ⟨[], [], .nil, .inr ⟨cs, rfl, hfault⟩⟩

/-! ### Reading -/

/-- A substitution ends at the first closing brace. -/
theorem readItems_name (hclose : '\x7d' ∉ cs) : ∀ {offset : Nat} {name : List Char},
    readItems offset (some (place, name)) (cs ++ '\x7d' :: rest) =
      if Text.trim (name.reverse ++ cs) = parameter then
        (readItems (offset + byteSize cs + 1) none rest).map (.position :: ·)
      else .error (.unknownParameter (String.ofList (Text.trim (name.reverse ++ cs))) place) := by
  induction cs with
  | nil =>
    intro offset name
    rw [List.nil_append, readItems]
    simp
  | cons c cs ih =>
    intro offset name
    obtain ⟨hc, hcs⟩ := List.ne_and_not_mem_of_not_mem_cons hclose
    rw [List.cons_append, readItems, if_neg (Ne.symm hc), ih hcs]
    simp [Nat.add_assoc, Nat.add_comm]

theorem readItems_unterminated (h : '\x7d' ∉ cs) : ∀ {offset : Nat} {name : List Char},
    readItems offset (some (place, name)) cs = .error (.unterminated place) := by
  induction cs with
  | nil => exact fun {_ _} => rfl
  | cons c cs ih =>
    intro offset name
    obtain ⟨hc, hcs⟩ := List.ne_and_not_mem_of_not_mem_cons h
    rw [readItems, if_neg (Ne.symm hc), ih hcs]

theorem Spelled.byteSize_position (name : List Char) :
    byteSize ('$' :: '\x7b' :: name ++ ['\x7d']) = 2 + byteSize name + 1 := by
  rw [byteSize_append, byteSize_cons, byteSize_cons, ← Nat.add_assoc]
  rfl

/-- An item is read from each of its spellings, wherever it stands. -/
theorem readItems_of_spelled (h : Spelled x us) :
    readItems offset none (us ++ rest) = (readItems (offset + byteSize us) none rest).map (x :: ·) := by
  cases h with
  | @char c h =>
    rw [List.singleton_append, readItems.eq_def]
    simp [h]
  | dollar => rfl
  | @position name hclose hname =>
    show readItems (offset + 2) (some (offset, [])) (name ++ ['\x7d'] ++ rest) = _
    rw [List.append_assoc, List.singleton_append, readItems_name hclose, List.reverse_nil, List.nil_append, if_pos hname,
      Spelled.byteSize_position, ← Nat.add_assoc, ← Nat.add_assoc]

theorem readItems_of_spells (h : Spells items us) : ∀ {offset : Nat},
    readItems offset none (us ++ rest) = (readItems (offset + byteSize us) none rest).map (items ++ ·) := by
  induction h with
  | nil =>
    intro offset
    show readItems offset none rest = (readItems offset none rest).map id
    cases readItems offset none rest <;> rfl
  | @cons x xs us cs hx _ ih =>
    intro offset
    rw [List.append_assoc, readItems_of_spelled hx, ih, byteSize_append, Nat.add_assoc]
    cases readItems (offset + (byteSize us + byteSize cs)) none rest <;> rfl

theorem readItems_of_fault (h : Fault e cs) : readItems e.offset none ('$' :: cs) = .error e := by
  cases h with
  | @stray k _ h =>
    show readItems k none ('$' :: cs) = .error (.strayDollar k)
    cases cs with
    | nil => rfl
    | cons c cs =>
      obtain ⟨hdollar, hopen⟩ := h c rfl
      rw [readItems.eq_def]
      simp only [if_true]
      split
      · next heq => exact absurd (List.cons.inj heq).1 hdollar
      · next heq => exact absurd (List.cons.inj heq).1 hopen
      · rfl
  | unterminated h => exact readItems_unterminated h
  | @unknown k name tail hclose hname =>
    show readItems (k + 2) (some (k, [])) (name ++ '\x7d' :: tail) = _
    rw [readItems_name hclose, List.reverse_nil, List.nil_append, if_neg hname]

theorem readItems_eq_ok_iff : readItems 0 none cs = .ok items ↔ Spells items cs := by
  have read {items : List Item} {us : List Char} (h : Spells items us) : readItems 0 none us = .ok items := by
    have hread : readItems 0 none (us ++ []) = _ := readItems_of_spells h
    rw [List.append_nil, readItems] at hread
    rw [hread, Except.map, List.append_nil]
  constructor
  · intro h
    obtain ⟨items', us, hspells, rfl | ⟨after, rfl, hfault⟩⟩ := exists_spells cs
    · obtain rfl : items' = items := Except.ok.inj ((read hspells).symm.trans h)
      exact hspells
    · obtain ⟨e, he, hfault⟩ := hfault (0 + byteSize us)
      rw [readItems_of_spells hspells, ← he, readItems_of_fault hfault] at h
      cases h
  · exact read

/-- What is not read spells items up to a dollar sign at fault. -/
theorem exists_fault (h : readItems 0 none cs = .error e) :
    ∃ items us after, cs = us ++ '$' :: after ∧ Spells items us ∧ e.offset = byteSize us ∧ Fault e after := by
  obtain ⟨items, us, hspells, rfl | ⟨after, rfl, hfault⟩⟩ := exists_spells cs
  · rw [readItems_eq_ok_iff.mpr hspells] at h
    cases h
  · obtain ⟨e', he', hfault⟩ := hfault (0 + byteSize us)
    rw [readItems_of_spells hspells, ← he', readItems_of_fault hfault] at h
    obtain rfl : e' = e := Except.error.inj h
    exact ⟨items, us, after, rfl, hspells, by rw [he', Nat.zero_add], hfault⟩

/-! ### Instances -/

theorem flatMap_expand_ofItems (i : Nat) (items : List Item) :
    (ofItems items).segments.flatMap (expand i) = items.flatMap (spell i) := by
  induction items with
  | nil => rfl
  | cons x items ih =>
    rw [List.flatMap_cons, ← ih]
    cases x with
    | position => rfl
    | char c =>
      rw [ofItems_char]
      unfold consChar
      split <;> simp_all [expand, spell]

theorem instantiate_ofItems (items : List Item) (i : Nat) :
    (ofItems items).instantiate i = String.ofList (items.flatMap (spell i)) := by
  rw [instantiate, flatMap_expand_ofItems]

/-! ### A scan from one dollar sign to the next -/

/-- Segments with a text behind them, unless it is empty. -/
def closeText (segments : List Segment) (text : List Char) : List Segment :=
  if text = [] then segments else segments ++ [.text text]

theorem closeText_append (segments : List Segment) (text : List Char) :
    closeText segments text = segments ++ closeText [] text := by
  unfold closeText
  split <;> simp

theorem ofItems_text (text : List Char) : (ofItems (text.map .char)).segments = closeText [] text := by
  have h := ofItems_map_char text []
  rw [List.append_nil] at h
  rw [h]
  cases text with
  | nil => rfl
  | cons c cs => exact foldr_consChar fun s hs => absurd hs (Option.not_mem_none s)

/-- The characters before a position are one text. -/
theorem ofItems_text_position (text : List Char) (items : List Item) :
    (ofItems (text.map .char ++ .position :: items)).segments =
      closeText [] text ++ .position :: (ofItems items).segments := by
  rw [ofItems_map_char, ofItems_position]
  cases text with
  | nil => rfl
  | cons c cs => exact foldr_consChar fun s hs => (Option.some.inj hs).symm

/-- A scan on its way through a source form. -/
structure Scan where
  rest : List Char
  /-- The byte at which `rest` starts. -/
  offset : Nat
  /-- What has been read behind the last of the segments. -/
  text : List Char
  segments : List Segment

namespace Scan

def start (cs : List Char) : Scan := ⟨cs, 0, [], []⟩

/-- One turn of the scan: to behind the next dollar sign and what belongs to it, or to the end. -/
def turn (s : Scan) : Except TemplateError (List Segment ⊕ Scan) :=
  match find '$' s.rest with
  | none => .ok (.inl (closeText s.segments (s.text ++ s.rest)))
  | some (before, after) =>
    let text := s.text ++ before
    let place := s.offset + byteSize before
    match after with
    | '$' :: tail => .ok (.inr ⟨tail, place + 2, text ++ ['$'], s.segments⟩)
    | '\x7b' :: inner =>
      match find '\x7d' inner with
      | none => .error (.unterminated place)
      | some (name, tail) =>
        if Text.trim name = parameter then
          .ok (.inr ⟨tail, place + (2 + byteSize name + 1), [], closeText s.segments text ++ [.position]⟩)
        else .error (.unknownParameter (String.ofList (Text.trim name)) place)
    | _ => .error (.strayDollar place)

/-- The segments that are there in the end if what is left is read item by item. -/
def result (s : Scan) : Except TemplateError (List Segment) :=
  (readItems s.offset none s.rest).map fun items => s.segments ++ (ofItems (s.text.map .char ++ items)).segments

variable {s : Scan} {before : List Char}

theorem result_of_spells (h : Spells items us) (hrest : s.rest = us ++ rest) :
    s.result = (readItems (s.offset + byteSize us) none rest).map fun more =>
      s.segments ++ (ofItems (s.text.map .char ++ (items ++ more))).segments := by
  rw [result, hrest, readItems_of_spells h]
  cases readItems (s.offset + byteSize us) none rest <;> rfl

theorem turn_text (h : '$' ∉ s.rest) : s.turn = .ok (.inl (closeText s.segments (s.text ++ s.rest))) := by
  rw [turn, find_eq_none h]

theorem result_text (h : '$' ∉ s.rest) : s.result = .ok (closeText s.segments (s.text ++ s.rest)) := by
  rw [result_of_spells (spells_text h) (List.append_nil _).symm, readItems, closeText_append, ← ofItems_text]
  simp [Except.map]

theorem turn_dollar (h : '$' ∉ before) (hrest : s.rest = before ++ '$' :: '$' :: rest) :
    s.turn = .ok (.inr ⟨rest, s.offset + byteSize before + 2, s.text ++ before ++ ['$'], s.segments⟩) := by
  rw [turn, hrest, find_append_cons h]
  rfl

theorem result_dollar (h : '$' ∉ before) (hrest : s.rest = before ++ '$' :: '$' :: rest) :
    s.result = result ⟨rest, s.offset + byteSize before + 2, s.text ++ before ++ ['$'], s.segments⟩ := by
  have hsize : byteSize (before ++ ['$', '$']) = byteSize before + 2 := by simp; rfl
  rw [result_of_spells ((spells_text h).append Spelled.dollar.spells) (by rw [hrest, List.append_assoc]; rfl), result,
    hsize, ← Nat.add_assoc]
  simp

theorem turn_position {name : List Char} (h : '$' ∉ before) (hclose : '\x7d' ∉ name) (hname : Text.trim name = parameter)
    (hrest : s.rest = before ++ '$' :: '\x7b' :: (name ++ '\x7d' :: rest)) :
    s.turn = .ok (.inr ⟨rest, s.offset + byteSize before + (2 + byteSize name + 1), [],
      closeText s.segments (s.text ++ before) ++ [.position]⟩) := by
  rw [turn, hrest, find_append_cons h]
  simp only [find_append_cons hclose, if_pos hname]

theorem result_position {name : List Char} (h : '$' ∉ before) (hclose : '\x7d' ∉ name)
    (hname : Text.trim name = parameter) (hrest : s.rest = before ++ '$' :: '\x7b' :: (name ++ '\x7d' :: rest)) :
    s.result = result ⟨rest, s.offset + byteSize before + (2 + byteSize name + 1), [],
      closeText s.segments (s.text ++ before) ++ [.position]⟩ := by
  have hspells := (spells_text h).append (Spelled.position hclose hname).spells
  have hsplit : s.rest = before ++ '$' :: '\x7b' :: (name ++ ['\x7d']) ++ rest := by rw [hrest]; simp
  rw [result_of_spells hspells hsplit, result, byteSize_append,
    Spelled.byteSize_position, ← Nat.add_assoc, closeText_append]
  have hitems (more : List Item) :
      s.text.map .char ++ (before.map .char ++ [.position] ++ more) =
        (s.text ++ before).map .char ++ .position :: more := by simp
  simp only [hitems, ofItems_text_position]
  simp

theorem turn_fault (h : '$' ∉ before) (hfault : Fault e cs) (hrest : s.rest = before ++ '$' :: cs)
    (he : e.offset = s.offset + byteSize before) : s.turn = .error e := by
  rw [turn, hrest, find_append_cons h]
  dsimp only
  rw [← he]
  cases hfault with
  | stray hstray =>
    split
    · next heq => exact absurd rfl (hstray '$' rfl).1
    · next heq => exact absurd rfl (hstray '\x7b' rfl).2
    · rfl
  | unterminated hclose => simp only [find_eq_none hclose, TemplateError.offset]
  | unknown hclose hname => simp only [List.cons_append, find_append_cons hclose, if_neg hname, TemplateError.offset]

theorem result_fault (h : '$' ∉ before) (hfault : Fault e cs) (hrest : s.rest = before ++ '$' :: cs)
    (he : e.offset = s.offset + byteSize before) : s.result = .error e := by
  rw [result_of_spells (spells_text h) hrest, ← he, readItems_of_fault hfault]
  rfl

/-- A turn keeps the result, and what is left is shorter. -/
theorem turn_spec (s : Scan) :
    (∃ e, s.turn = .error e ∧ s.result = .error e) ∨
    (∃ segments, s.turn = .ok (.inl segments) ∧ s.result = .ok segments) ∨
    ∃ s', s.turn = .ok (.inr s') ∧ s.result = s'.result ∧ s'.rest.length < s.rest.length := by
  rcases find_cases '$' s.rest with ⟨hrest, -⟩ | ⟨before, after, hrest, hbefore, -⟩
  · exact .inr (.inl ⟨_, turn_text hrest, result_text hrest⟩)
  rcases exists_item_or_fault '$' after with ⟨x, us, tail, hx, heq⟩ | ⟨-, hfault⟩
  · cases hx with
    | char hc => exact absurd (List.cons.inj heq).1.symm hc
    | dollar =>
      obtain rfl : after = '$' :: tail := (List.cons.inj heq).2
      exact .inr (.inr ⟨_, turn_dollar hbefore hrest, result_dollar hbefore hrest, by simp [hrest]; omega⟩)
    | @position name hclose hname =>
      obtain rfl : after = '\x7b' :: (name ++ '\x7d' :: tail) := by simpa using (List.cons.inj heq).2
      exact .inr (.inr ⟨_, turn_position hbefore hclose hname hrest, result_position hbefore hclose hname hrest,
        by simp [hrest]; omega⟩)
  · obtain ⟨e, he, hfault⟩ := hfault (s.offset + byteSize before)
    exact .inl ⟨e, turn_fault hbefore hfault hrest he, result_fault hbefore hfault hrest he⟩

theorem length_of_turn {s' : Scan} (h : s.turn = .ok (.inr s')) : s'.rest.length < s.rest.length := by
  rcases turn_spec s with ⟨e, hturn, -⟩ | ⟨segments, hturn, -⟩ | ⟨s'', hturn, -, hlt⟩ <;> rw [hturn] at h <;> cases h
  exact hlt

/-- The segments of a source form of which the scan has read a part. -/
def run (s : Scan) : Except TemplateError (List Segment) :=
  match h : s.turn with
  | .error e => .error e
  | .ok (.inl segments) => .ok segments
  | .ok (.inr s') =>
    have := length_of_turn h
    s'.run
termination_by s.rest.length

/-- The scan finds the segments that are made of the items one by one. -/
theorem run_eq_result (s : Scan) : s.run = s.result := by
  induction hn : s.rest.length using Nat.strongRecOn generalizing s with
  | ind n ih =>
    rw [run]
    rcases turn_spec s with ⟨e, hturn, hresult⟩ | ⟨segments, hturn, hresult⟩ | ⟨s', hturn, hresult, hlt⟩
    · rw [hresult]
      split <;> simp_all
    · rw [hresult]
      split <;> simp_all
    · rw [hresult, ← ih _ (hn ▸ hlt) s' rfl]
      split <;> simp_all

end Scan

/-- The scan from the start of a source form parses it. -/
theorem parse_eq_run (s : String) : parse s = (Scan.run (.start s.toList)).map Template.mk := by
  rw [Scan.run_eq_result, Scan.result, parse, Scan.start]
  cases readItems 0 none s.toList <;> rfl

/-! ### Source forms -/

/-- What a scan from one dollar sign to the next accepts is exactly what spells items, and its instances spell them out.
    Of every other text it tells the byte of the first dollar sign at which no item starts, and why none does. -/
theorem parse_grammar (s : String) :
    parse s = (Scan.run (.start s.toList)).map Template.mk ∧
    ((∃ t, parse s = .ok t) ↔ ∃ items, Spells items s.toList) ∧
    (∀ t items, parse s = .ok t → Spells items s.toList →
      ∀ i, t.instantiate i = String.ofList (items.flatMap (spell i))) ∧
    ∀ e, parse s = .error e → ∃ before after, s = before ++ "$" ++ after ∧ e.offset = before.utf8ByteSize ∧
      (∃ t, parse before = .ok t) ∧ Fault e after.toList ∧
      ∀ x us, Spelled x us → ¬us <+: '$' :: after.toList := by
  have accepted {s : String} {items : List Item} (h : Spells items s.toList) : parse s = .ok (ofItems items) := by
    rw [parse, readItems_eq_ok_iff.mpr h]
    rfl
  refine ⟨parse_eq_run s, ⟨?_, ?_⟩, ?_, ?_⟩
  · rintro ⟨t, h⟩
    obtain ⟨items, hitems, -⟩ := Json.map_eq_ok.mp h
    exact ⟨items, readItems_eq_ok_iff.mp hitems⟩
  · rintro ⟨items, h⟩
    exact ⟨ofItems items, accepted h⟩
  · intro t items ht h i
    obtain rfl : ofItems items = t := Except.ok.inj ((accepted h).symm.trans ht)
    exact instantiate_ofItems items i
  · intro e he
    have hread : readItems 0 none s.toList = .error e := by
      rw [parse] at he
      cases hr : readItems 0 none s.toList with
      | ok items => rw [hr] at he; cases he
      | error e' => rw [hr] at he; cases he; rfl
    obtain ⟨items, us, after, hs, hspells, hoffset, hfault⟩ := exists_fault hread
    have hbefore : parse (String.ofList us) = .ok (ofItems items) := accepted (by simpa using hspells)
    refine ⟨String.ofList us, String.ofList after, ?_, hoffset, ⟨_, hbefore⟩, ?_, ?_⟩
    · rw [← String.toList_inj, hs]
      simp
    · simpa using hfault
    · intro x vs hx
      simpa using hfault.not_spelled hx

/-- A letter of two bytes, an escaped dollar sign and the place of a position; and the same text before a dollar sign that
    starts nothing. -/
theorem parse_grammar_mixed :
    (∃ t, parse "é$$$\x7b id\x7d" = .ok t ∧
      Spells [.char 'é', .char '$', .position] "é$$$\x7b id\x7d".toList ∧
      ∀ i, t.instantiate i = String.ofList ('é' :: '$' :: Nat.toDigits 10 i)) ∧
    parse "é$$$\x7b id\x7d$x" = .error (.strayDollar 10) ∧
    ∃ before after, "é$$$\x7b id\x7d$x" = before ++ "$" ++ after ∧ 10 = before.utf8ByteSize ∧
      (∃ t, parse before = .ok t) ∧ Fault (.strayDollar 10) after.toList := by
  have hspells : Spells [.char 'é', .char '$', .position] "é$$$\x7b id\x7d".toList :=
    have hid : Spelled .position ("$\x7b".toList ++ [' ', 'i', 'd'] ++ ['\x7d']) := .position (by decide) (by decide)
    .cons (.char (by decide)) (.cons .dollar (.cons hid .nil))
  have hstray : parse "é$$$\x7b id\x7d$x" = .error (.strayDollar 10) := by decide +kernel
  refine ⟨?_, hstray, ?_⟩
  · obtain ⟨-, haccepts, hinstances, -⟩ := parse_grammar "é$$$\x7b id\x7d"
    obtain ⟨t, ht⟩ := haccepts.mpr ⟨_, hspells⟩
    refine ⟨t, ht, hspells, fun i => ?_⟩
    rw [hinstances t _ ht hspells i]
    simp [spell]
  · obtain ⟨before, after, heq, hplace, haccepted, hfault, -⟩ := (parse_grammar _).2.2.2 _ hstray
    exact ⟨before, after, heq, hplace, haccepted, hfault⟩

end Template
end FxStack
