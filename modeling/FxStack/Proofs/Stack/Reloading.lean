import FxStack.Proofs.Catalog.Definition
import FxStack.Proofs.Stack.Saving
import FxStack.Proofs.Stack.Session

/-! What comes from a text, saved and loaded again. No entry that is read or edited has an override under the key of
    the name, so whether a saved text is read again, and as what was saved, rests on the singles alone. The reader
    takes any number that is a double, and a great one becomes an infinite single, which the writer has no text for.
    Main statement: `Session.reloaded`. -/

namespace FxStack

/-! ### Entries of a text -/

namespace SavedEntry

/-- A member under the key of the name is never kept for the overrides. -/
theorem nameFree_of_decode {depth : Nat} {j : Json} {e : SavedEntry} (h : decode depth j = .ok e) : e.NameFree := by
  obtain ⟨ms, rfl⟩ := exists_record h
  obtain ⟨-, -, hoverrides⟩ := decode_record.mp h
  obtain ⟨ds, hds, hmap⟩ := decodeOverrides_eq_ok.mp hoverrides
  intro o ho
  rw [hmap] at ho
  have hkey : o.1 ∈ ds.map (·.1) := List.mem_map_of_mem (KeyMap.mem_of_mem_ofList ho)
  rw [← Json.map_fst_of_forall₂ (R := fun j v => Value.ofShape? j = some v) hds] at hkey
  obtain ⟨m, hm, hkey⟩ := List.mem_map.mp hkey
  rw [← hkey]
  simpa using (List.mem_filter.mp hm).2

end SavedEntry

theorem SavedStack.nameFree_of_ofText {text : String} {c : SavedStack} (h : ofText text = .ok c) : c.NameFree := by
  let Read (d : Draft) : Prop := ∀ es ∈ d.entries, ∀ e ∈ es, e.NameFree
  obtain ⟨j, hj⟩ := Json.exists_of_decodeDocument h
  obtain ⟨d, hd, hc⟩ := Json.bind_eq_ok.mp hj
  have read : Read d := by
    refine Json.RecordDecoder.decode_induction (P := Read) (fun f hf s j s' hs hs' => ?_) (fun _ hes => by cases hes) hd
    simp only [Draft.decoder, List.mem_cons, List.not_mem_nil, or_false] at hf
    rcases hf with rfl | rfl | rfl <;> obtain ⟨-, x, hx, rfl⟩ := Json.RecordDecoder.field_eq_ok.mp hs'
    · exact hs
    · exact hs
    · intro es hes e he
      cases hes
      obtain ⟨j, hj⟩ := Json.exists_of_decodeList hx e he
      exact SavedEntry.nameFree_of_decode hj
  cases hc
  cases hentries : d.entries with
  | none => exact fun e he => absurd he List.not_mem_nil
  | some es => exact read es hentries

/-! ### Entries of a stack -/

namespace Stack
variable {s t : Stack} {id : EntryId} {key : String} {value : Value}

theorem mem_singles_saved {x : Single} :
    x ∈ s.saved.singles ↔ ∃ e ∈ s.entries, ∃ o ∈ e.overrides.toList, x ∈ o.2.singles := by
  simp [SavedStack.singles, SavedEntry.singles, saved]

/-- What holds of all other singles holds of all singles if it holds of those of the new override. -/
theorem forall_singles_setOverride {P : Single → Prop} (h : s.setOverride id key value = .ok t)
    (hs : ∀ x ∈ s.saved.singles, P x) : (∀ x ∈ t.saved.singles, P x) ↔ ∀ x ∈ value.singles, P x := by
  obtain ⟨-, hid, rfl⟩ := setOverride_eq_ok.mp h
  constructor
  · intro ht x hx
    obtain ⟨e, he⟩ := Option.isSome_iff_exists.mp hid
    have hmem : { e with overrides := e.overrides.insert key value } ∈
        (s.updateOverrides id fun m => m.insert key value).entries := by
      refine List.mem_map.mpr ⟨e, List.mem_of_find?_eq_some he, ?_⟩
      rw [if_pos (by simpa using List.find?_some he)]
    have hnew : (key, value) ∈ (e.overrides.insert key value).toList :=
      mem_of_lookup (by rw [KeyMap.toList_insert, KeyMap.lookup_insertEntry, if_pos rfl])
    exact ht x (mem_singles_saved.mpr ⟨_, hmem, _, hnew, hx⟩)
  · intro hvalue x hx
    obtain ⟨e, he, o, ho, hx⟩ := mem_singles_saved.mp hx
    obtain ⟨d, hd, rfl⟩ := List.mem_map.mp he
    split at ho
    · rcases KeyMap.key_of_mem_insertEntry ho with rfl | ho
      · exact hvalue x hx
      · exact hs x (mem_singles_saved.mpr ⟨d, hd, o, ho, hx⟩)
    · exact hs x (mem_singles_saved.mpr ⟨d, hd, o, ho, hx⟩)

end Stack

namespace Session

theorem Reachable.nameFree {w : Session} (h : w.Reachable) : w.stack.saved.NameFree := by
  induction h with
  | start random => nofun
  | catalog place op _ ih => exact ih
  | edit e _ ih => exact Stack.nameFree_edit ih e
  | compile device _ _ ih => exact ih
  | apply device pool resolve input _ _ ih =>
    refine Stack.nameFree_of_subset ih ?_
    rw [Stack.entries_apply]
    exact List.Subset.refl _

/-- What a text gives is saved as it is, and the text that is saved is read again if its singles are finite, and as
    what was saved if they are read back. The same goes for a stack with one more override and the singles of the
    override, and for the definition of an effect of a catalog text and the singles of its uniforms. -/
theorem reloaded (text : String) :
    (∀ c, SavedStack.ofText text = .ok c → ∀ s : Stack, (s.load c).1.saved = c ∧
      ((∃ d, SavedStack.ofText (s.load c).1.saved.text = .ok d) ↔ ∀ x ∈ c.singles, x.isFinite = true) ∧
      (SavedStack.ofText (s.load c).1.saved.text = .ok c ↔ ∀ x ∈ c.singles, x.ReadsBack)) ∧
    (∀ w : Session, w.Reachable → ∀ id key value t, w.stack.setOverride id key value = .ok t →
      ((∃ c, SavedStack.ofText w.stack.saved.text = .ok c) →
        ((∃ d, SavedStack.ofText t.saved.text = .ok d) ↔ ∀ x ∈ value.singles, x.isFinite = true)) ∧
      (SavedStack.ofText w.stack.saved.text = .ok w.stack.saved →
        (SavedStack.ofText t.saved.text = .ok t.saved ↔ ∀ x ∈ value.singles, x.ReadsBack))) ∧
    ∀ id c name e, Catalog.ofText id text = .ok c → c.effect? name = some e →
      (Effect.ofText e.toJson.compact = .ok e ↔ ∀ x ∈ e.singles, x.ReadsBack) := by
  refine ⟨fun c hc s => ?_, fun w hw id key value t ht => ?_, fun id c name e => Catalog.ofText_toJson⟩
  · have hfree := SavedStack.nameFree_of_ofText hc
    have hsaved : (s.load c).1.saved = c := (s.saved_load c).trans (SavedStack.withoutNames_of_nameFree hfree)
    rw [hsaved]
    exact ⟨rfl, SavedStack.exists_ofText_text hfree, SavedStack.ofText_text hfree⟩
  · have hfree := hw.nameFree
    have hfree' : t.saved.NameFree := by
      have hedit := Stack.nameFree_edit hfree (.setOverride id key value)
      rwa [Stack.edit, ht] at hedit
    rw [SavedStack.exists_ofText_text hfree, SavedStack.exists_ofText_text hfree', SavedStack.ofText_text hfree,
      SavedStack.ofText_text hfree']
    exact ⟨Stack.forall_singles_setOverride ht, Stack.forall_singles_setOverride ht⟩

end Session

/-! ### An entry with one number -/

/-- A stack with one override, a number. -/
def SavedStack.gained (x : Single) : SavedStack := ⟨false, true, [⟨"glow", .ofList [("gain", .float x)]⟩]⟩

/-- The text of such a stack, in which the number is written as a numeral. -/
def SavedStack.gainedText (numeral : String) : String :=
  "\x7b\"entries\": [\x7b\"name\": \"glow\", \"gain\": " ++ numeral ++ "\x7d]\x7d"

/-- The text of a catalog of one effect with one uniform, whose greatest value is written as a numeral. -/
def Catalog.gainedText (numeral : String) : String :=
  "\x7b\"effects\": \x7b\"glow\": \x7b\"uniforms\": \x7b\"gain\": \x7b\"uniform_name\": \"u_gain\", \"glsl_type\": \"float\", "
    ++ "\"max\": " ++ numeral ++ "\x7d\x7d\x7d\x7d\x7d"

theorem Catalog.exists_gained (numeral : String) (x : Single) (h : ((ofText ⟨0⟩ (gainedText numeral)).toOption.bind
    (·.effect? "glow")).map Effect.singles = some [x]) :
    ∃ c e, ofText ⟨0⟩ (gainedText numeral) = .ok c ∧ c.effect? "glow" = some e ∧ e.singles = [x] := by
  cases hc : ofText ⟨0⟩ (gainedText numeral) with
  | error b =>
    rw [hc] at h
    cases h
  | ok c =>
    rw [hc] at h
    obtain ⟨e, he, hsingles⟩ := Option.map_eq_some_iff.mp h
    exact ⟨c, e, rfl, he, hsingles⟩

/-- A session whose stack has one entry without overrides. -/
def Session.bare : Session := ⟨.initial, (Stack.new (.fixed (.zero, .zero))).edit (.add "glow")⟩

theorem Session.reloaded_gained :
    let tenth : Single := ⟨0x3dcccccd⟩
    SavedStack.ofText (SavedStack.gainedText "0.1") = .ok (.gained tenth) ∧
      SavedStack.ofText (bare.stack.load (.gained tenth)).1.saved.text = .ok (.gained tenth) ∧
      bare.Reachable ∧ SavedStack.ofText bare.stack.saved.text = .ok bare.stack.saved ∧
      (∃ t, bare.stack.setOverride ⟨1⟩ "gain" (.float tenth) = .ok t ∧
        SavedStack.ofText t.saved.text = .ok t.saved) ∧
      ∃ c e, Catalog.ofText ⟨0⟩ (Catalog.gainedText "0.1") = .ok c ∧ c.effect? "glow" = some e ∧ e.singles = [tenth] ∧
        Effect.ofText e.toJson.compact = .ok e := by
  intro tenth
  obtain ⟨loaded, overridden, -⟩ := reloaded (SavedStack.gainedText "0.1")
  obtain ⟨-, -, defined⟩ := reloaded (Catalog.gainedText "0.1")
  have hread : ∀ x ∈ [tenth], x.ReadsBack := by decide +kernel
  have htext : SavedStack.ofText (SavedStack.gainedText "0.1") = .ok (.gained tenth) := by decide +kernel
  have hbare : bare.Reachable := .edit (.add "glow") (.start _)
  have hsaved : SavedStack.ofText bare.stack.saved.text = .ok bare.stack.saved := by decide +kernel
  obtain ⟨c, e, hc, he, hsingles⟩ := Catalog.exists_gained "0.1" tenth (by decide +kernel)
  refine ⟨htext, (loaded _ htext bare.stack).2.2.mpr hread, hbare, hsaved, ⟨_, rfl, ?_⟩, c, e, hc, he, hsingles, ?_⟩
  · exact ((overridden bare hbare ⟨1⟩ "gain" (.float tenth) _ rfl).2 hsaved).mpr hread
  · exact (defined ⟨0⟩ c "glow" e hc he).mpr (hsingles ▸ hread)

/-- A numeral beyond the singles is read as infinity. The text that is saved then has no number in its place and is
    not read again, and the definition of an effect is not read back. -/
theorem Session.infinity_lost :
    let infinity : Single := ⟨0x7f800000⟩
    SavedStack.ofText (SavedStack.gainedText "1e39") = .ok (.gained infinity) ∧
      SavedStack.ofText (bare.stack.load (.gained infinity)).1.saved.text = .error .shapeless ∧
      ∃ c e, Catalog.ofText ⟨0⟩ (Catalog.gainedText "1e39") = .ok c ∧ c.effect? "glow" = some e ∧
        e.singles = [infinity] ∧ Effect.ofText e.toJson.compact ≠ .ok e := by
  intro infinity
  obtain ⟨c, e, hc, he, hsingles⟩ := Catalog.exists_gained "1e39" infinity (by decide +kernel)
  refine ⟨by decide +kernel, by decide +kernel, c, e, hc, he, hsingles, fun hback => ?_⟩
  have hread := (Catalog.ofText_toJson hc he).mp hback infinity (hsingles ▸ List.mem_singleton_self _)
  exact absurd hread.1 (by decide)

end FxStack
