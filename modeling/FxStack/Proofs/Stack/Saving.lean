import FxStack.Proofs.Stack.Edit
import FxStack.Proofs.Uniform.Text

/-! Saving a stack and loading it again. The members of an entry are its name and its overrides, each under its own
    key, so an entry is read back from its text as long as no override takes the key of the name and the singles are
    read back, and it is read at all as long as they are finite. Main statements: `SavedStack.ofText_text`,
    `SavedStack.exists_ofText_text` and `Stack.load_lossless`. -/

namespace FxStack

/-! ### Entries -/

namespace SavedEntry

def singles (e : SavedEntry) : List Single := e.overrides.toList.flatMap fun o => o.2.singles

/-- No override is under the key of the name. -/
def NameFree (e : SavedEntry) : Prop := ∀ o ∈ e.overrides.toList, o.1 ≠ Wording.entryNameKey

theorem decodeOverrides_eq_ok {es : List (String × Json)} : ∀ {m m' : KeyMap Value},
    decodeOverrides m es = .ok m' ↔
      ∃ ds : List (String × Value), List.Forall₂ (fun e d => e.1 = d.1 ∧ Value.ofShape? e.2 = some d.2) es ds ∧
        m' = ds.foldl (fun m d => m.insert d.1 d.2) m := by
  induction es with
  | nil => simp [decodeOverrides, eq_comm]
  | cons e es ih =>
    intro m m'
    rw [decodeOverrides]
    cases hv : Value.ofShape? e.2 with
    | none => simp [List.forall₂_cons_left_iff, hv]
    | some v =>
      simp only [ih, List.forall₂_cons_left_iff, hv, Option.some.injEq]
      constructor
      · rintro ⟨ds, hds, rfl⟩
        exact ⟨(e.1, v) :: ds, ⟨(e.1, v), ds, ⟨rfl, rfl⟩, hds, rfl⟩, rfl⟩
      · rintro ⟨_, ⟨⟨k, v⟩, ds, ⟨rfl, rfl⟩, hds, rfl⟩, rfl⟩
        exact ⟨ds, hds, rfl⟩

theorem exists_decodeOverrides {es : List (String × Json)} {m : KeyMap Value} :
    (∃ m', decodeOverrides m es = .ok m') ↔ ∀ e ∈ es, ∃ v, Value.ofShape? e.2 = some v := by
  have heach : ∀ e : String × Json, (∃ v, Value.ofShape? e.2 = some v) ↔
      ∃ d : String × Value, e.1 = d.1 ∧ Value.ofShape? e.2 = some d.2 := by simp
  simp only [heach, ← Json.exists_forall₂, decodeOverrides_eq_ok]
  constructor
  · rintro ⟨_, ds, hds, -⟩
    exact ⟨ds, hds⟩
  · rintro ⟨ds, hds⟩
    exact ⟨_, ds, hds, rfl⟩

/-- The members after those of which `name`, if it was among them, and `read` have been kept. -/
theorem decodeMembers_eq_ok {depth : Nat} {e : SavedEntry} {es : List (String × Json)} :
    ∀ {name : Option String} {read : List (String × Json)}, decodeMembers depth name read (Json.membersOf es) = .ok e ↔
      (name.map Json.string).toList ++ Json.valuesOf Wording.entryNameKey es = [.string e.name] ∧
        (∀ m ∈ es, m.1 ≠ Wording.entryNameKey → m.2.keep depth = .ok ()) ∧
        decodeOverrides .empty (read ++ es.filter (·.1 ≠ Wording.entryNameKey)) = .ok e.overrides := by
  induction es with
  | nil =>
    intro name read
    obtain ⟨n, os⟩ := e
    cases name with
    | none => simp [decodeMembers]
    | some name =>
      simp only [Json.membersOf_nil, decodeMembers, Json.bind_eq_ok]
      simp [pure, Except.pure, and_comm]
  | cons m es ih =>
    intro name read
    rw [Json.membersOf_cons, decodeMembers, List.forall_mem_cons, Json.valuesOf_cons]
    by_cases hkey : m.1 = Wording.entryNameKey
    · rw [if_pos hkey, if_pos hkey, List.filter_cons_of_neg (by simpa using hkey)]
      cases name with
      | some name => simp
      | none => simp [Json.bind_eq_ok, Json.decodeString_eq_ok, ih, hkey, and_assoc]
    · rw [if_neg hkey, if_neg hkey, List.filter_cons_of_pos (by simpa using hkey)]
      cases hkeep : m.2.keep depth with
      | error b => simp [hkey]
      | ok u => simp [ih, hkey]

/-- An entry is read from nothing but a whole object, without a garbled key and closed. -/
theorem exists_membersOf {depth : Nat} {e : SavedEntry} : ∀ (ms : Members) {name : Option String}
    {read : List (String × Json)}, decodeMembers depth name read ms = .ok e → ∃ es, ms = Json.membersOf es
  | .done, _, _, _ => ⟨[], rfl⟩
  | .cut b, _, _, h | .noKey b _, _, _, h => by
    rw [decodeMembers] at h
    cases h
  | .member none j rest, _, _, h => by
    rw [decodeMembers] at h
    cases h
  | .member (some k) j rest, name, read, h => by
    suffices hrest : ∃ es, rest = Json.membersOf es by
      obtain ⟨es, rfl⟩ := hrest
      exact ⟨(k, j) :: es, rfl⟩
    rw [decodeMembers] at h
    split at h
    · split at h
      · cases h
      · obtain ⟨n, -, h⟩ := Json.bind_eq_ok.mp h
        exact exists_membersOf rest h
    · split at h
      · exact exists_membersOf rest h
      · cases h

theorem exists_record {depth : Nat} {j : Json} {e : SavedEntry} (h : decode depth j = .ok e) : ∃ ms, j = .record ms := by
  unfold decode at h
  split at h
  · next ms =>
    obtain ⟨es, rfl⟩ := exists_membersOf ms h
    exact ⟨es, rfl⟩
  · cases h

/-- The name is read from its one member, and the other members are kept and become the overrides. -/
theorem decode_record {depth : Nat} {e : SavedEntry} {ms : List (String × Json)} : decode depth (.record ms) = .ok e ↔
    Json.valuesOf Wording.entryNameKey ms = [.string e.name] ∧
      (∀ m ∈ ms, m.1 ≠ Wording.entryNameKey → m.2.keep (depth + 1) = .ok ()) ∧
      decodeOverrides .empty (ms.filter (·.1 ≠ Wording.entryNameKey)) = .ok e.overrides := by
  have hmembers := @decodeMembers_eq_ok (depth + 1) e ms none []
  rwa [Option.map_none, Option.toList_none, List.nil_append, List.nil_append] at hmembers

section
variable {e : SavedEntry} (h : e.NameFree) {depth : Nat}
include h

theorem decode_toJson_eq_ok {d : SavedEntry} : decode depth e.toJson = .ok d ↔
    (∀ o ∈ e.overrides.toList, o.2.toJson.keep (depth + 1) = .ok ()) ∧ d.name = e.name ∧
      decodeOverrides .empty (e.overrides.map Value.toJson).toList = .ok d.overrides := by
  have hkeys : ∀ m ∈ (e.overrides.map Value.toJson).toList, m.1 ≠ Wording.entryNameKey := by
    intro m hm
    obtain ⟨o, ho, rfl⟩ := List.mem_map.mp hm
    exact h o ho
  have hname : Json.valuesOf Wording.entryNameKey (e.overrides.map Value.toJson).toList = [] := by
    unfold Json.valuesOf
    rw [List.map_eq_nil_iff, List.filter_eq_nil_iff]
    simpa using hkeys
  have hkeep : (∀ m ∈ (e.overrides.map Value.toJson).toList, m.1 ≠ Wording.entryNameKey → m.2.keep (depth + 1) = .ok ()) ↔
      ∀ o ∈ e.overrides.toList, o.2.toJson.keep (depth + 1) = .ok () :=
    (forall₂_congr fun m hm => imp_iff_right (hkeys m hm)).trans List.forall_mem_map
  rw [toJson, decode_record, Json.valuesOf_cons, if_pos rfl, hname, List.forall_mem_cons, hkeep,
    List.filter_cons_of_neg (by simp), List.filter_eq_self.mpr fun m hm => by simpa using hkeys m hm]
  simp [eq_comm, and_left_comm]

/-- An entry is read back if its singles are. -/
theorem decode_toJson (hdepth : depth + 1 < Json.depthLimit) :
    decode depth e.toJson = .ok e ↔ ∀ x ∈ e.singles, x.ReadsBack := by
  have hoverrides : decodeOverrides .empty (e.overrides.map Value.toJson).toList = .ok e.overrides ↔
      ∀ o ∈ e.overrides.toList, Value.ofShape? o.2.toJson = some o.2 :=
    decodeOverrides_eq_ok.trans (Json.exists_eq_ofList (R := fun j v => Value.ofShape? j = some v))
  rw [decode_toJson_eq_ok h, hoverrides, singles, List.forall_mem_flatMap]
  simp only [Value.ofShape?_toJson, true_and]
  exact and_iff_right_of_imp fun hread o ho => Value.keep_toJson (fun x hx => (hread o ho x hx).1) hdepth

/-- An entry is read if its singles are finite. -/
theorem exists_decode_toJson (hdepth : depth + 1 < Json.depthLimit) :
    (∃ d, decode depth e.toJson = .ok d) ↔ ∀ x ∈ e.singles, x.isFinite = true := by
  have hoverrides : (∃ m, decodeOverrides .empty (e.overrides.map Value.toJson).toList = .ok m) ↔
      ∀ o ∈ e.overrides.toList, ∀ x ∈ o.2.singles, x.isFinite = true := by
    rw [exists_decodeOverrides, KeyMap.map, List.forall_mem_map]
    exact forall₂_congr fun o _ => Value.exists_ofShape?_toJson
  simp only [decode_toJson_eq_ok h]
  rw [singles, List.forall_mem_flatMap, ← hoverrides]
  constructor
  · rintro ⟨d, -, -, hd⟩
    exact ⟨_, hd⟩
  · rintro ⟨m, hm⟩
    exact ⟨⟨e.name, m⟩, fun o ho => Value.keep_toJson (hoverrides.mp ⟨m, hm⟩ o ho) hdepth, rfl, hm⟩

end

theorem whole_toJson (e : SavedEntry) : e.toJson.Whole := by
  refine Json.whole_record.mpr fun m hm => ?_
  rcases List.mem_cons.mp hm with rfl | hm
  · trivial
  · obtain ⟨o, -, rfl⟩ := List.mem_map.mp hm
    exact Value.whole_toJson o.2

end SavedEntry

/-! ### Stacks -/

namespace SavedStack

def singles (c : SavedStack) : List Single := c.entries.flatMap SavedEntry.singles

def NameFree (c : SavedStack) : Prop := ∀ e ∈ c.entries, e.NameFree

theorem decode_toJson_eq_ok {c d : SavedStack} : decode c.toJson = .ok d ↔
    d.antialias = c.antialias ∧ d.filter = c.filter ∧
      List.Forall₂ (fun e f => SavedEntry.decode 2 e.toJson = .ok f) c.entries d.entries := by
  have hentries : ∀ es, Json.decodeList (SavedEntry.decode 2) (.list (c.entries.map SavedEntry.toJson)) = .ok es ↔
      List.Forall₂ (fun e f => SavedEntry.decode 2 e.toJson = .ok f) c.entries es := by
    intro es
    exact Json.decodeItems_itemsOf.trans List.forall₂_map_left_iff
  unfold decode toJson
  simp only [Json.record, Json.RecordDecoder.decode, Json.bind_eq_ok]
  rw [← hentries]
  constructor
  · rintro ⟨draft, hdraft, hd⟩
    rw [Json.RecordDecoder.decodeMembers_field rfl rfl] at hdraft
    obtain ⟨_, ha, hdraft⟩ := hdraft
    rw [Json.RecordDecoder.decodeMembers_field rfl rfl] at hdraft
    obtain ⟨_, hf, hdraft⟩ := hdraft
    rw [Json.RecordDecoder.decodeMembers_field rfl rfl] at hdraft
    obtain ⟨es, he, hdraft⟩ := hdraft
    rw [Json.RecordDecoder.decodeMembers_nil] at hdraft
    subst hdraft
    cases ha
    cases hf
    cases hd
    exact ⟨rfl, rfl, he⟩
  · rintro ⟨ha, hf, he⟩
    obtain ⟨a, f, es⟩ := d
    obtain rfl := ha
    obtain rfl := hf
    refine ⟨⟨some c.antialias, some c.filter, some es⟩, ?_, rfl⟩
    rw [Json.RecordDecoder.decodeMembers_field rfl rfl]
    refine ⟨_, rfl, ?_⟩
    rw [Json.RecordDecoder.decodeMembers_field rfl rfl]
    refine ⟨_, rfl, ?_⟩
    rw [Json.RecordDecoder.decodeMembers_field rfl rfl]
    exact ⟨_, he, Json.RecordDecoder.decodeMembers_nil.mpr rfl⟩

theorem whole_toJson (c : SavedStack) : c.toJson.Whole := by
  refine Json.whole_record.mpr ?_
  simp only [List.forall_mem_cons, Json.whole_list, List.forall_mem_map]
  exact ⟨trivial, trivial, fun e _ => e.whole_toJson, nofun⟩

section
variable {c : SavedStack}

theorem ofText_text_eq_decode : ofText c.text = decode c.toJson :=
  Json.decodeDocument_of_read (Json.read_pretty c.whole_toJson)

variable (h : c.NameFree)
include h

/-- A saved stack is read back from its text if its singles are. -/
theorem ofText_text : ofText c.text = .ok c ↔ ∀ x ∈ c.singles, x.ReadsBack := by
  rw [ofText_text_eq_decode, decode_toJson_eq_ok, List.forall₂_same, singles, List.forall_mem_flatMap]
  simp only [true_and]
  exact forall₂_congr fun e he => SavedEntry.decode_toJson (h e he) (by decide)

/-- A saved stack is read from its text if its singles are finite. -/
theorem exists_ofText_text : (∃ d, ofText c.text = .ok d) ↔ ∀ x ∈ c.singles, x.isFinite = true := by
  have hentries : (∃ es, List.Forall₂ (fun e f => SavedEntry.decode 2 e.toJson = .ok f) c.entries es) ↔
      ∀ x ∈ c.singles, x.isFinite = true := by
    rw [Json.exists_forall₂, singles, List.forall_mem_flatMap]
    exact forall₂_congr fun e he => SavedEntry.exists_decode_toJson (h e he) (by decide)
  rw [ofText_text_eq_decode, ← hentries]
  simp only [decode_toJson_eq_ok]
  constructor
  · rintro ⟨d, -, -, hd⟩
    exact ⟨_, hd⟩
  · rintro ⟨es, hes⟩
    exact ⟨⟨c.antialias, c.filter, es⟩, rfl, rfl, hes⟩

end

/-- The saved stack without the overrides under the key of the name. -/
def withoutNames (c : SavedStack) : SavedStack :=
  { c with entries := c.entries.map fun e => { e with overrides := e.overrides.erase Wording.entryNameKey } }

theorem nameFree_withoutNames (c : SavedStack) : c.withoutNames.NameFree := by
  intro e he
  obtain ⟨d, -, rfl⟩ := List.mem_map.mp he
  intro o ho
  simpa using (List.mem_filter.mp ho).2

theorem withoutNames_of_nameFree {c : SavedStack} (h : c.NameFree) : c.withoutNames = c := by
  have herase : ∀ e ∈ c.entries, e.overrides.erase Wording.entryNameKey = e.overrides := fun e he =>
    KeyMap.ext (List.filter_eq_self.mpr fun o ho => by simpa using h e he o ho)
  unfold withoutNames
  rw [List.map_congr_left fun e he => congrArg (SavedEntry.mk e.name) (herase e he), List.map_id']

theorem singles_withoutNames_subset (c : SavedStack) : c.withoutNames.singles ⊆ c.singles := by
  intro x hx
  obtain ⟨e, he, hx⟩ := List.mem_flatMap.mp hx
  obtain ⟨d, hd, rfl⟩ := List.mem_map.mp he
  obtain ⟨o, ho, hx⟩ := List.mem_flatMap.mp hx
  exact List.mem_flatMap.mpr ⟨d, hd, List.mem_flatMap.mpr ⟨o, (List.mem_filter.mp ho).1, hx⟩⟩

end SavedStack

namespace Stack

theorem saved_load (s : Stack) (c : SavedStack) : (s.load c).1.saved = c.withoutNames := by
  have hentries : ∀ (es : List SavedEntry) (number : Nat),
      (loadEntries number es).map (fun e => SavedEntry.mk e.name e.overrides) =
        es.map fun e => { e with overrides := e.overrides.erase Wording.entryNameKey } := by
    intro es
    induction es with
    | nil => exact fun _ => rfl
    | cons e es ih => exact fun number => congrArg (_ :: ·) (ih (number + 1))
  unfold saved load SavedStack.withoutNames
  dsimp only
  rw [hentries]

section
variable {s t : Stack}

theorem nameFree_saved :
    s.saved.NameFree ↔ ∀ e ∈ s.entries, ∀ o ∈ e.overrides.toList, o.1 ≠ Wording.entryNameKey :=
  List.forall_mem_map

theorem nameFree_of_subset (h : s.saved.NameFree) (hsub : t.entries ⊆ s.entries) : t.saved.NameFree :=
  nameFree_saved.mpr fun e he => nameFree_saved.mp h e (hsub he)

theorem nameFree_updateOverrides (h : s.saved.NameFree) (id : EntryId) (f : KeyMap Value → KeyMap Value)
    (hf : ∀ m : KeyMap Value, ∀ o ∈ (f m).toList, o ∈ m.toList ∨ o.1 ≠ Wording.entryNameKey) :
    (s.updateOverrides id f).saved.NameFree := by
  refine nameFree_saved.mpr fun e he o ho => ?_
  obtain ⟨d, hd, rfl⟩ := List.mem_map.mp he
  split at ho
  · rcases hf d.overrides o ho with ho | hkey
    · exact nameFree_saved.mp h d hd o ho
    · exact hkey
  · exact nameFree_saved.mp h d hd o ho

/-- No change gives an entry an override under the key of the name. -/
theorem nameFree_edit (h : s.saved.NameFree) (e : Edit) : (s.edit e).saved.NameFree := by
  cases e with
  | add name =>
    refine nameFree_saved.mpr fun e he => ?_
    rcases List.mem_append.mp he with he | he
    · exact nameFree_saved.mp h e he
    · obtain rfl := List.mem_singleton.mp he
      nofun
  | remove id =>
    refine nameFree_of_subset h ?_
    simp only [edit, remove]
    split
    · exact List.Subset.refl _
    · exact (List.eraseIdx_sublist _ _).subset
  | move id offset => exact nameFree_of_subset h (perm_move id offset).subset
  | clear =>
    refine nameFree_of_subset h ?_
    simp only [edit, clear]
    split
    · exact List.Subset.refl _
    · exact List.nil_subset _
  | markDirty => exact h
  | load c =>
    simp only [edit, saved_load]
    exact c.nameFree_withoutNames
  | setOverride id key value =>
    simp only [edit]
    cases ho : s.setOverride id key value with
    | error e => exact h
    | ok t =>
      obtain ⟨hkey, -, rfl⟩ := setOverride_eq_ok.mp ho
      refine nameFree_updateOverrides h id (fun m => m.insert key value) fun m o hm => ?_
      rcases KeyMap.key_of_mem_insertEntry hm with rfl | hm
      · exact Or.inr hkey
      · exact Or.inl hm
  | clearOverride id key =>
    exact nameFree_updateOverrides h id (fun m => m.erase key) fun m o hm => Or.inl (List.mem_filter.mp hm).1
  | setAntialias on => exact h
  | setFilter on => exact h
  | setRandom random => exact h

end

/-- Saving and loading keep everything but the overrides under the key of the name, which no stack can have: what is
    saved is what was loaded, the entries are new ones, and the text that is saved gives every stack that loads it
    the same flags, names and overrides, each override with the type that it had. -/
theorem load_lossless (c : SavedStack) (hfinite : ∀ x ∈ c.singles, x.isFinite = true)
    (hread : ∀ x ∈ c.singles, x.jsonNumeral.number?.map Number.toSingle = some x) (s : Stack) :
    let t := (s.load c).1
    t.saved = c.withoutNames ∧ t.dirty = true ∧
      (t.entries.map (·.id)).Nodup ∧ (∀ d ∈ t.entries, s.nextNumber ≤ d.id.number) ∧
      (s.Numbered → ∀ e ∈ s.entries, ∀ d ∈ t.entries, d.id ≠ e.id) ∧
      SavedStack.ofText t.saved.text = .ok t.saved ∧ ∀ u : Stack, (u.load t.saved).1.saved = t.saved := by
  intro t
  have hsaved : t.saved = c.withoutNames := saved_load s c
  have hfresh : ∀ d ∈ t.entries, s.nextNumber ≤ d.id.number := by
    intro d hd
    have hmem : d.id.number ∈ List.range' s.nextNumber c.entries.length :=
      map_number_loadEntries c.entries s.nextNumber ▸ List.mem_map_of_mem (f := fun e : Entry => e.id.number) hd
    exact (List.mem_range'_1.mp hmem).1
  refine ⟨hsaved, rfl, (Numbered.load s c).distinct, hfresh, fun hs e he d hd heq => ?_, ?_, fun u => ?_⟩
  · have hlt := hs.issued e he
    have hle := hfresh d hd
    rw [heq] at hle
    omega
  · rw [hsaved]
    refine (SavedStack.ofText_text c.nameFree_withoutNames).mpr fun x hx => ?_
    have hmem := c.singles_withoutNames_subset hx
    exact ⟨hfinite x hmem, hread x hmem⟩
  · rw [saved_load, hsaved, SavedStack.withoutNames_of_nameFree c.nameFree_withoutNames]

end Stack

/-- An entry with an override of every type and one under the key of the name, and an entry without overrides. -/
def SavedStack.assorted : SavedStack where
  antialias := true
  filter := false
  entries := [
    ⟨"tint", .ofList [("name", .texture "other"), ("on", .bool true), ("count", .int (-3)), ("gain", .float ⟨0x3dcccccd⟩),
      ("zero", .float ⟨0x80000000⟩), ("center", .vec2 .one ⟨0x7f7fffff⟩), ("scale", .vec3 .one .zero ⟨0x00000001⟩),
      ("color", .vec4 .one .one .zero ⟨0x3f000000⟩), ("map", .texture "a\"b\\\n")]⟩,
    ⟨"", .empty⟩]

theorem Stack.load_lossless_assorted :
    (∀ x ∈ SavedStack.assorted.singles, x.isFinite = true) ∧
      (∀ x ∈ SavedStack.assorted.singles, x.jsonNumeral.number?.map Number.toSingle = some x) ∧
      let t := ((Stack.new (.fixed (.zero, .zero))).load .assorted).1
      SavedStack.ofText t.saved.text = .ok t.saved ∧ t.override? ⟨1⟩ "count" = some (.int (-3)) ∧
        t.override? ⟨1⟩ "name" = none := by
  have hfinite : ∀ x ∈ SavedStack.assorted.singles, x.isFinite = true := by decide +kernel
  have hread : ∀ x ∈ SavedStack.assorted.singles, x.jsonNumeral.number?.map Number.toSingle = some x := by
    decide +kernel
  have h := load_lossless .assorted hfinite hread (Stack.new (.fixed (.zero, .zero)))
  exact ⟨hfinite, hread, h.2.2.2.2.2.1, rfl, rfl⟩

end FxStack
