import FxStack.Proofs.Frame.Application
import FxStack.Proofs.Stack.Saving

/-! Handles of entries over a whole run. The counter of a stack only goes up and every new handle has its number, so
    a handle is given out once, and an entry that is live before and after a run is the same one wherever it has been
    moved to. Main statement: `handles_kept`. -/

namespace FxStack
namespace Stack
variable {s t u : Stack}

/-! ### Runs -/

/-- The handles that a change gives out. -/
def given (s : Stack) : Edit → List EntryId
  | .add name => [(s.add name).1]
  | .load saved => (s.load saved).1.entries.map (·.id)
  | _ => []

/-- The change is of the override values of an entry. -/
def Edit.Overrides (id : EntryId) : Edit → Prop
  | .setOverride j _ _ | .clearOverride j _ => j = id
  | _ => False

/-- A stack is changed, compiled and applied, each time with any catalog, device and pool. The changes are listed,
    each with the handles that it has given out. -/
inductive Run (s : Stack) : List (Edit × List EntryId) → Stack → Prop
  | start : Run s [] s
  | edit {log : List (Edit × List EntryId)} {t : Stack} (e : Edit) :
      Run s log t → Run s (log ++ [(e, t.given e)]) (t.edit e)
  | compile {log : List (Edit × List EntryId)} {t : Stack} {δ : Type} [Device δ] (catalog : Catalog) (device : δ) :
      Run s log t → Run s log (t.compile catalog device).1
  | apply {log : List (Edit × List EntryId)} {t : Stack} {δ : Type} [Device δ] (catalog : Catalog) (device : δ)
      (pool : ScratchPool) (resolve : Resolver) (input : FrameInput) :
      Run s log t → Run s log (t.apply catalog device pool resolve input).stack

/-! ### Where entries come from -/

/-- `t` comes from `s` by changes that give out the handles `ids` and change override values of entries in
    `touched` only: an entry is a new one, or one of `s` with its name. -/
structure Evolves (touched : EntryId → Prop) (ids : List EntryId) (s t : Stack) : Prop where
  nextNumber : s.nextNumber ≤ t.nextNumber
  fresh : ∀ id ∈ ids, s.nextNumber ≤ id.number ∧ id.number < t.nextNumber
  distinct : ids.Nodup
  origin : ∀ e ∈ t.entries, e.id ∈ ids ∨
    ∃ d ∈ s.entries, d.id = e.id ∧ d.name = e.name ∧ (touched d.id ∨ d.overrides = e.overrides)

namespace Evolves
variable {touched touched' : EntryId → Prop} {ids ids' : List EntryId}

/-- Without new handles, entries that are kept as they are count in whatever order. -/
theorem of_subset (hn : t.nextNumber = s.nextNumber) (hsub : t.entries ⊆ s.entries) : Evolves touched [] s t :=
  ⟨Nat.le_of_eq hn.symm, nofun, .nil, fun e he => Or.inr ⟨e, hsub he, rfl, rfl, Or.inr rfl⟩⟩

theorem refl (s : Stack) : Evolves touched [] s s := .of_subset rfl fun _ he => he

theorem mono (h : Evolves touched ids s t) (himp : ∀ id, touched id → touched' id) : Evolves touched' ids s t := by
  refine ⟨h.nextNumber, h.fresh, h.distinct, fun e he => (h.origin e he).imp_right ?_⟩
  rintro ⟨d, hd, hid, hname, hvalues⟩
  exact ⟨d, hd, hid, hname, hvalues.imp_left (himp _)⟩

theorem trans (h : Evolves touched ids s t) (h' : Evolves touched ids' t u) : Evolves touched (ids ++ ids') s u := by
  refine ⟨Nat.le_trans h.nextNumber h'.nextNumber, fun id hid => ?_, ?_, fun e he => ?_⟩
  · rcases List.mem_append.mp hid with hid | hid
    · exact ⟨(h.fresh id hid).1, Nat.lt_of_lt_of_le (h.fresh id hid).2 h'.nextNumber⟩
    · exact ⟨Nat.le_trans h.nextNumber (h'.fresh id hid).1, (h'.fresh id hid).2⟩
  · refine List.nodup_append.mpr ⟨h.distinct, h'.distinct, fun id hid id' hid' heq => ?_⟩
    have hlt := (h.fresh id hid).2
    have hle := (h'.fresh id' hid').1
    rw [heq] at hlt
    exact Nat.lt_irrefl _ (Nat.lt_of_lt_of_le hlt hle)
  · rcases h'.origin e he with hid | ⟨d, hd, hid, hname, hvalues⟩
    · exact Or.inl (List.mem_append_right ids hid)
    · rcases h.origin d hd with hid' | ⟨c, hc, hid', hname', hvalues'⟩
      · exact Or.inl (List.mem_append_left ids' (hid ▸ hid'))
      · refine Or.inr ⟨c, hc, hid'.trans hid, hname'.trans hname, ?_⟩
        rcases hvalues' with htouched | hvalues'
        · exact Or.inl htouched
        · exact hvalues.imp (fun htouched => hid' ▸ htouched) hvalues'.trans

theorem of_eq (h : Evolves touched ids s t) (he : u.entries = t.entries) (hn : u.nextNumber = t.nextNumber) :
    Evolves touched ids s u := by
  refine ⟨by rw [hn]; exact h.nextNumber, fun id hid => by rw [hn]; exact h.fresh id hid, h.distinct, ?_⟩
  rw [he]
  exact h.origin

/-- An entry with a handle of before is an entry of before. -/
theorem origin_of_lt (h : Evolves touched ids s t) {e : Entry} (he : e ∈ t.entries) (hlt : e.id.number < s.nextNumber) :
    ∃ d ∈ s.entries, d.id = e.id ∧ d.name = e.name ∧ (touched d.id ∨ d.overrides = e.overrides) :=
  (h.origin e he).resolve_left fun hid => absurd (h.fresh _ hid).1 (Nat.not_le.mpr hlt)

theorem updateOverrides (s : Stack) (id : EntryId) (f : KeyMap Value → KeyMap Value) :
    Evolves (id = ·) [] s (s.updateOverrides id f) := by
  refine ⟨Nat.le_refl _, nofun, .nil, fun e he => Or.inr ?_⟩
  obtain ⟨d, hd, rfl⟩ := List.mem_map.mp he
  split
  · next hid => exact ⟨d, hd, rfl, rfl, Or.inl hid.symm⟩
  · exact ⟨d, hd, rfl, rfl, Or.inr rfl⟩

theorem add (s : Stack) (name : String) : Evolves touched [(s.add name).1] s (s.add name).2 := by
  refine ⟨Nat.le_succ _, fun id hid => ?_, List.nodup_singleton _, fun e he => ?_⟩
  · obtain rfl := List.mem_singleton.mp hid
    exact ⟨Nat.le_refl _, Nat.lt_succ_self _⟩
  · rcases List.mem_append.mp he with he | he
    · exact Or.inr ⟨e, he, rfl, rfl, Or.inr rfl⟩
    · obtain rfl := List.mem_singleton.mp he
      exact Or.inl List.mem_cons_self

theorem load (s : Stack) (saved : SavedStack) :
    Evolves touched ((s.load saved).1.entries.map (·.id)) s (s.load saved).1 := by
  have hnumbers := map_number_loadEntries saved.entries s.nextNumber
  refine ⟨Nat.le_add_right _ _, fun id hid => ?_, (Numbered.load s saved).distinct,
    fun e he => Or.inl (List.mem_map_of_mem he)⟩
  obtain ⟨e, he, rfl⟩ := List.mem_map.mp hid
  have hmem : e.id.number ∈ List.range' s.nextNumber saved.entries.length :=
    hnumbers ▸ List.mem_map_of_mem (f := fun e : Entry => e.id.number) he
  exact List.mem_range'_1.mp hmem

theorem edit (s : Stack) (e : Edit) : Evolves (e.Overrides ·) (s.given e) s (s.edit e) := by
  cases e with
  | add name => exact .add s name
  | remove id =>
    simp only [Stack.edit, Stack.remove]
    split
    · exact .refl s
    · exact .of_subset rfl (List.eraseIdx_sublist _ _).subset
  | move id offset => exact .of_subset (nextNumber_move id offset) (perm_move id offset).subset
  | clear =>
    simp only [Stack.edit, Stack.clear]
    split
    · exact .refl s
    · exact .of_subset rfl (List.nil_subset _)
  | markDirty => exact .of_subset rfl fun _ he => he
  | load saved => exact .load s saved
  | setOverride id key value =>
    simp only [Stack.edit]
    cases ho : s.setOverride id key value with
    | error e => exact .refl s
    | ok t =>
      obtain ⟨-, -, rfl⟩ := setOverride_eq_ok.mp ho
      exact .updateOverrides s id fun m => m.insert key value
  | clearOverride id key => exact .updateOverrides s id fun m => m.erase key
  | setAntialias on => exact .of_subset rfl fun _ he => he
  | setFilter on => exact .of_subset rfl fun _ he => he
  | setRandom random => exact .of_subset rfl fun _ he => he

end Evolves

/-! ### Over a run -/

namespace Run
variable {log more : List (Edit × List EntryId)}

theorem evolves (h : Run s log t) :
    Evolves (fun id => ∃ x ∈ log, x.1.Overrides id) (log.flatMap (·.2)) s t := by
  induction h with
  | start => exact .refl s
  | @edit log t e _ ih =>
    rw [List.flatMap_append, List.flatMap_singleton]
    refine (ih.mono fun id ⟨x, hx, hid⟩ => ⟨x, List.mem_append_left _ hx, hid⟩).trans ((Evolves.edit t e).mono ?_)
    exact fun id hid => ⟨_, List.mem_append_right _ List.mem_cons_self, hid⟩
  | compile catalog device _ ih => exact ih.of_eq rfl rfl
  | @apply log t δ _ catalog device pool resolve input _ ih =>
    exact ih.of_eq (t.entries_apply catalog device pool resolve input)
      (t.nextNumber_apply catalog device pool resolve input)

theorem numbered (h : Run s log t) (hs : Numbered s) : Numbered t := by
  induction h with
  | start => exact hs
  | edit e _ ih => exact ih.edit e
  | compile catalog device _ ih => exact ih.of_eq rfl rfl
  | @apply log t δ _ catalog device pool resolve input _ ih =>
    exact ih.of_eq (t.entries_apply catalog device pool resolve input)
      (t.nextNumber_apply catalog device pool resolve input)

theorem nameFree (h : Run s log t) (hs : s.saved.NameFree) : t.saved.NameFree := by
  induction h with
  | start => exact hs
  | edit e _ ih => exact nameFree_edit ih e
  | compile catalog device _ ih => exact ih
  | @apply log t δ _ catalog device pool resolve input _ ih =>
    refine nameFree_of_subset ih ?_
    rw [t.entries_apply]
    exact List.Subset.refl _

end Run

/-! ### Finding entries -/

section
variable {id : EntryId}

theorem entryOf?_eq_bind (s : Stack) (id : EntryId) : s.entryOf? id = (s.indexOf? id).bind s.entryAt? := by
  unfold entryOf? indexOf? entryAt?
  rw [List.find?_eq_bind_findIdx?_getElem?]

theorem mem_of_entryOf? {e : Entry} (h : s.entryOf? id = some e) : e ∈ s.entries ∧ e.id = id :=
  ⟨List.mem_of_find?_eq_some h, by simpa using List.find?_some h⟩

theorem entryOf?_eq_none : s.entryOf? id = none ↔ ∀ e ∈ s.entries, e.id ≠ id := by simp [entryOf?]

theorem Numbered.indexOf?_eq_some (h : s.Numbered) {i : Nat} :
    s.indexOf? id = some i ↔ (s.entryAt? i).map (·.id) = some id := by
  unfold indexOf? entryAt?
  rw [List.findIdx?_eq_some_iff_getElem, Option.map_eq_some_iff]
  constructor
  · rintro ⟨hlt, hid, -⟩
    exact ⟨s.entries[i], List.getElem?_eq_getElem hlt, by simpa using hid⟩
  · rintro ⟨e, he, rfl⟩
    obtain ⟨hlt, rfl⟩ := List.getElem?_eq_some_iff.mp he
    refine ⟨hlt, by simp, fun j hj hid => ?_⟩
    -- An earlier entry with the handle would be the same one.
    have hne := List.pairwise_iff_getElem.mp (List.pairwise_map.mp h.distinct) j i (by omega) hlt hj
    exact hne (by simpa using hid)

/-! ### Handles of no entry -/

theorem updateOverrides_of_none (h : s.entryOf? id = none) (f : KeyMap Value → KeyMap Value) :
    s.updateOverrides id f = s := by
  have hmap : s.entries.map (fun e => if e.id = id then { e with overrides := f e.overrides } else e) = s.entries := by
    refine (List.map_congr_left fun e he => ?_).trans (List.map_id' _)
    rw [if_neg (entryOf?_eq_none.mp h e he)]
  unfold updateOverrides
  rw [hmap]

theorem setOverride_of_none (h : s.entryOf? id = none) (key : String) (value : Value) :
    s.setOverride id key value =
      .error (if key = Wording.entryNameKey then .invalidUniform key .reservedKey else .unknownEntry id) := by
  unfold setOverride
  rw [h]
  split <;> rfl

theorem remove_of_none (h : s.indexOf? id = none) : s.remove id = (none, s) := by
  unfold remove
  rw [h]

theorem move_of_none (h : s.indexOf? id = none) (offset : Int) : s.move id offset = (none, s) := by
  unfold move
  rw [h]

theorem clearOverride_of_none (h : s.entryOf? id = none) (key : String) : s.clearOverride id key = (none, s) := by
  unfold clearOverride override?
  rw [h, updateOverrides_of_none h]
  rfl

end

/-- A handle is given out once in the life of a stack, so the entries have different handles, all of them given out,
    and no override under the key of the name. The three ways to find an entry agree. A handle of no entry is told
    so and changes nothing. In every later run a handle is not given out again and does not come back to life, and
    as long as it is live its entry keeps its name, and its overrides but for changes of them. -/
theorem handles_kept {random : Generator} {log : List (Edit × List EntryId)} {s : Stack}
    (h : Run (.new random) log s) :
    let issued := log.flatMap (·.2)
    (issued.Nodup ∧ (s.entries.map (·.id)).Nodup ∧ ∀ e ∈ s.entries, e.id ∈ issued) ∧
    (∀ e ∈ s.entries, e.overrides.get? Wording.entryNameKey = none) ∧
    (∀ id, s.entryOf? id = (s.indexOf? id).bind s.entryAt? ∧
      ∀ i, s.indexOf? id = some i ↔ (s.entryAt? i).map (·.id) = some id) ∧
    (∀ id, s.entryOf? id = none →
      s.indexOf? id = none ∧ s.remove id = (none, s) ∧ (∀ offset, s.move id offset = (none, s)) ∧
      (∀ key, s.clearOverride id key = (none, s)) ∧
      ∀ key value, s.edit (.setOverride id key value) = s ∧ s.setOverride id key value =
        .error (if key = Wording.entryNameKey then .invalidUniform key .reservedKey else .unknownEntry id)) ∧
    ∀ more t, Run s more t → ∀ id ∈ issued,
      id ∉ more.flatMap (·.2) ∧ (s.entryOf? id = none → t.entryOf? id = none) ∧
      ∀ e e', s.entryOf? id = some e → t.entryOf? id = some e' →
        e'.name = e.name ∧ ((∀ x ∈ more, ¬x.1.Overrides id) → e'.overrides = e.overrides) := by
  intro issued
  have past := h.evolves
  have numbered := h.numbered (.new random)
  refine ⟨⟨past.distinct, numbered.distinct, fun e he => ?_⟩, fun e he => ?_,
    fun id => ⟨s.entryOf?_eq_bind id, fun i => numbered.indexOf?_eq_some⟩, fun id hid => ?_,
    fun more t later id hissued => ?_⟩
  · -- The new stack has no entries, so every entry comes from a change.
    exact (past.origin e he).resolve_right nofun
  · refine List.lookup_eq_none_iff.mpr fun o ho => ?_
    have hkey := nameFree_saved.mp (h.nameFree nofun) e he o ho
    simpa using hkey.symm
  · have hindex : s.indexOf? id = none := List.findIdx?_eq_none_iff.mpr (by simpa using entryOf?_eq_none.mp hid)
    refine ⟨hindex, remove_of_none hindex, move_of_none hindex, clearOverride_of_none hid, fun key value => ?_⟩
    have hset := setOverride_of_none hid key value
    exact ⟨by rw [edit, hset]; rfl, hset⟩
  · have future := later.evolves
    have hlt : id.number < s.nextNumber := (past.fresh id hissued).2
    refine ⟨fun hagain => absurd (future.fresh id hagain).1 (Nat.not_le.mpr hlt), fun hdead => ?_,
      fun e e' he he' => ?_⟩
    · refine entryOf?_eq_none.mpr fun e' he' heq => ?_
      obtain ⟨d, hd, hid, -⟩ := future.origin_of_lt he' (heq ▸ hlt)
      exact entryOf?_eq_none.mp hdead d hd (hid.trans heq)
    · obtain ⟨hmem, rfl⟩ := mem_of_entryOf? he'
      obtain ⟨d, hd, hid, hname, hvalues⟩ := future.origin_of_lt hmem hlt
      -- The entry that it comes from is the one that has the handle.
      rw [← hid, numbered.entryOf?_of_mem hd] at he
      obtain rfl := Option.some.inj he
      refine ⟨hname.symm, fun untouched => (hvalues.resolve_left ?_).symm⟩
      rintro ⟨x, hx, hover⟩
      exact untouched x hx (hid ▸ hover)

/-- Of two entries the first is removed; the second gets a value and is moved, and another one is added. -/
theorem handles_kept_removed :
    let value := Value.bool true
    let s := (((((Stack.new (.fixed (.zero, .zero))).edit (.add "ripple")).edit (.add "wave")).edit
      (.setOverride ⟨2⟩ "amount" value)).edit (.remove ⟨1⟩))
    let t := (s.edit (.add "ripple")).edit (.move ⟨2⟩ 1)
    let log := [(.add "ripple", [⟨1⟩]), (.add "wave", [⟨2⟩]), (.setOverride ⟨2⟩ "amount" value, []), (.remove ⟨1⟩, [])]
    let more := [(.add "ripple", [⟨3⟩]), (.move ⟨2⟩ 1, [])]
    Run (.new (.fixed (.zero, .zero))) log s ∧ Run s more t ∧ s.entryOf? ⟨1⟩ = none ∧
      s.setOverride ⟨1⟩ "name" value = .error (.invalidUniform "name" .reservedKey) ∧ t.entryOf? ⟨1⟩ = none ∧
      ∃ e', t.entryOf? ⟨2⟩ = some e' ∧ t.indexOf? ⟨2⟩ = some 1 ∧ e'.name = "wave" ∧
        e'.overrides = KeyMap.empty.insert "amount" value := by
  intro value s t log more
  have past : Run (.new (.fixed (.zero, .zero))) log s :=
    (((Run.start.edit (.add "ripple")).edit (.add "wave")).edit (.setOverride ⟨2⟩ "amount" value)).edit (.remove ⟨1⟩)
  have later : Run s more t := (Run.start.edit (.add "ripple")).edit (.move ⟨2⟩ 1)
  have dead : s.entryOf? ⟨1⟩ = none := rfl
  obtain ⟨-, -, -, told, kept⟩ := handles_kept past
  obtain ⟨-, gone, -⟩ := kept more t later ⟨1⟩ (by decide)
  obtain ⟨-, -, same⟩ := kept more t later ⟨2⟩ (by decide)
  obtain ⟨hname, hvalues⟩ := same _ _ rfl rfl
  refine ⟨past, later, dead, ((told ⟨1⟩ dead).2.2.2.2 "name" value).2, gone dead, _, rfl, rfl, hname, hvalues ?_⟩
  simp [more, Edit.Overrides]

end Stack
end FxStack
