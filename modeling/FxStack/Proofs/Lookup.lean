import FxStack.KeyMap
import Mathlib.Data.List.Nodup

/-! Looking up keys. A device keeps its textures and programs, a pool its loans and a key map its
    entries in a list of pairs, of which the first with a key counts. -/

namespace FxStack

/-! ### Lists of pairs -/

section Pairs
variable {κ α : Type} [DecidableEq κ]

theorem lookup_cons_ite (k : κ) (e : κ × α) (l : List (κ × α)) :
    (e :: l).lookup k = if k = e.1 then some e.2 else l.lookup k := by
  rw [List.lookup_cons]
  by_cases h : k = e.1
  · simp [h]
  · have hb : (k == e.1) = false := beq_eq_false_iff_ne.mpr h
    simp only [hb, h, if_false]

theorem lookup_map_ite (k j : κ) (f : α → α) (l : List (κ × α)) :
    (l.map fun e => if e.1 = k then (e.1, f e.2) else e).lookup j =
      if j = k then (l.lookup j).map f else l.lookup j := by
  induction l with
  | nil => simp
  | cons e l ih =>
    rw [List.map_cons, lookup_cons_ite, lookup_cons_ite, ih]
    by_cases he : e.1 = k
    · by_cases hj : j = k
      · simp [he, hj]
      · simp [he, hj]
    · by_cases hj : j = e.1
      · subst hj
        simp [he]
      · simp [he, hj]

theorem lookup_filter_ne (k j : κ) (l : List (κ × α)) :
    (l.filter (·.1 ≠ k)).lookup j = if j = k then none else l.lookup j := by
  induction l with
  | nil => simp
  | cons e l ih =>
    by_cases he : e.1 = k
    · rw [List.filter_cons_of_neg (by simpa using he), ih, lookup_cons_ite, he]
      by_cases hj : j = k <;> simp [hj]
    · rw [List.filter_cons_of_pos (by simpa using he), lookup_cons_ite, lookup_cons_ite, ih]
      by_cases hj : j = e.1
      · simp [hj, he]
      · simp [hj]

theorem filter_fst_ne {k : κ} {l : List (κ × α)} (h : k ∉ l.map (·.1)) : l.filter (·.1 ≠ k) = l := by
  rw [List.filter_eq_self]
  intro e he
  have hne : e.1 ≠ k := fun heq => h (heq ▸ List.mem_map_of_mem he)
  simpa using hne

theorem lookup_of_mem {l : List (κ × α)} (hl : (l.map (·.1)).Nodup) {e : κ × α} (h : e ∈ l) :
    l.lookup e.1 = some e.2 := by
  induction l with
  | nil => cases h
  | cons d l ih =>
    obtain ⟨hd, hrest⟩ := List.nodup_cons.mp hl
    rw [lookup_cons_ite]
    rcases List.mem_cons.mp h with rfl | h
    · rw [if_pos rfl]
    · have hne : e.1 ≠ d.1 := fun heq => hd (List.mem_map.mpr ⟨e, h, heq⟩)
      rw [if_neg hne, ih hrest h]

theorem mem_of_lookup {l : List (κ × α)} {k : κ} {x : α} (h : l.lookup k = some x) : (k, x) ∈ l := by
  obtain ⟨l₁, l₂, rfl, -⟩ := List.lookup_eq_some_iff.mp h
  exact List.mem_append_right _ List.mem_cons_self

/-- What is kept under a key is found under its new name, if no other key gets this name. -/
theorem lookup_map_key {κ' β : Type} [DecidableEq κ'] {f : κ → κ'} {g : κ × α → β} {k : κ} {l : List (κ × α)}
    (h : ∀ e ∈ l, f e.1 = f k → e.1 = k) :
    (l.map fun e => (f e.1, g e)).lookup (f k) = (l.lookup k).map fun x => g (k, x) := by
  induction l with
  | nil => rfl
  | cons e l ih =>
    rw [List.map_cons, lookup_cons_ite, lookup_cons_ite, ih fun d hd => h d (List.mem_cons_of_mem e hd)]
    by_cases hk : k = e.1
    · rw [if_pos (congrArg f hk), if_pos hk, hk]
      rfl
    · rw [if_neg fun heq => hk (h e List.mem_cons_self heq.symm).symm, if_neg hk]

end Pairs

/-! ### Key maps -/

namespace KeyMap
variable {α : Type}

theorem lookup_insertEntry (k j : String) (x : α) (es : List (String × α)) :
    (insertEntry k x es).lookup j = if j = k then some x else es.lookup j := by
  induction es with
  | nil => simp [insertEntry, lookup_cons_ite]
  | cons d ds ih =>
    simp only [insertEntry]
    split
    · rw [lookup_cons_ite]
    · split
      · next hk =>
        rw [lookup_cons_ite, lookup_cons_ite, hk]
        by_cases hj : j = d.1 <;> simp [hj]
      · next hk =>
        rw [lookup_cons_ite, lookup_cons_ite, ih]
        by_cases hj : j = d.1
        · simp [hj, Ne.symm hk]
        · simp [hj]

theorem get?_insert (m : KeyMap α) (k j : String) (x : α) :
    (m.insert k x).get? j = if j = k then some x else m.get? j :=
  lookup_insertEntry k j x m.toList

theorem mem_toList_of_get? {m : KeyMap α} {k : String} {x : α} (h : m.get? k = some x) : (k, x) ∈ m.toList :=
  mem_of_lookup h

@[simp] theorem get?_empty (k : String) : (empty : KeyMap α).get? k = none := rfl

theorem insertEntry_of_lt {k : String} {x : α} {es : List (String × α)} (h : ∀ e ∈ es, e.1 < k) :
    insertEntry k x es = es ++ [(k, x)] := by
  induction es with
  | nil => rfl
  | cons d ds ih =>
    have hd := h d List.mem_cons_self
    have hlt : ¬k < d.1 := fun hk => String.lt_irrefl _ (String.lt_trans hk hd)
    have hne : k ≠ d.1 := fun hk => String.lt_irrefl _ (hk ▸ hd)
    rw [insertEntry, if_neg hlt, if_neg hne, ih fun e he => h e (List.mem_cons_of_mem _ he), List.cons_append]

/-- Entries in the order of their keys are kept in this order. -/
theorem toList_foldl_insert (ds : List (String × α)) : ∀ {m : KeyMap α},
    (m.toList ++ ds).Pairwise (fun a b => a.1 < b.1) →
      (ds.foldl (fun m d => m.insert d.1 d.2) m).toList = m.toList ++ ds := by
  induction ds with
  | nil => simp
  | cons d ds ih =>
    intro m h
    have hlt : ∀ e ∈ m.toList, e.1 < d.1 := fun e he => (List.pairwise_append.mp h).2.2 e he d List.mem_cons_self
    have hinsert : (m.insert d.1 d.2).toList = m.toList ++ [d] := insertEntry_of_lt hlt
    rw [List.foldl_cons, ih] <;> rw [hinsert]
    · simp
    · simpa using h

theorem toList_ofList {ds : List (String × α)} (h : ds.Pairwise fun a b => a.1 < b.1) : (ofList ds).toList = ds :=
  toList_foldl_insert ds (m := empty) h

theorem mem_of_mem_foldl_insert (ds : List (String × α)) : ∀ {m : KeyMap α} {e : String × α},
    e ∈ (ds.foldl (fun m d => m.insert d.1 d.2) m).toList → e ∈ m.toList ∨ e ∈ ds := by
  induction ds with
  | nil => exact fun h => .inl h
  | cons d ds ih =>
    intro m e h
    rcases ih h with h | h
    · rcases key_of_mem_insertEntry h with rfl | h
      · exact .inr List.mem_cons_self
      · exact .inl h
    · exact .inr (List.mem_cons_of_mem d h)

theorem mem_of_mem_ofList {ds : List (String × α)} {e : String × α} (h : e ∈ (ofList ds).toList) : e ∈ ds :=
  (mem_of_mem_foldl_insert ds (m := empty) h).resolve_left nofun

/-- Of the entries with a key the last that is inserted stays. -/
theorem get?_foldl_insert_reverse (k : String) (ds : List (String × α)) : ∀ (m : KeyMap α),
    (ds.foldl (fun m d => m.insert d.1 d.2) m).get? k = (ds.reverse.lookup k).or (m.get? k) := by
  induction ds with
  | nil => exact fun _ => rfl
  | cons d ds ih =>
    intro m
    rw [List.foldl_cons, ih, get?_insert, List.reverse_cons, List.lookup_append, lookup_cons_ite, Option.or_assoc]
    by_cases hk : k = d.1 <;> simp [hk]

/-- Of entries with keys of their own, each that is inserted stays. -/
theorem get?_foldl_insert {β : Type} (f : String → β → α) (k : String) {ds : List (String × β)} :
    ∀ {m : KeyMap α}, (ds.map (·.1)).Nodup →
      (ds.foldl (fun m d => m.insert d.1 (f d.1 d.2)) m).get? k = ((ds.lookup k).map (f k)).or (m.get? k) := by
  induction ds with
  | nil => exact fun _ => rfl
  | cons d ds ih =>
    intro m h
    obtain ⟨hfirst, hrest⟩ := List.nodup_cons.mp h
    rw [List.foldl_cons, ih hrest, get?_insert, lookup_cons_ite]
    by_cases hk : k = d.1
    · have hnone : ds.lookup d.1 = none := by
        rw [List.lookup_eq_none_iff]
        intro e he
        have hne : d.1 ≠ e.1 := fun heq => hfirst (List.mem_map.mpr ⟨e, he, heq.symm⟩)
        simpa using hne
      simp [hk, hnone]
    · simp [hk]

theorem get?_ofList (k : String) {ds : List (String × α)} (h : (ds.map (·.1)).Nodup) : (ofList ds).get? k = ds.lookup k := by
  have hinserted : (ofList ds).get? k = ((ds.lookup k).map fun x => x).or ((empty : KeyMap α).get? k) :=
    get?_foldl_insert (fun _ x => x) k h
  rwa [get?_empty, Option.or_none, Option.map_id'] at hinserted

theorem nodup_keys (m : KeyMap α) : (m.toList.map (·.1)).Nodup := by
  refine List.pairwise_map.mpr (m.sorted.imp ?_)
  intro a b hlt heq
  rw [heq] at hlt
  exact String.lt_irrefl _ hlt

/-- Maps in which every key has the same value are equal. -/
theorem ext_get? {m n : KeyMap α} (h : ∀ k, m.get? k = n.get? k) : m = n := by
  have hmem : ∀ {l : KeyMap α} {e : String × α}, e ∈ l.toList ↔ l.get? e.1 = some e.2 :=
    fun {l} => ⟨lookup_of_mem l.nodup_keys, mem_of_lookup⟩
  have hnodup : ∀ l : KeyMap α, l.toList.Nodup := fun l => List.Nodup.of_map _ l.nodup_keys
  have hperm : m.toList.Perm n.toList :=
    (List.perm_ext_iff_of_nodup (hnodup m) (hnodup n)).mpr fun e => by rw [hmem, hmem, h]
  refine ext (hperm.eq_of_pairwise (fun a b _ _ hab hba => ?_) m.sorted n.sorted)
  exact absurd (String.lt_trans hab hba) (String.lt_irrefl _)

end KeyMap

end FxStack
