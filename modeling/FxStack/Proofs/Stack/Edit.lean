import FxStack.Stack
import Mathlib.Data.List.Nodup
import Mathlib.Data.List.Perm.Basic
import Mathlib.Data.List.Perm.Subperm

/-! The changes of a stack, and the handles of its entries. A handle is given out once, so the entries
    of a stack have different handles wherever they are moved to. -/

namespace FxStack
namespace Stack
variable {s t : Stack}

/-- The changes of a stack that need no device. -/
inductive Edit
  | add (name : String)
  | remove (id : EntryId)
  | move (id : EntryId) (offset : Int)
  | clear
  | markDirty
  | load (saved : SavedStack)
  | setOverride (id : EntryId) (key : String) (value : Value)
  | clearOverride (id : EntryId) (key : String)
  | setAntialias (on : Bool)
  | setFilter (on : Bool)
  | setRandom (random : Generator)

/-- The stack after a change; one that fails leaves it as it was. -/
def edit (s : Stack) : Edit → Stack
  | .add name => (s.add name).2
  | .remove id => (s.remove id).2
  | .move id offset => (s.move id offset).2
  | .clear => s.clear
  | .markDirty => s.markDirty
  | .load saved => (s.load saved).1
  | .setOverride id key value => (s.setOverride id key value).toOption.getD s
  | .clearOverride id key => (s.clearOverride id key).2
  | .setAntialias on => s.setAntialias on
  | .setFilter on => s.setFilter on
  | .setRandom random => s.setRandom random

theorem setOverride_eq_ok {id : EntryId} {key : String} {value : Value} : s.setOverride id key value = .ok t ↔
    key ≠ Wording.entryNameKey ∧ (s.entryOf? id).isSome ∧ t = s.updateOverrides id fun m => m.insert key value := by
  unfold setOverride
  split
  · next hkey => simp [hkey]
  · next hkey =>
    split
    · next hid =>
      rw [Option.isNone_iff_eq_none] at hid
      simp [hid]
    · next hid =>
      rw [Bool.not_eq_true, Option.isNone_eq_false_iff] at hid
      simp [hkey, hid, eq_comm]

/-! ### Handles -/

/-- The handles of the entries have been given out, each to one entry. -/
structure Numbered (s : Stack) : Prop where
  issued : ∀ e ∈ s.entries, e.id.number < s.nextNumber
  distinct : (s.entries.map (·.id)).Nodup

theorem Numbered.new (random : Generator) : Numbered (.new random) := ⟨nofun, .nil⟩

theorem Numbered.of_eq (h : Numbered s) (he : t.entries = s.entries) (hn : t.nextNumber = s.nextNumber) : Numbered t :=
  ⟨by rw [he, hn]; exact h.issued, by rw [he]; exact h.distinct⟩

/-- Only the handles count, in whatever order. -/
theorem Numbered.of_subperm (h : Numbered s) (hp : (t.entries.map (·.id)).Subperm (s.entries.map (·.id)))
    (hn : t.nextNumber = s.nextNumber) : Numbered t := by
  refine ⟨fun e he => ?_, ?_⟩
  · obtain ⟨d, hd, hid⟩ := List.mem_map.mp (hp.subset (List.mem_map_of_mem he))
    rw [hn, ← hid]
    exact h.issued d hd
  · obtain ⟨ids, hperm, hsub⟩ := hp
    exact hperm.nodup_iff.mp (h.distinct.sublist hsub)

theorem Numbered.add (h : Numbered s) (name : String) : Numbered (s.add name).2 := by
  refine ⟨fun e he => ?_, ?_⟩
  · rcases List.mem_append.mp he with he | he
    · exact Nat.lt_succ_of_lt (h.issued e he)
    · obtain rfl := List.mem_singleton.mp he
      exact Nat.lt_succ_self _
  · have hnew : ∀ d ∈ s.entries, d.id ≠ ⟨s.nextNumber⟩ := by
      intro d hd heq
      have hlt := h.issued d hd
      rw [heq] at hlt
      exact Nat.lt_irrefl _ hlt
    simp only [Stack.add, List.map_append, List.map_cons, List.map_nil]
    refine List.nodup_append.mpr ⟨h.distinct, List.nodup_singleton _, fun i hi j hj heq => ?_⟩
    obtain ⟨d, hd, rfl⟩ := List.mem_map.mp hi
    exact hnew d hd (heq.trans (List.mem_singleton.mp hj))

theorem Numbered.remove (h : Numbered s) (id : EntryId) : Numbered (s.remove id).2 := by
  unfold Stack.remove
  split
  · exact h
  · exact h.of_subperm ((List.eraseIdx_sublist _ _).map _).subperm rfl

theorem clampPlace_lt {length place : Nat} (h : place < length) (offset : Int) : clampPlace length place offset < length := by
  unfold clampPlace
  omega

/-- A move keeps the entries in some order. -/
theorem perm_move (id : EntryId) (offset : Int) : (s.move id offset).2.entries.Perm s.entries := by
  unfold Stack.move
  split
  · exact .refl _
  · next place _ =>
    dsimp only
    split
    · exact .refl _
    · split
      · exact .refl _
      · next e he =>
        obtain ⟨hlt, rfl⟩ := List.getElem?_eq_some_iff.mp he
        have hle : clampPlace s.entries.length place offset ≤ (s.entries.eraseIdx place).length := by
          rw [List.length_eraseIdx_of_lt hlt]
          exact Nat.le_sub_one_of_lt (clampPlace_lt hlt offset)
        exact (List.perm_insertIdx s.entries[place] _ hle).trans (List.getElem_cons_eraseIdx_perm hlt)

theorem nextNumber_move (id : EntryId) (offset : Int) : (s.move id offset).2.nextNumber = s.nextNumber := by
  unfold Stack.move
  split
  · rfl
  · dsimp only
    split
    · rfl
    · split <;> rfl

theorem Numbered.move (h : Numbered s) (id : EntryId) (offset : Int) : Numbered (s.move id offset).2 :=
  h.of_subperm ((perm_move id offset).map _).subperm (nextNumber_move id offset)

theorem Numbered.updateOverrides (h : Numbered s) (id : EntryId) (f : KeyMap Value → KeyMap Value) :
    Numbered (s.updateOverrides id f) := by
  have hids : (s.updateOverrides id f).entries.map (·.id) = s.entries.map (·.id) := by
    unfold Stack.updateOverrides
    rw [List.map_map]
    refine List.map_congr_left fun e _ => ?_
    dsimp only [Function.comp_apply]
    split <;> rfl
  exact h.of_subperm (hids ▸ List.Subperm.refl _) rfl

theorem map_number_loadEntries (cs : List SavedEntry) :
    ∀ number, (loadEntries number cs).map (·.id.number) = List.range' number cs.length := by
  induction cs with
  | nil => exact fun _ => rfl
  | cons c cs ih => exact fun number => congrArg (number :: ·) (ih (number + 1))

theorem Numbered.load (s : Stack) (saved : SavedStack) : Numbered (s.load saved).1 := by
  have hnumbers := map_number_loadEntries saved.entries s.nextNumber
  refine ⟨fun e he => ?_, ?_⟩
  · have hmem : e.id.number ∈ List.range' s.nextNumber saved.entries.length :=
      hnumbers ▸ List.mem_map_of_mem (f := fun e : Entry => e.id.number) he
    exact (List.mem_range'_1.mp hmem).2
  · refine List.Nodup.of_map EntryId.number ?_
    rw [List.map_map]
    exact hnumbers ▸ List.nodup_range'

theorem Numbered.edit (h : Numbered s) (e : Edit) : Numbered (s.edit e) := by
  cases e with
  | add name => exact h.add name
  | remove id => exact h.remove id
  | move id offset => exact h.move id offset
  | clear =>
    simp only [Stack.edit, Stack.clear]
    split
    · exact h
    · exact ⟨nofun, .nil⟩
  | markDirty => exact h.of_eq rfl rfl
  | load saved => exact .load s saved
  | setOverride id key value =>
    simp only [Stack.edit]
    cases ho : s.setOverride id key value with
    | error e => exact h
    | ok t =>
      obtain ⟨-, -, rfl⟩ := setOverride_eq_ok.mp ho
      exact h.updateOverrides id fun m => m.insert key value
  | clearOverride id key => exact h.updateOverrides id fun m => m.erase key
  | setAntialias on => exact h.of_eq rfl rfl
  | setFilter on => exact h.of_eq rfl rfl
  | setRandom random => exact h.of_eq rfl rfl

/-- An entry is found by its handle. -/
theorem Numbered.entryOf?_of_mem (h : Numbered s) {e : Entry} (he : e ∈ s.entries) : s.entryOf? e.id = some e := by
  unfold entryOf?
  obtain ⟨before, after, hsplit⟩ := List.append_of_mem he
  have hdistinct := h.distinct
  rw [hsplit, List.map_append, List.nodup_append] at hdistinct
  rw [hsplit, List.find?_append, List.find?_eq_none.mpr ?_]
  · simp
  · intro d hd heq
    exact hdistinct.2.2 d.id (List.mem_map_of_mem hd) e.id (by simp) (by simpa using heq)

end Stack
end FxStack
