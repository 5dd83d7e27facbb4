import FxStack.Proofs.Stack.Handles
import Mathlib.Data.List.InsertIdx

/-! Moving entries. A list is known by one of its entries, the place of that entry and the other entries in their
    order, and a move changes nothing of these but the place. So a move is undone by the move back, and since every
    entry can be moved to the front, moves lead to every order. Main statement: `Stack.move_places`. -/

namespace FxStack
namespace Stack

/-! ### Places in words -/

/-- A place and an offset added as the words that they are, where a sum that is no word is the word next to it. -/
def saturatingSum (place : UInt64) (offset : Int64) : UInt64 :=
  let sum := place + offset.toUInt64
  let carried : Bool := sum < place
  if carried = decide (offset < 0) then sum else if carried then 0xffffffffffffffff else 0

theorem toNat_toUInt64 (i : Int64) :
    (i.toUInt64.toNat : Int) = if i.toInt < 0 then i.toInt + 0x10000000000000000 else i.toInt := by
  have hvalue : i.toInt = if 2 * i.toUInt64.toNat < 2 ^ 64 then (i.toUInt64.toNat : Int)
      else i.toUInt64.toNat - ((2 ^ 64 : Nat) : Int) := by
    rw [← Int64.toInt_toBitVec, BitVec.toInt_eq_toNat_cond]
    rfl
  have hlt : i.toUInt64.toNat < 2 ^ 64 := i.toUInt64.toNat_lt
  omega

theorem toNat_saturatingSum (place : UInt64) (offset : Int64) :
    (saturatingSum place offset).toNat = min (place.toNat + offset.toInt : Int).toNat 0xffffffffffffffff := by
  have hword := toNat_toUInt64 offset
  have hsum := UInt64.toNat_add place offset.toUInt64
  have hplace := place.toNat_lt
  have hlower := offset.le_toInt
  have hupper := offset.toInt_lt
  have hnegative : offset < 0 ↔ offset.toInt < 0 := Int64.lt_iff_toInt_lt
  unfold saturatingSum
  simp only [UInt64.lt_iff_toNat_lt, hnegative]
  -- A negative offset is a great word, so it carries just if the sum is not negative.
  by_cases hneg : offset.toInt < 0
  · rw [if_pos hneg] at hword
    by_cases hcarry : (place + offset.toUInt64).toNat < place.toNat
    · simp only [hcarry, hneg, decide_true, if_true]
      omega
    · simp only [hcarry, hneg, decide_true, decide_false, if_false, Bool.false_eq_true, UInt64.toNat_zero]
      omega
  · rw [if_neg hneg] at hword
    by_cases hcarry : (place + offset.toUInt64).toNat < place.toNat
    · have hmax : (0xffffffffffffffff : UInt64).toNat = 0xffffffffffffffff := rfl
      simp only [hcarry, hneg, decide_true, decide_false, Bool.true_eq_false, if_false, if_true, hmax]
      omega
    · simp only [hcarry, hneg, decide_false, if_true]
      omega

/-! ### Lists with an entry at a place -/

theorem filter_insertIdx {α : Type} {p : α → Bool} {x : α} (h : p x = false) :
    ∀ (l : List α) (k : Nat), (l.insertIdx k x).filter p = l.filter p
  | l, 0 => by simp [h]
  | [], k + 1 => by simp
  | y :: l, k + 1 => by rw [List.insertIdx_succ_cons, List.filter_cons, List.filter_cons, filter_insertIdx h l k]

/-- The list is `others` with `e` put in at `place`, and no other entry has the handle of `e`. -/
structure Insertion (es others : List Entry) (e : Entry) (place : Nat) : Prop where
  entries : es = others.insertIdx place e
  le : place ≤ others.length
  apart : ∀ d ∈ others, d.id ≠ e.id

namespace Insertion
variable {s : Stack} {es others : List Entry} {e : Entry} {place : Nat}

theorem length (h : Insertion es others e place) : es.length = others.length + 1 := by
  rw [h.entries, List.length_insertIdx_of_le_length h.le]

theorem perm (h : Insertion es others e place) : es.Perm (e :: others) :=
  h.entries ▸ List.perm_insertIdx e others h.le

/-- The others are the entries with other handles. -/
theorem filter (h : Insertion es others e place) : es.filter (·.id ≠ e.id) = others := by
  rw [h.entries, filter_insertIdx (by simp)]
  exact List.filter_eq_self.mpr fun d hd => by simpa using h.apart d hd

/-- The place is the only one with the handle. -/
theorem indexOf? (h : Insertion s.entries others e place) : s.indexOf? e.id = some place := by
  have hlt : place < s.entries.length := by
    have := h.length
    have := h.le
    omega
  unfold Stack.indexOf?
  rw [List.findIdx?_eq_some_iff_getElem]
  refine ⟨hlt, ?_, fun j hj => ?_⟩
  · simp [h.entries]
  · have hj' : j < others.length := Nat.lt_of_lt_of_le hj h.le
    have hbefore : j < s.entries.length := Nat.lt_trans hj hlt
    have hget : s.entries[j] = others[j] := by
      simp only [h.entries]
      exact List.getElem_insertIdx_of_lt hj _
    rw [hget]
    simpa using h.apart _ (List.getElem_mem hj')

theorem of_le (h : Insertion es others e place) {target : Nat} (hle : target ≤ others.length) :
    Insertion (others.insertIdx target e) others e target :=
  ⟨rfl, hle, h.apart⟩

/-- A move puts the entry in at another place. -/
theorem move (h : Insertion s.entries others e place) {offset : Int} {target : Nat}
    (htarget : clampPlace s.entries.length place offset = target) : s.move e.id offset =
      (some target, { s with entries := others.insertIdx target e, dirty := s.dirty || decide (target ≠ place) }) := by
  have hentry : s.entries[place]? = some e := by
    rw [h.entries, List.getElem?_insertIdx_self, if_pos h.le]
  have hothers : s.entries.eraseIdx place = others := by rw [h.entries, List.eraseIdx_insertIdx_self]
  unfold Stack.move
  rw [h.indexOf?]
  dsimp only
  rw [htarget]
  split
  · next hsame => simp [hsame, ← h.entries]
  · next hother =>
    rw [hentry, hothers]
    simp [hother]

end Insertion

theorem Numbered.insertion {s : Stack} (hs : s.Numbered) {id : EntryId} {place : Nat} (h : s.indexOf? id = some place) :
    ∃ e others, e.id = id ∧ Insertion s.entries others e place := by
  obtain ⟨e, he, rfl⟩ := Option.map_eq_some_iff.mp (hs.indexOf?_eq_some.mp h)
  obtain ⟨hlt, rfl⟩ := List.getElem?_eq_some_iff.mp he
  refine ⟨s.entries[place], s.entries.eraseIdx place, rfl, (List.insertIdx_eraseIdx_getElem hlt).symm, ?_, ?_⟩
  · rw [List.length_eraseIdx_of_lt hlt]
    omega
  · have hids := ((List.getElem_cons_eraseIdx_perm hlt).map Entry.id).nodup_iff.mpr hs.distinct
    intro d hd heq
    exact (List.nodup_cons.mp hids).1 (heq ▸ List.mem_map_of_mem hd)

/-! ### Orders -/

/-- The stack after some moves, one after the other. -/
def moved (s : Stack) (moves : List (EntryId × Int)) : Stack := moves.foldl (fun s m => (s.move m.1 m.2).2) s

/-- The moves that bring entries to the front of a list, the last one of them first. -/
def toFront (length : Nat) (es : List Entry) : List (EntryId × Int) := es.reverse.map fun e => (e.id, -(length : Int))

theorem toFront_cons (length : Nat) (e : Entry) (es : List Entry) :
    toFront length (e :: es) = toFront length es ++ [(e.id, -(length : Int))] := by simp [toFront]

theorem moved_append (s : Stack) (ms ns : List (EntryId × Int)) : s.moved (ms ++ ns) = (s.moved ms).moved ns :=
  List.foldl_append

section
variable {s : Stack} (hs : s.Numbered)
include hs

theorem Numbered.indexOf?_of_mem {e : Entry} (he : e ∈ s.entries) : ∃ place, s.indexOf? e.id = some place := by
  obtain ⟨place, hplace⟩ := List.getElem?_of_mem he
  exact ⟨place, hs.indexOf?_eq_some.mpr (by rw [entryAt?, hplace]; rfl)⟩

/-- An entry that is moved by the length of the list comes to the front of the others. -/
theorem Numbered.move_front {e : Entry} (he : e ∈ s.entries) {length : Nat} (hlength : s.entries.length ≤ length) :
    (s.move e.id (-(length : Int))).2.entries = e :: s.entries.filter (·.id ≠ e.id) := by
  obtain ⟨place, hplace⟩ := hs.indexOf?_of_mem he
  obtain ⟨d, others, hid, insertion⟩ := hs.insertion hplace
  obtain rfl : d = e := by
    have hd := hs.entryOf?_of_mem (insertion.perm.mem_iff.mpr List.mem_cons_self)
    rw [hid, hs.entryOf?_of_mem he] at hd
    exact (Option.some.inj hd).symm
  have hfirst : clampPlace s.entries.length place (-(length : Int)) = 0 := by
    have := insertion.length
    have := insertion.le
    unfold clampPlace
    omega
  rw [insertion.move hfirst, insertion.filter]
  exact List.insertIdx_zero

/-- Entries that are brought to the front one by one, the last of them first, come to stand there in their order. -/
theorem Numbered.moved_toFront {length : Nat} (hlength : s.entries.length ≤ length) {es : List Entry}
    (hsub : es ⊆ s.entries) (hids : (es.map (·.id)).Nodup) :
    (s.moved (toFront length es)).Numbered ∧
      (s.moved (toFront length es)).entries.Perm s.entries ∧
      (s.moved (toFront length es)).entries = es ++ s.entries.filter (·.id ∉ es.map (·.id)) := by
  induction es with
  | nil =>
    refine ⟨hs, .refl _, ?_⟩
    simp [moved, toFront]
  | cons e es ih =>
    obtain ⟨hmem, hrest⟩ := List.cons_subset.mp hsub
    obtain ⟨hnew, hids⟩ := List.nodup_cons.mp hids
    obtain ⟨numbered, perm, hentries⟩ := ih hrest hids
    rw [toFront_cons, moved_append]
    set t := s.moved (toFront length es) with ht
    have hlast : t.moved [(e.id, -(length : Int))] = (t.move e.id (-(length : Int))).2 := rfl
    rw [hlast]
    refine ⟨numbered.move _ _, (perm_move _ _).trans perm, ?_⟩
    rw [numbered.move_front (perm.mem_iff.mpr hmem) (perm.length_eq ▸ hlength), hentries, List.filter_append,
      List.filter_filter]
    have hkeep : es.filter (·.id ≠ e.id) = es := by
      refine List.filter_eq_self.mpr fun d hd => decide_eq_true fun hid => hnew ?_
      exact List.mem_map.mpr ⟨d, hd, hid⟩
    rw [hkeep, List.cons_append]
    congr 2
    refine List.filter_congr fun d _ => ?_
    simp

/-- Moves lead to every order of the entries. -/
theorem Numbered.exists_moves {es : List Entry} (h : es.Perm s.entries) :
    ∃ moves : List (EntryId × Int), (∀ m ∈ moves, |m.2| ≤ s.entries.length) ∧ (s.moved moves).entries = es := by
  obtain ⟨-, -, hentries⟩ :=
    hs.moved_toFront (Nat.le_refl _) h.subset ((h.map Entry.id).nodup_iff.mpr hs.distinct)
  refine ⟨toFront s.entries.length es, fun m hm => ?_, ?_⟩
  · obtain ⟨e, -, rfl⟩ := List.mem_map.mp hm
    simp
  · have hnone : s.entries.filter (·.id ∉ es.map (·.id)) = [] :=
      List.filter_eq_nil_iff.mpr fun d hd => by simpa using ⟨d, h.mem_iff.mpr hd, rfl⟩
    rw [hentries, hnone, List.append_nil]

end

/-- A live entry that is moved by any offset comes to the place that is its place and the offset added, as far as the
    list goes; the sum of words gives the same. It is found there, the others keep their order, nothing else changes
    but that the stack is dirty if the list is another one, and the move back restores the list. Moves lead to every
    order of the entries. -/
theorem move_places {random : Generator} {log : List (Edit × List EntryId)} {s : Stack} (h : Run (.new random) log s) :
    (∀ id place, s.indexOf? id = some place → ∀ offset : Int, ∃ (target : Nat) (t : Stack),
      s.move id offset = (some target, t) ∧
      (target : Int) = max 0 (min (place + offset) (s.entries.length - 1)) ∧
      (s.entries.length ≤ 2 ^ 64 → ∀ o : Int64, o.toInt = offset →
        target = min (saturatingSum (.ofNat place) o).toNat (s.entries.length - 1)) ∧
      t.indexOf? id = some target ∧
      t.entries.Perm s.entries ∧
      t.entries.filter (·.id ≠ id) = s.entries.filter (·.id ≠ id) ∧
      (t.dirty = true ↔ s.dirty = true ∨ t.entries ≠ s.entries) ∧
      t = { s with entries := t.entries, dirty := t.dirty } ∧
      ∃ u, t.move id (place - target) = (some place, u) ∧ u.entries = s.entries) ∧
    ∀ es : List Entry, es.Perm s.entries →
      ∃ moves : List (EntryId × Int), (∀ m ∈ moves, |m.2| ≤ s.entries.length) ∧ (s.moved moves).entries = es := by
  have numbered := h.numbered (.new random)
  refine ⟨fun id place hplace offset => ?_, fun es => numbered.exists_moves⟩
  obtain ⟨e, others, rfl, insertion⟩ := numbered.insertion hplace
  have hlength := insertion.length
  have hle := insertion.le
  obtain ⟨target, htarget⟩ : ∃ target, clampPlace s.entries.length place offset = target := ⟨_, rfl⟩
  have htargetLe : target ≤ others.length := by
    have : clampPlace s.entries.length place offset < s.entries.length := clampPlace_lt (by omega) offset
    omega
  refine ⟨target, _, insertion.move htarget, ?_, fun hword o ho => ?_, ?_⟩
  · unfold clampPlace at htarget
    omega
  · have hplaceWord : (UInt64.ofNat place).toNat = place := UInt64.toNat_ofNat_of_lt (by unfold UInt64.size; omega)
    rw [toNat_saturatingSum, ho, hplaceWord, ← htarget]
    unfold clampPlace
    omega
  · set t : Stack := { s with
      entries := others.insertIdx target e, dirty := s.dirty || decide (target ≠ place) } with ht
    have inserted : Insertion t.entries others e target := insertion.of_le htargetLe
    have hsame : t.entries = s.entries ↔ target = place := by
      refine ⟨fun heq => ?_, fun heq => ?_⟩
      · have := (heq ▸ inserted : Insertion s.entries others e target).indexOf?
        exact Option.some.inj (this.symm.trans hplace)
      · rw [ht, insertion.entries, heq]
    have hback : clampPlace t.entries.length target (place - target) = place := by
      rw [inserted.length]
      unfold clampPlace
      omega
    refine ⟨inserted.indexOf?, inserted.perm.trans insertion.perm.symm, inserted.filter.trans insertion.filter.symm, ?_, rfl,
      _, inserted.move hback, insertion.entries.symm⟩
    rw [Ne, hsame]
    simp [ht]

/-- Of three entries the last one is moved by the least offset there is, and comes to the front. -/
theorem move_places_extreme :
    let s := (((Stack.new (.fixed (.zero, .zero))).edit (.add "blur")).edit (.add "wave")).edit (.add "tint")
    let log := [(Edit.add "blur", [⟨1⟩]), (.add "wave", [⟨2⟩]), (.add "tint", [⟨3⟩])]
    Run (.new (.fixed (.zero, .zero))) log s ∧ s.indexOf? ⟨3⟩ = some 2 ∧
      (∃ t, s.move ⟨3⟩ Int64.minValue.toInt = (some 0, t) ∧ t.indexOf? ⟨3⟩ = some 0 ∧
        t.entries.filter (·.id ≠ ⟨3⟩) = s.entries.filter (·.id ≠ ⟨3⟩)) ∧
      saturatingSum 2 .minValue = 0 ∧ saturatingSum 2 .maxValue = 0x8000000000000001 ∧
      ∃ moves, (s.moved moves).entries = s.entries.reverse := by
  intro s log
  have run : Run (.new (.fixed (.zero, .zero))) log s :=
    ((Run.start.edit (.add "blur")).edit (.add "wave")).edit (.add "tint")
  have hplace : s.indexOf? ⟨3⟩ = some 2 := rfl
  obtain ⟨places, orders⟩ := move_places run
  obtain ⟨target, t, hmove, htarget, -, hindex, -, hothers, -⟩ := places ⟨3⟩ 2 hplace Int64.minValue.toInt
  obtain rfl : target = 0 := by
    have hmin : Int64.minValue.toInt = -0x8000000000000000 := rfl
    have hlength : s.entries.length = 3 := rfl
    omega
  obtain ⟨moves, -, hreverse⟩ := orders _ s.entries.reverse_perm
  exact ⟨run, hplace, ⟨t, hmove, hindex, hothers⟩, by decide, by decide, moves, hreverse⟩

end Stack
end FxStack
