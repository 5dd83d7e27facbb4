/-!
# Maps with text keys

A finite map from texts to values is the list of its entries in increasing order of their keys, so
that equal maps are equal lists and the order in which keys were inserted leaves no trace.
-/

namespace FxStack

/-- A finite map, given by its entries in strictly increasing order of their keys. -/
structure KeyMap (α : Type) where
  toList : List (String × α)
  sorted : toList.Pairwise fun a b => a.1 < b.1
deriving DecidableEq

namespace KeyMap

variable {α β : Type}

/-! ### Sorted entries -/

/-- The entries with `k` set to `x`, replacing the value that `k` had. -/
def insertEntry (k : String) (x : α) : List (String × α) → List (String × α)
  | [] => [(k, x)]
  | e :: es =>
    if k < e.1 then (k, x) :: e :: es
    else if k = e.1 then (k, x) :: es
    else e :: insertEntry k x es

theorem key_of_mem_insertEntry {k : String} {x : α} {e : String × α} {es : List (String × α)}
    (h : e ∈ insertEntry k x es) : e = (k, x) ∨ e ∈ es := by
  induction es with
  | nil => simpa [insertEntry] using h
  | cons d ds ih =>
    simp only [insertEntry] at h
    split at h
    · simpa using h
    · split at h
      · rcases List.mem_cons.1 h with h | h
        · exact .inl h
        · exact .inr (List.mem_cons_of_mem _ h)
      · rcases List.mem_cons.1 h with h | h
        · exact .inr (h ▸ List.mem_cons_self)
        · exact (ih h).imp_right (List.mem_cons_of_mem _)

theorem sorted_insertEntry (k : String) (x : α) {es : List (String × α)}
    (h : es.Pairwise fun a b => a.1 < b.1) :
    (insertEntry k x es).Pairwise fun a b => a.1 < b.1 := by
  induction es with
  | nil => simp [insertEntry]
  | cons d ds ih =>
    obtain ⟨hd, hds⟩ := List.pairwise_cons.1 h
    simp only [insertEntry]
    split
    · next hlt =>
      refine List.pairwise_cons.2 ⟨fun e he => ?_, h⟩
      rcases List.mem_cons.1 he with rfl | he
      · exact hlt
      · exact String.lt_trans hlt (hd e he)
    · next hlt =>
      split
      · next heq => exact List.pairwise_cons.2 ⟨fun e he => by simpa [heq] using hd e he, hds⟩
      · next hne =>
        refine List.pairwise_cons.2 ⟨fun e he => ?_, ih hds⟩
        rcases key_of_mem_insertEntry he with rfl | he
        · exact Std.lt_of_le_of_ne (String.not_lt.1 hlt) (Ne.symm hne)
        · exact hd e he

/-! ### Operations -/

/-- The map without entries. -/
def empty : KeyMap α := ⟨[], List.Pairwise.nil⟩

instance : Inhabited (KeyMap α) := ⟨empty⟩

def get? (m : KeyMap α) (k : String) : Option α := m.toList.lookup k

def contains (m : KeyMap α) (k : String) : Bool := (m.get? k).isSome

/-- The map with `k` set to `x`. -/
def insert (m : KeyMap α) (k : String) (x : α) : KeyMap α :=
  ⟨insertEntry k x m.toList, sorted_insertEntry k x m.sorted⟩

/-- The map without `k`. -/
def erase (m : KeyMap α) (k : String) : KeyMap α :=
  ⟨m.toList.filter fun e => e.1 != k, m.sorted.filter _⟩

/-- The map of a list of entries, of which the last with a key counts. -/
def ofList (es : List (String × α)) : KeyMap α := es.foldl (fun m e => m.insert e.1 e.2) empty

/-- The keys in increasing order. -/
def keys (m : KeyMap α) : List String := m.toList.map (·.1)

/-- The values in the order of their keys. -/
def values (m : KeyMap α) : List α := m.toList.map (·.2)

/-- The map with `f` applied to every value. -/
def map (f : α → β) (m : KeyMap α) : KeyMap β :=
  ⟨m.toList.map fun e => (e.1, f e.2), List.pairwise_map.2 m.sorted⟩

/-! ### Views -/

theorem ext {m n : KeyMap α} (h : m.toList = n.toList) : m = n := by
  cases m; cases n; simp_all

@[simp] theorem toList_empty : (empty : KeyMap α).toList = [] := rfl

@[simp] theorem toList_insert (m : KeyMap α) (k : String) (x : α) :
    (m.insert k x).toList = insertEntry k x m.toList := rfl

@[simp] theorem toList_erase (m : KeyMap α) (k : String) :
    (m.erase k).toList = m.toList.filter fun e => e.1 != k := rfl

end KeyMap

end FxStack
