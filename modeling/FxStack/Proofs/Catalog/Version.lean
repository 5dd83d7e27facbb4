import FxStack.Proofs.Catalog.Shelf
import FxStack.Proofs.Catalog.Update

/-! Versions over a whole history of catalogs. A call that changes the contents of a catalog raises its generation, and
    a call that fails changes nothing, so of all the states that its catalogs come to only equal ones have one version.
    Main statement: `Shelf.version_identifies`. -/

namespace FxStack

/-! ### What a call leaves -/

namespace Catalog.Call

theorem grows {k : Call} {c c' : Catalog} (h : k.apply c = .ok c') : Grows c c' := by
  cases k with
  | extend text =>
    obtain ⟨file, -, hfile⟩ := extend_eq_ok h
    exact .extendWith hfile
  | register name e =>
    obtain ⟨old, hr⟩ := map_register_eq_ok h
    exact .register hr
  | registerFunction name body =>
    cases h
    exact .registerFunction c name body

/-- The operation on a place that makes the call on the catalog there. -/
def op : Call → CatalogOp
  | .extend text => .extend text
  | .register name e => .register name e
  | .registerFunction name body => .registerFunction name body

end Catalog.Call

namespace Shelf
variable {s : Shelf} {c c' : Catalog} {place : Nat}

theorem step_op (s : Shelf) (place : Nat) (k : Catalog.Call) : s.step place k.op = s.change place k.apply := by
  cases k <;> rfl

/-- After a call its place holds the catalog that the call has left there. -/
theorem step_op_of_ok {k : Catalog.Call} (hc : s.catalog? place = some c) (h : k.update.run c = .ok () c') :
    (s.step place k.op).catalog? place = some c' := by
  simp [step_op, change, hc, Catalog.Call.run_eq_ok.mp h, put]

theorem step_op_of_error {k : Catalog.Call} {error : Error} (hc : s.catalog? place = some c)
    (h : k.update.run c = .error error c') : (s.step place k.op).catalog? place = some c := by
  simp [step_op, change, hc, (Catalog.Call.run_eq_error.mp h).1]

/-! ### Histories -/

/-- The catalogs after the first operations of a history, each with its place. -/
def moment (history : List (Nat × CatalogOp)) (n : Nat) : Shelf :=
  (history.take n).foldl (fun s o => s.step o.1 o.2) .initial

theorem moment_succ {history : List (Nat × CatalogOp)} {n : Nat} {op : CatalogOp} (h : history[n]? = some (place, op)) :
    moment history (n + 1) = (moment history n).step place op := by
  unfold moment
  rw [List.take_add_one, h, List.foldl_append]
  rfl

theorem moment_of_le (history : List (Nat × CatalogOp)) {m n : Nat} (h : m ≤ n) :
    moment history n = ((history.take n).drop m).foldl (fun s o => s.step o.1 o.2) (moment history m) := by
  have hstart : (history.take n).take m = history.take m := by rw [List.take_take, Nat.min_eq_left h]
  have hsplit := List.take_append_drop m (history.take n)
  rw [hstart] at hsplit
  unfold moment
  rw [← List.foldl_append, hsplit]

theorem foldl_step {P : Shelf → Prop} (h : ∀ s place op, P s → P (s.step place op)) (ops : List (Nat × CatalogOp)) :
    ∀ {s : Shelf}, P s → P (ops.foldl (fun s o => s.step o.1 o.2) s) := by
  induction ops with
  | nil => exact fun hs => hs
  | cons o ops ih => exact fun hs => ih (h _ o.1 o.2 hs)

/-- A version that a catalog has at one moment is that of the same catalog at every later one. -/
theorem eq_of_version {history : List (Nat × CatalogOp)} {m n p q : Nat} (h : m ≤ n)
    (hc : (moment history m).catalog? p = some c) (hd : (moment history n).catalog? q = some c')
    (hv : c'.version = c.version) : c' = c := by
  have inv : (moment history m).Inv := foldl_step (P := Inv) (fun _ place op h => h.step place op) _ .initial
  have remembers := foldl_step (P := (·.Remembers c)) (fun _ place op h => h.step place op) ((history.take n).drop m)
    (inv.remembers hc)
  rw [← moment_of_le history h] at remembers
  exact remembers.same q c' hd hv

/-- Two catalogs of one version, at whatever two moments of a history, have the same effects and functions. A call made
    in place leaves the catalog that is there at the next moment: the same one if it fails, and one of a higher generation
    if it changes the contents. -/
theorem version_identifies (history : List (Nat × CatalogOp)) :
    (∀ m n p q c d, (moment history m).catalog? p = some c → (moment history n).catalog? q = some d →
      c.version = d.version → c.effects = d.effects ∧ c.functions = d.functions) ∧
    ∀ n place k c, history[n]? = some (place, Catalog.Call.op k) → (moment history n).catalog? place = some c →
      ∃ c', (moment history (n + 1)).catalog? place = some c' ∧
        ((∃ error, k.update.run c = .error error c' ∧ c' = c) ∨
          k.update.run c = .ok () c' ∧
            (c'.effects ≠ c.effects ∨ c'.functions ≠ c.functions → c.generation < c'.generation)) := by
  refine ⟨fun m n p q c d hc hd hv => ?_, fun n place k c hk hc => ?_⟩
  · have hsame : d = c := by
      rcases Nat.le_total m n with h | h
      · exact eq_of_version h hc hd hv.symm
      · exact (eq_of_version h hd hc hv).symm
    rw [hsame]
    exact ⟨rfl, rfl⟩
  · rw [moment_succ hk]
    cases hrun : k.update.run c with
    | error error c' =>
      obtain ⟨-, rfl⟩ := Catalog.Call.run_eq_error.mp hrun
      exact ⟨c', step_op_of_error hc hrun, .inl ⟨error, rfl, rfl⟩⟩
    | ok _ c' =>
      refine ⟨c', step_op_of_ok hc hrun, .inr ⟨rfl, fun hchanged => ?_⟩⟩
      refine (Catalog.Call.grows (Catalog.Call.run_eq_ok.mp hrun)).2.resolve_left ?_
      rintro rfl
      rcases hchanged with h | h <;> exact h rfl

/-- An effect under one of whose keys saved entries hold their name. -/
def reserved : Effect := { Effect.ripple with uniforms := .ofList [("name", .plain "u_amount" .float)] }

/-- A catalog refuses an effect and is changed after it has been copied, and its copy is changed as well. -/
def forked : List (Nat × CatalogOp) :=
  [(0, .create), (0, .register "ripple" Effect.ripple), (1, .copy 0), (1, .registerFunction "wave" ""),
    (0, .register "reserved" reserved), (0, .registerFunction "wave" "")]

theorem version_identifies_forked :
    let c := Catalog.rippling ⟨0⟩
    let refused := Catalog.Call.register "reserved" reserved
    let accepted := Catalog.Call.registerFunction "wave" ""
    ((moment forked 2).catalog? 0 = some c ∧ forked[4]? = some (0, refused.op) ∧
      ∃ d, (moment forked 5).catalog? 0 = some d ∧ (∃ error, refused.update.run c = .error error d) ∧
        c.version = d.version ∧ c.effects = d.effects ∧ c.functions = d.functions) ∧
    (forked[5]? = some (0, accepted.op) ∧ (moment forked 5).catalog? 0 = some c ∧
      ∃ d, (moment forked 6).catalog? 0 = some d ∧ d.functions ≠ c.functions ∧ c.generation < d.generation) := by
  intro c refused accepted
  have h := version_identifies forked
  have h2 : (moment forked 2).catalog? 0 = some c := rfl
  have h5 : (moment forked 5).catalog? 0 = some c := rfl
  refine ⟨⟨h2, rfl, ?_⟩, ⟨rfl, h5, ?_⟩⟩
  · obtain ⟨d, hd, hleft⟩ := h.2 4 0 refused c rfl rfl
    obtain ⟨error, hrun, hsame⟩ := hleft.resolve_right fun hok => by cases hok.1
    have hversion : c.version = d.version := by rw [hsame]
    exact ⟨d, hd, ⟨error, hrun⟩, hversion, h.1 2 5 0 0 c d h2 hd hversion⟩
  · obtain ⟨d, hd, hleft⟩ := h.2 5 0 accepted c rfl h5
    obtain ⟨hrun, hgrows⟩ := hleft.resolve_left fun herror => by cases herror.choose_spec.1
    have hchanged : d.functions ≠ c.functions := by
      cases hrun
      decide
    exact ⟨d, hd, hchanged, hgrows (.inr hchanged)⟩

end Shelf
end FxStack
