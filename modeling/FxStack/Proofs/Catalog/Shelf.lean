import FxStack.Proofs.Catalog.Registration

/-! The catalogs of a program over its whole run. Each stands in a place of its own and is made,
    replaced or changed by the operations of `FxStack.Catalog`; a failing operation leaves it as it was.
    Main statement: a version names one state of one catalog, so a catalog that later has a version it
    had before has the contents it had then. -/

namespace FxStack

/-- The catalogs of a program by their places, and the source of their identities. -/
structure Shelf where
  ids : Identities
  catalog? : Nat → Option Catalog

/-- An operation on the catalog in one place. -/
inductive CatalogOp
  | create
  | read (text : String)
  | builtin
  | copy (original : Nat)
  | extend (text : String)
  | register (name : String) (e : Effect)
  | registerFunction (name body : String)
  | drop

namespace Shelf

def initial : Shelf := ⟨.initial, fun _ => none⟩

/-- The shelf with a catalog in a place, or with none there. -/
def put (s : Shelf) (place : Nat) (c : Option Catalog) : Shelf :=
  { s with catalog? := fun p => if p = place then c else s.catalog? p }

/-- The shelf with a catalog of a new identity, if it can be made. -/
def make (s : Shelf) (place : Nat) (f : CatalogId → Except Error Catalog) : Shelf :=
  let s' := { s with ids := s.ids.next.2 }
  match f s.ids.next.1 with
  | .ok c => s'.put place (some c)
  | .error _ => s'

/-- The shelf with the catalog in a place changed, if there is one and the change succeeds. -/
def change (s : Shelf) (place : Nat) (f : Catalog → Except Error Catalog) : Shelf :=
  match (s.catalog? place).map f with
  | some (.ok c) => s.put place (some c)
  | _ => s

def step (s : Shelf) (place : Nat) : CatalogOp → Shelf
  | .create => s.make place fun id => .ok (.empty id)
  | .read text => s.make place fun id => Catalog.ofText id text
  | .builtin => s.make place Catalog.builtin
  | .copy original =>
    match s.catalog? original with
    | none => s
    | some c => s.make place fun id => .ok (c.copy id)
  | .extend text => s.change place (·.extend text)
  | .register name e => s.change place fun c => (c.register name e).map (·.2)
  | .registerFunction name body => s.change place fun c => .ok (c.registerFunction name body)
  | .drop => s.put place none

/-- The shelf after some operations on an empty one. -/
inductive Reachable : Shelf → Prop
  | initial : Reachable .initial
  | step {s : Shelf} (place : Nat) (op : CatalogOp) : Reachable s → Reachable (s.step place op)

/-! ### Identities -/

/-- Identities are given out in order, and no two places hold catalogs of one identity. -/
structure Inv (s : Shelf) : Prop where
  issued : ∀ place c, s.catalog? place = some c → c.id.number < s.ids.issued
  distinct : ∀ p q c d, s.catalog? p = some c → s.catalog? q = some d → c.id = d.id → p = q
  built : ∀ place c, s.catalog? place = some c → c.Built

/-- What an operation does to the place it works on: nothing is put there, or a catalog of a new
    identity, or a later state of the one that was there. -/
inductive Outcome (s : Shelf) (place : Nat) : Shelf → Prop
  | same : Outcome s place s
  | unused : Outcome s place { s with ids := s.ids.next.2 }
  | dropped : Outcome s place (s.put place none)
  | made {c : Catalog} (hid : c.id = s.ids.next.1) (hb : s.Inv → c.Built) :
      Outcome s place ({ s with ids := s.ids.next.2 }.put place (some c))
  | changed {c c' : Catalog} (hc : s.catalog? place = some c) (hg : Catalog.Grows c c')
      (hb : s.Inv → c'.Built) : Outcome s place (s.put place (some c'))

theorem outcome_make {s : Shelf} {place : Nat} {f : CatalogId → Except Error Catalog}
    (hid : ∀ id c, f id = .ok c → c.id = id) (hb : ∀ id c, f id = .ok c → s.Inv → c.Built) :
    Outcome s place (s.make place f) := by
  unfold make
  cases hf : f s.ids.next.1 with
  | error e => exact .unused
  | ok c => exact .made (hid _ c hf) (hb _ c hf)

theorem outcome_change {s : Shelf} {place : Nat} {f : Catalog → Except Error Catalog}
    (hg : ∀ c c', f c = .ok c' → Catalog.Grows c c') (hb : ∀ c c', c.Built → f c = .ok c' → c'.Built) :
    Outcome s place (s.change place f) := by
  unfold change
  cases hc : s.catalog? place with
  | none => exact .same
  | some c =>
    cases hf : f c with
    | error e => simpa [hf] using .same
    | ok c' =>
      simp only [Option.map_some, hf]
      exact .changed hc (hg c c' hf) fun inv => hb c c' (inv.built place c hc) hf

theorem outcome_step (s : Shelf) (place : Nat) (op : CatalogOp) : Outcome s place (s.step place op) := by
  cases op with
  | create =>
    refine outcome_make (f := fun id => .ok (Catalog.empty id)) ?_ ?_
    · rintro id c ⟨⟩
      rfl
    · rintro id c ⟨⟩ -
      exact .empty id
  | read text =>
    refine outcome_make (f := fun id => Catalog.ofText id text) (fun id c h => ?_) fun id c h _ => .extend (.empty id) h
    obtain ⟨file, -, hfile⟩ := Catalog.extend_eq_ok h
    exact (Catalog.Grows.extendWith hfile).1
  | builtin =>
    exact outcome_make (f := Catalog.builtin) (fun id c h => (Catalog.Grows.extendWith h).1) fun id c h _ =>
      .extendWith (.empty id) h
  | copy original =>
    simp only [step]
    cases ho : s.catalog? original with
    | none => exact .same
    | some d =>
      refine outcome_make (f := fun id => .ok (d.copy id)) ?_ ?_
      · rintro id c ⟨⟩
        rfl
      · rintro id c ⟨⟩ inv
        exact .copy id (inv.built original d ho)
  | extend text =>
    refine outcome_change (fun c c' h => ?_) fun c c' hc h => hc.extend h
    obtain ⟨file, -, hfile⟩ := Catalog.extend_eq_ok h
    exact .extendWith hfile
  | register name e =>
    refine outcome_change (fun c c' h => ?_) fun c c' hc h => ?_
    · obtain ⟨old, hr⟩ := Catalog.map_register_eq_ok h
      exact .register hr
    · obtain ⟨old, hr⟩ := Catalog.map_register_eq_ok h
      exact .register hc hr
  | registerFunction name body =>
    refine outcome_change (f := fun c => .ok (c.registerFunction name body)) ?_ ?_
    · rintro c c' ⟨⟩
      exact .registerFunction c name body
    · rintro c c' hc ⟨⟩
      exact .registerFunction name body hc
  | drop => exact .dropped

theorem put_catalog? {s : Shelf} {place p : Nat} {x : Option Catalog} {c : Catalog}
    (h : (s.put place x).catalog? p = some c) : (p = place ∧ x = some c) ∨ (p ≠ place ∧ s.catalog? p = some c) := by
  by_cases hp : p = place
  · exact Or.inl ⟨hp, by simpa [put, hp] using h⟩
  · exact Or.inr ⟨hp, by simpa [put, hp] using h⟩

theorem Inv.initial : Inv .initial := by
  refine ⟨?_, ?_, ?_⟩ <;> intros <;> simp_all [Shelf.initial]

/-- Only the place of the operation holds another catalog than before, and its identity is new or that of
    the one before. -/
theorem Inv.put {s : Shelf} (inv : s.Inv) {place : Nat} {x : Option Catalog}
    (hx : ∀ c, x = some c → c.id.number < s.ids.issued ∧ c.Built ∧
      ∀ p d, p ≠ place → s.catalog? p = some d → d.id ≠ c.id) : (s.put place x).Inv where
  issued p c hc := by
    rcases put_catalog? hc with ⟨-, rfl⟩ | ⟨-, hc⟩
    · exact (hx c rfl).1
    · exact inv.issued p c hc
  distinct p q c d hc hd hid := by
    rcases put_catalog? hc with ⟨rfl, hxc⟩ | ⟨hp, hsc⟩ <;> rcases put_catalog? hd with ⟨rfl, hxd⟩ | ⟨hq, hsd⟩
    · rfl
    · exact absurd hid.symm ((hx c hxc).2.2 q d hq hsd)
    · exact absurd hid ((hx d hxd).2.2 p c hp hsc)
    · exact inv.distinct p q c d hsc hsd hid
  built p c hc := by
    rcases put_catalog? hc with ⟨-, rfl⟩ | ⟨-, hc⟩
    · exact (hx c rfl).2.1
    · exact inv.built p c hc

theorem Inv.unused {s : Shelf} (inv : s.Inv) : Inv { s with ids := s.ids.next.2 } :=
  ⟨fun p c hc => Nat.lt_succ_of_lt (inv.issued p c hc), inv.distinct, inv.built⟩

theorem Inv.step {s : Shelf} (inv : s.Inv) (place : Nat) (op : CatalogOp) : (s.step place op).Inv := by
  have h := outcome_step s place op
  generalize s.step place op = t at h
  cases h with
  | same => exact inv
  | unused => exact inv.unused
  | dropped => exact inv.put fun c hc => by cases hc
  | made hid hb =>
    refine inv.unused.put fun c hc => ?_
    cases hc
    refine ⟨by rw [hid]; exact Nat.lt_succ_self _, hb inv, fun p d _ hd heq => ?_⟩
    have hlt := inv.issued p d hd
    rw [heq, hid] at hlt
    exact Nat.lt_irrefl _ hlt
  | @changed c c' hc hg hb =>
    refine inv.put fun x hx => ?_
    cases hx
    refine ⟨by rw [hg.1]; exact inv.issued place c hc, hb inv, fun p d hp hd heq => ?_⟩
    exact hp (inv.distinct p place d c hd hc (heq.trans hg.1))

theorem Reachable.inv {s : Shelf} (h : s.Reachable) : s.Inv := by
  induction h with
  | initial => exact Inv.initial
  | step place op _ ih => exact ih.step place op

/-! ### Versions -/

/-- The catalog is a state that one on the shelf had, or that one had which is gone: none with its identity
    is at an earlier state, and one with its version is the same. -/
structure Remembers (s : Shelf) (c₀ : Catalog) : Prop where
  issued : c₀.id.number < s.ids.issued
  later : ∀ place c, s.catalog? place = some c → c.id = c₀.id → c₀.generation ≤ c.generation
  same : ∀ place c, s.catalog? place = some c → c.version = c₀.version → c = c₀

theorem Inv.remembers {s : Shelf} (inv : s.Inv) {place : Nat} {c : Catalog} (h : s.catalog? place = some c) :
    s.Remembers c := by
  have only : ∀ p d, s.catalog? p = some d → d.id = c.id → d = c := by
    intro p d hd hid
    obtain rfl := inv.distinct p place d c hd h hid
    exact Option.some.inj (hd.symm.trans h)
  refine ⟨inv.issued place c h, fun p d hd hid => ?_, fun p d hd hv => ?_⟩
  · exact Nat.le_of_eq (congrArg Catalog.generation (only p d hd hid).symm)
  · exact only p d hd (congrArg CatalogVersion.catalog hv)

theorem Remembers.put {s : Shelf} {c₀ : Catalog} (h : s.Remembers c₀) {place : Nat} {x : Option Catalog}
    (hx : ∀ c, x = some c → c.id = c₀.id → c₀.generation ≤ c.generation ∧ (c.version = c₀.version → c = c₀)) :
    (s.put place x).Remembers c₀ where
  issued := h.issued
  later p c hc hid := by
    rcases put_catalog? hc with ⟨-, rfl⟩ | ⟨-, hc⟩
    · exact (hx c rfl hid).1
    · exact h.later p c hc hid
  same p c hc hv := by
    rcases put_catalog? hc with ⟨-, rfl⟩ | ⟨-, hc⟩
    · exact (hx c rfl (congrArg CatalogVersion.catalog hv)).2 hv
    · exact h.same p c hc hv

theorem Remembers.unused {s : Shelf} {c₀ : Catalog} (h : s.Remembers c₀) :
    Remembers { s with ids := s.ids.next.2 } c₀ :=
  ⟨Nat.lt_succ_of_lt h.issued, h.later, h.same⟩

theorem Remembers.step {s : Shelf} {c₀ : Catalog} (h : s.Remembers c₀) (place : Nat) (op : CatalogOp) :
    (s.step place op).Remembers c₀ := by
  have ho := outcome_step s place op
  generalize s.step place op = t at ho
  cases ho with
  | same => exact h
  | unused => exact h.unused
  | dropped => exact h.put fun c hc => by cases hc
  | made hid hb =>
    refine h.unused.put fun c hc heq => ?_
    cases hc
    have hlt := h.issued
    rw [← heq, hid] at hlt
    exact absurd hlt (Nat.lt_irrefl _)
  | @changed c c' hc hg hb =>
    refine h.put fun x hx heq => ?_
    cases hx
    have hle := h.later place c hc (hg.1.symm.trans heq)
    rcases hg.2 with rfl | hlt
    · exact ⟨hle, h.same place c' hc⟩
    · refine ⟨Nat.le_trans hle (Nat.le_of_lt hlt), fun hv => ?_⟩
      have hgen : c'.generation = c₀.generation := congrArg CatalogVersion.generation hv
      omega

end Shelf
end FxStack
