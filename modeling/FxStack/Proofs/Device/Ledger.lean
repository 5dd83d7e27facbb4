import FxStack.Proofs.Device.Front

/-! Devices that keep books on the handles they give out. Every call is noted with the number of the program or the
    texture that has come of it, so what a device has given to one party can be told from what it has given to
    others. Main definitions: `Ledger` and `Dealing.Apart`. -/

namespace FxStack

open Device (Reaches)

/-- A call of a device, with the number of what has been made. -/
structure Dealing where
  op : DeviceOp
  made : Option Nat

/-- The number of the program or the texture that the operation makes. -/
def DeviceOp.made {δ : Type} [Device δ] (d : δ) : DeviceOp → Option Nat
  | compileProgram label source => (Device.compileProgram d label source).1.toOption.map (·.number)
  | createTexture kind => (Device.createTexture d kind).1.toOption.map (·.number)
  | _ => none

/-- A device with all dealings that one party has had with it. -/
structure Ledger (δ : Type) where
  inner : δ
  dealings : List Dealing

namespace Ledger

section
variable {δ : Type} [Device δ]

def note (d : Ledger δ) (op : DeviceOp) (inner : δ) : Ledger δ := ⟨inner, d.dealings ++ [⟨op, op.made d.inner⟩]⟩

/-- What an inner device gives for a call, which is noted. -/
def passOn {α : Type} (d : Ledger δ) (op : DeviceOp) (r : α × δ) : α × Ledger δ := (r.1, d.note op r.2)

instance : Device (Ledger δ) where
  compileProgram d label source := d.passOn (.compileProgram label source) (Device.compileProgram d.inner label source)
  deleteProgram d p := d.note (.deleteProgram p) (Device.deleteProgram d.inner p)
  hasUniform d p name := Device.hasUniform d.inner p name
  createTexture d kind := d.passOn (.createTexture kind) (Device.createTexture d.inner kind)
  destroyTexture d t := d.note (.destroyTexture t) (Device.destroyTexture d.inner t)
  textureKind? d t := Device.textureKind? d.inner t
  placeholderTexture d := d.passOn .placeholderTexture (Device.placeholderTexture d.inner)
  setSampler d t s := d.note (.setSampler t s) (Device.setSampler d.inner t s)
  setFixedFunction d s := d.note (.setFixedFunction s) (Device.setFixedFunction d.inner s)
  displaySize d := Device.displaySize d.inner
  draw d call := d.passOn (.draw call) (Device.draw d.inner call)
  copy d source target := d.passOn (.copy source target) (Device.copy d.inner source target)

theorem run_eq (op : DeviceOp) (d : Ledger δ) : op.run d = d.note op (op.run d.inner) := by cases op <;> rfl

/-! ### Handles that have been given out -/

/-- The program has been given out for the text. -/
def Gave (d : Ledger δ) (p : ProgramId) (source : String) : Prop :=
  ∃ label, ⟨.compileProgram label source, some p.number⟩ ∈ d.dealings

/-- The texture has been created for the party. -/
def Made (d : Ledger δ) (t : TextureId) : Prop := ∃ kind, ⟨.createTexture kind, some t.number⟩ ∈ d.dealings

variable {P : DeviceOp → Prop} {d d' : Ledger δ} {p : ProgramId} {source : String} {t : TextureId}

/-- Operations are noted at the end of the books. -/
theorem dealings_of_reaches (h : Reaches P d d') : ∃ new, d'.dealings = d.dealings ++ new ∧ ∀ x ∈ new, P x.op := by
  induction h with
  | refl => exact ⟨[], (List.append_nil _).symm, nofun⟩
  | @step d' op _ hop ih =>
    obtain ⟨new, hnew, hops⟩ := ih
    refine ⟨new ++ [⟨op, op.made d'.inner⟩], ?_, fun x hx => ?_⟩
    · rw [run_eq, note, hnew, List.append_assoc]
    · rcases List.mem_append.mp hx with hx | hx
      · exact hops x hx
      · obtain rfl := List.mem_singleton.mp hx
        exact hop

theorem subset_of_reaches (h : Reaches P d d') : d.dealings ⊆ d'.dealings := by
  obtain ⟨new, hnew, -⟩ := dealings_of_reaches h
  rw [hnew]
  exact List.subset_append_left _ _

theorem Gave.reaches (hgave : d.Gave p source) (h : Reaches P d d') : d'.Gave p source :=
  hgave.imp fun _ hx => subset_of_reaches h hx

theorem Made.reaches (hmade : d.Made t) (h : Reaches P d d') : d'.Made t := hmade.imp fun _ hx => subset_of_reaches h hx

theorem gave_of_compileProgram {label : String} (h : Device.compileProgram d label source = (.ok p, d')) :
    d'.Gave p source := by
  have hinner : (Device.compileProgram d.inner label source).1 = .ok p := congrArg Prod.fst h
  have hnoted : d' = d.note (.compileProgram label source) (Device.compileProgram d.inner label source).2 :=
    (congrArg Prod.snd h).symm
  refine ⟨label, ?_⟩
  rw [hnoted]
  refine List.mem_append_right _ (List.mem_singleton.mpr ?_)
  rw [DeviceOp.made, hinner]
  rfl

theorem made_of_createTexture {kind : TextureKind} (h : Device.createTexture d kind = (.ok t, d')) : d'.Made t := by
  have hinner : (Device.createTexture d.inner kind).1 = .ok t := congrArg Prod.fst h
  have hnoted : d' = d.note (.createTexture kind) (Device.createTexture d.inner kind).2 := (congrArg Prod.snd h).symm
  refine ⟨kind, ?_⟩
  rw [hnoted]
  refine List.mem_append_right _ (List.mem_singleton.mpr ?_)
  rw [DeviceOp.made, hinner]
  rfl

end

end Ledger

/-! ### Two parties -/

/-- What two parties have been given has numbers below `n`, and no number is given to both. -/
structure Dealing.Apart (n : Nat) (xs ys : List Dealing) : Prop where
  left : ∀ x ∈ xs, ∀ m, x.made = some m → m < n
  right : ∀ y ∈ ys, ∀ m, y.made = some m → m < n
  apart : ∀ x ∈ xs, ∀ y ∈ ys, ∀ m, x.made = some m → y.made ≠ some m

/-- A new handle has the number that comes next. -/
theorem DeviceOp.made_eq_some {δ : Type} [Front δ] {d : δ} {op : DeviceOp} {n : Nat} (h : op.made d = some n) :
    n = (Front.reference d).nextNumber ∧ (Front.reference (op.run d)).nextNumber = n + 1 := by
  cases op with
  | compileProgram label source =>
    simp only [made, run] at h ⊢
    rcases hc : Device.compileProgram d label source with ⟨e | p, d'⟩ <;> rw [hc] at h
    · cases h
    · cases h
      obtain ⟨rfl, hd⟩ := ReferenceDevice.compileProgram_eq_ok (Front.compileProgram_ok hc)
      rw [hd]
      exact ⟨rfl, rfl⟩
  | createTexture kind =>
    simp only [made, run] at h ⊢
    rcases hc : Device.createTexture d kind with ⟨e | t, d'⟩ <;> rw [hc] at h
    · cases h
    · cases h
      obtain ⟨rfl, hnext⟩ := ReferenceDevice.createTexture_number (Front.createTexture_ok hc)
      exact ⟨rfl, hnext⟩
  | _ => cases h

namespace Dealing.Apart
variable {n m : Nat} {xs ys : List Dealing}

theorem symm (h : Apart n xs ys) : Apart n ys xs :=
  ⟨h.right, h.left, fun y hy x hx m hm hm' => h.apart x hx y hy m hm' hm⟩

theorem mono (h : Apart n xs ys) (hn : n ≤ m) : Apart m xs ys :=
  ⟨fun x hx k hk => Nat.lt_of_lt_of_le (h.left x hx k hk) hn,
    fun y hy k hk => Nat.lt_of_lt_of_le (h.right y hy k hk) hn, h.apart⟩

section
variable {δ : Type} [Front δ]

/-- What one party does keeps them apart. -/
theorem run {d : δ} (h : Apart (Front.reference d).nextNumber xs ys) (op : DeviceOp) :
    Apart (Front.reference (op.run d)).nextNumber (xs ++ [⟨op, op.made d⟩]) ys := by
  have later := h.mono (Device.Reaches.one (P := fun _ => True) op trivial rfl).nextNumber
  refine ⟨fun x hx k hk => ?_, later.right, fun x hx y hy k hk => ?_⟩
  · rcases List.mem_append.mp hx with hx | hx
    · exact later.left x hx k hk
    · obtain rfl := List.mem_singleton.mp hx
      rw [(DeviceOp.made_eq_some hk).2]
      exact Nat.lt_succ_self k
  · rcases List.mem_append.mp hx with hx | hx
    · exact h.apart x hx y hy k hk
    · obtain rfl := List.mem_singleton.mp hx
      intro htheirs
      have hlt := h.right y hy k htheirs
      rw [(DeviceOp.made_eq_some hk).1] at hlt
      exact Nat.lt_irrefl _ hlt

theorem reaches {P : DeviceOp → Prop} {d d' : Ledger δ} (h : Apart (Front.reference d.inner).nextNumber d.dealings ys)
    (hd : Reaches P d d') : Apart (Front.reference d'.inner).nextNumber d'.dealings ys := by
  refine hd.keeps (I := fun d => Apart (Front.reference d.inner).nextNumber d.dealings ys) h fun op d _ hkept => ?_
  rw [Ledger.run_eq]
  exact hkept.run op

end

end Dealing.Apart
end FxStack
