import FxStack.Device
import FxStack.Notice

/-! The operations of a device as data, for devices of any kind. What a part of an application does to its
    device is told by the operations it gets by with, and what it tells by the notices it adds. Main
    definitions: `Device.Reaches` and `Device.Course`. -/

namespace FxStack

inductive DeviceOp
  | compileProgram (label source : String)
  | deleteProgram (p : ProgramId)
  | createTexture (kind : TextureKind)
  | destroyTexture (t : TextureId)
  | placeholderTexture
  | setSampler (t : TextureId) (sampler : Sampler)
  | setFixedFunction (state : FixedFunction)
  | draw (call : DrawCall)
  | copy (source : TextureId) (target : Target)

namespace DeviceOp

/-- The device after the operation, whatever came of it. -/
def run {δ : Type} [Device δ] (d : δ) : DeviceOp → δ
  | compileProgram label source => (Device.compileProgram d label source).2
  | deleteProgram p => Device.deleteProgram d p
  | createTexture kind => (Device.createTexture d kind).2
  | destroyTexture t => Device.destroyTexture d t
  | placeholderTexture => (Device.placeholderTexture d).2
  | setSampler t sampler => Device.setSampler d t sampler
  | setFixedFunction state => Device.setFixedFunction d state
  | draw call => (Device.draw d call).2
  | copy source target => (Device.copy d source target).2

/-- No program is made or deleted. -/
def SparesPrograms : DeviceOp → Prop
  | compileProgram .. | deleteProgram _ => False
  | _ => True

/-- No texture is sampled in another way, and none is destroyed. -/
def SparesSampling : DeviceOp → Prop
  | setSampler .. | destroyTexture _ | placeholderTexture => False
  | _ => True

/-- No texture is created or destroyed, but for the placeholder. -/
def SparesTextures : DeviceOp → Prop
  | createTexture _ | destroyTexture _ => False
  | _ => True

/-- The program is deleted or drawn with. -/
def Touches (p : ProgramId) : DeviceOp → Prop
  | deleteProgram q => q = p
  | draw call => call.program = p
  | _ => False

/-- What operations may be made with: the programs that may be deleted, those that may be drawn with, and the
    targets that may be written. -/
structure Scope where
  deleted : ProgramId → Prop
  drawn : ProgramId → Prop
  written : Target → Prop

def Scope.none : Scope := ⟨fun _ => False, fun _ => False, fun _ => False⟩

/-- The operation deletes, draws and copies only as the scope allows it. -/
def Within (s : Scope) : DeviceOp → Prop
  | deleteProgram p => s.deleted p
  | draw call => s.drawn call.program ∧ s.written call.target
  | copy _ target => s.written target
  | _ => True

/-- No program is made or deleted, and what is drawn or copied is so within the scope. -/
def Draws (s : Scope) (op : DeviceOp) : Prop := op.SparesPrograms ∧ op.Within s

/-- A texture is created. -/
def Creates (op : DeviceOp) : Prop := ∃ kind, op = .createTexture kind

/-- Whether a program is compiled under the label. -/
def compiles (label : String) : DeviceOp → Bool
  | compileProgram l _ => l = label
  | _ => false

theorem SparesPrograms.compiles {op : DeviceOp} (h : op.SparesPrograms) (label : String) : op.compiles label = false := by
  cases op with
  | compileProgram => exact h.elim
  | _ => rfl

namespace Within
variable {s s' : Scope} {op : DeviceOp}

theorem mono (h : op.Within s) (hdeleted : ∀ p, s.deleted p → s'.deleted p) (hdrawn : ∀ p, s.drawn p → s'.drawn p)
    (hwritten : ∀ t, s.written t → s'.written t) : op.Within s' := by
  cases op with
  | deleteProgram p => exact hdeleted p h
  | draw call => exact ⟨hdrawn _ h.1, hwritten _ h.2⟩
  | copy source target => exact hwritten target h
  | _ => trivial

end Within

theorem Creates.spares {op : DeviceOp} (h : op.Creates) : op.SparesPrograms ∧ op.SparesSampling := by
  obtain ⟨kind, rfl⟩ := h
  exact ⟨trivial, trivial⟩

theorem Creates.draws {op : DeviceOp} (h : op.Creates) (s : Scope) : op.Draws s := by
  obtain ⟨kind, rfl⟩ := h
  exact ⟨trivial, trivial⟩

end DeviceOp

namespace Device
variable {δ : Type} [Device δ] {P Q : DeviceOp → Prop} {d d' d'' : δ}

/-! ### Operations that a device goes through -/

/-- The device becomes `d'` by some operations that satisfy `P`. -/
inductive Reaches (P : DeviceOp → Prop) (d : δ) : δ → Prop
  | refl : Reaches P d d
  | step {d' : δ} (op : DeviceOp) : Reaches P d d' → P op → Reaches P d (op.run d')

namespace Reaches

theorem trans (h : Reaches P d d') (h' : Reaches P d' d'') : Reaches P d d'' := by
  induction h' with
  | refl => exact h
  | step op _ hop ih => exact .step op ih hop

theorem mono (h : Reaches P d d') (hPQ : ∀ op, P op → Q op) : Reaches Q d d' := by
  induction h with
  | refl => exact .refl
  | step op _ hop ih => exact .step op ih (hPQ op hop)

theorem one (op : DeviceOp) (hop : P op) (h : op.run d = d') : Reaches P d d' := h ▸ .step op .refl hop

/-- What every operation that satisfies `P` keeps is kept. -/
theorem keeps {I : δ → Prop} (h : Reaches P d d') (hd : I d) (hI : ∀ op d, P op → I d → I (op.run d)) : I d' := by
  induction h with
  | refl => exact hd
  | step op _ hop ih => exact hI op _ hop ih

theorem foldl {α : Type} {f : δ → α → δ} {l : List α} (hf : ∀ d, ∀ x ∈ l, Reaches P d (f d x)) (d : δ) :
    Reaches P d (l.foldl f d) := by
  induction l generalizing d with
  | nil => exact .refl
  | cons x l ih =>
    exact (hf d x List.mem_cons_self).trans (ih (fun d y hy => hf d y (List.mem_cons_of_mem x hy)) _)

end Reaches

/-! ### Operations and notices -/

/-- The device becomes `d'` by operations that satisfy `P`, and the notices `ns'` are told in the end, none
    of the new ones about a texture that is not on loan. -/
structure Course (P : DeviceOp → Prop) (d : δ) (ns : List Notice) (d' : δ) (ns' : List Notice) : Prop where
  reaches : Reaches P d d'
  notices : ∃ more, ns' = ns ++ more ∧ ∀ t, .notOnLoan t ∉ more

namespace Course
variable {ns ns' ns'' : List Notice}

theorem of_reaches (h : Reaches P d d') (ns : List Notice) : Course P d ns d' ns := ⟨h, [], by simp, by simp⟩

theorem refl (d : δ) (ns : List Notice) : Course P d ns d ns := .of_reaches .refl ns

theorem one (op : DeviceOp) (hop : P op) (h : op.run d = d') (ns : List Notice) : Course P d ns d' ns :=
  .of_reaches (.one op hop h) ns

theorem note (d : δ) (ns : List Notice) {n : Notice} (hn : ∀ t, n ≠ .notOnLoan t) : Course P d ns d (ns ++ [n]) :=
  ⟨.refl, [n], rfl, fun t ht => hn t (List.mem_singleton.mp ht).symm⟩

theorem mono (h : Course P d ns d' ns') (hPQ : ∀ op, P op → Q op) : Course Q d ns d' ns' :=
  ⟨h.reaches.mono hPQ, h.notices⟩

/-- Whatever the operations were. -/
theorem forget (h : Course P d ns d' ns') : Course (fun _ => True) d ns d' ns' := h.mono fun _ _ => trivial

/-- What has been told before makes no difference. -/
theorem prepend (h : Course P d [] d' ns') (ns : List Notice) : Course P d ns d' (ns ++ ns') := by
  obtain ⟨more, rfl, hmore⟩ := h.notices
  exact ⟨h.reaches, ns', rfl, hmore⟩

theorem trans (h : Course P d ns d' ns') (h' : Course P d' ns' d'' ns'') : Course P d ns d'' ns'' := by
  obtain ⟨more, rfl, hmore⟩ := h.notices
  obtain ⟨more', rfl, hmore'⟩ := h'.notices
  refine ⟨h.reaches.trans h'.reaches, more ++ more', by simp, fun t ht => ?_⟩
  rcases List.mem_append.mp ht with ht | ht
  · exact hmore t ht
  · exact hmore' t ht

theorem notMem (h : Course P d ns d' ns') {t : TextureId} (ht : .notOnLoan t ∉ ns) : .notOnLoan t ∉ ns' := by
  obtain ⟨more, rfl, hmore⟩ := h.notices
  simp [ht, hmore t]

end Course
end Device
end FxStack
