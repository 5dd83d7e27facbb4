import FxStack.Program.Text
import FxStack.Proofs.Pass.Mention
import FxStack.Proofs.Pass.Partition

/-! Compilation as one sweep over the entries. One pass is open, what is generated for a member is added to the texts
    and lists of that pass, and a pass that is left is replaced by an empty one; nothing goes over from one to the next.
    Main statement: `Compilation.sweep_eq`, by which the sweep finds the passes of the compilation. -/

namespace FxStack

/-! ### The open pass -/

/-- A pass in the making, with what has been generated for its members so far. -/
structure OpenPass where
  members : List Member
  firstIndex : Nat
  declarations : List String
  uvCode : String
  colorCode : String
  functions : List SharedFunction
deriving DecidableEq

namespace OpenPass

/-- A pass without members, opened at a position. -/
def opened (i : Nat) : OpenPass := ⟨[], i, [], "", "", []⟩

/-- A text with one more block of code under a line that names the effect and the position; blank code is left out. -/
def appendBlock (text : String) (m : Member) (code : Template) : String :=
  let body := Text.trim (code.instantiate m.index).toList
  if body.isEmpty then text
  else text ++ ("// " ++ m.effect.name ++ " #" ++ toString m.index ++ "\n") ++ String.ofList body ++ "\n"

/-- The pass with one more member. -/
def push (o : OpenPass) (m : Member) : OpenPass where
  members := o.members ++ [m]
  firstIndex := if o.members.isEmpty then m.index else o.firstIndex
  declarations := o.declarations ++ m.declarations
  uvCode :=
    match m.effect.uvCode with
    | some code => appendBlock o.uvCode m code
    | none => o.uvCode
  colorCode := appendBlock o.colorCode m m.effect.code
  functions := o.functions

/-- The pass with a function of the catalog, unless it has that already. -/
def mention (c : Catalog) (o : OpenPass) (name : String) : OpenPass :=
  match c.function? name with
  | some body => if o.functions.any (·.name = name) then o else { o with functions := o.functions ++ [⟨name, body⟩] }
  | none => o

/-- The pass with one more member and the functions it names. -/
def add (c : Catalog) (o : OpenPass) (m : Member) : OpenPass := m.effect.functions.foldl (mention c) (o.push m)

def ofPass (p : Pass) : OpenPass := ⟨p.members, p.firstIndex, p.declarations, p.uvCode, p.colorCode, p.functions⟩

end OpenPass

/-! ### The sweep -/

/-- The passes that have been left, and the one that is open. -/
structure Sweep where
  closed : List OpenPass
  current : OpenPass

namespace Sweep

def start : Sweep := ⟨[], .opened 0⟩

/-- One more entry: an effect that starts a pass leaves the open pass, unless that has no members. -/
def step (c : Catalog) (s : Sweep) (e : Entry × Nat) : Sweep :=
  match c.effect? e.1.name with
  | none => s
  | some effect =>
    let m : Member := ⟨e.2, e.1.id, effect⟩
    if effect.breaksPass && !s.current.members.isEmpty then ⟨s.closed ++ [s.current], (OpenPass.opened e.2).add c m⟩
    else ⟨s.closed, s.current.add c m⟩

def passes (s : Sweep) : List OpenPass := s.closed ++ if s.current.members.isEmpty then [] else [s.current]

end Sweep

def Compilation.sweep (c : Catalog) (entries : List Entry) : List OpenPass :=
  (entries.zipIdx.foldl (Sweep.step c) .start).passes

/-! ### What is added to the open pass -/

namespace OpenPass
variable {c : Catalog}

theorem appendBlock_eq (text : String) (m : Member) (code : Template) :
    appendBlock text m code = text ++ m.block code := by
  unfold appendBlock Member.block
  dsimp only
  split
  · rw [String.append_empty]
  · simp only [String.append_assoc]

theorem mention_eq (o : OpenPass) (names : List String) (name : String) :
    mention c { o with functions := Pass.functionsNamed c names } name =
      { o with functions := Pass.functionsNamed c (names ++ [name]) } := by
  unfold mention
  rw [Pass.functionsNamed_concat]
  cases hname : c.function? name with
  | none => simp
  | some body =>
    have hany : ((Pass.functionsNamed c names).any fun f => f.name = name) = decide (name ∈ names) := by
      rw [Bool.eq_iff_iff, List.any_eq_true, decide_eq_true_iff]
      constructor
      · rintro ⟨f, hf, heq⟩
        rw [← of_decide_eq_true heq]
        exact (Pass.mem_functionsNamed.mp hf).1
      · exact fun h => ⟨⟨name, body⟩, Pass.mem_functionsNamed.mpr ⟨h, hname⟩, decide_eq_true rfl⟩
    dsimp only
    rw [hany]
    by_cases h : name ∈ names <;> simp [h]

/-- Functions that are mentioned one after the other. -/
theorem foldl_mention (o : OpenPass) (more : List String) : ∀ names : List String,
    more.foldl (mention c) { o with functions := Pass.functionsNamed c names } =
      { o with functions := Pass.functionsNamed c (names ++ more) } := by
  induction more with
  | nil =>
    intro names
    rw [List.append_nil]
    rfl
  | cons name more ih =>
    intro names
    rw [List.foldl_cons, mention_eq, ih, List.append_assoc]
    rfl

/-- The open pass after a list of members. -/
def ofMembers (c : Catalog) (ms : List Member) : OpenPass := ofPass (.ofMembers c ms)

theorem push_ofMembers (ms : List Member) (m : Member) :
    (ofMembers c ms).push m =
      { ofMembers c (ms ++ [m]) with functions := Pass.functionsNamed c (ms.flatMap (·.effect.functions)) } := by
  have hfirst : (if ms.isEmpty then m.index else (Pass.ofMembers c ms).firstIndex) =
      (Pass.ofMembers c (ms ++ [m])).firstIndex := by
    cases ms <;> rfl
  have huv : (match m.effect.uvCode with
      | some code => appendBlock (Pass.ofMembers c ms).uvCode m code
      | none => (Pass.ofMembers c ms).uvCode) = (Pass.ofMembers c (ms ++ [m])).uvCode := by
    simp only [Pass.uvCode, Pass.ofMembers, appendBlock_eq, List.map_append, String.join_append]
    cases h : m.effect.uvCode <;> simp [Member.uvBlock, h]
  have hcolor : appendBlock (Pass.ofMembers c ms).colorCode m m.effect.code =
      (Pass.ofMembers c (ms ++ [m])).colorCode := by
    simp [Pass.colorCode, Pass.ofMembers, appendBlock_eq, Member.colorBlock]
  have hdeclarations : (Pass.ofMembers c ms).declarations ++ m.declarations =
      (Pass.ofMembers c (ms ++ [m])).declarations := by
    simp [Pass.declarations, Pass.ofMembers]
  unfold push ofMembers ofPass
  rw [← hfirst, ← huv, ← hcolor, ← hdeclarations]
  rfl

/-- What a member adds is what there is after one member more. -/
theorem add_ofMembers (ms : List Member) (m : Member) : (ofMembers c ms).add c m = ofMembers c (ms ++ [m]) := by
  unfold add
  rw [push_ofMembers, foldl_mention]
  unfold ofMembers ofPass Pass.ofMembers
  rw [Pass.functionsOf_eq, List.flatMap_append, List.flatMap_singleton]

/-- A pass starts where its first member stands. -/
theorem add_opened (i : Nat) (m : Member) : (opened i).add c m = ofMembers c [m] :=
  add_ofMembers (c := c) [] m

end OpenPass

/-! ### Passes that have been left -/

namespace Sweep
open Compilation
variable {c : Catalog}

/-- The sweep that has found runs of members. -/
def ofRuns (c : Catalog) (rs : List (List Member)) : Sweep :=
  ⟨rs.dropLast.map (OpenPass.ofMembers c), .ofMembers c (rs.getLastD [])⟩

theorem ofRuns_concat (before : List (List Member)) (last : List Member) :
    ofRuns c (before ++ [last]) = ⟨before.map (OpenPass.ofMembers c), .ofMembers c last⟩ := by
  simp [ofRuns]

theorem passes_ofRuns {rs : List (List Member)} (h : [] ∉ rs) :
    (ofRuns c rs).passes = rs.map (OpenPass.ofMembers c) := by
  rcases List.eq_nil_or_concat' rs with rfl | ⟨before, last, rfl⟩
  · rfl
  · have hlast : last.isEmpty = false := by
      rw [List.isEmpty_eq_false_iff]
      rintro rfl
      exact h (by simp)
    rw [ofRuns_concat, List.map_append]
    show _ ++ (if last.isEmpty then _ else _) = _
    rw [hlast]
    rfl

/-- One step of the sweep is one member more, if the effect is known. -/
theorem step_ofRuns (ms : List Member) (e : Entry × Nat) :
    step c (ofRuns c (runs ms)) e = ofRuns c (runs (ms ++ (member? c e).toList)) := by
  unfold step member?
  cases c.effect? e.1.name with
  | none =>
    dsimp only [Option.map_none, Option.toList_none]
    rw [List.append_nil]
  | some effect =>
    dsimp only [Option.map_some, Option.toList_some]
    rw [runs_concat]
    unfold extendRuns
    rcases List.eq_nil_or_concat' (runs ms) with hr | ⟨before, last, hr⟩
    · rw [hr]
      dsimp only [List.getLast?_nil]
      have hopen : (effect.breaksPass && !(ofRuns c []).current.members.isEmpty) = false := Bool.and_false _
      rw [hopen]
      exact congrArg (Sweep.mk []) (OpenPass.add_ofMembers [] _)
    · have hmem : last ∈ runs ms := hr ▸ List.mem_append_right _ (List.mem_singleton_self last)
      have hlast := ne_nil_of_mem_runs hmem
      rw [hr, List.getLast?_concat, ofRuns_concat]
      dsimp only
      have hleaves : (effect.breaksPass && !(OpenPass.ofMembers c last).members.isEmpty) = effect.breaksPass := by
        show (effect.breaksPass && !last.isEmpty) = _
        rw [List.isEmpty_eq_false_iff.mpr hlast, Bool.not_false, Bool.and_true]
      rw [hleaves]
      split
      · rw [OpenPass.add_opened, ofRuns_concat, List.map_append]
        rfl
      · rw [OpenPass.add_ofMembers, List.dropLast_concat, ofRuns_concat]

end Sweep

namespace Compilation

/-- The sweep finds the passes of the compilation. -/
theorem sweep_eq (c : Catalog) (entries : List Entry) :
    sweep c entries = (ofEntries c entries).passes.map OpenPass.ofPass := by
  have hfold : entries.zipIdx.foldl (Sweep.step c) .start = .ofRuns c (runs (members c entries)) := by
    induction entries using List.reverseRecOn with
    | nil => rfl
    | append_singleton entries e ih =>
      rw [List.zipIdx_append, List.foldl_append, ih, members_concat, ← Sweep.step_ofRuns, Nat.zero_add]
      rfl
  unfold sweep ofEntries
  rw [hfold, Sweep.passes_ofRuns fun h => ne_nil_of_mem_runs h rfl, List.map_map]
  rfl

end Compilation
end FxStack
