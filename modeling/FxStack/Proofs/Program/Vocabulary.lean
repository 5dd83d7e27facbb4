import FxStack.Proofs.Pass.Declaration
import Mathlib.Data.List.Dedup

/-! The identifiers that every program uses. They are those of the parts of a program text that do not depend on
    the pass, and what a pass adds never runs into them. A declared uniform is named like one of them, or like a
    type, for one base name and few positions only. Main statement: `Catalog.captured_iff`. -/

namespace FxStack
namespace Program

/-! ### Identifiers of a text -/

/-- The words of a text that are not numbers. -/
def identifiers (text : List Char) : List String :=
  ((ActiveUniforms.tokens text).filter fun w => !w.head?.any Char.isDigit).map String.ofList

theorem identifiers_append_cons {c : Char} (h : ActiveUniforms.isNameChar c = false) (as bs : List Char) :
    identifiers (as ++ c :: bs) = identifiers as ++ identifiers bs := by
  unfold identifiers ActiveUniforms.tokens
  rw [Text.runs_append_cons h, List.filter_append, List.map_append]

theorem identifiers_cons {c : Char} (h : ActiveUniforms.isNameChar c = false) (cs : List Char) :
    identifiers (c :: cs) = identifiers cs :=
  identifiers_append_cons h [] cs

theorem identifiers_append_of_head {c : Char} {bs : List Char} (hbs : bs.head? = some c)
    (hc : ActiveUniforms.isNameChar c = false) (as : List Char) :
    identifiers (as ++ bs) = identifiers as ++ identifiers bs := by
  obtain ⟨cs, rfl⟩ := List.head?_eq_some_iff.mp hbs
  rw [identifiers_append_cons hc, identifiers_cons hc]

theorem identifiers_append_of_last {c : Char} {as : List Char} (has : as.getLast? = some c)
    (hc : ActiveUniforms.isNameChar c = false) (bs : List Char) :
    identifiers (as ++ bs) = identifiers as ++ identifiers bs := by
  obtain ⟨cs, rfl⟩ := List.getLast?_eq_some_iff.mp has
  have hcs : identifiers (cs ++ [c]) = identifiers cs := by
    rw [identifiers_append_cons hc]
    exact List.append_nil _
  rw [List.append_assoc, List.singleton_append, identifiers_append_cons hc, hcs]

/-! ### Fixed parts -/

theorem getLast?_preamble : preamble.toList.getLast? = some '\n' := by
  unfold preamble
  rewrite [String.toList_append, List.getLast?_append]
  rfl

theorem head?_mainStart : mainStart.toList.head? = some '\n' := by
  unfold mainStart
  simp only [String.toList_append, List.head?_append, -String.reduceAppend]
  rfl

theorem getLast?_mainStart : mainStart.toList.getLast? = some '\n' := by
  unfold mainStart
  rewrite [String.toList_append, List.getLast?_append]
  rfl

/-- Words of the fixed parts stay whole, since those parts end lines and start with blanks. -/
theorem identifiers_ofPass (p : Pass) :
    identifiers (ofPass p).toList = identifiers preamble.toList
      ++ identifiers (declarationText p.declarations ++ String.join (p.functions.map functionText)).toList
      ++ identifiers mainStart.toList ++ identifiers (indent p.uvCode).toList ++ identifiers sampleLine.toList
      ++ identifiers (indent p.colorCode).toList ++ identifiers mainEnd.toList := by
  have hend : mainEnd.toList.head? = some ' ' := rfl
  have hsample (rest : List Char) : (sampleLine.toList ++ rest).head? = some ' ' := by
    rw [List.head?_append]
    rfl
  have hsampleEnd : sampleLine.toList.getLast? = some '\n' := rfl
  have hstart (rest : List Char) : (mainStart.toList ++ rest).head? = some '\n' := by
    rw [List.head?_append, head?_mainStart]
    rfl
  unfold ofPass
  simp only [String.toList_append, List.append_assoc]
  rw [identifiers_append_of_last getLast?_preamble rfl, ← List.append_assoc (declarationText _).toList,
    identifiers_append_of_head (hstart _) rfl, identifiers_append_of_last getLast?_mainStart rfl,
    identifiers_append_of_head (hsample _) rfl, identifiers_append_of_last hsampleEnd rfl,
    identifiers_append_of_head hend rfl]

/-- The parts of a program text that do not depend on the pass. -/
def fixedText : String := preamble ++ mainStart ++ sampleLine ++ mainEnd

/-- They are the program text of a pass without members. -/
theorem ofPass_blank : ofPass ⟨[], [], "", none⟩ = fixedText := by
  simp [ofPass, fixedText, Pass.declarations, declarationText, Pass.uvCode, Pass.colorCode, indent, Text.lines]

/-- The identifiers that every program uses. -/
def vocabulary : List String := identifiers fixedText.toList

theorem vocabulary_eq : vocabulary = identifiers preamble.toList ++ identifiers mainStart.toList
    ++ identifiers sampleLine.toList ++ identifiers mainEnd.toList := by
  unfold vocabulary
  rw [← ofPass_blank, identifiers_ofPass]
  have hnone : identifiers [] = [] := rfl
  simp [Pass.declarations, declarationText, Pass.uvCode, Pass.colorCode, indent, Text.lines, hnone]

/-- A word is of the vocabulary if the program text of every pass has it. -/
theorem mem_vocabulary {w : String} : w ∈ vocabulary ↔ ∀ p : Pass, w ∈ identifiers (ofPass p).toList := by
  constructor
  · intro h p
    rw [vocabulary_eq] at h
    rw [identifiers_ofPass]
    simp only [List.mem_append] at h ⊢
    rcases h with ((h | h) | h) | h <;> simp only [h, true_or, or_true]
  · intro h
    have hblank := h ⟨[], [], "", none⟩
    rwa [ofPass_blank] at hblank

/-- Of the words of the vocabulary, two end with a digit. -/
theorem mem_vocabulary_and_endsWithDigit {w : String} :
    w ∈ vocabulary ∧ Effect.endsWithDigit w = true ↔ w = "vec2" ∨ w = "vec4" := by
  have hwords : (vocabulary.filter Effect.endsWithDigit).dedup = ["vec2", "vec4"] := by
    unfold vocabulary identifiers ActiveUniforms.tokens fixedText preamble mainStart sampleLine mainEnd
    rw [Text.runs_eq_splitOnP]
    -- Texts as lists of characters are computed with; texts as bytes would be decoded first.
    repeat rw [String.toList_append]
    repeat rw [String.toList_ofList]
    decide +kernel
  rw [← List.mem_pair, ← hwords, List.mem_dedup, List.mem_filter]

end Program

/-! ### Names of types -/

theorem ShaderType.exists_name_and_endsWithDigit {w : String} :
    (∃ t : ShaderType, w = t.name) ∧ Effect.endsWithDigit w = true ↔ w = "vec2" ∨ w = "vec3" ∨ w = "vec4" := by
  constructor
  · rintro ⟨⟨t, rfl⟩, hdigit⟩
    cases t <;> first | decide | exact absurd hdigit (by decide)
  · rintro (rfl | rfl | rfl)
    · exact ⟨⟨.vec2, rfl⟩, rfl⟩
    · exact ⟨⟨.vec3, rfl⟩, rfl⟩
    · exact ⟨⟨.vec4, rfl⟩, rfl⟩

/-! ### Names of uniforms -/

namespace Uniform

theorem nameAt_eq_vec_iff {u : Uniform} (h : Effect.endsWithDigit u.baseName = false) {i n : Nat} :
    u.nameAt i = "vec" ++ toString n ↔ u.baseName = "vec" ∧ i = n := by
  constructor
  · exact nameAt_inj (t := .plain "vec" .float) h rfl
  · rintro ⟨hbase, rfl⟩
    rw [nameAt, hbase]

theorem nameAt_mem_vocabulary {u : Uniform} (h : Effect.endsWithDigit u.baseName = false) {i : Nat} :
    u.nameAt i ∈ Program.vocabulary ↔ u.baseName = "vec" ∧ (i = 2 ∨ i = 4) := by
  have hwords : u.nameAt i ∈ Program.vocabulary ↔ u.nameAt i = "vec2" ∨ u.nameAt i = "vec4" := by
    rw [← Program.mem_vocabulary_and_endsWithDigit]
    simp [endsWithDigit_nameAt]
  rw [hwords, and_or_left, ← nameAt_eq_vec_iff h, ← nameAt_eq_vec_iff h]
  rfl

theorem nameAt_eq_typeName {u : Uniform} (h : Effect.endsWithDigit u.baseName = false) {i : Nat} :
    (∃ t : ShaderType, u.nameAt i = t.name) ↔ u.baseName = "vec" ∧ (i = 2 ∨ i = 3 ∨ i = 4) := by
  have hwords : (∃ t : ShaderType, u.nameAt i = t.name) ↔
      u.nameAt i = "vec2" ∨ u.nameAt i = "vec3" ∨ u.nameAt i = "vec4" := by
    rw [← ShaderType.exists_name_and_endsWithDigit]
    simp [endsWithDigit_nameAt]
  rw [hwords, and_or_left, and_or_left, ← nameAt_eq_vec_iff h, ← nameAt_eq_vec_iff h, ← nameAt_eq_vec_iff h]
  rfl

end Uniform

/-! ### Registered effects -/

/-- An effect with a uniform that has the base name of the vector types. -/
def Effect.vectored : Effect := { ofCode .empty with uniforms := .ofList [("k", .plain "vec" .float)] }

namespace Catalog

theorem register_vectored : (empty ⟨0⟩).register "vectored" Effect.vectored = .ok (none,
    { empty ⟨0⟩ with effects := KeyMap.empty.insert "vectored" (Effect.vectored.named "vectored"), generation := 1 }) :=
  register_eq_ok.mpr ⟨Effect.validate_eq_ok.mp rfl, rfl, rfl⟩

theorem get?_vectored : Effect.vectored.uniforms.get? "k" = some (.plain "vec" .float) := rfl

/-- What is declared for a uniform of a registered effect is called like a word of every program, or like a type,
    exactly if the base name is that of the vector types and the position is the number of components. -/
theorem captured_iff {c c' : Catalog} {name : String} {e : Effect} {old : Option Effect}
    (h : c.register name e = .ok (old, c')) {key : String} {u : Uniform} (hu : e.uniforms.get? key = some u) (i : Nat) :
    (u.nameAt i ∈ Program.vocabulary ↔ u.baseName = "vec" ∧ (i = 2 ∨ i = 4)) ∧
      ((∃ t : ShaderType, u.nameAt i = t.name) ↔ u.baseName = "vec" ∧ (i = 2 ∨ i = 3 ∨ i = 4)) ∧
      ((∀ p : Pass, u.nameAt i ∈ Program.identifiers (Program.ofPass p).toList) ↔
        u.baseName = "vec" ∧ (i = 2 ∨ i = 4)) := by
  have hdigit := (register_eq_ok.mp h).1.digits _ (KeyMap.mem_toList_of_get? hu)
  have hword := Uniform.nameAt_mem_vocabulary hdigit (i := i)
  exact ⟨hword, Uniform.nameAt_eq_typeName hdigit, Program.mem_vocabulary.symm.trans hword⟩

theorem captured_iff_vectored : ∃ c', (empty ⟨0⟩).register "vectored" Effect.vectored = .ok (none, c') ∧
    ∀ i, (Uniform.plain "vec" .float).nameAt i ∈ Program.vocabulary ↔ i = 2 ∨ i = 4 := by
  refine ⟨_, register_vectored, fun i => ?_⟩
  exact (captured_iff register_vectored get?_vectored i).1.trans (and_iff_right rfl)

/-- The third entry of such an effect declares a uniform with the name of a type, which every program uses. -/
theorem vectored_captures : ∃ c', (empty ⟨0⟩).register "vectored" Effect.vectored = .ok (none, c') ∧
    Effect.vectored.uniforms.get? "k" = some (.plain "vec" .float) ∧
    (Uniform.plain "vec" .float).nameAt 2 ∈ Program.vocabulary ∧
    (Uniform.plain "vec" .float).nameAt 2 = ShaderType.vec2.name ∧
    ((Compilation.ofEntries c' [⟨⟨1⟩, "vectored", .empty⟩, ⟨⟨2⟩, "vectored", .empty⟩,
      ⟨⟨3⟩, "vectored", .empty⟩]).passes.flatMap Pass.declarations) =
        ["uniform float vec0;", "uniform float vec1;", "uniform float vec2;"] := by
  refine ⟨_, register_vectored, get?_vectored, ?_, rfl, rfl⟩
  exact (Uniform.nameAt_mem_vocabulary rfl).mpr ⟨rfl, Or.inl rfl⟩

end Catalog
end FxStack
