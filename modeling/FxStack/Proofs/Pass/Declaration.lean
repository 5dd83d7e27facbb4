import FxStack.Proofs.Catalog.Schema
import FxStack.Proofs.Frame.Bindings
import FxStack.Proofs.Text.Runs

/-! What the declarations of a compilation declare. A device that reads a declaration finds the name that
    the slot is bound under, since a name holds neither blanks nor semicolons; and no two declarations of a
    compilation, in one pass or in two, declare the same name. -/

namespace FxStack

/-! ### Texts -/

namespace Text

theorem reverse_dropWhile_reverse_concat {p : Char → Bool} {c : Char} (h : p c = false) (cs : List Char) :
    ((cs ++ [c]).reverse.dropWhile p).reverse = cs ++ [c] := by
  rw [List.reverse_concat, List.dropWhile_cons_of_neg (by simp [h]), ← List.reverse_concat, List.reverse_reverse]

theorem trimEnd_concat {c : Char} (h : isBlank c = false) (cs : List Char) : trimEnd (cs ++ [c]) = cs ++ [c] :=
  reverse_dropWhile_reverse_concat h cs

theorem afterStart?_append (start cs : List Char) : afterStart? start (start ++ cs) = some cs := by
  induction start with
  | nil => cases cs <;> rfl
  | cons s start ih => simp only [List.cons_append, afterStart?, if_true, ih]

end Text

/-! ### Names -/

theorem not_isBlank_of_isNameChar {c : Char} (h : ActiveUniforms.isNameChar c = true) : Text.isBlank c = false := by
  have hcode : 48 ≤ c.toNat ∧ c.toNat ≤ 122 := by
    have hunderscore : c = '_' → c.toNat = 95 := fun hc => hc ▸ rfl
    have hval : c.val.toNat = c.toNat := rfl
    unfold ActiveUniforms.isNameChar Char.isAlphanum Char.isAlpha Char.isUpper Char.isLower Char.isDigit at h
    simp only [Bool.or_eq_true, Bool.and_eq_true, decide_eq_true_eq, UInt32.le_iff_toNat_le, ge_iff_le] at h
    grind
  simp only [Text.isBlank, Bool.or_eq_false_iff, Bool.and_eq_false_iff, decide_eq_false_iff_not, beq_eq_false_iff_ne]
  omega

theorem Effect.isNameChar_of_isIdentifier {s : String} (h : isIdentifier s = true) :
    ∀ c ∈ s.toList, ActiveUniforms.isNameChar c = true := by
  obtain ⟨c, cs, hs, hfirst, hrest, -⟩ := isIdentifier_iff.mp h
  rw [hs]
  intro d hd
  rcases List.mem_cons.mp hd with rfl | hd
  · simp only [ActiveUniforms.isNameChar, Char.isAlphanum, Bool.or_eq_true, decide_eq_true_eq]
    tauto
  · simpa [ActiveUniforms.isNameChar] using hrest d hd

/-! ### Lines that declare -/

namespace ActiveUniforms

/-- The line declares the uniform `n`, with a space between it and its type. -/
structure Declares (l type n : List Char) : Prop where
  spelled : Text.trim l = keyword ++ (type ++ ' ' :: n ++ [';'])
  nonempty : n ≠ []
  chars : ∀ c ∈ n, isNameChar c = true

/-- A declaration is read back as the name that it declares. -/
theorem Declares.declared?_eq {l type n : List Char} (h : Declares l type n) : declared? l = some n := by
  rcases List.eq_nil_or_concat' n with hnil | ⟨cs, c, rfl⟩
  · exact absurd hnil h.nonempty
  have hsemicolon : decide (c = ';') = false := by
    have hc := h.chars c (List.mem_append_right cs List.mem_cons_self)
    simp only [decide_eq_false_iff_not]
    rintro rfl
    cases hc
  have hwords : Text.words (type ++ ' ' :: (cs ++ [c])) = Text.words type ++ [cs ++ [c]] := by
    have hlast : Text.runs (fun c => !Text.isBlank c) (cs ++ [c]) = [cs ++ [c]] :=
      Text.runs_eq_singleton (by simp) fun d hd => by simp [not_isBlank_of_isNameChar (h.chars d hd)]
    unfold Text.words
    rw [Text.runs_append_cons (by decide), hlast]
  unfold ActiveUniforms.declared?
  rw [h.spelled, Text.afterStart?_append]
  simp only [Option.bind_eq_bind, Option.bind_some, Text.trimEnd_concat (show Text.isBlank ';' = false by decide)]
  -- The semicolon goes, and behind it comes the last character of the name.
  rw [List.reverse_concat, List.dropWhile_cons_of_pos (by simp)]
  have hrest : type ++ ' ' :: (cs ++ [c]) = (type ++ ' ' :: cs) ++ [c] := by simp
  rw [hrest, Text.reverse_dropWhile_reverse_concat hsemicolon, ← hrest, hwords, List.getLast?_concat]

end ActiveUniforms

namespace Uniform
variable {s : Uniform}

theorem isNameChar_of_mem_nameAt (h : Effect.isIdentifier s.baseName = true) {i : Nat} {c : Char}
    (hc : c ∈ (s.nameAt i).toList) : ActiveUniforms.isNameChar c = true := by
  unfold nameAt at hc
  rw [String.toList_append] at hc
  rcases List.mem_append.mp hc with hc | hc
  · exact Effect.isNameChar_of_isIdentifier h c hc
  · simp [ActiveUniforms.isNameChar, Char.isAlphanum, isDigit_of_mem_toString hc]

theorem toList_declaration (s : Uniform) (i : Nat) :
    (s.declaration i).toList =
      ActiveUniforms.keyword ++ (s.type.name.toList ++ ' ' :: (s.nameAt i).toList ++ [';']) := by
  simp [declaration, ActiveUniforms.keyword, String.toList_append]

theorem exists_nameAt_eq_concat (s : Uniform) (i : Nat) :
    ∃ cs c, (s.nameAt i).toList = cs ++ [c] ∧ c.isDigit = true := by
  have hdigit := endsWithDigit_nameAt s i
  unfold Effect.endsWithDigit at hdigit
  rcases List.eq_nil_or_concat' (s.nameAt i).toList with hnil | ⟨cs, c, hname⟩
  · simp [hnil] at hdigit
  · exact ⟨cs, c, hname, by simpa [hname] using hdigit⟩

theorem declares (h : Effect.isIdentifier s.baseName = true) (i : Nat) :
    ActiveUniforms.Declares (s.declaration i).toList s.type.name.toList (s.nameAt i).toList := by
  obtain ⟨cs, c, hname, -⟩ := exists_nameAt_eq_concat s i
  refine ⟨?_, by simp [hname], fun d hd => isNameChar_of_mem_nameAt h hd⟩
  have hstart : Text.trimStart (s.declaration i).toList = (s.declaration i).toList := by
    rw [toList_declaration]
    rfl
  unfold Text.trim
  rw [hstart, toList_declaration, ← List.append_assoc, Text.trimEnd_concat (by decide)]

/-- Reading a declaration gives back the name that it was made for. -/
theorem declared?_declaration (h : Effect.isIdentifier s.baseName = true) (i : Nat) :
    ActiveUniforms.declared? (s.declaration i).toList = some (s.nameAt i).toList :=
  (declares h i).declared?_eq

end Uniform

/-! ### Compilations -/

theorem Slot.spec_valid {s : Slot} {m : Member} (hs : s ∈ m.slots) (hm : m.effect.Valid) :
    Effect.isIdentifier s.spec.baseName = true :=
  hm.identifiers _ (Member.of_mem_slots hs).2

theorem Member.declarations_eq (m : Member) : m.declarations = m.slots.map fun s => s.spec.declaration s.member.index := by
  unfold declarations slots KeyMap.values
  rw [List.map_map, List.map_map]
  rfl

namespace Compilation
variable {c : Catalog}

theorem valid_of_mem_members (hc : c.Built) {entries : List Entry} {m : Member} (h : m ∈ members c entries) :
    m.effect.Valid := by
  obtain ⟨e, -, -, heffect⟩ := mem_members.mp h
  exact (hc.sound e.name m.effect heffect).1

/-- Every declaration of a pass is one of a uniform with a name that is an identifier. -/
theorem of_mem_declarations (hc : c.Built) {entries : List Entry} {p : Pass} (hp : p ∈ (ofEntries c entries).passes)
    {d : String} (hd : d ∈ p.declarations) :
    ∃ (u : Uniform) (i : Nat), Effect.isIdentifier u.baseName = true ∧ d = u.declaration i := by
  obtain ⟨m, hm, hd⟩ := List.mem_flatMap.mp hd
  rw [Member.declarations_eq] at hd
  obtain ⟨s, hs, rfl⟩ := List.mem_map.mp hd
  exact ⟨s.spec, s.member.index, Slot.spec_valid hs (valid_of_mem_members hc (mem_members_of_mem_passes hp hm)), rfl⟩

theorem flatMap_members_passes {α : Type} (c : Catalog) (entries : List Entry) (f : Member → List α) :
    ((ofEntries c entries).passes.flatMap fun p => p.members.flatMap f) = (members c entries).flatMap f := by
  have hmembers := congrArg List.flatten (map_members_passes c entries)
  rw [(isCut_runs _).1, ← List.flatMap_def] at hmembers
  rw [← hmembers, List.flatMap_assoc]

/-- Names of uniforms tell the position and the base name, whatever effects of a catalog declare them. So the
    declarations of all passes of a compilation declare different names, the very ones that slots are bound
    under, and none of those of every program. -/
theorem declared_apart (hc : c.Built) :
    (∀ n₁ n₂ e₁ e₂, c.effect? n₁ = some e₁ → c.effect? n₂ = some e₂ →
      ∀ k₁ k₂ u₁ u₂, e₁.uniforms.get? k₁ = some u₁ → e₂.uniforms.get? k₂ = some u₂ →
        ∀ i j, u₁.nameAt i = u₂.nameAt j → i = j ∧ u₁.baseName = u₂.baseName) ∧
    ∀ entries : List Entry,
      let passes := (ofEntries c entries).passes
      let names := passes.flatMap fun p => p.slots.map Slot.name
      (passes.flatMap Pass.declarations).map (fun line => ActiveUniforms.declared? line.toList) =
          names.map (fun name => some name.toList) ∧
        names.Nodup ∧ ∀ name ∈ names, name ∉ GlobalUniform.names := by
  refine ⟨fun n₁ n₂ e₁ e₂ he₁ he₂ k₁ k₂ u₁ u₂ hu₁ hu₂ i j hname => ?_, fun entries => ?_⟩
  · have hv₁ := (hc.sound n₁ e₁ he₁).1.digits _ (KeyMap.mem_toList_of_get? hu₁)
    have hv₂ := (hc.sound n₂ e₂ he₂).1.digits _ (KeyMap.mem_toList_of_get? hu₂)
    exact (Uniform.nameAt_inj hv₁ hv₂ hname).symm
  · intro passes names
    have hnames : names = ((members c entries).flatMap Member.slots).map Slot.name := by
      rw [List.map_flatMap, ← flatMap_members_passes]
      simp only [names, passes, Pass.slots, List.map_flatMap]
    have hlines : passes.flatMap Pass.declarations =
        ((members c entries).flatMap Member.slots).map fun s => s.spec.declaration s.member.index := by
      rw [List.map_flatMap, ← flatMap_members_passes]
      simp only [← Member.declarations_eq]
      rfl
    refine ⟨?_, ?_, fun name hname => ?_⟩
    · rw [hnames, hlines, List.map_map, List.map_map]
      refine List.map_congr_left fun s hs => ?_
      obtain ⟨m, hm, hs⟩ := List.mem_flatMap.mp hs
      exact Uniform.declared?_declaration (Slot.spec_valid hs (valid_of_mem_members hc hm)) _
    · rw [hnames]
      exact nodup_name_slots (pairwise_index_members c entries) fun m hm => valid_of_mem_members hc hm
    · rw [hnames] at hname
      obtain ⟨s, -, rfl⟩ := List.mem_map.mp hname
      exact GlobalUniform.nameAt_notMem_names s.spec s.member.index

/-- Two entries of one effect with two uniforms, in passes of their own. -/
theorem declared_apart_ripples :
    let amount := Uniform.plain "u_amount" .float
    let map := Uniform.plain "u_map" .sampler2D
    let passes := (ofEntries (Catalog.rippling ⟨0⟩) [⟨⟨1⟩, "ripple", .empty⟩, ⟨⟨2⟩, "ripple", .empty⟩]).passes
    (Catalog.rippling ⟨0⟩).Built ∧ (∀ i j, amount.nameAt i ≠ map.nameAt j) ∧ passes.length = 2 ∧
      (passes.flatMap fun p => p.slots.map Slot.name) = ["u_amount0", "u_map0", "u_amount1", "u_map1"] ∧
      (passes.flatMap Pass.declarations).map (fun line => ActiveUniforms.declared? line.toList) =
        ["u_amount0", "u_map0", "u_amount1", "u_map1"].map (fun name => some name.toList) := by
  intro amount map passes
  have h := declared_apart (Catalog.rippling_built ⟨0⟩)
  refine ⟨Catalog.rippling_built ⟨0⟩, fun i j hname => ?_, rfl, rfl, (h.2 _).1⟩
  have hbase := (h.1 "ripple" "ripple" _ _ rfl rfl "amount" "map" amount map rfl rfl i j hname).2
  revert hbase
  decide

end Compilation
end FxStack
