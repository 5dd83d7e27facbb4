import FxStack.Proofs.Program.Brackets
import FxStack.Proofs.Program.Reading
import FxStack.Proofs.Pass.Mention

/-! Programs from balanced parts. Where the names of effects are on one line and every fragment and every shared function
    is accepted by the check of brackets on its own, so is the program of every pass. Main statement:
    `Compilation.check_ofPass`. -/

namespace FxStack
open Brackets

/-! ### Fixed parts -/

namespace Program

theorem marks_preamble : marks.read preamble.toList = [] := by
  unfold preamble
  repeat rw [String.toList_append]
  repeat rw [String.toList_ofList]
  decide +kernel

theorem scan_mainStart : scan [] (marks.read mainStart.toList) = .ok [.brace] := by
  unfold mainStart
  repeat rw [String.toList_append]
  repeat rw [String.toList_ofList]
  decide +kernel

theorem closed_sampleLine : Closed (marks.read sampleLine.toList) := by
  unfold sampleLine Closed
  rw [String.toList_ofList]
  decide +kernel

theorem scan_mainEnd : scan [.brace] (marks.read mainEnd.toList) = .ok [] := by
  unfold mainEnd
  rw [String.toList_ofList]
  decide +kernel

theorem occursIn_ofPass (p : Pass) : Text.occursIn "void main()".toList (ofPass p).toList = true := by
  have hmain : "void main()".toList <:+: mainStart.toList := by
    rw [← Text.occursIn_iff]
    unfold mainStart
    repeat rw [String.toList_append]
    repeat rw [String.toList_ofList]
    decide +kernel
  have hpass : mainStart.toList <:+: (ofPass p).toList := by
    refine ⟨(preamble ++ declarationText p.declarations ++ String.join (p.functions.map functionText)).toList,
      (indent p.uvCode ++ sampleLine ++ indent p.colorCode ++ mainEnd).toList, ?_⟩
    simp only [ofPass, String.toList_append, List.append_assoc]
  exact Text.occursIn_iff.mpr (hmain.trans hpass)

end Program

/-! ### Lines of a pass -/

/-- The characters of a declaration are those of names, spaces and a semicolon. -/
theorem Uniform.of_mem_declaration {u : Uniform} (h : Effect.isIdentifier u.baseName = true) {i : Nat} {c : Char}
    (hc : c ∈ (u.declaration i).toList) : ActiveUniforms.isNameChar c = true ∨ c = ' ' ∨ c = ';' := by
  have htype : u.type.name.toList.all ActiveUniforms.isNameChar = true := by
    cases u.type <;> decide +kernel
  have hkeyword : ActiveUniforms.keyword = "uniform".toList ++ [' '] := rfl
  have huniform : "uniform".toList.all ActiveUniforms.isNameChar = true := by decide +kernel
  rw [toList_declaration, hkeyword] at hc
  simp only [List.mem_append, List.mem_cons, List.not_mem_nil, or_false] at hc
  rcases hc with (hc | rfl) | (hc | rfl | hc) | rfl
  · exact .inl (List.all_eq_true.mp huniform c hc)
  · exact .inr (.inl rfl)
  · exact .inl (List.all_eq_true.mp htype c hc)
  · exact .inr (.inl rfl)
  · exact .inl (isNameChar_of_mem_nameAt h hc)
  · exact .inr (.inr rfl)

theorem Uniform.marks_declaration {u : Uniform} (h : Effect.isIdentifier u.baseName = true) (i : Nat) :
    marks.read (u.declaration i).toList = [] := by
  have hline : '\n' ∉ (u.declaration i).toList := fun hmem => by
    rcases of_mem_declaration h hmem with hc | hc | hc <;> cases hc
  rw [marks.read_of_not_mem hline]
  refine List.filterMap_eq_nil_iff.mpr fun c hc => ?_
  have hmem : c ∈ (u.declaration i).toList := by
    rw [← Text.beforeComment_append_comment (u.declaration i).toList]
    exact List.mem_append_left _ hc
  rcases of_mem_declaration h hmem with hc | rfl | rfl
  · exact mark?_of_isNameChar hc
  · rfl
  · rfl

namespace Member
variable {m : Member}

/-- A name on one line stays behind the slashes. -/
theorem marks_header (h : '\n' ∉ m.effect.name.toList) : marks.read m.header.toList = [] := by
  rw [marks.read_of_not_mem (newline_notMem_header h)]
  exact congrArg (List.filterMap mark?) m.beforeComment_header

theorem closed_block (h : '\n' ∉ m.effect.name.toList) {code : Template}
    (hcode : check (code.instantiate m.index).toList = .ok ()) : Closed (marks.read (m.block code).toList) := by
  rw [marks.read_block, marks_header h, ite_self]
  exact check_eq_ok.mp hcode

end Member

/-! ### Balanced catalogs -/

/-- The fragments of the effect are accepted by the check of brackets at every position. -/
structure Effect.Balanced (e : Effect) : Prop where
  code : ∀ i, check (e.code.instantiate i).toList = .ok ()
  uvCode : ∀ t ∈ e.uvCode, ∀ i, check (t.instantiate i).toList = .ok ()

namespace Catalog

/-- Names are on one line, and every fragment and every shared function is accepted on its own. -/
structure Balanced (c : Catalog) : Prop where
  names : ∀ name e, c.effect? name = some e → '\n' ∉ name.toList
  effects : ∀ name e, c.effect? name = some e → e.Balanced
  functions : ∀ name body, c.function? name = some body → check body.toList = .ok ()

namespace Balanced
variable {c c' : Catalog} {name : String}

theorem empty (id : CatalogId) : (Catalog.empty id).Balanced := ⟨nofun, nofun, nofun⟩

theorem register (hb : c.Balanced) {e : Effect} {old : Option Effect} (h : c.register name e = .ok (old, c'))
    (hname : '\n' ∉ name.toList) (he : e.Balanced) : c'.Balanced := by
  obtain ⟨-, -, rfl⟩ := register_eq_ok.mp h
  -- What is found is what has been there before or the effect under its name.
  have found : ∀ n x, (c.effects.insert name (e.named name)).get? n = some x →
      n = name ∧ x = e.named name ∨ c.effect? n = some x := by
    intro n x hx
    rw [KeyMap.get?_insert] at hx
    split at hx
    · next hn => exact .inl ⟨hn, (Option.some.inj hx).symm⟩
    · exact .inr hx
  refine ⟨fun n x hx => ?_, fun n x hx => ?_, hb.functions⟩
  · rcases found n x hx with ⟨rfl, -⟩ | hx
    · exact hname
    · exact hb.names n x hx
  · rcases found n x hx with ⟨-, rfl⟩ | hx
    · exact ⟨he.code, he.uvCode⟩
    · exact hb.effects n x hx

theorem registerFunction (hb : c.Balanced) {body : String} (h : check body.toList = .ok ()) :
    (c.registerFunction name body).Balanced := by
  refine ⟨hb.names, hb.effects, fun n x hx => ?_⟩
  change (c.functions.insert name body).get? n = some x at hx
  rw [KeyMap.get?_insert] at hx
  split at hx
  · rwa [← Option.some.inj hx]
  · exact hb.functions n x hx

end Balanced
end Catalog

namespace Compilation
variable {c : Catalog} {entries : List Entry} {p : Pass}

/-- Balanced parts make a balanced program. -/
theorem check_ofPass (hc : c.Built) (hb : c.Balanced) (hp : p ∈ (ofEntries c entries).passes) :
    check (Program.ofPass p).toList = .ok () := by
  have effects : ∀ m ∈ p.members, ∃ name, c.effect? name = some m.effect ∧ m.effect.name = name := by
    intro m hm
    obtain ⟨e, -, -, heffect⟩ := mem_members.mp (mem_members_of_mem_passes hp hm)
    exact ⟨e.name, heffect, (hc.sound e.name m.effect heffect).2⟩
  have declarations : p.declarations.flatMap (fun d => marks.read d.toList) = [] := by
    refine List.flatMap_eq_nil_iff.mpr fun d hd => ?_
    obtain ⟨u, i, hu, rfl⟩ := of_mem_declarations hc hp hd
    exact Uniform.marks_declaration hu i
  have functions : Closed (p.functions.flatMap fun f => marks.read f.body.toList) := by
    refine .flatMap fun f hf => check_eq_ok.mp (hb.functions f.name f.body ?_)
    rw [functions_of_mem_passes hp] at hf
    exact (Pass.mem_functionsNamed.mp hf).2
  have uvBlocks : Closed (p.members.flatMap fun m => marks.read m.uvBlock.toList) := by
    refine .flatMap fun m hm => ?_
    obtain ⟨name, heffect, hname⟩ := effects m hm
    unfold Member.uvBlock
    cases huv : m.effect.uvCode with
    | none => exact closed_nil
    | some code => exact Member.closed_block (hname ▸ hb.names name _ heffect) ((hb.effects name _ heffect).uvCode code huv _)
  have colorBlocks : Closed (p.members.flatMap fun m => marks.read m.colorBlock.toList) := by
    refine .flatMap fun m hm => ?_
    obtain ⟨name, heffect, hname⟩ := effects m hm
    exact Member.closed_block (hname ▸ hb.names name _ heffect) ((hb.effects name _ heffect).code _)
  -- The parts are closed wherever they stand; the brace that the main function opens is closed at its end.
  rw [check_eq_ok, Closed, marks.read_ofPass, Program.marks_preamble, declarations, List.nil_append, List.nil_append,
    scan_append, scan_append, scan_append, scan_append, scan_append, functions, Except.bind, Program.scan_mainStart,
    Except.bind, uvBlocks.scan, Except.bind, Program.closed_sampleLine.scan, Except.bind, colorBlocks.scan, Except.bind,
    Program.scan_mainEnd]

end Compilation
end FxStack
