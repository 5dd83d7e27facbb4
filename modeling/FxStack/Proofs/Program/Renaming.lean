import FxStack.Proofs.Program.Reading
import Mathlib.Data.List.TakeWhile
import Mathlib.Data.Set.Function

/-! Programs of a catalog of which the effects get other names. A name stands behind two slashes, where it is no code up
    to its first line feed; what follows the line feed is code. Main statement: `Compilation.code_renamed`. -/

namespace FxStack

/-! ### Code -/

namespace Text

/-- The lines of a text without their comments. -/
def code (text : List Char) : List (List Char) := (lines text).map beforeComment

theorem code_flatMap {α : Type} {f : α → List Char} {xs : List α} (h : ∀ x ∈ xs, WholeLines (f x)) :
    code (xs.flatMap f) = xs.flatMap fun x => code (f x) := by
  unfold code
  rw [lines_flatMap h, List.map_flatMap]

end Text

namespace Program

/-- The lines of a text without their comments, when it has been indented. -/
def indentedCode (text : List Char) : List (List Char) := (Text.lines text).flatMap fun l => Text.code (indentLine l)

theorem code_indent (text : String) : Text.code (indent text).toList = indentedCode text.toList := by
  unfold indent
  rw [String.toList_ofList, Text.code_flatMap fun l _ => wholeLines_indentLine l]
  rfl

theorem indentedCode_append_cons (as bs : List Char) :
    indentedCode (as ++ '\n' :: bs) = indentedCode (as ++ ['\n']) ++ indentedCode bs := by
  unfold indentedCode
  rw [Text.lines_append_cons, List.flatMap_append]

theorem indentedCode_join {α : Type} {f : α → String} {xs : List α} (h : ∀ x ∈ xs, Text.WholeLines (f x).toList) :
    indentedCode (String.join (xs.map f)).toList = xs.flatMap fun x => indentedCode (f x).toList := by
  unfold indentedCode
  rw [String.toList_join, List.flatMap_map, Text.lines_flatMap h, List.flatMap_assoc]

/-- The code of a program: that of its fixed parts, and that of the blocks of its members. -/
theorem code_ofPass (p : Pass) :
    Text.code (ofPass p).toList =
      Text.code preamble.toList ++ Text.code (declarationText p.declarations).toList ++
        Text.code (String.join (p.functions.map functionText)).toList ++ Text.code mainStart.toList ++
        p.members.flatMap (fun m => indentedCode m.uvBlock.toList) ++ Text.code sampleLine.toList ++
        p.members.flatMap (fun m => indentedCode m.colorBlock.toList) ++ Text.code mainEnd.toList := by
  have uvCode : Text.code (indent p.uvCode).toList = p.members.flatMap fun m => indentedCode m.uvBlock.toList := by
    rw [code_indent, Pass.uvCode, indentedCode_join fun m _ => m.wholeLines_uvBlock]
  have colorCode : Text.code (indent p.colorCode).toList = p.members.flatMap fun m => indentedCode m.colorBlock.toList := by
    rw [code_indent, Pass.colorCode, indentedCode_join fun m _ => m.wholeLines_block m.effect.code]
  rw [← uvCode, ← colorCode]
  simp only [Text.code, lines_ofPass, List.map_append]

/-- Programs of the same code that have all else in common have the same color code. -/
theorem eq_colorBlocks_of_code_eq {p q : Pass} (h : Text.code (ofPass p).toList = Text.code (ofPass q).toList)
    (declarations : p.declarations = q.declarations) (functions : p.functions = q.functions)
    (uvBlocks : p.members.flatMap (fun m => indentedCode m.uvBlock.toList) =
      q.members.flatMap fun m => indentedCode m.uvBlock.toList) :
    p.members.flatMap (fun m => indentedCode m.colorBlock.toList) =
      q.members.flatMap fun m => indentedCode m.colorBlock.toList := by
  rw [code_ofPass, code_ofPass, declarations, functions, uvBlocks] at h
  exact List.append_cancel_left (List.append_cancel_right h)

end Program

/-! ### Headers -/

/-- A line that starts with two slashes keeps them. -/
theorem Text.exists_chopReturn_slashes (l : List Char) :
    ∃ l', chopReturn ('/' :: '/' :: l) = '/' :: '/' :: l' := by
  cases l with
  | nil => exact ⟨[], rfl⟩
  | cons c l =>
    refine ⟨chopReturn (c :: l), ?_⟩
    rw [chopReturn_cons (List.cons_ne_nil _ _), chopReturn_cons (List.cons_ne_nil c l)]

namespace Program

/-- Nothing but the blanks in front of it is left of a comment. -/
theorem code_indentLine_slashes {l : List Char} (h : '\n' ∉ l) :
    Text.code (indentLine ('/' :: '/' :: l)) = [[' ', ' ', ' ', ' ']] := by
  have hblank : (Text.trim ('/' :: '/' :: l)).isEmpty = false := by
    have hstart : Text.trimStart ('/' :: '/' :: l) = '/' :: '/' :: l := List.dropWhile_cons_of_neg (by decide)
    rw [List.isEmpty_eq_false_iff, Text.trim, hstart, Text.trimEnd, Ne, List.reverse_eq_nil_iff, List.dropWhile_eq_nil_iff]
    exact fun hall => absurd (hall '/' (List.mem_reverse.mpr List.mem_cons_self)) (by decide)
  have hline : '\n' ∉ [' ', ' ', ' ', ' '] ++ '/' :: '/' :: l := by simp [h]
  obtain ⟨l', hl'⟩ := Text.exists_chopReturn_slashes l
  unfold indentLine Text.code
  rw [hblank, if_neg Bool.false_ne_true, Text.lines_append_newline hline,
    Text.chopReturn_append (List.cons_ne_nil _ _), hl']
  rfl

theorem indentedCode_slashes {l : List Char} (h : '\n' ∉ l) (rest : List Char) :
    indentedCode ('/' :: '/' :: l ++ '\n' :: rest) = [' ', ' ', ' ', ' '] :: indentedCode rest := by
  have hline : '\n' ∉ '/' :: '/' :: l := by simp [h]
  obtain ⟨l', hl'⟩ := Text.exists_chopReturn_slashes l
  have hchopped : '\n' ∉ '/' :: '/' :: l' := hl' ▸ Text.not_mem_chopReturn hline
  have hl : '\n' ∉ l' := fun hmem => hchopped (List.mem_cons_of_mem _ (List.mem_cons_of_mem _ hmem))
  unfold indentedCode
  rw [Text.lines_append_newline hline, List.flatMap_cons, hl', code_indentLine_slashes hl]
  rfl

end Program

namespace Member
open Program

/-- The code of a header: the blanks in front of its comment, and what follows the first line feed of the name. -/
theorem indentedCode_header (m : Member) :
    indentedCode (m.header.toList ++ ['\n']) =
      [' ', ' ', ' ', ' '] :: match m.effect.name.toList.dropWhile (· ≠ '\n') with
        | [] => []
        | _ :: rest => indentedCode (rest ++ ' ' :: '#' :: (toString m.index).toList ++ ['\n']) := by
  by_cases h : '\n' ∈ m.effect.name.toList
  · obtain ⟨start, rest, hname, hstart⟩ := List.eq_append_cons_of_mem h
    have hdrop : m.effect.name.toList.dropWhile (· ≠ '\n') = '\n' :: rest := by
      have hpass : ∀ c ∈ start, decide (c ≠ '\n') = true := fun c hc => decide_eq_true fun heq => hstart (heq ▸ hc)
      rw [hname, List.dropWhile_append_of_pos hpass, List.dropWhile_cons_of_neg (by decide)]
    have hsplit : m.header.toList ++ ['\n'] =
        '/' :: '/' :: (' ' :: start) ++ '\n' :: (rest ++ ' ' :: '#' :: (toString m.index).toList ++ ['\n']) := by
      rw [toList_header, hname]
      simp
    have hline : '\n' ∉ ' ' :: start := List.not_mem_cons_of_ne_of_not_mem (by decide) hstart
    rw [hsplit, indentedCode_slashes hline, hdrop]
  · have hdrop : m.effect.name.toList.dropWhile (· ≠ '\n') = [] :=
      List.dropWhile_eq_nil_iff.mpr fun c hc => decide_eq_true fun heq => h (heq ▸ hc)
    have hheader := newline_notMem_header h
    rw [toList_header] at hheader
    have hline : '\n' ∉ ' ' :: (m.effect.name.toList ++ ' ' :: '#' :: (toString m.index).toList) := fun hmem =>
      hheader (List.mem_cons_of_mem _ (List.mem_cons_of_mem _ hmem))
    rw [toList_header, hdrop]
    exact indentedCode_slashes hline []

theorem indentedCode_block (m : Member) (t : Template) :
    indentedCode (m.block t).toList =
      if Text.trim (t.instantiate m.index).toList = [] then []
      else indentedCode (m.header.toList ++ ['\n']) ++
        indentedCode (Text.trim (t.instantiate m.index).toList ++ ['\n']) := by
  rw [toList_block]
  split
  · rfl
  · rw [indentedCode_append_cons]

end Member

open Program

/-! ### Other names -/

/-- The catalog with every effect under another name. -/
def Catalog.renamed (f : String → String) (c : Catalog) : Catalog :=
  { c with effects := .ofList (c.effects.toList.map fun e => (f e.1, e.2.named (f e.1))) }

def Entry.renamed (f : String → String) (e : Entry) : Entry := { e with name := f e.name }

def Member.renamed (f : String → String) (m : Member) : Member :=
  { m with effect := m.effect.named (f m.effect.name) }

/-- The names that the catalog or the entries use. -/
def Compilation.names (c : Catalog) (entries : List Entry) : Set String :=
  {n | c.contains n = true ∨ ∃ e ∈ entries, e.name = n}

/-- An effect is found under its new name, and no other effect is. -/
theorem Catalog.effect?_renamed {c : Catalog} {f : String → String} {names : Set String} (hf : Set.InjOn f names)
    (hnames : ∀ n, c.contains n = true → n ∈ names) {n : String} (hn : n ∈ names) :
    (c.renamed f).effect? (f n) = (c.effect? n).map (·.named (f n)) := by
  have known : ∀ e ∈ c.effects.toList, e.1 ∈ names := by
    intro e he
    have hfound : c.effects.get? e.1 = some e.2 := lookup_of_mem c.effects.nodup_keys he
    exact hnames e.1 (Option.isSome_of_eq_some hfound)
  have hkeys : ((c.effects.toList.map fun e => (f e.1, e.2.named (f e.1))).map (·.1)).Nodup := by
    have hmap : (c.effects.toList.map fun e => (f e.1, e.2.named (f e.1))).map (·.1) =
        (c.effects.toList.map (·.1)).map f := by simp only [List.map_map]; rfl
    rw [hmap]
    refine c.effects.nodup_keys.map_on fun m hm n hn => ?_
    obtain ⟨d, hd, rfl⟩ := List.mem_map.mp hm
    obtain ⟨e, he, rfl⟩ := List.mem_map.mp hn
    exact hf (known d hd) (known e he)
  show (KeyMap.ofList _).get? (f n) = _
  rw [KeyMap.get?_ofList _ hkeys, lookup_map_key fun e he => hf (known e he) hn]
  rfl

/-! ### Renamed members -/

namespace Member
variable {f : String → String} {m : Member}

/-- The new name agrees with the old one from the first line feed on. -/
def KeepsOverflow (f : String → String) (m : Member) : Prop :=
  (f m.effect.name).toList.dropWhile (· ≠ '\n') = m.effect.name.toList.dropWhile (· ≠ '\n')

theorem indentedCode_block_renamed (h : m.KeepsOverflow f) (t : Template) :
    indentedCode ((m.renamed f).block t).toList = indentedCode (m.block t).toList := by
  have hname : (m.renamed f).effect.name.toList.dropWhile (· ≠ '\n') = m.effect.name.toList.dropWhile (· ≠ '\n') := h
  have hindex : (m.renamed f).index = m.index := rfl
  rw [indentedCode_block, indentedCode_block, indentedCode_header, indentedCode_header, hname, hindex]

theorem indentedCode_uvBlock_renamed (h : m.KeepsOverflow f) :
    indentedCode (m.renamed f).uvBlock.toList = indentedCode m.uvBlock.toList := by
  have huv : (m.renamed f).effect.uvCode = m.effect.uvCode := rfl
  unfold uvBlock
  rw [huv]
  cases m.effect.uvCode with
  | none => rfl
  | some t => exact indentedCode_block_renamed h t

end Member

theorem Program.code_ofMembers_renamed (c : Catalog) {f : String → String} {ms : List Member}
    (h : ∀ m ∈ ms, m.KeepsOverflow f) :
    Text.code (ofPass (.ofMembers (c.renamed f) (ms.map (·.renamed f)))).toList =
      Text.code (ofPass (.ofMembers c ms)).toList := by
  have declarations : (Pass.ofMembers (c.renamed f) (ms.map (·.renamed f))).declarations =
      (Pass.ofMembers c ms).declarations := List.flatMap_map ..
  have functions : (Pass.ofMembers (c.renamed f) (ms.map (·.renamed f))).functions = (Pass.ofMembers c ms).functions := by
    have hnames : (ms.map (·.renamed f)).flatMap (·.effect.functions) = ms.flatMap (·.effect.functions) :=
      List.flatMap_map ..
    show Pass.functionsOf _ _ = Pass.functionsOf _ _
    unfold Pass.functionsOf
    rw [hnames]
    rfl
  have uvBlocks : (ms.map (·.renamed f)).flatMap (fun m => indentedCode m.uvBlock.toList) =
      ms.flatMap fun m => indentedCode m.uvBlock.toList := by
    rw [List.flatMap_map]
    exact List.flatMap_congr fun m hm => Member.indentedCode_uvBlock_renamed (h m hm)
  have colorBlocks : (ms.map (·.renamed f)).flatMap (fun m => indentedCode m.colorBlock.toList) =
      ms.flatMap fun m => indentedCode m.colorBlock.toList := by
    rw [List.flatMap_map]
    exact List.flatMap_congr fun m hm => Member.indentedCode_block_renamed (h m hm) m.effect.code
  rw [code_ofPass, code_ofPass, declarations, functions]
  simp only [Pass.ofMembers, uvBlocks, colorBlocks]

namespace Compilation
variable {c : Catalog} {f : String → String} {entries : List Entry}

theorem members_renamed (hc : c.Built) (hf : Set.InjOn f (names c entries)) :
    members (c.renamed f) (entries.map (·.renamed f)) = (members c entries).map (·.renamed f) := by
  unfold members
  rw [List.zipIdx_map, List.filterMap_map, List.map_filterMap]
  refine List.filterMap_congr fun x hx => ?_
  have hentry : x.1.name ∈ names c entries := .inr ⟨x.1, List.fst_mem_of_mem_zipIdx hx, rfl⟩
  have hfound := Catalog.effect?_renamed hf (fun _ => .inl) hentry
  show ((c.renamed f).effect? (f x.1.name)).map _ = _
  rw [hfound]
  unfold member?
  cases heffect : c.effect? x.1.name with
  | none => rfl
  | some effect =>
    have hsound : effect.name = x.1.name := (hc.sound _ _ heffect).2
    simp only [Option.map_some, Member.renamed, hsound]
    rfl

theorem passes_renamed (hc : c.Built) (hf : Set.InjOn f (names c entries)) :
    (ofEntries (c.renamed f) (entries.map (·.renamed f))).passes =
      (runs (members c entries)).map fun ms => Pass.ofMembers (c.renamed f) (ms.map (·.renamed f)) := by
  have hruns : ∀ ms : List Member, runs (ms.map (·.renamed f)) = (runs ms).map (List.map (·.renamed f)) := fun ms =>
    (map_runs (·.renamed f) (·.effect.breaksPass) (fun _ => rfl) ms).symm
  unfold ofEntries
  rw [members_renamed hc hf, hruns, List.map_map]
  rfl

/-- Where a renaming keeps what follows the first line feed of each name, in particular where names and new names are on
    one line, the programs of the renamed stack are those of the stack up to comments. -/
theorem code_renamed (hc : c.Built) (hf : Set.InjOn f (names c entries))
    (h : ∀ e ∈ entries, (f e.name).toList.dropWhile (· ≠ '\n') = e.name.toList.dropWhile (· ≠ '\n')) :
    (ofEntries (c.renamed f) (entries.map (·.renamed f))).passes.map (fun p => Text.code (Program.ofPass p).toList) =
      (ofEntries c entries).passes.map fun p => Text.code (Program.ofPass p).toList := by
  rw [passes_renamed hc hf]
  unfold ofEntries
  rw [List.map_map, List.map_map]
  refine List.map_congr_left fun ms hms => ?_
  have kept : ∀ m ∈ ms, m.KeepsOverflow f := by
    intro m hm
    have hmember : m ∈ members c entries := by
      rw [← (isCut_runs (members c entries)).1]
      exact List.mem_flatten_of_mem hms hm
    obtain ⟨e, he, -, heffect⟩ := mem_members.mp hmember
    have hname : m.effect.name = e.name := (hc.sound _ _ heffect).2
    rw [Member.KeepsOverflow, hname]
    exact h e (List.mem_of_getElem? he)
  have renamed := Program.code_ofMembers_renamed c kept
  simp only [Function.comp_apply]
  exact renamed

/-! ### An effect with other names -/

/-- A member whose effect dims the color. -/
def dimming : Member := ⟨0, ⟨1⟩, (Effect.ofCode (.ofMarked '@' "color.rgb *= 0.5;")).named "dim"⟩

/-- The catalog of that effect alone. -/
def dimmer : Catalog :=
  { Catalog.empty ⟨0⟩ with effects := KeyMap.empty.insert "dim" dimming.effect, generation := 1 }

/-- No name is refused. -/
theorem dimmer_renamed_built (f : String → String) : (dimmer.renamed f).Built := by
  have hr : (Catalog.empty ⟨0⟩).register (f "dim") dimming.effect = .ok (none, dimmer.renamed f) :=
    Catalog.register_eq_ok.mpr ⟨Effect.validate_eq_ok.mp rfl, rfl, rfl⟩
  exact .register (.empty _) hr

theorem dimmer_built : dimmer.Built := dimmer_renamed_built id

/-- An entry of the effect. -/
def dimmed : Entry := ⟨⟨1⟩, "dim", .empty⟩

/-- The renaming that puts something behind every name. -/
def extending (suffix : String) : String → String := (· ++ suffix)

theorem injective_extending (suffix : String) : Function.Injective (extending suffix) := fun m n h => by
  have hlists := congrArg String.toList h
  unfold extending at hlists
  rw [String.toList_append, String.toList_append] at hlists
  exact String.toList_inj.mp (List.append_cancel_right hlists)

/-- A name may hold slashes and brackets. -/
theorem code_renamed_dimmer :
    (ofEntries (dimmer.renamed (extending " // )")) ([dimmed].map (·.renamed (extending " // )")))).passes.map
        (fun p => Text.code (Program.ofPass p).toList) =
      (ofEntries dimmer [dimmed]).passes.map fun p => Text.code (Program.ofPass p).toList := by
  refine code_renamed dimmer_built (injective_extending _).injOn fun e he => ?_
  obtain rfl := List.mem_singleton.mp he
  decide

/-- The code of the member, and what it becomes under a name with a line feed. -/
theorem indentedCode_dimming :
    indentedCode dimming.colorBlock.toList = ["    ".toList, "    color.rgb *= 0.5;".toList] ∧
      indentedCode (dimming.renamed (extending "\ncolor = vec4(0.0); //")).colorBlock.toList =
        ["    ".toList, "    color = vec4(0.0); ".toList, "    color.rgb *= 0.5;".toList] := by
  unfold Member.colorBlock
  rw [Member.toList_block, Member.toList_block, Member.toList_header, Member.toList_header]
  unfold dimming Template.ofMarked extending Member.renamed
  constructor <;> decide +kernel

/-- What follows a line feed in a name is code. -/
theorem name_overflows :
    dimmer.Built ∧ (dimmer.renamed (extending "\ncolor = vec4(0.0); //")).Built ∧
      Function.Injective (extending "\ncolor = vec4(0.0); //") ∧
      (ofEntries (dimmer.renamed (extending "\ncolor = vec4(0.0); //"))
          ([dimmed].map (·.renamed (extending "\ncolor = vec4(0.0); //")))).passes.map
        (fun p => Text.code (Program.ofPass p).toList) ≠
      (ofEntries dimmer [dimmed]).passes.map fun p => Text.code (Program.ofPass p).toList := by
  have injective := injective_extending "\ncolor = vec4(0.0); //"
  refine ⟨dimmer_built, dimmer_renamed_built _, injective, fun heq => ?_⟩
  have plain : (ofEntries dimmer [dimmed]).passes = [.ofMembers dimmer [dimming]] := rfl
  have single : runs (members dimmer [dimmed]) = [[dimming]] := rfl
  rw [plain, passes_renamed dimmer_built injective.injOn, single] at heq
  simp only [List.map_singleton] at heq
  -- The two programs have the same parts but for one block, which has one line more under the new name.
  have hblocks := eq_colorBlocks_of_code_eq (List.singleton_inj.mp heq) rfl rfl rfl
  have block (c : Catalog) (m : Member) :
      (Pass.ofMembers c [m]).members.flatMap (fun m => indentedCode m.colorBlock.toList) =
        indentedCode m.colorBlock.toList := List.flatMap_singleton ..
  rw [block, block, indentedCode_dimming.1, indentedCode_dimming.2] at hblocks
  exact absurd (congrArg List.length hblocks) (by decide)

end Compilation
end FxStack
