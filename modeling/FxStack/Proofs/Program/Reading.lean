import FxStack.Proofs.Program.Vocabulary
import FxStack.Proofs.Text.Lines

/-! What is read in a program text line by line: first the fixed declarations, then what the parts of the pass say on their
    own, with the fixed code between them. Code is trimmed, broken into lines again and indented on its way into the text,
    and none of this shows. Main statement: `LineReading.read_ofPass`. -/

namespace FxStack

/-! ### Blocks -/

namespace Member

/-- The line above the code of a member. -/
def header (m : Member) : String := "// " ++ m.effect.name ++ " #" ++ toString m.index

theorem toList_header (m : Member) :
    m.header.toList = '/' :: '/' :: ' ' :: (m.effect.name.toList ++ ' ' :: '#' :: (toString m.index).toList) := by
  simp [header, String.toList_append]

theorem beforeComment_header (m : Member) : Text.beforeComment m.header.toList = [] := by
  rw [toList_header]
  rfl

theorem newline_notMem_header {m : Member} (h : '\n' ∉ m.effect.name.toList) : '\n' ∉ m.header.toList := by
  have hindex : '\n' ∉ (toString m.index).toList := fun hmem => by
    cases isDigit_of_mem_toString hmem
  rw [toList_header]
  simp only [List.mem_cons, List.mem_append, h, hindex]
  decide

/-- Code stands in whole lines, and under the header if it is not blank. -/
theorem toList_block (m : Member) (code : Template) :
    (m.block code).toList =
      if Text.trim (code.instantiate m.index).toList = [] then []
      else m.header.toList ++ '\n' :: (Text.trim (code.instantiate m.index).toList ++ ['\n']) := by
  unfold block header
  by_cases h : Text.trim (code.instantiate m.index).toList = []
  · simp [h]
  · simp [h, String.toList_append]

theorem wholeLines_block (m : Member) (code : Template) : Text.WholeLines (m.block code).toList := by
  rw [toList_block]
  split
  · exact Text.wholeLines_nil
  · rw [← List.cons_append, ← List.append_assoc]
    exact Text.wholeLines_concat _

theorem wholeLines_uvBlock (m : Member) : Text.WholeLines m.uvBlock.toList := by
  unfold uvBlock
  cases m.effect.uvCode with
  | none => exact Text.wholeLines_nil
  | some code => exact m.wholeLines_block code

end Member

/-! ### Whole lines -/

namespace Program

theorem wholeLines_preamble : Text.WholeLines preamble.toList := by
  simp [Text.WholeLines, getLast?_preamble]

theorem wholeLines_mainStart : Text.WholeLines mainStart.toList := by
  simp [Text.WholeLines, getLast?_mainStart]

theorem wholeLines_sampleLine : Text.WholeLines sampleLine.toList := by
  have hlast : sampleLine.toList.getLast? = some '\n' := rfl
  simp [Text.WholeLines, hlast]

theorem toList_newline : "\n".toList = ['\n'] := rfl

/-- Each declaration is a line, and the lines of all stand under an empty one. -/
theorem toList_declarationText (ds : List String) :
    (declarationText ds).toList = if ds = [] then [] else '\n' :: ds.flatMap fun d => d.toList ++ ['\n'] := by
  unfold declarationText
  cases ds with
  | nil => rfl
  | cons d ds =>
    rw [List.isEmpty_cons, if_neg Bool.false_ne_true, if_neg (List.cons_ne_nil d ds), String.toList_append,
      String.toList_join, List.flatMap_map, toList_newline]
    simp only [String.toList_append, toList_newline, List.singleton_append]

theorem wholeLines_declarationText (ds : List String) : Text.WholeLines (declarationText ds).toList := by
  rw [toList_declarationText]
  split
  · exact Text.wholeLines_nil
  · exact (Text.wholeLines_concat []).append (.flatMap fun d _ => Text.wholeLines_concat d.toList)

theorem wholeLines_functionText (f : SharedFunction) : Text.WholeLines (functionText f).toList := by
  unfold functionText
  rw [String.toList_append]
  exact Text.wholeLines_concat _

theorem wholeLines_functions (fs : List SharedFunction) :
    Text.WholeLines (String.join (fs.map functionText)).toList := by
  rw [String.toList_join, List.flatMap_map]
  exact .flatMap fun f _ => wholeLines_functionText f

theorem wholeLines_indentLine (l : List Char) : Text.WholeLines (indentLine l) := by
  unfold indentLine
  split
  · exact Text.wholeLines_concat []
  · exact Text.wholeLines_concat _

theorem wholeLines_indent (code : String) : Text.WholeLines (indent code).toList := by
  unfold indent
  rw [String.toList_ofList]
  exact .flatMap fun l _ => wholeLines_indentLine l

/-- No line of a program goes over the end of one of its parts. -/
theorem lines_ofPass (p : Pass) :
    Text.lines (ofPass p).toList =
      Text.lines preamble.toList ++ Text.lines (declarationText p.declarations).toList ++
        Text.lines (String.join (p.functions.map functionText)).toList ++ Text.lines mainStart.toList ++
        Text.lines (indent p.uvCode).toList ++ Text.lines sampleLine.toList ++ Text.lines (indent p.colorCode).toList ++
        Text.lines mainEnd.toList := by
  unfold ofPass
  simp only [String.toList_append, List.append_assoc]
  rw [wholeLines_preamble.lines_append, (wholeLines_declarationText _).lines_append,
    (wholeLines_functions _).lines_append, wholeLines_mainStart.lines_append, (wholeLines_indent _).lines_append,
    wholeLines_sampleLine.lines_append, (wholeLines_indent _).lines_append]

end Program

/-! ### Readings -/

namespace LineReading
variable {α : Type} (r : LineReading α)

theorem read_block (m : Member) (code : Template) :
    r.read (m.block code).toList =
      (if Text.trim (code.instantiate m.index).toList = [] then [] else r.read m.header.toList) ++
        r.read (code.instantiate m.index).toList := by
  rw [Member.toList_block, ← r.read_trim (code.instantiate m.index).toList]
  split
  · next h => rw [h]; rfl
  · rw [r.read_append_cons, r.read_concat (by decide)]

theorem read_indent (code : String) : r.read (Program.indent code).toList = r.read code.toList := by
  have indented : ∀ {ls : List (List Char)}, (∀ l ∈ ls, '\n' ∉ l) →
      r.read (ls.flatMap Program.indentLine) = ls.flatMap r.ofLine := by
    intro ls
    induction ls with
    | nil => exact fun _ => rfl
    | cons l ls ih =>
      intro h
      have hl := h l List.mem_cons_self
      rw [List.flatMap_cons, List.flatMap_cons, ← ih fun m hm => h m (List.mem_cons_of_mem l hm)]
      unfold Program.indentLine
      split
      · next hblank =>
        rw [r.ofLine_of_trim_eq_nil (List.isEmpty_iff.mp hblank) hl, List.singleton_append, r.read_cons (by decide)]
        rfl
      · rw [List.append_assoc, List.append_assoc, List.singleton_append]
        iterate 4 rw [List.cons_append, r.read_cons (by decide)]
        rw [List.nil_append, r.read_append_newline hl]
  unfold Program.indent
  rw [String.toList_ofList, indented fun l hl => Text.not_mem_of_mem_lines hl]
  rfl

theorem read_functionText (f : SharedFunction) : r.read (Program.functionText f).toList = r.read f.body.toList := by
  unfold Program.functionText
  rw [String.toList_append, String.toList_append, Program.toList_newline, r.read_concat (by decide),
    List.singleton_append, r.read_cons (by decide), String.toList_ofList, r.read_trimEnd]

theorem read_declarationText (ds : List String) :
    r.read (Program.declarationText ds).toList = ds.flatMap fun d => r.read d.toList := by
  rw [Program.toList_declarationText]
  split
  · next h => rw [h]; rfl
  · rw [r.read_cons (by decide), r.read_flatMap fun d _ => Text.wholeLines_concat d.toList]
    simp only [r.read_concat (c := '\n') (by decide)]

theorem read_join_map {β : Type} {f : β → String} {xs : List β} (h : ∀ x ∈ xs, Text.WholeLines (f x).toList) :
    r.read (String.join (xs.map f)).toList = xs.flatMap fun x => r.read (f x).toList := by
  rw [String.toList_join, List.flatMap_map, r.read_flatMap h]

/-- A program text says what its fixed parts, the declarations, the shared functions and the blocks of code say. -/
theorem read_ofPass (p : Pass) :
    r.read (Program.ofPass p).toList =
      r.read Program.preamble.toList ++ p.declarations.flatMap (fun d => r.read d.toList) ++
        p.functions.flatMap (fun f => r.read f.body.toList) ++ r.read Program.mainStart.toList ++
        p.members.flatMap (fun m => r.read m.uvBlock.toList) ++ r.read Program.sampleLine.toList ++
        p.members.flatMap (fun m => r.read m.colorBlock.toList) ++ r.read Program.mainEnd.toList := by
  have parts : r.read (Program.ofPass p).toList =
      r.read Program.preamble.toList ++ r.read (Program.declarationText p.declarations).toList ++
        r.read (String.join (p.functions.map Program.functionText)).toList ++ r.read Program.mainStart.toList ++
        r.read (Program.indent p.uvCode).toList ++ r.read Program.sampleLine.toList ++
        r.read (Program.indent p.colorCode).toList ++ r.read Program.mainEnd.toList := by
    simp only [read, Program.lines_ofPass, List.flatMap_append]
  rw [parts, r.read_declarationText, r.read_join_map fun f _ => Program.wholeLines_functionText f, r.read_indent,
    r.read_indent, Pass.uvCode, Pass.colorCode, r.read_join_map fun m _ => m.wholeLines_uvBlock,
    r.read_join_map fun m _ => m.wholeLines_block m.effect.code]
  simp only [r.read_functionText]

end LineReading
end FxStack
