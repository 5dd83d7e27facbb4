import FxStack.Program.Brackets
import FxStack.Proofs.Template.Symbols
import FxStack.Proofs.Text.Lines

/-! Which texts have well nested brackets. The check goes line by line, but what it accepts depends only on the brackets
    that stand before comments, in their order; texts that are accepted may be put anywhere among accepted ones. What the
    check answers for an instance of a template is the same at every position. Main statements: `Brackets.check_eq_ok`,
    `Template.check_instantiate`. -/

namespace FxStack
namespace Brackets

/-! ### Marks -/

/-- A bracket as it stands in a text. -/
inductive Mark where
  | opener (b : Bracket)
  | closer (b : Bracket)
deriving DecidableEq

def mark? (c : Char) : Option Mark :=
  match Bracket.ofOpenChar? c, Bracket.ofCloseChar? c with
  | some b, _ => some (.opener b)
  | none, some b => some (.closer b)
  | none, none => none

def bracketChars : List Char := Bracket.all.map Bracket.openChar ++ Bracket.all.map Bracket.closeChar

theorem mark?_eq_none {c : Char} (h : c ∉ bracketChars) : mark? c = none := by
  have hopen : Bracket.ofOpenChar? c = none := by
    refine List.find?_eq_none.mpr fun b hb hc => h (List.mem_append_left _ ?_)
    exact List.mem_map.mpr ⟨b, hb, of_decide_eq_true hc⟩
  have hclose : Bracket.ofCloseChar? c = none := by
    refine List.find?_eq_none.mpr fun b hb hc => h (List.mem_append_right _ ?_)
    exact List.mem_map.mpr ⟨b, hb, of_decide_eq_true hc⟩
  rw [mark?, hopen, hclose]

theorem mark?_of_isBlank {c : Char} (h : Text.isBlank c = true) : mark? c = none := by
  have hclass : bracketChars.all (fun b => !Text.isBlank b) = true := by decide +kernel
  refine mark?_eq_none fun hc => ?_
  simpa [h] using List.all_eq_true.mp hclass c hc

theorem mark?_of_isNameChar {c : Char} (h : ActiveUniforms.isNameChar c = true) : mark? c = none := by
  have hclass : bracketChars.all (fun b => !ActiveUniforms.isNameChar b) = true := by decide +kernel
  refine mark?_eq_none fun hc => ?_
  simpa [h] using List.all_eq_true.mp hclass c hc

/-- The brackets open after some marks, innermost first, or the closing bracket that does not fit. -/
def scan (opened : List Bracket) : List Mark → Except Bracket (List Bracket)
  | [] => .ok opened
  | .opener b :: ms => scan (b :: opened) ms
  | .closer b :: ms =>
    match opened with
    | [] => .error b
    | o :: rest => if o = b then scan rest ms else .error b

/-- A line is scanned mark by mark. -/
theorem scanLine_eq (opened : List Bracket) (l : List Char) : scanLine opened l = scan opened (l.filterMap mark?) := by
  induction l generalizing opened with
  | nil => rfl
  | cons c l ih =>
    rw [scanLine, List.filterMap_cons, mark?]
    cases Bracket.ofOpenChar? c with
    | some b => exact ih _
    | none =>
      cases Bracket.ofCloseChar? c with
      | none => exact ih _
      | some b =>
        cases opened with
        | nil => rfl
        | cons o rest =>
          show (if o = b then scanLine rest l else .error b) = if o = b then scan rest (l.filterMap mark?) else .error b
          rw [ih]

theorem ne_slash_of_isBlank {c : Char} (h : Text.isBlank c = true) : c ≠ '/' := by
  rintro rfl
  cases h

/-- The brackets before the comment of a line. -/
def marks : LineReading Mark where
  ofLine l := (Text.beforeComment l).filterMap mark?
  ofLine_nil := rfl
  ofLine_cons {c} h l := by
    rw [Text.beforeComment_cons (ne_slash_of_isBlank h), List.filterMap_cons, mark?_of_isBlank h]
  ofLine_concat {c} h l := by
    rcases Text.concat_cases (ne_slash_of_isBlank h) l with ⟨hbefore, -⟩ | ⟨hbefore, -⟩
    · rw [hbefore, List.filterMap_append, List.filterMap_cons, mark?_of_isBlank h, List.filterMap_nil, List.append_nil]
    · rw [hbefore]

/-! ### Scans -/

variable {opened opened' : List Bracket} {ms ns : List Mark}

theorem scan_append (opened : List Bracket) (ms ns : List Mark) :
    scan opened (ms ++ ns) = (scan opened ms).bind fun opened' => scan opened' ns := by
  induction ms generalizing opened with
  | nil => rfl
  | cons m ms ih =>
    cases m with
    | opener b => exact ih _
    | closer b =>
      cases opened with
      | nil => rfl
      | cons o rest =>
        show (if o = b then scan rest (ms ++ ns) else .error b) =
          (if o = b then scan rest ms else .error b).bind fun opened' => scan opened' ns
        split
        · exact ih _
        · rfl

/-- Brackets that were open before do not matter to marks that close their own only. -/
theorem scan_frame (h : scan opened ms = .ok opened') (outer : List Bracket) :
    scan (opened ++ outer) ms = .ok (opened' ++ outer) := by
  induction ms generalizing opened with
  | nil =>
    cases h
    rfl
  | cons m ms ih =>
    cases m with
    | opener b => exact ih h
    | closer b =>
      cases opened with
      | nil => cases h
      | cons o rest =>
        simp only [scan, List.cons_append] at h ⊢
        split at h
        · next heq => rw [if_pos heq, ih h]
        · cases h

/-- Marks of which each closing one closes what one of them has opened, with none left open. -/
def Closed (ms : List Mark) : Prop := scan [] ms = .ok []

theorem closed_nil : Closed [] := rfl

theorem Closed.scan (h : Closed ms) (opened : List Bracket) : scan opened ms = .ok opened := scan_frame h opened

theorem Closed.append (hm : Closed ms) (hn : Closed ns) : Closed (ms ++ ns) := by
  rw [Closed, scan_append, hm]
  exact hn

theorem Closed.flatMap {β : Type} {f : β → List Mark} {xs : List β} (h : ∀ x ∈ xs, Closed (f x)) : Closed (xs.flatMap f) := by
  induction xs with
  | nil => exact closed_nil
  | cons x xs ih =>
    rw [List.flatMap_cons]
    exact (h x List.mem_cons_self).append (ih fun y hy => h y (List.mem_cons_of_mem x hy))

/-! ### Lines -/

/-- Lines with the same marks are scanned alike. -/
theorem scanLines_congr {ls ls' : List (List Char)} (h : ls.map marks.ofLine = ls'.map marks.ofLine) :
    ∀ (line : Nat) (opened : List Bracket), scanLines line opened ls = scanLines line opened ls' := by
  induction ls generalizing ls' with
  | nil =>
    obtain rfl : ls' = [] := List.map_eq_nil_iff.mp h.symm
    exact fun _ _ => rfl
  | cons l ls ih =>
    obtain ⟨l', rest, rfl, hl, hrest⟩ := List.map_eq_cons_iff.mp h.symm
    intro line opened
    have hscan : scanLine opened (Text.beforeComment l) = scanLine opened (Text.beforeComment l') := by
      rw [scanLine_eq, scanLine_eq]
      exact congrArg (scan opened) hl.symm
    rw [scanLines, scanLines, hscan]
    cases scanLine opened (Text.beforeComment l') with
    | error b => rfl
    | ok opened' => exact ih hrest.symm (line + 1) opened'

theorem splitOnP_of_not_mem {l : List Char} (h : '\n' ∉ l) : l.splitOnP (· = '\n') = [l] :=
  List.splitOnP_eq_singleton fun _ hc => decide_eq_false (ne_of_mem_of_not_mem hc h)

/-- How lines end does not matter to a scan. -/
theorem scanLines_lines (cs : List Char) : ∀ (line : Nat) (opened : List Bracket),
    scanLines line opened (Text.lines cs) = scanLines line opened (cs.splitOnP (· = '\n')) := by
  induction cs using Text.line_induction with
  | last l hl =>
    intro line opened
    have hpieces := splitOnP_of_not_mem hl
    rw [Text.lines_of_not_mem hl, hpieces]
    split
    · next h => rw [h]; rfl
    · rfl
  | more l cs hl ih =>
    intro line opened
    have hpieces := splitOnP_of_not_mem hl
    have hchop : scanLine opened (Text.beforeComment (Text.chopReturn l)) = scanLine opened (Text.beforeComment l) := by
      rw [scanLine_eq, scanLine_eq]
      exact congrArg (scan opened) (marks.ofLine_chopReturn l)
    rw [Text.lines_append_newline hl, List.splitOnP_append_cons _ _ (by simp), hpieces, List.singleton_append, scanLines,
      scanLines, hchop]
    cases scanLine opened (Text.beforeComment l) with
    | error b => rfl
    | ok opened' => exact ih (line + 1) opened'

theorem scanLines_eq_ok {ls : List (List Char)} : ∀ {line : Nat} {opened opened' : List Bracket},
    scanLines line opened ls = .ok opened' ↔ scan opened (ls.flatMap marks.ofLine) = .ok opened' := by
  induction ls with
  | nil => exact fun {_ _ _} => ⟨fun h => by cases h; rfl, fun h => by cases h; rfl⟩
  | cons l ls ih =>
    intro line opened opened'
    have hscan : scanLine opened (Text.beforeComment l) = scan opened (marks.ofLine l) := scanLine_eq _ _
    rw [scanLines, hscan, List.flatMap_cons, scan_append]
    cases scan opened (marks.ofLine l) with
    | error b => exact ⟨nofun, nofun⟩
    | ok between => exact ih

/-- A text is accepted exactly if its brackets before comments close each other. -/
theorem check_eq_ok {text : List Char} : check text = .ok () ↔ Closed (marks.read text) := by
  have hscan : scanLines 1 [] (Text.lines text) = .ok [] ↔ _ := scanLines_eq_ok
  rw [Closed, LineReading.read, ← hscan, check]
  split <;> simp_all

end Brackets

/-! ### Instances -/

namespace Template
open Brackets

/-- The items of a line before the first two slashes in a row. -/
def beforeComment : List Item → List Item
  | [] => []
  | .char '/' :: .char '/' :: _ => []
  | x :: xs => x :: beforeComment xs

theorem slash_notMem_toDigits (i : Nat) : '/' ∉ Nat.toDigits 10 i := fun h => by
  cases isNameChar_of_mem_toDigits h

theorem head?_flatMap_spell_ne {i : Nat} {xs : List Item} (h : xs.head? ≠ some (.char '/')) :
    (xs.flatMap (spell i)).head? ≠ some '/' := by
  cases xs with
  | nil => nofun
  | cons x xs =>
    cases x with
    | char c => exact fun hc => h (by rw [Option.some.inj hc]; rfl)
    | position =>
      obtain ⟨d, ds, hdigits⟩ := List.exists_cons_of_ne_nil (Nat.toDigits_ne_nil (n := i) (b := 10))
      intro hd
      rw [List.flatMap_cons, spell, hdigits] at hd
      exact slash_notMem_toDigits i (hdigits ▸ Option.some.inj hd ▸ List.mem_cons_self)

/-- A position starts no comment and ends none. -/
theorem beforeComment_flatMap_spell (i : Nat) (xs : List Item) :
    Text.beforeComment (xs.flatMap (spell i)) = (beforeComment xs).flatMap (spell i) := by
  induction xs using beforeComment.induct with
  | case1 => rfl
  | case2 xs => rfl
  | case3 x xs h ih =>
    rw [beforeComment]
    · rw [List.flatMap_cons, List.flatMap_cons, ← ih]
      cases x with
      | position => exact Text.beforeComment_append (slash_notMem_toDigits i) _
      | char c =>
        by_cases hc : c = '/'
        · subst hc
          refine Text.beforeComment_slash (head?_flatMap_spell_ne fun hhead => ?_)
          obtain ⟨tail, rfl⟩ := List.head?_eq_some_iff.mp hhead
          exact h tail rfl rfl
        · exact Text.beforeComment_cons hc _
    · exact h

def mark? : Item → Option Mark
  | .char c => Brackets.mark? c
  | .position => none

theorem filterMap_mark_spell (i : Nat) (xs : List Item) :
    (xs.flatMap (spell i)).filterMap Brackets.mark? = xs.filterMap mark? := by
  induction xs with
  | nil => rfl
  | cons x xs ih =>
    rw [List.flatMap_cons, List.filterMap_append, ih]
    cases x with
    | char c =>
      show [c].filterMap Brackets.mark? ++ _ = (Item.char c :: xs).filterMap mark?
      cases hc : Brackets.mark? c <;> simp [mark?, hc]
    | position =>
      have hnone : (Nat.toDigits 10 i).filterMap Brackets.mark? = [] :=
        List.filterMap_eq_nil_iff.mpr fun c hc => mark?_of_isNameChar (isNameChar_of_mem_toDigits hc)
      rw [spell, hnone]
      rfl

/-- What the check answers for an instance does not depend on the position. -/
theorem check_instantiate (t : Template) (i j : Nat) :
    check (t.instantiate i).toList = check (t.instantiate j).toList := by
  have lines : ∀ i, ((t.instantiate i).toList.splitOnP (· = '\n')).map marks.ofLine =
      (t.items.splitOnP (· = .char '\n')).map fun xs => (beforeComment xs).filterMap mark? := by
    intro i
    rw [toList_instantiate, splitOnP_flatMap (p := (· = .char '\n')), List.map_map]
    · refine List.map_congr_left fun xs _ => ?_
      show (Text.beforeComment (xs.flatMap (spell i))).filterMap Brackets.mark? = _
      rw [beforeComment_flatMap_spell, filterMap_mark_spell]
    · intro x hx
      obtain rfl := of_decide_eq_true hx
      exact ⟨'\n', rfl, rfl⟩
    · intro x hx c hc
      cases x with
      | char d =>
        obtain rfl := List.mem_singleton.mp hc
        simpa using hx
      | position =>
        refine decide_eq_false ?_
        rintro rfl
        cases isNameChar_of_mem_toDigits hc
  have scans : scanLines 1 [] (Text.lines (t.instantiate i).toList) = scanLines 1 [] (Text.lines (t.instantiate j).toList) := by
    rw [scanLines_lines, scanLines_lines]
    exact scanLines_congr ((lines i).trans (lines j).symm) 1 []
  rw [check, check, scans]

end Template
end FxStack
