import FxStack.Proofs.Text.Runs
import Mathlib.Data.List.Induction

/-! Texts read line by line. A text falls into lines at its line feeds, and a reading of lines that does not see blanks at
    their ends sees neither the blanks at the ends of a text nor where its lines are broken off from one another. Words
    with and without comments are such readings. Main statements: `Text.lines_append_cons`, `LineReading.read_trim`. -/

namespace FxStack

namespace Text
variable {l as bs cs : List Char} {c : Char}

/-! ### Lines -/

/-- A property that one more line keeps holds of all texts if it holds of those without a line feed. -/
theorem line_induction {P : List Char → Prop} (last : ∀ l, '\n' ∉ l → P l)
    (more : ∀ l cs, '\n' ∉ l → P cs → P (l ++ '\n' :: cs)) (cs : List Char) : P cs := by
  induction hn : cs.length using Nat.strongRecOn generalizing cs with
  | ind n ih =>
    by_cases h : '\n' ∈ cs
    · obtain ⟨l, rest, rfl, hl⟩ := List.eq_append_cons_of_mem h
      have hlt : rest.length < n := by
        rw [← hn, List.length_append, List.length_cons]
        omega
      exact more l rest hl (ih _ hlt rest rfl)
    · exact last cs h

/-- A line without the carriage return at its end. -/
def chopReturn (l : List Char) : List Char := if l.getLast? = some '\r' then l.dropLast else l

theorem chopReturn_cons (h : l ≠ []) : chopReturn (c :: l) = c :: chopReturn l := by
  obtain ⟨d, l, rfl⟩ := List.exists_cons_of_ne_nil h
  unfold chopReturn
  rw [List.getLast?_cons_cons]
  split <;> rfl

theorem chopReturn_append (h : bs ≠ []) (as : List Char) : chopReturn (as ++ bs) = as ++ chopReturn bs := by
  induction as with
  | nil => rfl
  | cons a as ih => rw [List.cons_append, chopReturn_cons (List.append_ne_nil_of_right_ne_nil as h), ih, List.cons_append]

/-- Either nothing is chopped off, or a carriage return is. -/
theorem chopReturn_cases (l : List Char) : chopReturn l = l ∨ l = chopReturn l ++ ['\r'] := by
  unfold chopReturn
  split
  · next h => exact .inr (List.dropLast_append_getLast? '\r' h).symm
  · exact .inl rfl

/-- A character that ends no line stands in front of the first one. -/
theorem lines_cons (hc : c ≠ '\n') (hr : c = '\r' → cs.head? ≠ some '\n') :
    lines (c :: cs) = (lines cs).head?.elim [[c]] fun l => (c :: l) :: (lines cs).tail := by
  rw [lines]
  · cases lines cs <;> rfl
  · exact hc
  · rintro rest hreturn rfl
    exact hr hreturn rfl

/-- A line feed ends the first line. -/
theorem lines_append_newline (h : '\n' ∉ l) (cs : List Char) : lines (l ++ '\n' :: cs) = chopReturn l :: lines cs := by
  induction l with
  | nil => rfl
  | cons c l ih =>
    obtain ⟨hc, hl⟩ := List.ne_and_not_mem_of_not_mem_cons h
    cases l with
    | nil =>
      by_cases hreturn : c = '\r'
      · subst hreturn
        rfl
      · rw [List.singleton_append, lines_cons (Ne.symm hc) fun hr => absurd hr hreturn]
        simp [lines, chopReturn, hreturn]
    | cons d l =>
      have hd : d ≠ '\n' := fun heq => hl (heq ▸ List.mem_cons_self)
      rw [List.cons_append, lines_cons (Ne.symm hc) fun _ => by simpa using hd, ih hl,
        chopReturn_cons (List.cons_ne_nil d l)]
      rfl

theorem lines_of_not_mem (h : '\n' ∉ l) : lines l = if l = [] then [] else [l] := by
  induction l with
  | nil => rfl
  | cons c l ih =>
    obtain ⟨hc, hl⟩ := List.ne_and_not_mem_of_not_mem_cons h
    have hhead : l.head? ≠ some '\n' := fun heq => hl (List.mem_of_mem_head? heq)
    rw [lines_cons (Ne.symm hc) fun _ => hhead, ih hl]
    cases l <;> simp

/-- The lines before a line feed are not changed by what follows it. -/
theorem lines_append_cons (as bs : List Char) : lines (as ++ '\n' :: bs) = lines (as ++ ['\n']) ++ lines bs := by
  induction as using line_induction with
  | last l hl => rw [lines_append_newline hl, lines_append_newline hl]; rfl
  | more l cs hl ih =>
    rw [List.append_assoc, List.append_assoc, List.cons_append, List.cons_append, lines_append_newline hl,
      lines_append_newline hl, ih]
    rfl

/-- A text of whole lines, of which each ends with a line feed. -/
def WholeLines (cs : List Char) : Prop := ∀ c ∈ cs.getLast?, c = '\n'

theorem wholeLines_nil : WholeLines [] := nofun

theorem wholeLines_concat (cs : List Char) : WholeLines (cs ++ ['\n']) := by
  simp [WholeLines]

theorem WholeLines.append (ha : WholeLines as) (hb : WholeLines bs) : WholeLines (as ++ bs) := by
  rcases List.eq_nil_or_concat' bs with rfl | ⟨init, d, rfl⟩
  · rwa [List.append_nil]
  · intro c hc
    rw [← List.append_assoc, List.getLast?_concat] at hc
    exact hb c (by rwa [List.getLast?_concat])

theorem WholeLines.flatMap {α : Type} {f : α → List Char} {xs : List α} (h : ∀ x ∈ xs, WholeLines (f x)) :
    WholeLines (xs.flatMap f) := by
  induction xs with
  | nil => exact wholeLines_nil
  | cons x xs ih =>
    rw [List.flatMap_cons]
    exact (h x List.mem_cons_self).append (ih fun y hy => h y (List.mem_cons_of_mem x hy))

theorem WholeLines.lines_append (h : WholeLines as) (bs : List Char) : lines (as ++ bs) = lines as ++ lines bs := by
  rcases List.eq_nil_or_concat' as with rfl | ⟨init, c, rfl⟩
  · rfl
  · obtain rfl := h c (by rw [List.getLast?_concat]; rfl)
    rw [List.append_assoc, List.singleton_append, lines_append_cons]

theorem lines_flatMap {α : Type} {f : α → List Char} {xs : List α} (h : ∀ x ∈ xs, WholeLines (f x)) :
    lines (xs.flatMap f) = xs.flatMap fun x => lines (f x) := by
  induction xs with
  | nil => rfl
  | cons x xs ih =>
    rw [List.flatMap_cons, List.flatMap_cons, (h x List.mem_cons_self).lines_append,
      ih fun y hy => h y (List.mem_cons_of_mem x hy)]

theorem not_mem_chopReturn (h : '\n' ∉ l) : '\n' ∉ chopReturn l := by
  rcases chopReturn_cases l with hchop | hchop
  · rwa [hchop]
  · rw [hchop] at h
    exact fun hmem => h (List.mem_append_left _ hmem)

theorem not_mem_of_mem_lines (h : l ∈ lines cs) : '\n' ∉ l := by
  induction cs using line_induction with
  | last m hm =>
    rw [lines_of_not_mem hm] at h
    split at h
    · cases h
    · rwa [List.mem_singleton.mp h]
  | more m cs hm ih =>
    rw [lines_append_newline hm] at h
    rcases List.mem_cons.mp h with rfl | h
    · exact not_mem_chopReturn hm
    · exact ih h

/-! ### Comments -/

/-- A line from the first two slashes in a row on. -/
def comment : List Char → List Char
  | [] => []
  | '/' :: '/' :: cs => '/' :: '/' :: cs
  | _ :: cs => comment cs

theorem beforeComment_cons (h : c ≠ '/') (l : List Char) : beforeComment (c :: l) = c :: beforeComment l := by
  rw [beforeComment]
  exact fun _ hslash _ => h hslash

theorem beforeComment_slash (h : l.head? ≠ some '/') : beforeComment ('/' :: l) = '/' :: beforeComment l := by
  rw [beforeComment]
  rintro tail - rfl
  exact h rfl

theorem beforeComment_append (h : '/' ∉ as) (bs : List Char) : beforeComment (as ++ bs) = as ++ beforeComment bs := by
  induction as with
  | nil => rfl
  | cons a as ih =>
    obtain ⟨ha, has⟩ := List.ne_and_not_mem_of_not_mem_cons h
    rw [List.cons_append, beforeComment_cons (Ne.symm ha), ih has, List.cons_append]

theorem comment_cons (h : c ≠ '/') (l : List Char) : comment (c :: l) = comment l := by
  rw [comment]
  exact fun _ hslash _ => h hslash

theorem beforeComment_append_comment (l : List Char) : beforeComment l ++ comment l = l := by
  induction l using beforeComment.induct with
  | case1 => rfl
  | case2 l => rfl
  | case3 c l h ih =>
    rw [beforeComment, comment, List.cons_append, ih]
    · exact h
    · exact h

theorem comment_cases (l : List Char) : comment l = [] ∨ (comment l).head? = some '/' := by
  induction l using beforeComment.induct with
  | case1 => exact .inl rfl
  | case2 l => exact .inr rfl
  | case3 c l h ih =>
    rw [comment]
    · exact ih
    · exact h

/-- A character that is no slash at the end of a line is behind a comment or starts none. -/
theorem concat_cases (h : c ≠ '/') (l : List Char) :
    beforeComment (l ++ [c]) = beforeComment l ++ [c] ∧ comment (l ++ [c]) = comment l ∨
      beforeComment (l ++ [c]) = beforeComment l ∧ comment (l ++ [c]) = comment l ++ [c] := by
  induction l using beforeComment.induct with
  | case1 => exact .inl ⟨by rw [List.nil_append, beforeComment_cons h]; rfl, by rw [List.nil_append, comment_cons h]⟩
  | case2 l => exact .inr ⟨rfl, rfl⟩
  | case3 d l hd ih =>
    have hd' : ∀ tail, d = '/' → l ++ [c] = '/' :: tail → False := by
      intro tail hslash htail
      cases l with
      | nil => exact h (List.cons.inj htail).1
      | cons e l => exact hd l hslash (by rw [(List.cons.inj htail).1])
    rw [List.cons_append, beforeComment, beforeComment, comment, comment]
    · rcases ih with ⟨hbefore, hcomment⟩ | ⟨hbefore, hcomment⟩
      · exact .inl ⟨by rw [hbefore]; rfl, hcomment⟩
      · exact .inr ⟨by rw [hbefore], hcomment⟩
    all_goals assumption

/-! ### Parts -/

theorem occursIn_iff {part : List Char} : occursIn part cs = true ↔ part <:+: cs := by
  induction cs with
  | nil => simp [occursIn, List.infix_nil]
  | cons c cs ih => rw [occursIn, Bool.or_eq_true, List.isPrefixOf_iff_prefix, ih, List.infix_cons_iff]

end Text

/-! ### Readings -/

/-- A way to read lines that does not see blanks at their ends. -/
structure LineReading (α : Type) where
  ofLine : List Char → List α
  ofLine_nil : ofLine [] = []
  ofLine_cons {c : Char} (h : Text.isBlank c = true) (l : List Char) : ofLine (c :: l) = ofLine l
  ofLine_concat {c : Char} (h : Text.isBlank c = true) (l : List Char) : ofLine (l ++ [c]) = ofLine l

namespace LineReading
variable {α : Type} (r : LineReading α) {l as bs cs : List Char} {c : Char}

/-- What is read in a text, line after line. -/
def read (cs : List Char) : List α := (Text.lines cs).flatMap r.ofLine

theorem ofLine_chopReturn (l : List Char) : r.ofLine (Text.chopReturn l) = r.ofLine l := by
  rcases Text.chopReturn_cases l with h | h
  · rw [h]
  · conv_rhs => rw [h]
    rw [r.ofLine_concat (by decide)]

theorem read_nil : r.read [] = [] := rfl

theorem read_of_not_mem (h : '\n' ∉ l) : r.read l = r.ofLine l := by
  rw [read, Text.lines_of_not_mem h]
  split
  · next hl => rw [hl, r.ofLine_nil, List.flatMap_nil]
  · exact List.flatMap_singleton ..

theorem read_append_newline (h : '\n' ∉ l) (cs : List Char) : r.read (l ++ '\n' :: cs) = r.ofLine l ++ r.read cs := by
  rw [read, Text.lines_append_newline h, List.flatMap_cons, r.ofLine_chopReturn]
  rfl

/-- A line feed between two texts keeps them apart. -/
theorem read_append_cons (as bs : List Char) : r.read (as ++ '\n' :: bs) = r.read as ++ r.read bs := by
  induction as using Text.line_induction with
  | last l hl => rw [r.read_append_newline hl, r.read_of_not_mem hl]
  | more l cs hl ih =>
    rw [List.append_assoc, List.cons_append, r.read_append_newline hl, r.read_append_newline hl, ih, List.append_assoc]

theorem read_flatMap {β : Type} {f : β → List Char} {xs : List β} (h : ∀ x ∈ xs, Text.WholeLines (f x)) :
    r.read (xs.flatMap f) = xs.flatMap fun x => r.read (f x) := by
  unfold read
  rw [Text.lines_flatMap h, List.flatMap_assoc]

/-- Blanks at the start of a text are not seen. -/
theorem read_cons (h : Text.isBlank c = true) (cs : List Char) : r.read (c :: cs) = r.read cs := by
  by_cases hc : c = '\n'
  · rw [hc]
    exact r.read_append_cons [] cs
  have hmem {l : List Char} (hl : '\n' ∉ l) : '\n' ∉ c :: l := List.not_mem_cons_of_ne_of_not_mem (Ne.symm hc) hl
  induction cs using Text.line_induction with
  | last l hl => rw [r.read_of_not_mem (hmem hl), r.read_of_not_mem hl, r.ofLine_cons h]
  | more l cs hl _ => rw [← List.cons_append, r.read_append_newline (hmem hl), r.read_append_newline hl, r.ofLine_cons h]

/-- Blanks at the end of a text are not seen. -/
theorem read_concat (h : Text.isBlank c = true) (cs : List Char) : r.read (cs ++ [c]) = r.read cs := by
  by_cases hc : c = '\n'
  · rw [hc, r.read_append_cons, r.read_nil, List.append_nil]
  induction cs using Text.line_induction with
  | last l hl =>
    have hmem : '\n' ∉ l ++ [c] := by simp [hl, Ne.symm hc]
    rw [r.read_of_not_mem hmem, r.read_of_not_mem hl, r.ofLine_concat h]
  | more l cs hl ih => rw [List.append_assoc, List.cons_append, r.read_append_newline hl, r.read_append_newline hl, ih]

theorem read_trimStart (cs : List Char) : r.read (Text.trimStart cs) = r.read cs := by
  unfold Text.trimStart
  induction cs with
  | nil => rfl
  | cons c cs ih =>
    by_cases h : Text.isBlank c = true
    · rw [List.dropWhile_cons_of_pos h, ih, r.read_cons h]
    · rw [List.dropWhile_cons_of_neg h]

theorem read_trimEnd (cs : List Char) : r.read (Text.trimEnd cs) = r.read cs := by
  unfold Text.trimEnd
  induction cs using List.reverseRecOn with
  | nil => rfl
  | append_singleton cs c ih =>
    rw [List.reverse_append, List.reverse_singleton, List.singleton_append]
    by_cases h : Text.isBlank c = true
    · rw [List.dropWhile_cons_of_pos h, ih, r.read_concat h]
    · rw [List.dropWhile_cons_of_neg h, List.reverse_cons, List.reverse_reverse]

theorem read_trim (cs : List Char) : r.read (Text.trim cs) = r.read cs := by
  rw [Text.trim, r.read_trimEnd, r.read_trimStart]

/-- Nothing is read in a blank line. -/
theorem ofLine_of_trim_eq_nil (h : Text.trim l = []) (hl : '\n' ∉ l) : r.ofLine l = [] := by
  rw [← r.read_of_not_mem hl, ← r.read_trim, h, r.read_nil]

end LineReading
end FxStack
