import FxStack.Proofs.Program.Brackets

/-! What the check of brackets decides. Brackets are well nested if each pair encloses well nested ones. The check accepts
    a text exactly if its brackets before comments are; it stops at the first bracket with which they cannot be the start
    of well nested ones, on its line, and where some are left open it tells the innermost. Main statement:
    `Brackets.check_nesting`. -/

namespace FxStack

/-! ### Comments -/

/-- What stands before the comment of a line holds no comment, and neither does the start of it. -/
theorem Text.beforeComment_start {l as : List Char} (h : as <+: beforeComment l) : beforeComment as = as := by
  induction l using beforeComment.induct generalizing as with
  | case1 => rw [List.prefix_nil.mp h]; rfl
  | case2 l => rw [List.prefix_nil.mp h]; rfl
  | case3 c l hl ih =>
    rw [beforeComment] at h
    · rcases List.prefix_cons_iff.mp h with rfl | ⟨rest, rfl, hrest⟩
      · rfl
      · rw [beforeComment, ih hrest]
        -- Two slashes at the start would be two slashes at the start of the line.
        rintro tail rfl rfl
        obtain ⟨more, hmore⟩ := hrest
        refine hl (tail ++ (more ++ comment l)) rfl ?_
        have hline := beforeComment_append_comment l
        rw [← hmore, List.append_assoc] at hline
        exact hline.symm
    · exact hl

namespace Brackets
variable {opened : List Bracket} {ms ns : List Mark} {b : Bracket}

/-! ### Well nested brackets -/

/-- Every bracket is closed by one of its kind, and those between the two are well nested. -/
inductive WellNested : List Mark → Prop
  | nil : WellNested []
  | nest (b : Bracket) {inner rest : List Mark} (hinner : WellNested inner) (hrest : WellNested rest) :
      WellNested (.opener b :: inner ++ .closer b :: rest)

theorem WellNested.append (hm : WellNested ms) (hn : WellNested ns) : WellNested (ms ++ ns) := by
  induction hm with
  | nil => exact hn
  | nest b hinner _ _ ihrest =>
    rw [List.append_assoc]
    exact .nest b hinner ihrest

theorem WellNested.pair (b : Bracket) (h : WellNested ms) : WellNested (.opener b :: ms ++ [.closer b]) := .nest b h .nil

theorem WellNested.closed (h : WellNested ms) : Closed ms := by
  induction h with
  | nil => exact closed_nil
  | @nest b inner rest _ _ ihinner ihrest =>
    show scan [b] (inner ++ .closer b :: rest) = .ok []
    rw [scan_append, ihinner.scan]
    show (if b = b then scan [] rest else .error b) = .ok []
    rw [if_pos rfl]
    exact ihrest

/-- Well nested brackets between which some are left open, given with the innermost first. -/
inductive Leaves : List Mark → List Bracket → Prop
  | nil {ms : List Mark} (h : WellNested ms) : Leaves ms []
  | cons (o : Bracket) {opened : List Bracket} {before inner : List Mark} (hbefore : Leaves before opened)
      (hinner : WellNested inner) : Leaves (before ++ .opener o :: inner) (o :: opened)

theorem Leaves.append (h : Leaves ms opened) (hn : WellNested ns) : Leaves (ms ++ ns) opened := by
  cases h with
  | nil h => exact .nil (h.append hn)
  | cons o hbefore hinner =>
    rw [List.append_assoc, List.cons_append]
    exact .cons o hbefore (hinner.append hn)

theorem Leaves.scan (h : Leaves ms opened) : scan [] ms = .ok opened := by
  induction h with
  | nil h => exact h.closed
  | @cons o opened before inner _ hinner ih =>
    rw [scan_append, ih]
    exact hinner.closed.scan (o :: opened)

/-- What a scan goes through is well nested but for the brackets that it leaves open. -/
theorem leaves_of_scan {before : List Mark} {opened' : List Bracket} (hbefore : Leaves before opened)
    (h : scan opened ms = .ok opened') : Leaves (before ++ ms) opened' := by
  induction ms generalizing opened before with
  | nil =>
    obtain rfl := Except.ok.inj h
    rwa [List.append_nil]
  | cons m ms ih =>
    rw [List.append_cons]
    cases m with
    | opener b => exact ih (.cons b hbefore .nil) h
    | closer b =>
      cases hbefore with
      | nil _ => cases h
      | @cons o opened before inner hbefore hinner =>
        rw [Brackets.scan] at h
        split at h
        · next heq =>
          subst heq
          refine ih ?_ h
          rw [List.append_assoc]
          exact hbefore.append (hinner.pair o)
        · cases h

theorem scan_eq_ok_iff : scan [] ms = .ok opened ↔ Leaves ms opened := ⟨leaves_of_scan (.nil .nil), Leaves.scan⟩

/-- Behind the innermost open bracket everything is well nested. -/
theorem Leaves.innermost {o : Bracket} (h : Leaves ms (o :: opened)) :
    ∃ before inner, ms = before ++ .opener o :: inner ∧ WellNested inner := by
  cases h with
  | @cons o opened before inner _ hinner => exact ⟨before, inner, rfl, hinner⟩

theorem closed_iff : Closed ms ↔ WellNested ms := by
  constructor
  · intro h
    cases scan_eq_ok_iff.mp h with
    | nil h => exact h
  · exact WellNested.closed

/-! ### Starts of well nested brackets -/

/-- Brackets with which well nested ones start. -/
def Begins (ms : List Mark) : Prop := ∃ rest, WellNested (ms ++ rest)

theorem scan_closers (opened : List Bracket) : scan opened (opened.map .closer) = .ok [] := by
  induction opened with
  | nil => rfl
  | cons o opened ih =>
    show (if o = o then scan opened (opened.map .closer) else .error o) = .ok []
    rw [if_pos rfl, ih]

/-- Brackets that are left open can be closed, the innermost first. -/
theorem wellNested_append_closers (h : scan [] ms = .ok opened) : WellNested (ms ++ opened.map .closer) := by
  rw [← closed_iff, Closed, scan_append, h]
  exact scan_closers opened

theorem begins_iff : Begins ms ↔ ∃ opened, scan [] ms = .ok opened := by
  constructor
  · rintro ⟨rest, h⟩
    have hscan : scan [] (ms ++ rest) = .ok [] := h.closed
    rw [scan_append] at hscan
    cases hms : scan [] ms with
    | ok opened => exact ⟨opened, rfl⟩
    | error b => rw [hms] at hscan; cases hscan
  · rintro ⟨opened, h⟩
    exact ⟨_, wellNested_append_closers h⟩

/-! ### A closing bracket that does not fit -/

theorem mark?_eq_closer {c : Char} (h : mark? c = some (.closer b)) : c = b.closeChar := by
  unfold mark? at h
  split at h
  · cases h
  · next hclose =>
    obtain rfl := Mark.closer.inj (Option.some.inj h)
    have hfound := List.find?_some hclose
    exact (of_decide_eq_true hfound).symm
  · cases h

theorem mark?_closeChar (b : Bracket) : mark? b.closeChar = some (.closer b) := by cases b <;> rfl

/-- A scan stops at a closing bracket that is not of the kind of the innermost open one. -/
theorem exists_of_scan_error (h : scan opened ms = .error b) :
    ∃ before after opened', ms = before ++ .closer b :: after ∧ scan opened before = .ok opened' ∧
      opened'.head? ≠ some b := by
  induction ms generalizing opened with
  | nil => cases h
  | cons m ms ih =>
    cases m with
    | opener o =>
      obtain ⟨before, after, opened', rfl, hbefore, hb⟩ := ih h
      exact ⟨.opener o :: before, after, opened', rfl, hbefore, hb⟩
    | closer c =>
      cases opened with
      | nil =>
        obtain rfl := Except.error.inj h
        exact ⟨[], ms, [], rfl, rfl, nofun⟩
      | cons o rest =>
        rw [scan] at h
        split at h
        · next heq =>
          obtain ⟨before, after, opened', rfl, hbefore, hb⟩ := ih h
          refine ⟨.closer c :: before, after, opened', rfl, ?_, hb⟩
          rw [scan, if_pos heq, hbefore]
        · next hne =>
          obtain rfl := Except.error.inj h
          exact ⟨[], ms, o :: rest, rfl, rfl, fun heq => hne (Option.some.inj heq)⟩

theorem scan_closer_error (h : opened.head? ≠ some b) : scan opened [.closer b] = .error b := by
  cases opened with
  | nil => rfl
  | cons o rest =>
    rw [scan, if_neg]
    rintro rfl
    exact h rfl

/-- Behind `before`, a text goes on with a closing bracket that is not part of a comment. -/
structure Closes (text before : List Char) (b : Bracket) : Prop where
  stands : before ++ [b.closeChar] <+: text
  seen : marks.read (before ++ [b.closeChar]) = marks.read before ++ [.closer b]
  kept : marks.read before ++ [.closer b] <+: marks.read text

/-- A line that starts before its comment is read like any text. -/
theorem read_start {l as : List Char} (hl : '\n' ∉ l) (h : as <+: Text.beforeComment l) :
    '\n' ∉ as ∧ marks.read as = as.filterMap mark? := by
  have hline : Text.beforeComment l <+: l := ⟨_, Text.beforeComment_append_comment l⟩
  have has : '\n' ∉ as := fun hmem => hl ((h.trans hline).subset hmem)
  refine ⟨has, ?_⟩
  rw [marks.read_of_not_mem has]
  exact congrArg (List.filterMap mark?) (Text.beforeComment_start h)

/-- The bracket of a line at which a scan stops. -/
theorem exists_of_scanLine_error {l : List Char} (hl : '\n' ∉ l) (h : scanLine opened (Text.beforeComment l) = .error b) :
    ∃ before opened', Closes l before b ∧ '\n' ∉ before ∧ scan opened (marks.read before) = .ok opened' ∧
      opened'.head? ≠ some b := by
  rw [scanLine_eq] at h
  obtain ⟨before, after, opened', hmarks, hbefore, hb⟩ := exists_of_scan_error h
  obtain ⟨start, rest, hsplit, rfl, hrest⟩ := List.filterMap_eq_append_iff.mp hmarks
  obtain ⟨skipped, c, tail, rfl, hskipped, hc, -⟩ := List.filterMap_eq_cons_iff.mp hrest
  obtain rfl := mark?_eq_closer hc
  have hline : start ++ skipped ++ [b.closeChar] <+: Text.beforeComment l := ⟨tail, by rw [hsplit]; simp⟩
  obtain ⟨hnewline, hstart⟩ := read_start hl ((List.prefix_append _ _).trans hline)
  have hread : marks.read (start ++ skipped) = start.filterMap mark? := by
    rw [hstart, List.filterMap_append, List.filterMap_eq_nil_iff.mpr hskipped, List.append_nil]
  have hseen : marks.read (start ++ skipped ++ [b.closeChar]) = marks.read (start ++ skipped) ++ [.closer b] := by
    rw [(read_start hl hline).2, hstart, List.filterMap_append (l := start ++ skipped)]
    simp [mark?_closeChar]
  refine ⟨start ++ skipped, opened', ⟨?_, hseen, ?_⟩, hnewline, by rwa [hread], hb⟩
  · exact hline.trans ⟨_, Text.beforeComment_append_comment l⟩
  · rw [hread, marks.read_of_not_mem hl]
    exact ⟨after, by rw [List.append_assoc, List.singleton_append]; exact hmarks.symm⟩

theorem Closes.line {l before : List Char} (h : Closes l before b) (hl : '\n' ∉ l) (cs : List Char) :
    Closes (l ++ '\n' :: cs) before b where
  stands := h.stands.trans (List.prefix_append ..)
  seen := h.seen
  kept := by
    rw [marks.read_append_newline hl, ← marks.read_of_not_mem hl]
    exact h.kept.trans (List.prefix_append ..)

theorem Closes.behind {l cs before : List Char} (h : Closes cs before b) (hl : '\n' ∉ l) :
    Closes (l ++ '\n' :: cs) (l ++ '\n' :: before) b where
  stands := by
    rw [List.append_assoc, List.cons_append]
    exact (List.prefix_append_right_inj l).mpr ((List.cons_prefix_cons).mpr ⟨rfl, h.stands⟩)
  seen := by
    rw [List.append_assoc, List.cons_append, marks.read_append_newline hl, marks.read_append_newline hl, h.seen,
      List.append_assoc]
  kept := by
    rw [marks.read_append_newline hl, marks.read_append_newline hl, List.append_assoc]
    exact (List.prefix_append_right_inj _).mpr h.kept

/-- A scan of lines stops in the first one or behind it. -/
theorem scanLines_cons_error {e : BracketError} {line : Nat} {l : List Char} {ls : List (List Char)}
    (h : scanLines line opened (l :: ls) = .error e) :
    (∃ b, scanLine opened (Text.beforeComment l) = .error b ∧ e = .unbalanced line b) ∨
      ∃ opened', scan opened (marks.ofLine l) = .ok opened' ∧ scanLines (line + 1) opened' ls = .error e := by
  rw [scanLines] at h
  split at h
  · next opened' hline => exact .inr ⟨opened', by rwa [scanLine_eq] at hline, h⟩
  · next b hline => exact .inl ⟨b, hline, (Except.error.inj h).symm⟩

/-- The bracket of a text at which a scan of its lines stops. -/
theorem exists_of_scanLines_error {e : BracketError} (text : List Char) : ∀ {line : Nat} {opened : List Bracket},
    scanLines line opened (text.splitOnP (· = '\n')) = .error e →
      ∃ b before opened', e = .unbalanced (before.count '\n' + line) b ∧ Closes text before b ∧
        scan opened (marks.read before) = .ok opened' ∧ opened'.head? ≠ some b := by
  induction text using Text.line_induction with
  | last l hl =>
    intro line opened h
    rw [splitOnP_of_not_mem hl] at h
    rcases scanLines_cons_error h with ⟨b, hline, rfl⟩ | ⟨opened', -, hrest⟩
    · obtain ⟨before, opened', hcloses, hnewline, hbefore, hb⟩ := exists_of_scanLine_error hl hline
      exact ⟨b, before, opened', by rw [List.count_eq_zero.mpr hnewline, Nat.zero_add], hcloses, hbefore, hb⟩
    · cases hrest
  | more l cs hl ih =>
    intro line opened h
    rw [List.splitOnP_append_cons _ _ (by simp), splitOnP_of_not_mem hl, List.singleton_append] at h
    rcases scanLines_cons_error h with ⟨b, hline, rfl⟩ | ⟨between, hline, hrest⟩
    · obtain ⟨before, opened', hcloses, hnewline, hbefore, hb⟩ := exists_of_scanLine_error hl hline
      exact ⟨b, before, opened', by rw [List.count_eq_zero.mpr hnewline, Nat.zero_add], hcloses.line hl cs, hbefore, hb⟩
    · obtain ⟨b, before, opened', rfl, hcloses, hbefore, hb⟩ := ih hrest
      have hcount : (l ++ '\n' :: before).count '\n' = before.count '\n' + 1 := by
        rw [List.count_append, List.count_eq_zero.mpr hl, List.count_cons_self, Nat.zero_add]
      refine ⟨b, l ++ '\n' :: before, opened', ?_, hcloses.behind hl, ?_, hb⟩
      · rw [hcount, Nat.add_assoc, Nat.add_comm 1]
      · rw [marks.read_append_newline hl, scan_append, hline]
        exact hbefore

/-! ### The check -/

/-- The three answers of the check. -/
theorem check_cases (text : List Char) :
    (check text = .ok () ∧ scan [] (marks.read text) = .ok []) ∨
    (∃ o opened, check text = .error (.unclosed o) ∧ scan [] (marks.read text) = .ok (o :: opened)) ∨
    ∃ b before opened, check text = .error (.unbalanced (before.count '\n' + 1) b) ∧ Closes text before b ∧
      scan [] (marks.read before) = .ok opened ∧ opened.head? ≠ some b := by
  rw [check]
  cases hlines : scanLines 1 [] (Text.lines text) with
  | ok opened =>
    have hscan : scan [] (marks.read text) = .ok opened := scanLines_eq_ok.mp hlines
    cases opened with
    | nil => exact .inl ⟨rfl, hscan⟩
    | cons o opened => exact .inr (.inl ⟨o, opened, rfl, hscan⟩)
  | error e =>
    rw [scanLines_lines] at hlines
    obtain ⟨b, before, opened, rfl, hcloses, hbefore, hb⟩ := exists_of_scanLines_error text hlines
    exact .inr (.inr ⟨b, before, opened, rfl, hcloses, hbefore, hb⟩)

/-- The check accepts a text exactly if its brackets before comments are well nested. A closing bracket is told if those
    before it start well nested ones and with it they no longer do, with the line on which it stands, and an opening
    bracket if all of them start well nested ones and it is the innermost of those that are left open. -/
theorem check_nesting (text : List Char) :
    (check text = .ok () ↔ WellNested (marks.read text)) ∧
    (∀ line b, check text = .error (.unbalanced line b) → ∃ before, Closes text before b ∧
      line = before.count '\n' + 1 ∧ Begins (marks.read before) ∧ ¬Begins (marks.read before ++ [.closer b])) ∧
    ∀ o, check text = .error (.unclosed o) →
      (∃ rest, rest ≠ [] ∧ WellNested (marks.read text ++ rest)) ∧
        ∃ before inner, marks.read text = before ++ .opener o :: inner ∧ WellNested inner := by
  refine ⟨check_eq_ok.trans closed_iff, ?_, ?_⟩
  · intro line b h
    rcases check_cases text with ⟨hok, -⟩ | ⟨o, opened, hunclosed, -⟩ | ⟨c, before, opened, herror, hcloses, hbefore, hc⟩
    · cases h.symm.trans hok
    · cases h.symm.trans hunclosed
    · obtain ⟨rfl, rfl⟩ := BracketError.unbalanced.inj (Except.error.inj (h.symm.trans herror))
      refine ⟨before, hcloses, rfl, begins_iff.mpr ⟨opened, hbefore⟩, fun hbegins => ?_⟩
      obtain ⟨opened', hscan⟩ := begins_iff.mp hbegins
      rw [scan_append, hbefore] at hscan
      cases (scan_closer_error hc).symm.trans hscan
  · intro o h
    rcases check_cases text with ⟨hok, -⟩ | ⟨o', opened, hunclosed, hscan⟩ | ⟨c, before, opened, herror, -, -, -⟩
    · cases h.symm.trans hok
    · obtain rfl := BracketError.unclosed.inj (Except.error.inj (h.symm.trans hunclosed))
      exact ⟨⟨_, List.cons_ne_nil _ _, wellNested_append_closers hscan⟩, (scan_eq_ok_iff.mp hscan).innermost⟩
    · cases h.symm.trans herror

/-- A bracket in a comment does not count, one on the second line does not fit, and of those that are left open the last
    one is told. -/
theorem check_nesting_mixed :
    WellNested (marks.read "f(a[1]) // )".toList) ∧
    check "f(x) // )\n\x7b a[1) \x7d".toList = .error (.unbalanced 2 .paren) ∧
    (∃ before, Closes "f(x) // )\n\x7b a[1) \x7d".toList before .paren ∧ before.count '\n' = 1 ∧
      Begins (marks.read before) ∧ ¬Begins (marks.read before ++ [.closer .paren])) ∧
    check "main() \x7b f(a[0], b".toList = .error (.unclosed .paren) ∧
    ∃ before inner, marks.read "main() \x7b f(a[0], b".toList = before ++ .opener .paren :: inner ∧ WellNested inner := by
  have hunbalanced : check "f(x) // )\n\x7b a[1) \x7d".toList = .error (.unbalanced 2 .paren) := by decide +kernel
  have hunclosed : check "main() \x7b f(a[0], b".toList = .error (.unclosed .paren) := by decide +kernel
  refine ⟨(check_nesting _).1.mp (by decide +kernel), hunbalanced, ?_, hunclosed, ((check_nesting _).2.2 _ hunclosed).2⟩
  obtain ⟨before, hcloses, hline, hbegins, hstops⟩ := (check_nesting _).2.1 2 .paren hunbalanced
  exact ⟨before, hcloses, (Nat.succ.inj hline).symm, hbegins, hstops⟩

end Brackets
end FxStack
