import FxStack.Program.ActiveUniforms
import Mathlib.Data.List.Basic

/-! Runs of a class of characters as the non-empty pieces between the characters outside it, so that they are
    taken apart like the pieces. Main statement: `Text.runs_eq_splitOnP`. -/

namespace FxStack

/-! ### Pieces of lists -/

section
variable {α β : Type} {p : α → Bool} {q : β → Bool}

theorem splitOnP_append_of_forall {as : List α} (h : ∀ a ∈ as, p a = false) (bs : List α) :
    (as ++ bs).splitOnP p = (bs.splitOnP p).modifyHead (as ++ ·) := by
  induction as with
  | nil =>
    rw [List.nil_append]
    cases bs.splitOnP p <;> rfl
  | cons a as ih =>
    have htail := ih fun b hb => h b (List.mem_cons_of_mem a hb)
    rw [List.cons_append, List.splitOnP_cons_eq_if_modifyHead, h a List.mem_cons_self, htail]
    simp [List.modifyHead_modifyHead, Function.comp_def]

/-- Pieces stay pieces where separators become separators and nothing else becomes one. -/
theorem splitOnP_flatMap {f : α → List β} (hp : ∀ a, p a = true → ∃ b, f a = [b] ∧ q b = true)
    (hq : ∀ a, p a = false → ∀ b ∈ f a, q b = false) (xs : List α) :
    (xs.flatMap f).splitOnP q = (xs.splitOnP p).map (·.flatMap f) := by
  induction xs with
  | nil => simp
  | cons a xs ih =>
    rw [List.flatMap_cons, List.splitOnP_cons_eq_if_modifyHead]
    cases ha : p a with
    | true =>
      obtain ⟨b, hb, hqb⟩ := hp a ha
      rw [hb, List.singleton_append, List.splitOnP_cons_eq_if_modifyHead, hqb]
      simp [ih]
    | false =>
      rw [splitOnP_append_of_forall (hq a ha), ih]
      obtain ⟨r, rs, hr⟩ := List.exists_cons_of_ne_nil (List.splitOnP_ne_nil p xs)
      simp [hr]

theorem splitOnP_map (f : α → β) (xs : List α) :
    (xs.map f).splitOnP q = (xs.splitOnP fun a => q (f a)).map (·.map f) := by
  have hsplit := splitOnP_flatMap (p := fun a => q (f a)) (q := q) (f := fun a => [f a]) (fun a ha => ⟨f a, rfl, ha⟩)
    (fun a ha b hb => by rwa [List.mem_singleton.mp hb]) xs
  simpa only [← List.map_eq_flatMap] using hsplit

end

/-! ### Runs -/

namespace Text
variable {p : Char → Bool}

theorem runs_eq_splitOnP (cs : List Char) : runs p cs = (cs.splitOnP fun c => !p c).filter (· ≠ []) := by
  induction cs with
  | nil => simp [runs]
  | cons c cs ih =>
    rw [List.splitOnP_cons_eq_if_modifyHead, runs, ih]
    cases hc : p c with
    | false => simp
    | true =>
      -- Whether the run goes on is told by the next character, which also starts the first piece.
      cases cs with
      | nil => simp
      | cons d ds =>
        rw [List.splitOnP_cons_eq_if_modifyHead]
        cases hd : p d with
        | false => simp [hd]
        | true =>
          obtain ⟨r, rs, hr⟩ := List.exists_cons_of_ne_nil (List.splitOnP_ne_nil (fun c => !p c) ds)
          simp [hd, hr]

/-- A text of the class is one run. -/
theorem runs_eq_singleton {cs : List Char} (hne : cs ≠ []) (h : ∀ c ∈ cs, p c = true) : runs p cs = [cs] := by
  rw [runs_eq_splitOnP, List.splitOnP_eq_singleton fun c hc => by simp [h c hc]]
  simp [hne]

/-- A character outside the class ends a run. -/
theorem runs_append_cons {c : Char} (h : p c = false) (as bs : List Char) :
    runs p (as ++ c :: bs) = runs p as ++ runs p bs := by
  simp only [runs_eq_splitOnP]
  rw [List.splitOnP_append_cons _ _ (by simp [h]), List.filter_append]

end Text
end FxStack
