import FxStack.Proofs.Catalog.Registration
import FxStack.Program.Text

/-! Names of uniforms in programs. The base name and the position can be read off such a name, because a
    base name does not end with a digit; and no uniform of every program has a name of that form. -/

namespace FxStack

/-! ### Digits at the end -/

theorem isDigit_of_mem_toString {n : Nat} {c : Char} (h : c ∈ (toString n).toList) : c.isDigit = true := by
  rw [Nat.toString_eq_repr, Nat.toList_repr] at h
  exact Nat.isDigit_of_mem_toDigits (by decide) (by decide) h

theorem toString_injective {m n : Nat} (h : (toString m).toList = (toString n).toList) : m = n := by
  rw [Nat.toString_eq_repr, Nat.toString_eq_repr, Nat.toList_repr, Nat.toList_repr] at h
  have hparsed := congrArg (fun digits => Nat.ofDigitChars 10 digits 0) h
  simpa using hparsed

theorem toList_toString_ne_nil (n : Nat) : (toString n).toList ≠ [] := by
  rw [Nat.toString_eq_repr, Nat.toList_repr]
  exact Nat.toDigits_ne_nil

theorem takeWhile_append_toString {cs : List Char} (h : cs.getLast?.any Char.isDigit = false) (i : Nat) :
    (cs ++ (toString i).toList).reverse.takeWhile Char.isDigit = (toString i).toList.reverse := by
  have hdigits : ∀ c ∈ (toString i).toList.reverse, c.isDigit = true := fun c hc =>
    isDigit_of_mem_toString (List.mem_reverse.mp hc)
  rw [List.reverse_append, List.takeWhile_append_of_pos hdigits]
  rw [← List.head?_reverse] at h
  cases hcs : cs.reverse with
  | nil => simp
  | cons c cs =>
    rw [hcs] at h
    rw [List.takeWhile_cons_of_neg (by simpa using h), List.append_nil]

/-- A text that does not end with a digit and a number behind it are told apart. -/
theorem append_toString_inj {as bs : List Char} (ha : as.getLast?.any Char.isDigit = false)
    (hb : bs.getLast?.any Char.isDigit = false) {i j : Nat}
    (h : as ++ (toString i).toList = bs ++ (toString j).toList) : as = bs ∧ i = j := by
  have hdigits : (toString i).toList.reverse = (toString j).toList.reverse := by
    rw [← takeWhile_append_toString ha, ← takeWhile_append_toString hb, h]
  obtain rfl := toString_injective (List.reverse_injective hdigits)
  exact ⟨List.append_cancel_right h, rfl⟩

namespace Uniform

theorem nameAt_inj {s t : Uniform} (hs : Effect.endsWithDigit s.baseName = false)
    (ht : Effect.endsWithDigit t.baseName = false) {i j : Nat} (h : s.nameAt i = t.nameAt j) :
    s.baseName = t.baseName ∧ i = j := by
  unfold nameAt at h
  have hlists := congrArg String.toList h
  rw [String.toList_append, String.toList_append] at hlists
  obtain ⟨hbase, rfl⟩ := append_toString_inj hs ht hlists
  exact ⟨String.toList_inj.mp hbase, rfl⟩

/-- Every name ends with the digits of a position. -/
theorem endsWithDigit_nameAt (s : Uniform) (i : Nat) : Effect.endsWithDigit (s.nameAt i) = true := by
  have hne := toList_toString_ne_nil i
  unfold Effect.endsWithDigit nameAt
  rw [String.toList_append, List.getLast?_append_of_ne_nil _ hne, List.getLast?_eq_some_getLast hne]
  exact isDigit_of_mem_toString (List.getLast_mem hne)

end Uniform

/-! ### Names of every program -/

namespace GlobalUniform

/-- The names that no effect declares. -/
def names : List String :=
  [texture, resolution, inverseResolution, aspect, random, depthTexture, depthRange]

theorem nodup_names : names.Nodup := by decide

theorem endsWithDigit_of_mem_names {n : String} (h : n ∈ names) : Effect.endsWithDigit n = false := by
  revert n
  decide

theorem nameAt_notMem_names (s : Uniform) (i : Nat) : s.nameAt i ∉ names := fun h => by
  have hdigit := endsWithDigit_of_mem_names h
  rw [Uniform.endsWithDigit_nameAt] at hdigit
  cases hdigit

end GlobalUniform
end FxStack
