import FxStack.Proofs.Catalog.Update
import FxStack.Proofs.Uniform.Typing

/-! What an effect declares. Validation accepts the effects whose uniforms have names of their own that programs may
    declare and defaults that fit, so every effect of a catalog is one of these, and each of its uniforms falls back to a
    value of the declared type. Main statement: `Catalog.stored_wellFormed`. -/

namespace FxStack

/-! ### Names -/

theorem Text.afterStart?_eq_none {start cs : List Char} : afterStart? start cs = none ↔ ¬start <+: cs := by
  induction start generalizing cs with
  | nil => simp [afterStart?]
  | cons s start ih =>
    cases cs with
    | nil => simp [afterStart?]
    | cons c cs =>
      rw [afterStart?, List.cons_prefix_cons]
      by_cases h : s = c
      · simp [h, ih]
      · simp [h]

namespace Effect

/-- A name that programs may declare: a letter or low line in front, then letters, digits and low lines, but not `gl_`
    in front. -/
def Declarable (s : String) : Prop :=
  ∃ c cs, s.toList = c :: cs ∧ (c.isAlpha = true ∨ c = '_') ∧ (∀ d ∈ cs, d.isAlphanum = true ∨ d = '_') ∧
    ¬['g', 'l', '_'] <+: s.toList

theorem isIdentifier_iff {s : String} : isIdentifier s = true ↔ Declarable s := by
  unfold isIdentifier Declarable
  cases s.toList with
  | nil => simp
  | cons c cs =>
    simp only [Bool.and_eq_true, Bool.or_eq_true, decide_eq_true_eq, List.all_eq_true, Option.isNone_iff_eq_none,
      Text.afterStart?_eq_none, List.cons.injEq]
    constructor
    · rintro ⟨⟨hc, hcs⟩, hstart⟩
      exact ⟨c, cs, ⟨rfl, rfl⟩, hc, hcs, hstart⟩
    · rintro ⟨_, _, ⟨rfl, rfl⟩, hc, hcs, hstart⟩
      exact ⟨⟨hc, hcs⟩, hstart⟩

theorem endsWithDigit_eq_false {s : String} :
    endsWithDigit s = false ↔ ∀ c, s.toList.getLast? = some c → c.isDigit = false := by
  unfold endsWithDigit
  cases s.toList.getLast? <;> simp

/-! ### Uniforms -/

/-- What the uniforms of an effect declare: no key is that of the name of a saved entry, base names are declarable, differ
    and do not end with a digit, and values without override have the declared type and are the default if there is one. -/
structure WellFormed (e : Effect) : Prop where
  keys : ∀ u ∈ e.uniforms.toList, u.1 ≠ "name"
  distinct : (e.uniforms.toList.map (·.2.baseName)).Nodup
  declarable : ∀ u ∈ e.uniforms.toList, Declarable u.2.baseName
  digits : ∀ u ∈ e.uniforms.toList, ∀ c, u.2.baseName.toList.getLast? = some c → c.isDigit = false
  typed : ∀ u ∈ e.uniforms.toList, u.2.fallback.type = u.2.type
  defaults : ∀ u ∈ e.uniforms.toList, ∀ v, u.2.defaultValue = some v → v.coerce u.2.type = some u.2.fallback

theorem valid_iff {e : Effect} : e.Valid ↔ e.WellFormed := by
  constructor
  · intro h
    exact ⟨h.keys, h.distinct, fun u hu => isIdentifier_iff.mp (h.identifiers u hu),
      fun u hu => endsWithDigit_eq_false.mp (h.digits u hu), fun u _ => u.2.type_fallback,
      fun u hu v hv => (Uniform.coerce_eq_fallback hv).mpr (h.defaults u hu v hv)⟩
  · intro h
    exact ⟨h.keys, fun u hu => isIdentifier_iff.mpr (h.declarable u hu),
      fun u hu => endsWithDigit_eq_false.mpr (h.digits u hu),
      fun u hu v hv => (Uniform.coerce_eq_fallback hv).mp (h.defaults u hu v hv), h.distinct⟩

theorem displayName_named {e : Effect} {name : String} (h : (e.named name).displayName = "") : name = "" := by
  have hshown : (if e.displayName.isEmpty then name else e.displayName) = "" := h
  by_cases he : e.displayName.isEmpty
  · rwa [if_pos he] at hshown
  · rw [if_neg he] at hshown
    rw [hshown] at he
    exact absurd rfl he

end Effect

namespace Catalog

/-- Whatever a call answers, the catalog that it leaves can be made. -/
theorem Built.call {c c' : Catalog} (h : c.Built) {k : Call}
    (hk : k.update.run c = .ok () c' ∨ ∃ error, k.update.run c = .error error c') : c'.Built := by
  rcases hk with hk | ⟨error, hk⟩
  · have happly := Call.run_eq_ok.mp hk
    cases k with
    | extend text => exact h.extend happly
    | register name e =>
      obtain ⟨old, hr⟩ := map_register_eq_ok happly
      exact .register h hr
    | registerFunction name body =>
      cases happly
      exact .registerFunction name body h
  · rwa [(Call.run_eq_error.mp hk).2]

/-- Calls in place lead from catalogs that can be made to such catalogs, failing ones as well. Every effect of such a
    catalog is kept under its name, has a name that is shown unless its name is empty, and is well formed; and a catalog
    accepts an effect if and only if it is. -/
theorem stored_wellFormed :
    (∀ (c c' : Catalog) (k : Call), c.Built →
      (k.update.run c = .ok () c' ∨ ∃ error, k.update.run c = .error error c') → c'.Built) ∧
    (∀ c : Catalog, c.Built → ∀ name e, c.effect? name = some e →
      e.name = name ∧ (e.displayName = "" → name = "") ∧ e.WellFormed) ∧
    ∀ (c : Catalog) (name : String) (e : Effect), e.WellFormed ↔ ∃ old c', c.register name e = .ok (old, c') := by
  refine ⟨fun c c' k hc hk => hc.call hk, fun c hc name e he => ?_, fun c name e => ?_⟩
  · obtain ⟨d, hd, rfl⟩ := hc.registered name e he
    exact ⟨rfl, Effect.displayName_named, Effect.valid_iff.mp (hd.named name)⟩
  · rw [← Effect.valid_iff]
    constructor
    · intro h
      exact ⟨_, _, register_eq_ok.mpr ⟨h, rfl, rfl⟩⟩
    · rintro ⟨old, c', h⟩
      exact (register_eq_ok.mp h).1

/-- An effect with an integer as the default of a vector. -/
def tinted : Effect :=
  { Effect.ofCode .empty with
    uniforms := .ofList [("tint", { Uniform.plain "u_tint" .vec2 with defaultValue := some (.int 3) })] }

theorem stored_wellFormed_tinted :
    ∃ c : Catalog, (Call.register "tint" tinted).update.run (.empty ⟨0⟩) = .ok () c ∧
      (c.Built ∧ c.effect? "tint" = some (tinted.named "tint") ∧ (tinted.named "tint").name = "tint" ∧
        ((tinted.named "tint").displayName = "" → "tint" = "") ∧ (tinted.named "tint").WellFormed) ∧
      tinted.WellFormed ∧ ∃ old c', c.register "shade" tinted = .ok (old, c') := by
  have wellFormed : tinted.WellFormed := Effect.valid_iff.mp (Effect.validate_eq_ok.mp rfl)
  obtain ⟨old, c, hc⟩ := (stored_wellFormed.2.2 (.empty ⟨0⟩) "tint" tinted).mp wellFormed
  have run : (Call.register "tint" tinted).update.run (.empty ⟨0⟩) = .ok () c :=
    Call.run_eq_ok.mpr (congrArg (Except.map Prod.snd) hc)
  have built : c.Built := stored_wellFormed.1 (.empty ⟨0⟩) c _ (.empty ⟨0⟩) (.inl run)
  have kept : c.effect? "tint" = some (tinted.named "tint") := by
    obtain ⟨-, -, rfl⟩ := register_eq_ok.mp hc
    rfl
  exact ⟨c, run, ⟨built, kept, stored_wellFormed.2.1 c built "tint" _ kept⟩, wellFormed,
    (stored_wellFormed.2.2 c "shade" tinted).mp wellFormed⟩

end Catalog
end FxStack
