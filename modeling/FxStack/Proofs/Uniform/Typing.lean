import FxStack.Uniform
import FxStack.Uniform.Binding

/-! Types of uniforms. A conversion gives a value of the type that was asked for, so what a uniform falls
    back to has its declared type, and a value that is no texture is bound with its own type. -/

namespace FxStack

namespace Value
variable {v w : Value} {t : ShaderType}

theorem type_zero (t : ShaderType) : (zero t).type = t := by cases t <;> rfl

theorem type_ofScalar {x : Single} (h : ofScalar x t = some w) : w.type = t := by
  cases t <;> cases h <;> rfl

theorem type_coerce (h : v.coerce t = some w) : w.type = t := by
  unfold coerce at h
  split at h
  case h_9 =>
    obtain ⟨x, -, hx⟩ := Option.bind_eq_some_iff.mp h
    exact type_ofScalar hx
  all_goals
    cases h
    rfl

end Value

namespace Uniform

/-- What a uniform falls back to has its type, whatever default is declared. -/
theorem type_fallback (s : Uniform) : s.fallback.type = s.type := by
  unfold fallback
  cases h : s.defaultValue.bind (·.coerce s.type) with
  | none => exact Value.type_zero s.type
  | some v =>
    obtain ⟨d, -, hd⟩ := Option.bind_eq_some_iff.mp h
    exact Value.type_coerce hd

/-- A declared default is what the uniform falls back to if it can be converted at all. -/
theorem coerce_eq_fallback {s : Uniform} {v : Value} (h : s.defaultValue = some v) :
    v.coerce s.type = some s.fallback ↔ (v.coerce s.type).isSome := by
  unfold fallback
  rw [h, Option.bind_some]
  cases v.coerce s.type <;> simp

end Uniform

namespace Binding

/-- The type of the variable that a binding is for. -/
def type : Binding → ShaderType
  | .bool _ => .bool
  | .int _ => .int
  | .float _ => .float
  | .vec2 .. => .vec2
  | .vec3 .. => .vec3
  | .vec4 .. => .vec4
  | .sampler .. => .sampler2D

theorem type_ofValue? {v : Value} {b : Binding} (h : ofValue? v = some b) : b.type = v.type := by
  cases v <;> cases h <;> rfl

theorem isSome_ofValue? {v : Value} (h : v.type.isSampler = false) : (ofValue? v).isSome = true := by
  cases v <;> first | rfl | cases h

end Binding
end FxStack
