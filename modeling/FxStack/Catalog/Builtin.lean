import FxStack.Catalog

/-!
# The built-in effects

The effects and functions that every program can use. In their code an at sign stands for the
position of the entry. Numbers are given as decimals.
-/

namespace FxStack

namespace Builtin

/-! ### Abbreviations -/

/-- The single nearest to `coefficient / 10 ^ places`. -/
def decimal (negative : Bool) (coefficient places : Nat) : Single :=
  .ofRatio negative coefficient (Nat.pow 10 places)

/-- Code in which an at sign stands for the position of the entry. -/
def code (s : String) : Template := .ofMarked '@' s

/-- A number with a default and the range and step of a slider. -/
def slider (baseName : String) (defaultValue min max step : Single) : Uniform :=
  { Uniform.plain baseName .float with
    defaultValue := some (.float defaultValue), min := some min, max := some max, step := some step }

def color (baseName : String) (r g b : Single) : Uniform :=
  { Uniform.plain baseName .vec3 with
    defaultValue := some (.vec3 r g b), widget := some "color" }

/-- A truth value that is true by default. -/
def switch (baseName : String) : Uniform :=
  { Uniform.plain baseName .bool with defaultValue := some (.bool true) }

/-- An effect under the name that is shown for it. -/
def effect (displayName : String) (uniforms : List (String × Uniform)) (c : Template) : Effect :=
  { Effect.ofCode c with displayName, uniforms := .ofList uniforms }

/-! ### Shared functions -/

def fxRand : String :=
  "float fx_rand(vec2 co) \x7b\n"
    ++ "    return fract(sin(dot(co, vec2(12.9898, 78.233))) * 43758.5453);\n"
    ++ "\x7d"

def fxBarrel : String :=
  "vec2 fx_barrel(vec2 uv, float k) \x7b\n"
    ++ "    vec2 c = uv - 0.5;\n"
    ++ "    float r2 = dot(c, c);\n"
    ++ "    return 0.5 + c * (1.0 + k * r2);\n"
    ++ "\x7d"

def fxLinearDepth : String :=
  "float fx_linear_depth(float z, vec2 range) \x7b\n"
    ++ "    float ndc = z * 2.0 - 1.0;\n"
    ++ "    return (2.0 * range.x * range.y) / (range.y + range.x - ndc * (range.y - range.x));\n"
    ++ "\x7d"

def fxSampleLut : String :=
  "vec3 fx_sample_lut(sampler2D lut, vec3 c) \x7b\n"
    ++ "    float b = c.b * 15.0;\n"
    ++ "    float lo = floor(b);\n"
    ++ "    float hi = min(lo + 1.0, 15.0);\n"
    ++ "    vec2 px = vec2(c.r * 15.0 + 0.5, c.g * 15.0 + 0.5) / vec2(256.0, 16.0);\n"
    ++ "    vec3 a = texture2D(lut, px + vec2(lo / 16.0, 0.0)).rgb;\n"
    ++ "    vec3 d = texture2D(lut, px + vec2(hi / 16.0, 0.0)).rgb;\n"
    ++ "    return mix(a, d, b - lo);\n"
    ++ "\x7d"

def fxRgb2hsv : String :=
  "vec3 fx_rgb2hsv(vec3 c) \x7b\n"
    ++ "    vec4 K = vec4(0.0, -1.0 / 3.0, 2.0 / 3.0, -1.0);\n"
    ++ "    vec4 p = mix(vec4(c.bg, K.wz), vec4(c.gb, K.xy), step(c.b, c.g));\n"
    ++ "    vec4 q = mix(vec4(p.xyw, c.r), vec4(c.r, p.yzx), step(p.x, c.r));\n"
    ++ "    float d = q.x - min(q.w, q.y);\n"
    ++ "    float e = 1.0e-10;\n"
    ++ "    return vec3(abs(q.z + (q.w - q.y) / (6.0 * d + e)), d / (q.x + e), q.x);\n"
    ++ "\x7d"

def fxHsv2rgb : String :=
  "vec3 fx_hsv2rgb(vec3 c) \x7b\n"
    ++ "    vec4 K = vec4(1.0, 2.0 / 3.0, 1.0 / 3.0, 3.0);\n"
    ++ "    vec3 p = abs(fract(c.xxx + K.xyz) * 6.0 - K.www);\n"
    ++ "    return c.z * mix(K.xxx, clamp(p - K.xxx, 0.0, 1.0), c.y);\n"
    ++ "\x7d"

def functions : KeyMap String := .ofList [
  ("fx_rand", fxRand),
  ("fx_barrel", fxBarrel),
  ("fx_linear_depth", fxLinearDepth),
  ("fx_sample_lut", fxSampleLut),
  ("fx_rgb2hsv", fxRgb2hsv),
  ("fx_hsv2rgb", fxHsv2rgb)]

/-! ### Effects -/

def brightnessContrast : Effect :=
  effect "Brightness / Contrast"
    [("brightness", slider "u_brightness" .zero (decimal true 1 0) .one (decimal false 1 2)),
      ("contrast", slider "u_contrast" .zero (decimal true 1 0) .one (decimal false 1 2))]
    (code ("color.rgb += u_brightness@;\n"
      ++ "if (u_contrast@ > 0.0) \x7b\n"
      ++ "    color.rgb = (color.rgb - 0.5) / (1.0 - u_contrast@) + 0.5;\n"
      ++ "\x7d else \x7b\n"
      ++ "    color.rgb = (color.rgb - 0.5) * (1.0 + u_contrast@) + 0.5;\n"
      ++ "\x7d"))

def invert : Effect :=
  effect "Invert"
    []
    (code ("color.rgb = vec3(1.0) - color.rgb;"))

def hueSaturation : Effect :=
  { effect "Hue / Saturation"
      [("hue", slider "u_hue" .zero (decimal true 1 0) .one (decimal false 1 2)),
        ("saturation", slider "u_saturation" .zero (decimal true 1 0) .one (decimal false 1 2))]
      (code ("vec3 hsv@ = fx_rgb2hsv(color.rgb);\n"
        ++ "hsv@.x = fract(hsv@.x + u_hue@);\n"
        ++ "hsv@.y = clamp(hsv@.y * (1.0 + u_saturation@), 0.0, 1.0);\n"
        ++ "color.rgb = fx_hsv2rgb(hsv@);")) with
    functions := ["fx_rgb2hsv", "fx_hsv2rgb"] }

def vignette : Effect :=
  effect "Vignette"
    [("amount", slider "u_vignette" (decimal false 5 1) .zero (decimal false 2 0) (decimal false 1 2)),
      ("softness", slider "u_vignette_softness" (decimal false 45 2) .zero .one (decimal false 1 2)),
      ("color", color "u_vignette_color" .zero .zero .zero)]
    (code ("float vig@ = smoothstep(0.8, 0.8 - u_vignette_softness@, center_dist * (1.0 + u_vignette@));\n"
      ++ "color.rgb = mix(u_vignette_color@, color.rgb, vig@);"))

def grain : Effect :=
  { effect "Film Grain"
      [("amount", slider "u_grain" (decimal false 8 2) .zero .one (decimal false 1 2))]
      (code ("color.rgb += (fx_rand(pixel + u_random * 1000.0) - 0.5) * u_grain@;")) with
    functions := ["fx_rand"] }

def dither : Effect :=
  { effect "Dither"
      [("levels",
          slider "u_dither_levels" (decimal false 8 0) (decimal false 2 0) (decimal false 256 0) .one),
        ("animated", switch "u_dither_animated")]
      (code ("vec2 seed@ = u_dither_animated@ ? pixel + u_random * 512.0 : pixel;\n"
        ++ "float noise@ = fx_rand(seed@) - 0.5;\n"
        ++ "color.rgb = floor(color.rgb * (u_dither_levels@ - 1.0) + 0.5 + noise@)"
        ++ " / (u_dither_levels@ - 1.0);")) with
    functions := ["fx_rand"] }

def fog : Effect :=
  { effect "Depth Fog"
      [("color", color "u_fog_color" (decimal false 7 1) (decimal false 75 2) (decimal false 8 1)),
        ("density", slider "u_fog_density" (decimal false 5 2) .zero .one (decimal false 1 3))]
      (code ("float fog_depth@ = fx_linear_depth(texture2D(u_depth_texture, uv).r, u_depth_range);\n"
        ++ "color.rgb = mix(color.rgb, u_fog_color@, 1.0 - exp(-u_fog_density@ * fog_depth@));")) with
    functions := ["fx_linear_depth"] }

def lut : Effect :=
  { effect "LUT Grading"
      [("texture", { Uniform.plain "u_lut" .sampler2D with clampToEdge := true }),
        ("intensity", slider "u_lut_intensity" .one .zero .one (decimal false 1 2))]
      (code ("vec3 graded@ = fx_sample_lut(u_lut@, clamp(color.rgb, 0.0, 1.0));\n"
        ++ "color.rgb = mix(color.rgb, graded@, u_lut_intensity@);")) with
    functions := ["fx_sample_lut"] }

def aberration : Effect :=
  { effect "Chromatic Aberration"
      [("amount", slider "u_aberration" (decimal false 5 3) .zero (decimal false 5 2) (decimal false 5 4))]
      (code ("vec2 ab_offset@ = center * u_aberration@;\n"
        ++ "color.r = texture2D(u_texture, uv + ab_offset@).r;\n"
        ++ "color.b = texture2D(u_texture, uv - ab_offset@).b;")) with
    breaksPass := true }

def lensDistortion : Effect :=
  { effect "Lens Distortion"
      [("strength", slider "u_lens_strength" (decimal false 2 1) (decimal true 1 0) .one (decimal false 1 2))]
      (code ("")) with
    uvCode := some (code (
      "uv = fx_barrel(uv, u_lens_strength@);")),
    functions := ["fx_barrel"],
    breaksPass := true }

def pixelate : Effect :=
  { effect "Pixelate"
      [("size", slider "u_pixel_size" (decimal false 8 0) .one (decimal false 128 0) .one),
        ("nearest_source", switch "u_pixel_snap")]
      (code ("")) with
    uvCode := some (code (
      "vec2 cells@ = u_resolution / max(u_pixel_size@, 1.0);\n"
        ++ "if (u_pixel_snap@) \x7b\n"
        ++ "    uv = (floor(uv * cells@) + 0.5) / cells@;\n"
        ++ "\x7d")),
    breaksPass := true }

def effects : KeyMap Effect := .ofList [
  ("brightness_contrast", brightnessContrast),
  ("invert", invert),
  ("hue_saturation", hueSaturation),
  ("vignette", vignette),
  ("grain", grain),
  ("dither", dither),
  ("fog", fog),
  ("lut", lut),
  ("aberration", aberration),
  ("lens_distortion", lensDistortion),
  ("pixelate", pixelate)]

end Builtin

def CatalogExtension.builtin : CatalogExtension := ⟨Builtin.functions, Builtin.effects⟩

def Catalog.builtin (id : CatalogId) : Except Error Catalog := (Catalog.empty id).extendWith .builtin

end FxStack
