import FxStack.Pass

/-!
# Program text

The text of a fragment program: fixed declarations, the uniforms and the shared functions of a pass,
and a main function in which the code of the members stands. Effect code sees the sampling coordinate
`uv`, its offset `center` and distance `center_dist` from the center of the screen, its place `pixel`
in pixels, and the sampled color `color`.
-/

namespace FxStack

/-! ### Uniforms of every program -/

namespace GlobalUniform

def texture : String := "u_texture"
def depthTexture : String := "u_depth_texture"
def resolution : String := "u_resolution"
def inverseResolution : String := "u_inv_resolution"
def aspect : String := "u_aspect"
def depthRange : String := "u_depth_range"
def random : String := "u_random"

def inputUnit : Nat := 0

def depthUnit : Nat := 1

/-- The first texture unit of the textures of effects. -/
def firstEffectUnit : Nat := 2

end GlobalUniform

namespace Program

/-! ### Passes -/

/-- The text before the uniforms of a pass. -/
def preamble : String :=
  "#extension GL_OES_standard_derivatives : enable\n"
    ++ "precision highp float;\n"
    ++ "\n"
    ++ "uniform sampler2D u_texture;\n"
    ++ "uniform sampler2D u_depth_texture;\n"
    ++ "uniform vec2 u_resolution;\n"
    ++ "uniform vec2 u_inv_resolution;\n"
    ++ "uniform float u_aspect;\n"
    ++ "uniform vec2 u_depth_range;\n"
    ++ "uniform vec2 u_random;\n"
    ++ "\n"
    ++ "varying vec2 v_coord;\n"

/-- The main function up to the code that changes the coordinate. -/
def mainStart : String :=
  "\nvoid main() \x7b\n"
    ++ "    vec2 uv = v_coord;\n"
    ++ "    vec2 center = uv - vec2(0.5);\n"
    ++ "    float center_dist = length(center * vec2(u_aspect, 1.0));\n"
    ++ "    vec2 pixel = uv * u_resolution;\n"

def sampleLine : String := "    vec4 color = texture2D(u_texture, uv);\n"

def mainEnd : String := "    gl_FragColor = color;\n\x7d\n"

/-- A line of code with four spaces in front, unless it is blank. -/
def indentLine (line : List Char) : List Char :=
  if (Text.trim line).isEmpty then ['\n'] else [' ', ' ', ' ', ' '] ++ line ++ ['\n']

def indent (code : String) : String := String.ofList ((Text.lines code.toList).flatMap indentLine)

/-- The declarations of a pass after an empty line, if there are any. -/
def declarationText (declarations : List String) : String :=
  if declarations.isEmpty then "" else "\n" ++ String.join (declarations.map (· ++ "\n"))

/-- A shared function after an empty line. -/
def functionText (f : SharedFunction) : String :=
  "\n" ++ String.ofList (Text.trimEnd f.body.toList) ++ "\n"

def ofPass (p : Pass) : String :=
  preamble ++ declarationText p.declarations ++ String.join (p.functions.map functionText)
    ++ mainStart ++ indent p.uvCode ++ sampleLine ++ indent p.colorCode ++ mainEnd

/-- The label under which the program of the pass with number `index` is compiled. -/
def label (index : Nat) (p : Pass) : String :=
  "fx_pass_" ++ toString index ++ "[" ++ ",".intercalate p.effectNames ++ "]"

/-! ### Antialiasing -/

def antialiasLabel : String := "fx_antialias"

/-- The text of the program that smooths edges on the way to the destination. -/
def antialias : String :=
  "#extension GL_OES_standard_derivatives : enable\n"
    ++ "precision highp float;\n"
    ++ "\n"
    ++ "uniform sampler2D u_texture;\n"
    ++ "uniform vec2 u_inv_resolution;\n"
    ++ "\n"
    ++ "varying vec2 v_coord;\n"
    ++ "\n"
    ++ "void main() \x7b\n"
    ++ "    vec3 luma = vec3(0.299, 0.587, 0.114);\n"
    ++ "    vec3 rgb_m = texture2D(u_texture, v_coord).rgb;\n"
    ++ "    vec3 rgb_nw = texture2D(u_texture, v_coord + vec2(-1.0, -1.0) * u_inv_resolution).rgb;\n"
    ++ "    vec3 rgb_ne = texture2D(u_texture, v_coord + vec2(1.0, -1.0) * u_inv_resolution).rgb;\n"
    ++ "    vec3 rgb_sw = texture2D(u_texture, v_coord + vec2(-1.0, 1.0) * u_inv_resolution).rgb;\n"
    ++ "    vec3 rgb_se = texture2D(u_texture, v_coord + vec2(1.0, 1.0) * u_inv_resolution).rgb;\n"
    ++ "    float l_nw = dot(rgb_nw, luma);\n"
    ++ "    float l_ne = dot(rgb_ne, luma);\n"
    ++ "    float l_sw = dot(rgb_sw, luma);\n"
    ++ "    float l_se = dot(rgb_se, luma);\n"
    ++ "    float l_m = dot(rgb_m, luma);\n"
    ++ "    float l_min = min(l_m, min(min(l_nw, l_ne), min(l_sw, l_se)));\n"
    ++ "    float l_max = max(l_m, max(max(l_nw, l_ne), max(l_sw, l_se)));\n"
    ++ "    vec2 dir = vec2(-((l_nw + l_ne) - (l_sw + l_se)), (l_nw + l_sw) - (l_ne + l_se));\n"
    ++ "    float reduce = max((l_nw + l_ne + l_sw + l_se) * 0.03125, 0.0078125);\n"
    ++ "    float rcp = 1.0 / (min(abs(dir.x), abs(dir.y)) + reduce);\n"
    ++ "    dir = clamp(dir * rcp, vec2(-8.0), vec2(8.0)) * u_inv_resolution;\n"
    ++ "    vec3 rgb_a = 0.5 * (texture2D(u_texture, v_coord + dir * (1.0 / 3.0 - 0.5)).rgb\n"
    ++ "        + texture2D(u_texture, v_coord + dir * (2.0 / 3.0 - 0.5)).rgb);\n"
    ++ "    vec3 rgb_b = rgb_a * 0.5 + 0.25 * (texture2D(u_texture, v_coord - dir * 0.5).rgb\n"
    ++ "        + texture2D(u_texture, v_coord + dir * 0.5).rgb);\n"
    ++ "    float l_b = dot(rgb_b, luma);\n"
    ++ "    vec3 rgb = (l_b < l_min || l_b > l_max) ? rgb_a : rgb_b;\n"
    ++ "    gl_FragColor = vec4(rgb, texture2D(u_texture, v_coord).a);\n"
    ++ "\x7d\n"

end Program

end FxStack
