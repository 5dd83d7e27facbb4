import FxStack.Text.Lines

/-!
# Active uniforms

A uniform is active in a program if its name occurs besides its declaration.
-/

namespace FxStack.ActiveUniforms

def isNameChar (c : Char) : Bool := c.isAlphanum || c = '_'

def tokens (text : List Char) : List (List Char) := Text.runs isNameChar text

def keyword : List Char := ['u', 'n', 'i', 'f', 'o', 'r', 'm', ' ']

/-- The name that a line declares, if it declares a uniform. -/
def declared? (line : List Char) : Option (List Char) := do
  let rest ← Text.afterStart? keyword (Text.trim line)
  let rest := ((Text.trimEnd rest).reverse.dropWhile (· = ';')).reverse
  (Text.words rest).getLast?

def ofText (text : List Char) : List String :=
  let tokens := tokens text
  ((Text.lines text).filterMap declared?).filterMap fun name =>
    if 1 < tokens.count name then some (String.ofList name) else none

end FxStack.ActiveUniforms
