import FxStack.Text.Lines

/-!
# Brackets

Whether the brackets of a program are well nested, comments aside.
-/

namespace FxStack

/-- The kinds of brackets. -/
inductive Bracket where
  | brace | paren | square
deriving DecidableEq

/-- How brackets fail to be well nested: a closing one does not fit, on a line counted from 1, or an
    opening one is never closed. -/
inductive BracketError where
  | unbalanced (line : Nat) (closer : Bracket)
  | unclosed (opener : Bracket)
deriving DecidableEq

namespace Bracket

def openChar : Bracket → Char
  | .brace => '\x7b'
  | .paren => '('
  | .square => '['

def closeChar : Bracket → Char
  | .brace => '\x7d'
  | .paren => ')'
  | .square => ']'

def all : List Bracket := [.brace, .paren, .square]

def ofOpenChar? (c : Char) : Option Bracket := all.find? (·.openChar = c)

def ofCloseChar? (c : Char) : Option Bracket := all.find? (·.closeChar = c)

end Bracket

namespace BracketError

def message : BracketError → String
  | .unbalanced line closer =>
    "line " ++ toString line ++ ": unbalanced `" ++ String.singleton closer.closeChar ++ "`"
  | .unclosed opener => "unclosed `" ++ String.singleton opener.openChar ++ "` at end of source"

end BracketError

namespace Brackets

/-- The brackets open after a line, innermost first, or the closing bracket that does not fit. -/
def scanLine (opened : List Bracket) : List Char → Except Bracket (List Bracket)
  | [] => .ok opened
  | c :: cs =>
    match Bracket.ofOpenChar? c, Bracket.ofCloseChar? c with
    | some b, _ => scanLine (b :: opened) cs
    | none, none => scanLine opened cs
    | none, some b =>
      match opened with
      | [] => .error b
      | o :: rest => if o = b then scanLine rest cs else .error b

/-- The brackets open after some lines, of which the first has number `line`. -/
def scanLines (line : Nat) (opened : List Bracket) :
    List (List Char) → Except BracketError (List Bracket)
  | [] => .ok opened
  | l :: ls =>
    match scanLine opened (Text.beforeComment l) with
    | .ok opened => scanLines (line + 1) opened ls
    | .error b => .error (.unbalanced line b)

/-- Whether the brackets of a text are well nested, its comments left out. -/
def check (text : List Char) : Except BracketError Unit :=
  match scanLines 1 [] (Text.lines text) with
  | .ok [] => .ok ()
  | .ok (b :: _) => .error (.unclosed b)
  | .error e => .error e

end Brackets

end FxStack
