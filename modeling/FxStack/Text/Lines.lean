import FxStack.Text.Blank

/-!
# Lines and runs

Cutting a text into lines and into the maximal runs of a class of characters.
-/

namespace FxStack.Text

/-! ### Lines -/

/-- The lines of a text. A line ends with a line feed, or with a carriage return and a line feed,
    which are not part of it; the last line may lack its end. -/
def lines : List Char → List (List Char)
  | [] => []
  | '\n' :: cs => [] :: lines cs
  | '\r' :: '\n' :: cs => [] :: lines cs
  | c :: cs =>
    match lines cs with
    | [] => [[c]]
    | l :: ls => (c :: l) :: ls

/-- The part of a line before the first two slashes in a row. -/
def beforeComment : List Char → List Char
  | [] => []
  | '/' :: '/' :: _ => []
  | c :: cs => c :: beforeComment cs

/-! ### Runs -/

/-- The maximal runs of characters that satisfy `p`, in order. -/
def runs (p : Char → Bool) : List Char → List (List Char)
  | [] => []
  | c :: cs =>
    if p c then
      match cs.head?.any p, runs p cs with
      | true, r :: rs => (c :: r) :: rs
      | _, rs => [c] :: rs
    else runs p cs

/-- The words of a text: its maximal runs without blanks. -/
def words (cs : List Char) : List (List Char) := runs (fun c => !isBlank c) cs

/-! ### Parts -/

/-- Whether `part` occurs in a text without a gap. -/
def occursIn (part : List Char) : List Char → Bool
  | [] => part.isEmpty
  | c :: cs => part.isPrefixOf (c :: cs) || occursIn part cs

/-- The text after `start`, if it starts so. -/
def afterStart? : List Char → List Char → Option (List Char)
  | [], cs => some cs
  | _ :: _, [] => none
  | s :: start, c :: cs => if s = c then afterStart? start cs else none

end FxStack.Text
