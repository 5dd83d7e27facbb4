import FxStack.Text.Blank

/-!
# Code templates

A template is code with places where the position of an entry is written. In source form such a place
is a dollar sign and the name `id` in braces, and two dollar signs stand for one; every other use of a
dollar sign is refused with the byte at which it stands.
-/

namespace FxStack

/-! ### Templates -/

/-- A part of a template: text that is kept, or the place of a position. -/
inductive Segment where
  | text (chars : List Char)
  | position
deriving DecidableEq

/-- Code with places for the position of an entry. -/
structure Template where
  segments : List Segment
deriving DecidableEq

/-- Why a source form is refused, with the byte offset of the dollar sign at fault. -/
inductive TemplateError where
  | unknownParameter (name : String) (offset : Nat)
  | unterminated (offset : Nat)
  | strayDollar (offset : Nat)
deriving DecidableEq

def TemplateError.message : TemplateError → String
  | .unknownParameter name offset =>
    "unknown substitution `$\x7b" ++ name ++ "\x7d` at byte " ++ toString offset
  | .unterminated offset => "unterminated substitution at byte " ++ toString offset
  | .strayDollar offset =>
    "stray `$` at byte " ++ toString offset ++ " (write `$$` for a literal dollar)"

namespace Template

def empty : Template := ⟨[]⟩

instance : Inhabited Template := ⟨empty⟩

def isEmpty (t : Template) : Bool := t.segments.isEmpty

def isInstanced (t : Template) : Bool := t.segments.any (· = .position)

/-! ### Instances -/

/-- What a segment reads at position `i`. -/
def expand (i : Nat) : Segment → List Char
  | .text cs => cs
  | .position => Nat.toDigits 10 i

/-- The code of the entry at position `i`. -/
def instantiate (t : Template) (i : Nat) : String := String.ofList (t.segments.flatMap (expand i))

/-! ### Source form -/

def parameter : List Char := ['i', 'd']

def sourceChar (c : Char) : List Char := if c = '$' then ['$', '$'] else [c]

def sourceOfSegment : Segment → List Char
  | .text cs => cs.flatMap sourceChar
  | .position => '$' :: '\x7b' :: parameter ++ ['\x7d']

def source (t : Template) : String := String.ofList (t.segments.flatMap sourceOfSegment)

/-! ### Reading -/

/-- What a source form says, one character or position at a time. -/
inductive Item where
  | char (c : Char)
  | position
deriving DecidableEq

/-- The items of a source form that starts at byte `offset`. Inside a substitution `opened` is the
    byte of its dollar sign and its name so far, last character first. -/
def readItems (offset : Nat) (opened : Option (Nat × List Char)) :
    List Char → Except TemplateError (List Item)
  | [] =>
    match opened with
    | none => .ok []
    | some (start, _) => .error (.unterminated start)
  | c :: cs =>
    match opened with
    | some (start, name) =>
      if c = '\x7d' then
        let name := Text.trim name.reverse
        if name = parameter then (readItems (offset + 1) none cs).map (.position :: ·)
        else .error (.unknownParameter (String.ofList name) start)
      else readItems (offset + c.utf8Size) (some (start, c :: name)) cs
    | none =>
      if c = '$' then
        match cs with
        | '$' :: rest => (readItems (offset + 2) none rest).map (.char '$' :: ·)
        | '\x7b' :: rest => readItems (offset + 2) (some (offset, [])) rest
        | _ => .error (.strayDollar offset)
      else (readItems (offset + c.utf8Size) none cs).map (.char c :: ·)

def consChar (c : Char) : List Segment → List Segment
  | .text cs :: rest => .text (c :: cs) :: rest
  | rest => .text [c] :: rest

/-- The template of a list of items, in which texts are as long as they can be. -/
def ofItems (items : List Item) : Template :=
  ⟨items.foldr (fun item rest =>
    match item with
    | .char c => consChar c rest
    | .position => .position :: rest) []⟩

def parse (s : String) : Except TemplateError Template := (readItems 0 none s.toList).map ofItems

/-- The template of a text in which `mark` stands for the position and a dollar sign for itself. -/
def ofMarked (mark : Char) (s : String) : Template :=
  ofItems (s.toList.map fun c => if c = mark then .position else .char c)

end Template

end FxStack
