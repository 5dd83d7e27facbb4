import FxStack.Json.Basic

/-!
# Writing JSON text

The compact form has no blanks; the indented form has each item and each member on a line of its own,
two spaces deeper than what holds it. What is broken is written as far as it goes.
-/

namespace FxStack

namespace Json

/-! ### Strings and scalars -/

/-- The characters that stand for `c` in a JSON string. -/
def stringChar (c : Char) : List Char :=
  if c = '"' then ['\\', '"']
  else if c = '\\' then ['\\', '\\']
  else if c = '\x08' then ['\\', 'b']
  else if c = '\x0c' then ['\\', 'f']
  else if c = '\n' then ['\\', 'n']
  else if c = '\r' then ['\\', 'r']
  else if c = '\t' then ['\\', 't']
  else if c.toNat < 0x20 then
    ['\\', 'u', '0', '0', Nat.digitChar (c.toNat / 16), Nat.digitChar (c.toNat % 16)]
  else [c]

def stringText (s : String) : List Char := '"' :: s.toList.flatMap stringChar ++ ['"']

/-- The JSON value of a single; those that are not finite are written as null. -/
def ofSingle (x : Single) : Json := if x.isFinite then .number x.jsonNumeral else .null

/-! ### Compact form -/

mutual

def compactChars : Json → List Char
  | .null => ['n', 'u', 'l', 'l']
  | .bool true => ['t', 'r', 'u', 'e']
  | .bool false => ['f', 'a', 'l', 's', 'e']
  | .number n => n.text .always
  | .string s => stringText s
  | .garbled => stringText ""
  | .array .done => ['[', ']']
  | .array is => '[' :: compactItems is
  | .object .done => ['\x7b', '\x7d']
  | .object ms => '\x7b' :: compactMembers ms
  | .broken _ => []

def compactItems : Items → List Char
  | .done => [']']
  | .item j .done => compactChars j ++ [']']
  | .item j rest => compactChars j ++ ',' :: compactItems rest
  | .cut _ => []

def compactMembers : Members → List Char
  | .done => ['\x7d']
  | .member k j .done => stringText (k.getD "") ++ ':' :: compactChars j ++ ['\x7d']
  | .member k j rest => stringText (k.getD "") ++ ':' :: compactChars j ++ ',' :: compactMembers rest
  | .cut _ | .noKey _ _ => []

end

def compact (j : Json) : String := String.ofList (compactChars j)

/-! ### Indented form -/

/-- A new line at depth `depth`. -/
def newline (depth : Nat) : List Char := '\n' :: List.replicate (2 * depth) ' '

mutual

/-- The indented form of a tree that starts at depth `depth`. -/
def prettyChars (depth : Nat) : Json → List Char
  | .null => ['n', 'u', 'l', 'l']
  | .bool true => ['t', 'r', 'u', 'e']
  | .bool false => ['f', 'a', 'l', 's', 'e']
  | .number n => n.text .always
  | .string s => stringText s
  | .garbled => stringText ""
  | .array .done => ['[', ']']
  | .array is => '[' :: prettyItems (depth + 1) is
  | .object .done => ['\x7b', '\x7d']
  | .object ms => '\x7b' :: prettyMembers (depth + 1) ms
  | .broken _ => []

/-- Items at depth `depth` with the bracket that closes them. -/
def prettyItems (depth : Nat) : Items → List Char
  | .done => [']']
  | .item j .done => newline depth ++ prettyChars depth j ++ newline (depth - 1) ++ [']']
  | .item j rest => newline depth ++ prettyChars depth j ++ ',' :: prettyItems depth rest
  | .cut _ => []

/-- Members at depth `depth` with the brace that closes them. -/
def prettyMembers (depth : Nat) : Members → List Char
  | .done => ['\x7d']
  | .member k j .done =>
    newline depth ++ stringText (k.getD "") ++ ':' :: ' ' :: prettyChars depth j
      ++ newline (depth - 1) ++ ['\x7d']
  | .member k j rest =>
    newline depth ++ stringText (k.getD "") ++ ':' :: ' ' :: prettyChars depth j
      ++ ',' :: prettyMembers depth rest
  | .cut _ | .noKey _ _ => []

end

def pretty (j : Json) : String := String.ofList (prettyChars 0 j)

end Json

end FxStack
