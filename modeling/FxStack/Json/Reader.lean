import FxStack.Json.Basic

/-!
# Reading JSON text

Every text is read into a tree. Blanks between tokens are spaces, tabs, line feeds and carriage
returns.
-/

namespace FxStack.Json

/-! ### Blanks and words -/

def isBlank (c : Char) : Bool := c = ' ' || c = '\n' || c = '\t' || c = '\r'

def skipBlanks (cs : List Char) : List Char := cs.dropWhile isBlank

/-- The value `j` if the text goes on with the rest of its word, and the text after it. -/
def readWord (j : Json) : List Char → List Char → Json × List Char
  | [], cs => (j, cs)
  | _ :: _, [] => (.broken (.word .truncated), [])
  | w :: ws, c :: cs => if w = c then readWord j ws cs else (.broken (.word .malformed), [])

/-! ### Numerals -/

/-- The digits at the start of a text, and the text after them. -/
def spanDigits : List Char → List Digit × List Char
  | [] => ([], [])
  | c :: cs =>
    match Digit.ofChar? c with
    | some d => let (ds, rest) := spanDigits cs; (d :: ds, rest)
    | none => ([], c :: cs)

/-- The fault of a numeral that lacks a digit where `rest` begins. -/
def digitDue (rest : List Char) : Broken :=
  .numeral (if rest.isEmpty then .truncated else .malformed) .malformed

/-- The digits after the point, none if there is no point, and the text after them. -/
def readFraction : List Char → Except Broken (List Digit × List Char)
  | '.' :: cs =>
    match spanDigits cs with
    | ([], rest) => .error (digitDue rest)
    | (ds, rest) => .ok (ds, rest)
  | cs => .ok ([], cs)

/-- The sign at the start of an exponent, and the text after it. -/
def readExponentSign : List Char → Bool × List Char
  | '+' :: cs => (false, cs)
  | '-' :: cs => (true, cs)
  | cs => (false, cs)

/-- The exponent, if there is one, and the text after it. -/
def readExponent : List Char → Except Broken (Option Int × List Char)
  | [] => .ok (none, [])
  | c :: cs =>
    if c = 'e' ∨ c = 'E' then
      let (negative, cs) := readExponentSign cs
      match spanDigits cs with
      | ([], rest) => .error (digitDue rest)
      | (ds, rest) =>
        .ok (some (if negative then -(Digit.value ds : Int) else Digit.value ds), rest)
    else .ok (none, c :: cs)

/-- The numeral whose sign has been read. A number of several digits does not start with 0. -/
def readNumeral (negative : Bool) (cs : List Char) : Except Broken (Numeral × List Char) :=
  match spanDigits cs with
  | ([], rest) => .error (digitDue rest)
  | (d :: ds, rest) =>
    if d.val = 0 ∧ ¬ds.isEmpty then .error (.numeral .malformed .malformed)
    else do
      let (fraction, rest) ← readFraction rest
      let (exponent, rest) ← readExponent rest
      return (⟨negative, Digit.value (d :: ds), fraction, exponent⟩, rest)

/-! ### Strings -/

/-- What a string reads as: its characters, `none` if it is closed but garbled. -/
inductive StringRead where
  | closed (s : Option String)
  | broken (kept skipped : Break)

/-- Where a reader stands inside a string: between characters, after a backslash, or after some hex
    digits of an escape, whose number and value so far are given. -/
inductive StringPlace where
  | plain
  | backslash
  | hex (count value : Nat)

def escapedChar? (c : Char) : Option Char :=
  if c = '"' ∨ c = '\\' ∨ c = '/' then some c
  else if c = 'b' then some '\x08'
  else if c = 'f' then some '\x0c'
  else if c = 'n' then some '\n'
  else if c = 'r' then some '\r'
  else if c = 't' then some '\t'
  else none

def hexDigit? (c : Char) : Option Nat :=
  let n := c.toNat
  if '0'.toNat ≤ n ∧ n ≤ '9'.toNat then some (n - '0'.toNat)
  else if 'a'.toNat ≤ n ∧ n ≤ 'f'.toNat then some (n - 'a'.toNat + 10)
  else if 'A'.toNat ≤ n ∧ n ≤ 'F'.toNat then some (n - 'A'.toNat + 10)
  else none

/-- Whether a code unit is the first half of a surrogate pair. -/
def isLead (unit : Nat) : Bool := 0xd800 ≤ unit && unit ≤ 0xdbff

/-- Whether a code unit is the second half of a surrogate pair. -/
def isTrail (unit : Nat) : Bool := 0xdc00 ≤ unit && unit ≤ 0xdfff

/-- The characters read so far, last one first, and the first half of a surrogate pair that waits
    for its second half. The characters are `none` once the string is garbled. -/
structure StringState where
  chars : Option (List Char)
  lead : Option Nat

namespace StringState

def start : StringState := ⟨some [], none⟩

/-- After a character that is no second half of a pair. -/
def push (s : StringState) (c : Char) : StringState :=
  ⟨if s.lead.isSome then none else s.chars.map (c :: ·), none⟩

/-- After the code unit of an escape. -/
def pushUnit (s : StringState) (unit : Nat) : StringState :=
  match s.lead with
  | some lead =>
    if isTrail unit then
      ⟨s.chars.map (Char.ofNat ((lead - 0xd800) * 0x400 + (unit - 0xdc00) + 0x10000) :: ·), none⟩
    else ⟨none, none⟩
  | none =>
    if isLead unit then ⟨s.chars, some unit⟩
    else if isTrail unit then ⟨none, none⟩
    else ⟨s.chars.map (Char.ofNat unit :: ·), none⟩

def close (s : StringState) : StringRead :=
  .closed (if s.lead.isSome then none else s.chars.map fun cs => String.ofList cs.reverse)

/-- The string broken here by `fault`, before which the kept string may have been garbled. -/
def broken (s : StringState) (fault : Break) : StringRead :=
  .broken (if s.chars.isNone then .malformed else fault) fault

end StringState

/-- The number of bytes that a text takes up. -/
def byteLength (cs : List Char) : Nat := (String.ofList cs).utf8ByteSize

/-- The string whose opening quote has been read, and the text after it. An escape with four hex
    digits is cut short if fewer than four bytes are left for them. -/
def readString (s : StringState) (place : StringPlace) : List Char → StringRead × List Char
  | [] => (s.broken .truncated, [])
  | c :: cs =>
    match place with
    | .plain =>
      if c = '"' then (s.close, cs)
      else if c = '\\' then readString s .backslash cs
      else if c.toNat < 0x20 then (s.broken .malformed, [])
      else readString (s.push c) .plain cs
    | .backslash =>
      if c = 'u' then readString s (.hex 0 0) cs
      else
        match escapedChar? c with
        | some d => readString (s.push d) .plain cs
        | none => (s.broken .malformed, [])
    | .hex count value =>
      match hexDigit? c with
      | some d =>
        if count < 3 then readString s (.hex (count + 1) (16 * value + d)) cs
        else readString (s.pushUnit (16 * value + d)) .plain cs
      | none =>
        (s.broken (if count + byteLength (c :: cs) < 4 then .truncated else .malformed), [])

/-! ### Values -/

mutual

/-- The value at the start of a text, and the text after it. -/
def readValue : Nat → List Char → Json × List Char
  | 0, _ => (.broken .missing, [])
  | fuel + 1, cs =>
    match skipBlanks cs with
    | [] => (.broken .missing, [])
    | c :: rest =>
      if c = 'n' then readWord .null ['u', 'l', 'l'] rest
      else if c = 't' then readWord (.bool true) ['r', 'u', 'e'] rest
      else if c = 'f' then readWord (.bool false) ['a', 'l', 's', 'e'] rest
      else if c = '"' then
        match readString .start .plain rest with
        | (.closed (some s), rest) => (.string s, rest)
        | (.closed none, rest) => (.garbled, rest)
        | (.broken kept skipped, rest) => (.broken (.string kept skipped), rest)
      else if c = '[' then
        let (items, rest) := readItems fuel rest
        (.array items, rest)
      else if c = '\x7b' then
        let (members, rest) := readMembers fuel rest
        (.object members, rest)
      else if c = '-' ∨ (Digit.ofChar? c).isSome then
        match readNumeral (c = '-') (if c = '-' then rest else c :: rest) with
        | .ok (n, rest) => (.number n, rest)
        | .error b => (.broken b, [])
      else (.broken .stray, [])

/-- The items after an opening bracket. -/
def readItems : Nat → List Char → Items × List Char
  | 0, _ => (.cut .truncated, [])
  | fuel + 1, cs =>
    match skipBlanks cs with
    | [] => (.cut .truncated, [])
    | c :: rest =>
      if c = ']' then (.done, rest)
      else
        let (head, rest) := readValue fuel (c :: rest)
        let (tail, rest) := readMoreItems fuel rest
        (.item head tail, rest)

/-- The items after an item. -/
def readMoreItems : Nat → List Char → Items × List Char
  | 0, _ => (.cut .truncated, [])
  | fuel + 1, cs =>
    match skipBlanks cs with
    | [] => (.cut .truncated, [])
    | c :: rest =>
      if c = ']' then (.done, rest)
      else if c = ',' then
        let (head, rest) := readValue fuel rest
        let (tail, rest) := readMoreItems fuel rest
        (.item head tail, rest)
      else (.cut .malformed, [])

/-- The members after an opening brace. -/
def readMembers : Nat → List Char → Members × List Char
  | 0, _ => (.cut .truncated, [])
  | fuel + 1, cs =>
    match skipBlanks cs with
    | [] => (.cut .truncated, [])
    | c :: rest => if c = '\x7d' then (.done, rest) else readMember fuel (c :: rest)

/-- The members after a member. -/
def readMoreMembers : Nat → List Char → Members × List Char
  | 0, _ => (.cut .truncated, [])
  | fuel + 1, cs =>
    match skipBlanks cs with
    | [] => (.cut .truncated, [])
    | c :: rest =>
      if c = '\x7d' then (.done, rest)
      else if c = ',' then readMember fuel rest
      else (.cut .malformed, [])

/-- The members from a place on where a key is due. -/
def readMember : Nat → List Char → Members × List Char
  | 0, _ => (.cut .truncated, [])
  | fuel + 1, cs =>
    match skipBlanks cs with
    | [] => (.noKey .truncated .truncated, [])
    | c :: rest =>
      if c = '"' then
        match readString .start .plain rest with
        | (.broken kept skipped, _) => (.noKey kept skipped, [])
        | (.closed key, rest) =>
          match skipBlanks rest with
          | [] => (.member key (.broken .missing) (.cut .truncated), [])
          | d :: rest =>
            if d = ':' then
              let (value, rest) := readValue fuel rest
              let (tail, rest) := readMoreMembers fuel rest
              (.member key value tail, rest)
            else (.member key (.broken .stray) (.cut .malformed), [])
      else (.noKey .malformed .malformed, [])

end

/-- A text read as one JSON value: its tree, and whether anything but blanks follows it. -/
structure Document where
  root : Json
  trailing : Bool

/-- The document of a text. Each call of a reader that does not take a character is followed by one
    that does, so the fuel is enough. -/
def read (text : String) : Document :=
  let cs := text.toList
  let (root, rest) := readValue (2 * cs.length + 2) cs
  ⟨root, !(skipBlanks rest).isEmpty⟩

end FxStack.Json
