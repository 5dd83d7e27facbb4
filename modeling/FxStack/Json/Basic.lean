import FxStack.Decimal.Layout

/-!
# JSON texts as trees

A tree says what a JSON text is, read from left to right. Every text has a tree: where it stops being
JSON the tree has a mark that says how it stops, and what is left of it has no meaning. A reader of
the tree that looks at the parts in order meets the faults of the text in the order of the text.
-/

namespace FxStack

namespace Json

/-! ### Faults -/

/-- How a text stops being JSON: it ends too early, or something else stands where JSON goes on. -/
inductive Break where
  | truncated
  | malformed
deriving DecidableEq

/-- A value that the text starts but does not finish. Inside numerals and strings the fault may
    depend on whether the value is kept, and hence decoded, or skipped. -/
inductive Broken where
  /-- The text ends where a value is due. -/
  | missing
  /-- A character that starts no value stands where a value is due. -/
  | stray
  /-- One of the three words is not spelled out. -/
  | word (fault : Break)
  | numeral (kept skipped : Break)
  | string (kept skipped : Break)
deriving DecidableEq

namespace Broken

/-- The fault met when the value is kept. -/
def kept : Broken → Break
  | .missing => .truncated
  | .stray => .malformed
  | .word b => b
  | .numeral b _ => b
  | .string b _ => b

/-- The fault met when the value is skipped. -/
def skipped : Broken → Break
  | .missing => .truncated
  | .stray => .malformed
  | .word b => b
  | .numeral _ b => b
  | .string _ b => b

end Broken

end Json

/-! ### Trees -/

mutual

/-- A JSON text as it reads from left to right. -/
inductive Json where
  | null
  | bool (b : Bool)
  | number (n : Numeral)
  | string (s : String)
  /-- A closed string in which an escape names half of a surrogate pair. -/
  | garbled
  | array (items : Items)
  | object (members : Members)
  | broken (b : Json.Broken)

/-- The items of an array from some point on. An item after the first one has a comma before it. -/
inductive Items where
  | done
  | item (head : Json) (tail : Items)
  /-- Neither a comma nor the closing bracket follows. -/
  | cut (fault : Json.Break)

/-- The members of an object from some point on. A garbled key is `none`. -/
inductive Members where
  | done
  | member (key : Option String) (value : Json) (tail : Members)
  /-- Neither a comma nor the closing brace follows. -/
  | cut (fault : Json.Break)
  /-- Where a key is due there is no complete string. -/
  | noKey (kept skipped : Json.Break)

end

instance : Inhabited Json := ⟨.null⟩

namespace Json

def itemsOf (js : List Json) : Items := js.foldr .item .done

def membersOf (ms : List (String × Json)) : Members :=
  ms.foldr (fun m rest => .member (some m.1) m.2 rest) .done

def list (js : List Json) : Json := .array (itemsOf js)

def record (ms : List (String × Json)) : Json := .object (membersOf ms)

end Json

end FxStack
