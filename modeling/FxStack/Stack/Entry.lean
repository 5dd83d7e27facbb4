import FxStack.Error
import FxStack.KeyMap

/-!
# Entries

An entry is one use of an effect in a stack.
-/

namespace FxStack

/-- One use of an effect, with the values that it overrides. -/
structure Entry where
  id : EntryId
  /-- The name of the effect, which need not be in any catalog. -/
  name : String
  overrides : KeyMap Value
deriving DecidableEq

namespace Entry

def override? (e : Entry) (key : String) : Option Value := e.overrides.get? key

def describe (e : Entry) : String :=
  "StackEntry \x7b id: EntryId(" ++ toString e.id.number ++ "), name: " ++ Text.quoted e.name
    ++ ", overrides: \x7b"
    ++ ", ".intercalate (e.overrides.toList.map fun o => Text.quoted o.1 ++ ": " ++ o.2.describe)
    ++ "\x7d \x7d"

end Entry

end FxStack
