import FxStack.Float.Single

/-!
# Random values of frames

Every frame gets two values from 0 to below 1. A seeded generator mixes its seed with a counter; a
fixed one always gives the same pair.
-/

namespace FxStack

/-- A generator of pairs of values. -/
inductive Generator where
  | fixed (pair : Single × Single)
  | seeded (seed counter : UInt64)
deriving DecidableEq

namespace Generator

def ofSeed (seed : UInt64) : Generator := .seeded seed 0

/-! ### Words -/

/-- A word whose bits all depend on all bits of `x`. -/
def mix (x : UInt64) : UInt64 :=
  let x := (x ^^^ (x >>> 30)) * 0xbf58476d1ce4e5b9
  let x := (x ^^^ (x >>> 27)) * 0x94d049bb133111eb
  x ^^^ (x >>> 31)

/-- The odd number by which counters are spread over the words. -/
def stride : UInt64 := 0x9e3779b97f4a7c15

/-- The word of the draw with number `counter`. -/
def word (seed counter : UInt64) : UInt64 := mix (seed ^^^ (counter * stride))

/-- The value of a word: its 24 high bits as a fraction, which a single holds exactly. -/
def unit (w : UInt64) : Single := .ofRatio false (w >>> 40).toNat 0x1000000

/-! ### Pairs -/

/-- The next pair, and the generator after it. -/
def next : Generator → (Single × Single) × Generator
  | .fixed pair => (pair, .fixed pair)
  | .seeded seed counter =>
    ((unit (word seed (counter + 1)), unit (word seed (counter + 2))), .seeded seed (counter + 2))

end Generator

end FxStack
