import LineScore.Number.Significant
import LineScore.Text.Loose

/-! Voices that do not fill their section. A voice is off when its length differs from the section's by
more than the tolerance. -/

namespace LineScore

/-- The largest difference between two lengths, in quarter notes, that counts as none. -/
def tolerance : Rat := 1 / 100000

def distance (a b : Rat) : Rat :=
  if a ≤ b then b - a else a - b

/-- The lengths that the voices of a song, by their labels, give to a section of length `expected`. -/
structure Mismatch where
  place : String
  expected : Rat
  lengths : List (LooseText × Rat)
  deriving DecidableEq, Repr

namespace Mismatch

def isOff (m : Mismatch) (length : Rat) : Bool :=
  tolerance < distance length m.expected

/-- The voices that are off, with what they have too much. -/
def deviations (m : Mismatch) : List (LooseText × Rat) :=
  (m.lengths.filter fun entry => m.isOff entry.2).map fun entry => (entry.1, entry.2 - m.expected)

/-- The line that describes one voice, unless a length is out of the range of doubles. -/
def line? (m : Mismatch) (entry : LooseText × Rat) : Option String := do
  let length ← Number.shortText? entry.2
  if m.isOff entry.2 then
    let difference := entry.2 - m.expected
    let sign := if 0 < difference then "+" else ""
    let amount ← Number.shortText? difference
    return s!"  {entry.1}: {length}  <- off by {sign}{amount}"
  else
    return s!"  {entry.1}: {length}"

/-- The whole report, unless a length is out of the range of doubles. -/
def report? (m : Mismatch) : Option String := do
  let lines ← m.lengths.mapM m.line?
  let expected ← Number.shortText? m.expected
  return s!"Your voices in measure(s) {m.place} should be {expected} quarter notes long:\n"
    ++ "\n".intercalate lines

end Mismatch

end LineScore
