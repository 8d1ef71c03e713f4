import LineScore.Error
import LineScore.Pitch

/-! Keys: a mode and a place on the circle of fifths. The place fixes the signature, sharps being added
upward in the order of the circle and flats downward against it. -/

namespace LineScore

inductive Mode where
  | major | minor
  deriving DecidableEq, Repr

/-- The names of a mode's keys, from six flats to six sharps. -/
def Mode.keyNames : Mode → Vector String 13
  | .major => #v["Gb+", "Db+", "Ab+", "Eb+", "Bb+", "F+", "C+", "G+", "D+", "A+", "E+", "B+", "F#+"]
  | .minor => #v["eb-", "bb-", "f-", "c-", "g-", "d-", "a-", "e-", "b-", "f#-", "c#-", "g#-", "d#-"]

/-- A key by its mode and its place among the keys of the mode. -/
structure Key where
  mode : Mode
  place : Fin 13
  deriving DecidableEq, Repr

namespace Key

def cMajor : Key := ⟨.major, 6⟩

def name (k : Key) : String :=
  k.mode.keyNames[k.place]

def all : List Key :=
  (List.finRange 13).map (Key.mk .major) ++ (List.finRange 13).map (Key.mk .minor)

def ofName (name : LooseText) : Except Error Key :=
  match all.find? fun k => LooseText.ofString k.name = name with
  | some k => .ok k
  | none => .error (.invalidKey name)

/-- The sharps of the signature, or its flats as a negative number. -/
def fifths (k : Key) : Int :=
  (k.place.val : Int) - 6

def isMinor (k : Key) : Bool :=
  k.mode = .minor

def accidental (k : Key) : Accidental :=
  if 0 < k.fifths then .sharp else if k.fifths < 0 then .flat else .natural

/-- The letters in the order in which sharps are added. -/
def sharpOrder : List Letter := [.f, .c, .g, .d, .a, .e, .b]

/-- The letters that the signature alters, in order. -/
def altered (k : Key) : List Letter :=
  (if 0 < k.fifths then sharpOrder else sharpOrder.reverse).take k.fifths.natAbs

/-- The accidental that the signature gives to a letter. -/
def accidentalFor (k : Key) (letter : Letter) : Accidental :=
  if letter ∈ k.altered then k.accidental else .natural

end Key

end LineScore
