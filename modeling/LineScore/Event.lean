import LineScore.Duration
import LineScore.Meter
import LineScore.Pitch

/-! The events of a voice: notes, rests, and rests of whole measures. -/

namespace LineScore

inductive Articulation where
  | legato | staccato
  deriving DecidableEq, Repr

def Articulation.text : Articulation → String
  | .legato => "legato"
  | .staccato => "staccato"

def Articulation.ofText (text : String) : Except Error Articulation :=
  match [Articulation.legato, .staccato].find? fun a => a.text = text with
  | some a => .ok a
  | none => .error (.unknownArticulation text)

/-- A pitched note, its accidental already settled. -/
structure Note where
  duration : Duration
  letter : Letter
  accidental : Accidental
  octave : Int
  accented : Bool := false
  articulation : Articulation := .legato
  deriving DecidableEq, Repr

namespace Note

/-- The semitone and the octave that the note sounds in. -/
def spelled (n : Note) : Int × Int :=
  spell n.letter n.accidental n.octave

def pitch (n : Note) (mapping : PitchMapping) : Int :=
  mapping.pitch n.spelled

/-- The written form, or nothing when the octave has too many digits. -/
def text? (n : Note) : Option String := do
  let octave ← Text.integer? n.octave
  let accent := if n.accented then ">" else ""
  return s!"{n.duration.text}:{n.letter.toChar}{n.accidental.text}{octave}{accent}{n.articulation.text}"

end Note

/-- What a voice does next. -/
inductive Event where
  | note (note : Note)
  | rest (duration : Duration)
  /-- Silence for whole measures of a time signature. -/
  | measureRest (measures : Int) (meter : Meter)
  deriving DecidableEq, Repr

namespace Event

def length : Event → Rat
  | .note n => n.duration.length
  | .rest d => d.length
  | .measureRest measures meter => meter.spanLength measures

def check : Event → Except Error Unit
  | .note n => n.duration.check
  | .rest d => d.check
  | .measureRest _ _ => .ok ()

/-- The written form, or nothing when a number in it has too many digits. -/
def text? : Event → Option String
  | .note n => n.text?
  | .rest d => some s!"{d.text}:&"
  | .measureRest measures _ => (Text.integer? measures).map fun count => s!"|{count}|"

end Event

def totalLength : List Event → Rat
  | [] => 0
  | event :: rest => event.length + totalLength rest

end LineScore
