/-! Pitches as they are written: a letter, an accidental and an octave, and where a pitch mapping puts
them on the MIDI scale. -/

namespace LineScore

inductive Letter where
  | c | d | e | f | g | a | b
  deriving DecidableEq, Repr

namespace Letter

def toChar : Letter → Char
  | .c => 'c' | .d => 'd' | .e => 'e' | .f => 'f' | .g => 'g' | .a => 'a' | .b => 'b'

def ofChar? : Char → Option Letter
  | 'c' => some .c | 'd' => some .d | 'e' => some .e | 'f' => some .f
  | 'g' => some .g | 'a' => some .a | 'b' => some .b
  | _ => none

theorem ofChar?_toChar (l : Letter) : ofChar? l.toChar = some l := by
  cases l <;> rfl

def semitone : Letter → Int
  | .c => 0 | .d => 2 | .e => 4 | .f => 5 | .g => 7 | .a => 9 | .b => 11

/-- The letter that a text of one character names. -/
def ofText? (text : String) : Option Letter :=
  match text.toList with
  | [letter] => ofChar? letter
  | _ => none

end Letter

/-- What a note does to its letter. -/
inductive Accidental where
  | natural | sharp | flat
  deriving DecidableEq, Repr

namespace Accidental

def text : Accidental → String
  | .natural => "" | .sharp => "#" | .flat => "b"

def ofText? (text : String) : Option Accidental :=
  [Accidental.natural, .sharp, .flat].find? fun a => a.text = text

def offset : Accidental → Int
  | .natural => 0 | .sharp => 1 | .flat => -1

end Accidental

def octaveSemitones : Int := 12

/-- Where the octaves of the notation land on the MIDI scale: the C of `referenceOctave` is
`referencePitch`. -/
structure PitchMapping where
  referencePitch : Int := 64
  referenceOctave : Int := 4
  deriving DecidableEq, Repr

/-- The semitone within the octave and the octave of an altered letter, the alteration carried into the
next octave where it leaves its own. -/
def spell (letter : Letter) (accidental : Accidental) (octave : Int) : Int × Int :=
  let semitone := letter.semitone + accidental.offset
  if octaveSemitones ≤ semitone then (semitone - octaveSemitones, octave + 1)
  else if semitone < 0 then (semitone + octaveSemitones, octave - 1)
  else (semitone, octave)

/-- The MIDI note number of a semitone in an octave. -/
def PitchMapping.pitch (m : PitchMapping) (spelled : Int × Int) : Int :=
  m.referencePitch + (spelled.2 - m.referenceOctave) * octaveSemitones + spelled.1

end LineScore
