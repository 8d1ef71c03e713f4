import LineScore.Song

/-! Timelines: a voice as the notes that sound, each timed from the end of the one before. Rests make
no note of their own, and what a staccato note leaves of its length belongs to the silence after it. -/

namespace LineScore

/-- How loud notes are, how long a staccato note sounds, and where octaves lie. -/
structure TimelineSettings where
  normalVelocity : Int := 63
  accentVelocity : Int := 75
  staccatoLength : Rat := 1 / 8
  pitchMapping : PitchMapping := {}
  deriving DecidableEq, Repr

/-- A sounding note: the silence before it and its own length, in quarter notes. -/
structure TimedNote where
  pitch : Int
  velocity : Int
  onsetDelay : Rat
  soundDuration : Rat
  deriving DecidableEq, Repr

/-- The notes of a voice and the silence after the last one. -/
structure Timeline where
  instrument : Instrument
  notes : List TimedNote
  trailingRest : Rat
  deriving DecidableEq, Repr

namespace Timeline

def length (t : Timeline) : Rat :=
  t.notes.foldr (fun n later => n.onsetDelay + n.soundDuration + later) 0 + t.trailingRest

def soundOf (settings : TimelineSettings) (n : Note) : Rat :=
  let length := n.duration.length
  if n.articulation = .staccato ∧ settings.staccatoLength < length then settings.staccatoLength
  else length

/-- A note that comes after the silence `pending`. -/
def timed (settings : TimelineSettings) (pending : Rat) (n : Note) : TimedNote where
  pitch := n.pitch settings.pitchMapping
  velocity := if n.accented then settings.accentVelocity else settings.normalVelocity
  onsetDelay := pending
  soundDuration := soundOf settings n

/-- The notes of events that come after the silence `pending`, and the silence after them. -/
def emit (settings : TimelineSettings) : Rat → List Event → List TimedNote × Rat
  | pending, [] => ([], pending)
  | pending, .note n :: rest =>
      let (notes, trailing) := emit settings (n.duration.length - soundOf settings n) rest
      (timed settings pending n :: notes, trailing)
  | pending, event :: rest => emit settings (pending + event.length) rest

def ofVoice (settings : TimelineSettings) (v : Voice) : Timeline :=
  let (notes, trailing) := emit settings 0 v.events
  ⟨v.instrument, notes, trailing⟩

end Timeline

def Song.timelines (s : Song) (settings : TimelineSettings) : List Timeline :=
  s.voices.map (Timeline.ofVoice settings)

end LineScore
