import LineScore.Attempt
import LineScore.Notation.Line
import LineScore.Song

/-! Sections. A section spans measures of the current meter and holds lines of notation. Each line goes
to the first voice of its instrument that has no line yet, or to a new voice; voices without a line rest.
At the end every voice has to be as long as the song. -/

namespace LineScore

/-- A line as it is handed in: the symbol of its instrument, its notation, the denominator of durations
left out, and whether its notes are staccato unless marked otherwise. -/
structure LineRequest where
  symbol : LooseText
  notes : LooseText
  defaultNote : Option Int := none
  staccato : Bool := false
  deriving DecidableEq, Repr

/-- A line whose default duration, if it has one, is positive. -/
structure Line extends LineRequest where
  defaultNote_pos : ∀ n ∈ defaultNote, 0 < n
  deriving DecidableEq, Repr

namespace Line

def make? (request : LineRequest) : Except Error Line :=
  match h : request.defaultNote with
  | none => .ok { request with defaultNote_pos := by simp [h] }
  | some n =>
      if pos : 0 < n then .ok { request with defaultNote_pos := by simpa [h] using pos }
      else .error (.reporting [n] (.invalidDefaultNote n))

/-- The duration of tokens without one: the line's default, else the beat. -/
def defaultDuration (line : Line) (meter : Meter) : Duration :=
  { denominator := line.defaultNote.getD meter.denominator }

/-- The events of the line in a key and a meter. A half of a surrogate pair belongs to a token that cannot
be read. -/
def events (line : Line) (key : Key) (meter : Meter) : Except Error (List Event) :=
  playLine { key, staccato := line.staccato } (line.defaultDuration meter) line.notes.shown

end Line

namespace Song

/-- How errors name a section without a label: by the numbers of its measures. -/
def measureLabel (s : Song) (measures : Int) : Except Error String :=
  let first := s.measureCount + 1
  let last := s.measureCount + measures
  match Text.integer? first, Text.integer? last with
  | some a, some b => .ok (if first = last then a else s!"{a}..{b}")
  | _, _ => .error .longNumber

/-- How errors name a section: by its label, else by the numbers of its measures. -/
def sectionPlace (s : Song) (measures : Int) (label : Option String) : Except Error String :=
  label.map Except.ok |>.getD (s.measureLabel measures)

/-- The first voice of an instrument that has no line in the section yet, by its index, in a song that
has it. -/
def voiceFor (s : Song) (instrument : Instrument) (active : List Int) : Except Error (Song × Int) :=
  match s.voices.find? fun v => v.instrument = instrument && !active.contains v.index with
  | some v => .ok (s, v.index)
  | none =>
      if maxVoices ≤ s.voices.length then .error (.tooManyVoices (s.voices.length + 1) maxVoices)
      else .ok (s.addVoice instrument s.elapsedRests, s.voices.length)

/-- A song in the middle of a section: the voices in `active` have their line. -/
structure Stage where
  song : Song
  active : List Int
  deriving DecidableEq, Repr

namespace Stage

/-- Gives a line to its voice. Errors name the section as `place`. -/
def playLine (place : String) (line : Line) (st : Stage) : Attempt Stage :=
  match st.song.findInstrument? line.symbol with
  | none => ⟨st, some (.unknownInstrument line.symbol place)⟩
  | some instrument =>
      match st.song.voiceFor instrument st.active with
      | .error e => ⟨st, some e⟩
      | .ok (song, index) =>
          let entered : Stage := ⟨song, st.active ++ [index]⟩
          match line.events song.key song.meter with
          | .error e => ⟨entered, some (e.locate line.symbol place)⟩
          | .ok events => ⟨{ entered with song := song.extendVoice index events }, none⟩

def playLines (place : String) : List Line → Stage → Attempt Stage
  | [], st => ⟨st, none⟩
  | line :: rest, st => (playLine place line st).andThen (playLines place rest)

/-- The song after the section's lines: voices without a line rest for its measures. -/
def padded (st : Stage) (measures : Int) : Song :=
  { st.song with
    voices := st.song.voices.map fun v =>
      if st.active.contains v.index then v else v.append (.measureRest measures st.song.meter) }

end Stage

/-- Whether every voice is as long as the song, within the tolerance. -/
def isEven (s : Song) : Bool :=
  s.voices.all fun v => distance v.length s.length ≤ tolerance

/-- What each voice gave to the section of length `sectionLength` that the song ends with. -/
def lastLengths (s : Song) (sectionLength : Rat) : List (LooseText × Rat) :=
  s.voices.map fun v => (v.label, v.length - (s.length - sectionLength))

/-- Refuses a song that ends with a section which not all of its voices fill. -/
def checkLengths (s : Song) (place : String) (sectionLength : Rat) : Attempt Song :=
  if s.isEven then ⟨s, none⟩
  else ⟨s, some (Error.mismatch ⟨place, sectionLength, s.lastLengths sectionLength⟩)⟩

/-- Appends a section of `measures` measures, named `label` in errors or else by its measure numbers. -/
def applySection (s : Song) (measures : Int) (lines : List Line) (label : Option String) :
    Attempt Song :=
  if measures ≤ 0 then ⟨s, some (.reporting [measures] (.emptySection measures))⟩
  else
    match s.sectionPlace measures label with
    | .error e => ⟨s, some e⟩
    | .ok place =>
        let played := Stage.playLines place lines ⟨s, []⟩
        match played.error with
        | some e => ⟨played.state.song, some e⟩
        | none =>
            let song := (played.state.padded measures).record measures
            song.checkLengths place (s.meter.spanLength measures)

end Song

end LineScore
