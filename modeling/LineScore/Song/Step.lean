import LineScore.Notice
import LineScore.Song.Section

/-! Writing a song step by step. Sections are opened, filled with lines and applied; several may be open
at a time, and each is applied with success at most once. Lines count when their section is applied, and
so do the key, the meter and the measures in force then. -/

namespace LineScore

/-- A section that lines are collected for. -/
structure OpenSection where
  measures : Int
  label : Option String
  lines : List Line := []
  applied : Bool := false
  deriving DecidableEq, Repr

/-- A song, the sections that have been opened for it in the order of their opening, and what happened
when they were applied. -/
structure Session where
  song : Song := {}
  sections : List OpenSection := []
  notices : List Notice := []
  deriving DecidableEq, Repr

/-- What an author does next. Open sections are numbered from zero in the order of their opening. -/
inductive Step where
  | title (title : LooseText)
  | author (author : LooseText)
  | key (name : LooseText)
  | tempo (bpm : Int)
  | time (text : LooseText)
  | meter (numerator denominator : Int)
  | instrument (symbol name : LooseText)
  /-- Appends a section at once. -/
  | applySection (measures : Int) (lines : List LineRequest) (label : Option String)
  | openSection (measures : Int) (label : Option String)
  /-- Opens a section of the one measure of a number. -/
  | openMeasure (number : Int)
  /-- Opens a section that spans a range of measures. -/
  | openMeasures (first last : Int)
  | addLine (number : Nat) (line : LineRequest)
  | apply (number : Nat)
  /-- Writes a section in one go; it is applied at the end unless the author abandons it. -/
  | write (measures : Int) (label : Option String) (lines : List LineRequest) (abandon : Bool)
  deriving Repr

namespace Session

def onSong (s : Session) (change : Song → Except Error Song) : Attempt Session :=
  Attempt.ofExcept s ((change s.song).map fun song => { s with song })

def openSection (s : Session) (measures : Int) (label : Option String) : Session :=
  { s with sections := s.sections ++ [{ measures, label }] }

/-- What there is to tell about a section after its application, failed or not: the voices made for it,
and the section itself if it was counted. -/
def sectionNotices (before after : Song) (measures : Int) (lines : Nat) (label : Option String) :
    List Notice :=
  let created := (after.voices.drop before.voices.length).map fun v =>
    Notice.voiceCreated v.label (before.measureCount + 1)
  let place := label.getD ((before.measureLabel measures).toOption.getD "")
  let counted :=
    if before.history.length < after.history.length then
      [Notice.sectionApplied place lines after.voices.length after.length]
    else []
  created ++ counted

def applySection (s : Session) (measures : Int) (lines : List Line) (label : Option String) :
    Attempt Session :=
  (s.song.applySection measures lines label).map fun song =>
    { s with
      song
      notices := s.notices ++ sectionNotices s.song song measures lines.length label }

def setSection (s : Session) (number : Nat) (entry : OpenSection) : Session :=
  { s with sections := s.sections.set number entry }

def addLine (s : Session) (number : Nat) (request : LineRequest) : Attempt Session :=
  match s.sections[number]? with
  | none => ⟨s, some (.unknownSection (toString number))⟩
  | some entry =>
      Attempt.ofExcept s
        ((Line.make? request).map fun line =>
          s.setSection number { entry with lines := entry.lines ++ [line] })

/-- Applies an open section to the song, unless that has been done. -/
def apply (s : Session) (number : Nat) : Attempt Session :=
  match s.sections[number]? with
  | none => ⟨s, some (.unknownSection (toString number))⟩
  | some entry =>
      if entry.applied then ⟨s, some .alreadyApplied⟩
      else
        (s.applySection entry.measures entry.lines entry.label).andThen fun s =>
          ⟨s.setSection number { entry with applied := true }, none⟩

def addLines (number : Nat) : List LineRequest → Session → Attempt Session
  | [], s => ⟨s, none⟩
  | line :: rest, s => (s.addLine number line).andThen (addLines number rest)

def step (s : Session) : Step → Attempt Session
  | .title title => s.onSong fun song => .ok { song with title }
  | .author author => s.onSong fun song => .ok { song with author }
  | .key name => s.onSong (·.setKey name)
  | .tempo bpm => s.onSong (·.setTempo bpm)
  | .time text => s.onSong (·.setTime text)
  | .meter n d => s.onSong fun song => (Meter.make? n d).map fun meter => { song with meter }
  | .instrument symbol name => s.onSong (·.addInstrument symbol name)
  | .applySection measures lines label =>
      match lines.mapM Line.make? with
      | .error e => ⟨s, some e⟩
      | .ok lines => s.applySection measures lines label
  | .openSection measures label => ⟨s.openSection measures label, none⟩
  | .openMeasure number =>
      match Text.integer? number with
      | none => ⟨s, some .longNumber⟩
      | some label => ⟨s.openSection 1 label, none⟩
  | .openMeasures first last =>
      if last < first then ⟨s, some (.reporting [first, last] (.emptyRange first last))⟩
      else
        match Text.integer? first, Text.integer? last with
        | some a, some b => ⟨s.openSection (last - first + 1) s!"{a}..{b}", none⟩
        | _, _ => ⟨s, some .longNumber⟩
  | .addLine number line => s.addLine number line
  | .apply number => s.apply number
  | .write measures label lines abandon =>
      let number := s.sections.length
      (addLines number lines (s.openSection measures label)).andThen fun s =>
        if abandon then ⟨s, some .abandoned⟩ else s.apply number

/-- Does steps in order. A step that fails is followed by the next one all the same. -/
def run (s : Session) (steps : List Step) : Session :=
  steps.foldl (fun s next => (s.step next).state) s

/-- Does steps in order until one fails. -/
def attemptAll : List Step → Session → Attempt Session
  | [], s => ⟨s, none⟩
  | next :: rest, s => (s.step next).andThen (attemptAll rest)

/-- Does one step a number of times, or until it fails. -/
def attemptTimes (next : Step) : Nat → Session → Attempt Session
  | 0, s => ⟨s, none⟩
  | times + 1, s => (s.step next).andThen (attemptTimes next times)

end Session

end LineScore
