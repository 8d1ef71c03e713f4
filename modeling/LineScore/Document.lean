import LineScore.Song.Step

/-! Song documents: a whole song as data, its sections in order. A document only says what the steps of
writing the song are; compiling it does them. -/

namespace LineScore

/-- How much a section spans: a number of measures, or the measures from a first to a last one. -/
inductive Span where
  | count (measures : Int)
  | range (first last : Int)
  deriving DecidableEq, Repr

namespace Span

def measures : Span → Int
  | .count measures => measures
  | .range first last => last - first + 1

/-- How errors name the section; a mere count leaves that to the song. There is no name if its numbers
have too many digits to be written. -/
def label : Span → Except Error (Option String)
  | .count _ => .ok none
  | .range first last =>
      match Text.integer? first, Text.integer? last with
      | some a, some b => .ok (some (if first = last then a else s!"{a}..{b}"))
      | _, _ => .error .longNumber

end Span

/-- A section of a document. A time or key that it sets stays in force after it. -/
structure SectionEntry where
  measures : Span := .count 1
  times : Int := 1
  time : Option LooseText := none
  key : Option LooseText := none
  lines : List LineRequest
  deriving DecidableEq, Repr

structure InstrumentEntry where
  symbol : LooseText
  name : LooseText
  deriving DecidableEq, Repr

structure Document where
  title : LooseText := "Untitled"
  author : LooseText := "Anonymous"
  tempo : Int := 120
  time : LooseText := "4/4"
  key : LooseText := "C+"
  instruments : List InstrumentEntry
  sections : List SectionEntry
  deriving DecidableEq, Repr

namespace SectionEntry

/-- The steps that set the time and the key of a section. -/
def settings (e : SectionEntry) : List Step :=
  (e.time.map Step.time).toList ++ (e.key.map Step.key).toList

/-- The step that writes the section once, under a label. -/
def writing (e : SectionEntry) (label : Option String) : Step :=
  .write e.measures.measures label e.lines false

/-- Adds the section to a song as often as it is repeated. Its label is made before anything else. -/
def attempt (e : SectionEntry) (s : Session) : Attempt Session :=
  match e.measures.label with
  | .error error => ⟨s, some error⟩
  | .ok label =>
      (Session.attemptAll e.settings s).andThen
        (Session.attemptTimes (e.writing label) e.times.toNat)

end SectionEntry

namespace Document

def declarations (d : Document) : List Step :=
  [.title d.title, .author d.author, .tempo d.tempo, .time d.time, .key d.key]
    ++ d.instruments.map fun i => .instrument i.symbol i.name

/-- Adds sections in order, until one fails. -/
def attemptSections : List SectionEntry → Session → Attempt Session
  | [], s => ⟨s, none⟩
  | e :: rest, s => (e.attempt s).andThen (attemptSections rest)

/-- Writes the song of a document, until a step fails. -/
def attempt (d : Document) : Attempt Session :=
  (Session.attemptAll d.declarations {}).andThen (attemptSections d.sections)

def compile (d : Document) : Logged Song :=
  let attempt := d.attempt
  let song := attempt.state.song
  match attempt.error with
  | some e => ⟨attempt.state.notices, .error e⟩
  | none =>
      ⟨attempt.state.notices ++ [.songLoaded song.title song.measureCount song.voices.length], .ok song⟩

end Document

end LineScore
