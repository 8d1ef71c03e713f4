import LineScore.Command.Arguments
import LineScore.Midi.Render
import LineScore.SongFile
import LineScore.Text.ControlCode

/-! Running the command line: what is printed, with which code it ends, and which file it writes.

Both streams are assumed to take UTF-8 and to be no terminal, so that the click library leaves out control
codes. The standard output refuses half of a surrogate pair, the error output shows it as an escape. -/

namespace LineScore.Command

/-- All that a run does. `exception` is an error that ended it without a report, and `writes` are the
files that it wrote. -/
structure Outcome where
  exitCode : Nat := 0
  stdout : String := ""
  stderr : String := ""
  exception : Option Error := none
  writes : List (String × List UInt8) := []
  deriving DecidableEq, Repr

/-- Whom an error is told. -/
inductive Audience where
  /-- Authors, about what they wrote. -/
  | author
  /-- Users, about a value that cannot be used. -/
  | value
  /-- Users, about a file. -/
  | file
  /-- Nobody: the run ends without a report. -/
  | nobody
  deriving DecidableEq, Repr

def audience : Error → Audience
  | .invalidKey _ | .unknownProgram _ | .duplicateInstrument _ | .unknownInstrument _ _
  | .unparseableToken _ _ _ | .lengthMismatch _ | .tooManyVoices _ _ | .songFile _ _ => .author
  | .noSuchFile _ | .notADirectory _ | .isADirectory _ | .nameTooLong _ => .file
  | .lengthOverflow | .tickOverflow | .byteRange | .chunkRange | .alreadyApplied | .abandoned
  | .unknownSpelling _ | .unknownSection _ | .nestedTooDeep _ | .unprintable _ => .nobody
  | _ => .value

namespace Outcome

def failWith (o : Outcome) (line : String) : Outcome :=
  { o with exitCode := 1, stderr := o.stderr ++ (Text.plain s!"  ERROR: {line}\n").shown }

/-- Ends a run without a report. -/
def crash (o : Outcome) (e : Error) : Outcome :=
  { o with exitCode := 1, exception := some e }

def print (o : Outcome) (text : String) : Outcome :=
  { o with stdout := o.stdout ++ (Text.plain text).shown }

/-- Logs notices, if the run is to tell them. One that cannot be written is left out. -/
def log (o : Outcome) (verbose : Bool) (notices : List Notice) : Outcome :=
  if verbose then
    { o with stderr := o.stderr ++ String.join (notices.filterMap fun n => n.text?.map (· ++ "\n")) }
  else o

/-- Ends a run that could not read its song. -/
def refuseSong (o : Outcome) (e : Error) : Outcome :=
  match audience e with
  | .author => o.failWith e.message
  | .file => o.failWith s!"Could not read song file — {e.message}"
  | _ => o.crash e

/-- Ends a run that could not write its song. -/
def refuseMidi (o : Outcome) (e : Error) : Outcome :=
  match audience e with
  | .author => o.failWith e.message
  | .value => o.failWith s!"Could not render song — {e.message}"
  | .file => o.failWith s!"Could not write MIDI file — {e.message}"
  | .nobody => o.crash e

end Outcome

def lengthText (x : Rat) : Except Error String :=
  match Number.shortText? x with
  | some text => .ok text
  | none => .error .lengthOverflow

/-- A text filled up with blanks to a width. -/
def padRight (width : Nat) (text : String) : String :=
  text ++ String.ofList (List.replicate (width - text.length) ' ')

def integerText (n : Int) : Except Error String :=
  match Text.integer? n with
  | some text => .ok text
  | none => .error .longNumber

/-- A text that can be printed. Error lines show halves of surrogate pairs as escapes, but other output does
not take them. -/
def printed (text : LooseText) : Except Error String :=
  match (Text.plain text).unfit? Text.CodePoint.isChar with
  | none => .ok text.shown
  | some fault => .error (.unprintable fault)

def noteRow (n : TimedNote) : Except Error String := do
  let delay ← lengthText n.onsetDelay
  let sound ← lengthText n.soundDuration
  let pitch ← integerText n.pitch
  return s!"  +{padRight 6 delay} {padRight 6 sound} pitch {padRight 3 pitch}  vel {n.velocity}\n"

/-- The row of the silence at the end, if there is any. -/
def restRow (rest : Rat) : Except Error String :=
  if rest = 0 then .ok ""
  else (lengthText rest).map fun text => s!"  +{text} (rest)\n"

/-- Prints rows until one cannot be written. -/
def printRows (o : Outcome) : List (Except Error String) → Outcome
  | [] => o
  | .ok row :: rest => printRows (o.print row) rest
  | .error e :: _ => o.crash e

/-- The row above the notes of a timeline. -/
def voiceRow (channel : Nat) (t : Timeline) : Except Error String :=
  printed (s!"Voice {channel}: " ++ t.instrument.name ++ s!" ({t.notes.length} note(s))\n")

def timelineRows (channel : Nat) (t : Timeline) : List (Except Error String) :=
  voiceRow channel t :: t.notes.map noteRow ++ [restRow t.trailingRest]

def runTimeline (depth : Nat) (view : FileView) (verbose : Bool) (song : String) : Outcome :=
  let loaded := SongFile.load depth view song
  let o := Outcome.log {} verbose loaded.notices
  match loaded.result with
  | .error e => o.refuseSong e
  | .ok song => printRows o ((song.timelines {}).mapIdx timelineRows).flatten

/-- The line that sums up a song, unless its measures have too many digits to be written or its title and
author cannot be printed. -/
def summary (s : Song) : Except Error String := do
  let measures ← integerText s.measureCount
  printed ("      " ++ s.title ++ " by " ++ s.author ++ s!"  |  {measures} measure(s), "
    ++ s!"{s.voices.length} voice(s), {s.meter.text} at {s.tempo.val} BPM\n")

/-- Writes a song to a file. The file is begun before its messages are put into bytes, so that one that
does not fit leaves the header behind. -/
def exportSong (view : FileView) (verbose : Bool) (song : Song) (target : String) (o : Outcome) : Outcome :=
  let rendered := Midi.render {} song
  let o := o.log verbose rendered.notices
  match rendered.result with
  | .error e => o.refuseMidi e
  | .ok file =>
      match view.canWrite target with
      | .error e => o.refuseMidi e
      | .ok () =>
          match file.bytes with
          | .error e => { o.refuseMidi e with writes := [(target, file.header)] }
          | .ok bytes =>
              let o := { o with writes := [(target, bytes)] }
              (o.log verbose [.fileWritten target]).print s!"\nWritten to {target}\n"

def runCompile (depth : Nat) (view : FileView) (verbose : Bool) (song : String) (output : Option String) :
    Outcome :=
  let target := output.getD ((Path.ofText song).withSuffix ".mid").text
  let o := Outcome.print {} (s!"cabbage v{version}\n  Song   : {song}\n  Output : {target}\n\n"
    ++ "[1/2] Compiling notation...\n")
  let loaded := SongFile.load depth view song
  let o := o.log verbose loaded.notices
  match loaded.result with
  | .error e => o.refuseSong e
  | .ok song =>
      match summary song with
      | .error e => o.crash e
      | .ok line =>
          exportSong view verbose song target
            (o.print (line ++ s!"[2/2] Writing MIDI file → '{target}'...\n"))

/-- Runs a command line. At most `depth` arrays and objects of a document may stand inside one another: that is
how far the reader of documents can call itself, which depends on where it is called. -/
def run (depth : Nat) (view : FileView) (arguments : List String) : Outcome :=
  match read view arguments with
  | .run ⟨verbose, .compile, song, output⟩ => runCompile depth view verbose song output
  | .run ⟨verbose, .timeline, song, _⟩ => runTimeline depth view verbose song
  | .help verb => { stdout := help verb }
  | .version => { stdout := s!"cabbage, version {version}\n" }
  | .bare => { exitCode := 2, stderr := help none }
  | .refused verb e => { exitCode := 2, stderr := (Text.plain (e.report verb)).shown }
  | .unanswered e => Outcome.crash {} e

end LineScore.Command
