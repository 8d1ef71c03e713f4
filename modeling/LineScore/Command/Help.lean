/-! The help texts of the command line, laid out in 80 columns as the click library is assumed to do where there
is no terminal to ask. -/

namespace LineScore.Command

def version : String := "0.1.0"

inductive Verb where
  | compile
  | timeline
  deriving DecidableEq, Repr

namespace Verb

def name : Verb → String
  | .compile => "compile"
  | .timeline => "timeline"

def all : List Verb := [.compile, .timeline]

def names : List String := all.map name

def ofName? (text : String) : Option Verb :=
  all.find? fun v => v.name = text

end Verb

/-- The words that a command is called with; none stands for the program itself. -/
def commandPath : Option Verb → String
  | none => "cabbage"
  | some verb => s!"cabbage {verb.name}"

def usage (verb : Option Verb) : String :=
  let operands := if verb.isNone then "COMMAND [ARGS]..." else "SONG_FILE"
  s!"Usage: {commandPath verb} [OPTIONS] {operands}\n"

def help (verb : Option Verb) : String :=
  usage verb ++
    match verb with
    | none =>
        "\n  cabbage — compile compact note notation into MIDI files.\n"
          ++ "\nOptions:\n"
          ++ "  --version      Show the version and exit.\n"
          ++ "  -v, --verbose  Log each compilation step.\n"
          ++ "  -h, --help     Show this message and exit.\n"
          ++ "\nCommands:\n"
          ++ "  compile   Compile a JSON song file into a MIDI file.\n"
          ++ "  timeline  Print every voice's compiled note timeline.\n"
    | some .compile =>
        "\n  Compile a JSON song file into a MIDI file.\n"
          ++ "\n  Examples:\n"
          ++ "    cabbage compile salad.json\n"
          ++ "    cabbage compile salad.json -o build/salad.mid\n"
          ++ "\nOptions:\n"
          ++ "  -o, --output PATH  Destination MIDI file path. Defaults to the song file with\n"
          ++ "                     a .mid extension.\n"
          ++ "  -h, --help         Show this message and exit.\n"
    | some .timeline =>
        "\n  Print every voice's compiled note timeline.\n"
          ++ "\n  Each row shows the onset delay, the sounding duration (both in quarter notes),\n"
          ++ "  the MIDI pitch and the velocity.\n"
          ++ "\nOptions:\n"
          ++ "  -h, --help  Show this message and exit.\n"

end LineScore.Command
