import LineScore.Command.Help
import LineScore.Command.Options
import LineScore.FileView
import LineScore.Text.Alphanumeric

/-! What a command line asks for: a command on a song file, a text to show, or nothing that makes
sense. Which of several faults is told, and in which words, is assumed of the click library. -/

namespace LineScore.Command

/-- A command on a song file. -/
structure Request where
  verbose : Bool
  verb : Verb
  song : String
  output : Option String
  deriving DecidableEq, Repr

inductive UsageError where
  | option (fault : OptionFault)
  | commandMissing
  | unknownCommand (name : String)
  | songMissing
  | songAbsent (path : String)
  | songIsDirectory (path : String)
  | extraArguments (arguments : List String)
  deriving DecidableEq, Repr

/-- What a command line asks for. -/
inductive Invocation where
  | run (request : Request)
  | help (verb : Option Verb)
  | version
  /-- A call without any argument is answered with the help, as an error. -/
  | bare
  | refused (verb : Option Verb) (error : UsageError)
  /-- It cannot even be asked whether the song is there. -/
  | unanswered (error : Error)
  deriving DecidableEq, Repr

namespace UsageError

/-- The question whether one of similar names was meant, if there are any. -/
def suggestion : List String → String
  | [] => ""
  | [name] => s!" Did you mean {Text.quoted name}?"
  | names => " (Did you mean one of: " ++ ", ".intercalate (names.map fun (name : String) => Text.quoted name) ++ "?)"

def text : UsageError → String
  | .option (.unknown name near) => s!"No such option {Text.quoted name}.{suggestion near}"
  | .option (.valueMissing name) => s!"Option {Text.quoted name} requires an argument."
  | .option (.valueUnwanted name) => s!"Option {Text.quoted name} does not take a value."
  | .commandMissing => "Missing command."
  | .unknownCommand name =>
      s!"No such command {Text.quoted name}.{suggestion (Text.alike Verb.names name)}"
  | .songMissing => "Missing argument 'SONG_FILE'."
  | .songAbsent path => s!"Invalid value for 'SONG_FILE': File {Text.quoted path} does not exist."
  | .songIsDirectory path => s!"Invalid value for 'SONG_FILE': File {Text.quoted path} is a directory."
  | .extraArguments [argument] => s!"Got unexpected extra argument ({argument})"
  | .extraArguments arguments => "Got unexpected extra arguments (" ++ " ".intercalate arguments ++ ")"

/-- Whether the refusal is shown with the usage. The value of an option is checked before it is known
which command it belongs to. -/
def showsUsage : UsageError → Bool
  | .option (.valueMissing _) => false
  | .option (.valueUnwanted _) => false
  | _ => true

def report (verb : Option Verb) (e : UsageError) : String :=
  let hint := s!"Try '{commandPath verb} --help' for help.\n\n"
  (if e.showsUsage then usage verb ++ hint else "") ++ s!"Error: {e.text}\n"

end UsageError

def programOptions : List OptionSpec :=
  [{ names := ["--version"] }, { names := ["--verbose", "-v"] }, { names := ["--help", "-h"] }]

def verbOptions : Verb → List OptionSpec
  | .compile => [{ names := ["--output", "-o"], takesValue := true }, { names := ["--help", "-h"] }]
  | .timeline => [{ names := ["--help", "-h"] }]

/-- What the first option asks for that is answered before anything else is looked at. -/
def eager? (verb : Option Verb) (options : List (String × String)) : Option Invocation :=
  options.findSome? fun o =>
    if o.1 = "--help" then some (.help verb) else if o.1 = "--version" then some .version else none

/-- The request of a command whose arguments have been scanned. -/
def requestOf (view : FileView) (verbose : Bool) (verb : Verb) (s : Scanned) : Invocation :=
  match s.operands with
  | [] => .refused verb .songMissing
  | song :: others =>
      if !FileView.isNameable song then .unanswered .nullInPath
      else
        match view song with
        | .directory => .refused verb (.songIsDirectory song)
        | .file _ =>
            if others.isEmpty then .run ⟨verbose, verb, song, s.value? "--output"⟩
            else .refused verb (.extraArguments others)
        | _ => .refused verb (.songAbsent song)

def readVerb (view : FileView) (verbose : Bool) (verb : Verb) (arguments : List String) : Invocation :=
  match scan (verbOptions verb) true arguments with
  | .error fault => .refused verb (.option fault)
  | .ok s => (eager? verb s.options).getD (requestOf view verbose verb s)

/-- What an unknown command asks for. If it looks like an option, it is read as one first. -/
def readUnknown (name : String) (rest : List String) : Invocation :=
  let refused := Invocation.refused none (.unknownCommand name)
  match name.toList with
  | [] => refused
  | c :: _ =>
      if Text.isAlphanumeric c then refused
      else
        match scan programOptions false (name :: rest) with
        | .error fault => .refused none (.option fault)
        | .ok s => (eager? none s.options).getD refused

def read (view : FileView) (arguments : List String) : Invocation :=
  if arguments.isEmpty then .bare
  else
    match scan programOptions false arguments with
    | .error fault => .refused none (.option fault)
    | .ok s =>
        match eager? none s.options with
        | some invocation => invocation
        | none =>
            match s.operands with
            | [] => .refused none .commandMissing
            | name :: rest =>
                match Verb.ofName? name with
                | some verb => readVerb view (s.value? "--verbose").isSome verb rest
                | none => readUnknown name rest

end LineScore.Command
