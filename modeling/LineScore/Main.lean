import LineScore.Command.Run

/-! The command line program. It looks at every path that its arguments can name, runs the command on
what it saw, and then writes and prints what the run did. -/

namespace LineScore

/-- What stands at a path of the file system, if it can be opened. Reading a directory fails with the
code 21 and a path through a file with another one; a name that is too long is an invalid argument. -/
def lookAt? (path : String) : IO (Option Entry) := do
  match ← (IO.FS.readBinFile path).toBaseIO with
  | .ok bytes => return some (.file bytes.toList)
  | .error (.inappropriateType _ code _) => return some (if code = 21 then .directory else .blocked)
  | .error (.invalidArgument _ _ _) => return some .tooLong
  | .error _ => return none

def lookAt (path : String) : IO Entry := do
  if !FileView.isNameable path || path.isEmpty then return .missing
  match ← lookAt? path with
  | some .blocked => return if path.endsWith "/" then .noDirectory else .blocked
  | some entry => return entry
  | none =>
      if path.endsWith "/" then return .noDirectory
      let plain := Path.ofText path
      match ← lookAt? ({ plain with parts := plain.parts.dropLast } : Path).text with
      | some .directory => return .vacant
      | _ => return .missing

/-- The paths that an argument can name: it may hold its option, and the path may be written in its
plain form or take the suffix of a MIDI file. -/
def pathsIn (argument : String) : List String :=
  let text := argument.toList
  let values := [text, text.drop 2, (text.dropWhile (· ≠ '=')).drop 1].map String.ofList
  values.flatMap fun value =>
    let path := Path.ofText value
    [value, path.text, (path.withSuffix ".mid").text]

/-- What the arguments of a command line can see. -/
def lookAtAll (arguments : List String) : IO FileView := do
  let seen ← (arguments.flatMap pathsIn).mapM fun path => return (path, ← lookAt path)
  return fun path => ((seen.find? fun entry => entry.1 = path).map Prod.snd).getD .missing

end LineScore

/-- How deep a document may be nested: what a limit of a thousand calls leaves to its reader. -/
def LineScore.nesting : Nat := 980

open LineScore in
def main (arguments : List String) : IO UInt32 := do
  let outcome := Command.run nesting (← lookAtAll arguments) arguments
  for (path, bytes) in outcome.writes do
    IO.FS.writeBinFile path ⟨bytes.toArray⟩
  IO.print outcome.stdout
  IO.eprint outcome.stderr
  match outcome.exception with
  | some e => IO.eprintln e.message
  | none => pure ()
  return outcome.exitCode.toUInt32
