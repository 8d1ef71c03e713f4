import LineScore.Error

/-! What a program can see of a file system: for each path what stands there. -/

namespace LineScore

/-- What stands at a path. -/
inductive Entry where
  | file (bytes : List UInt8)
  | directory
  /-- Nothing yet, but a file could be made there. -/
  | vacant
  /-- No directory, though the path ends like that of one. -/
  | noDirectory
  /-- Nothing, and no directory to make a file in. -/
  | missing
  /-- The path leads through a file. -/
  | blocked
  /-- The path, or a name in it, is longer than any. -/
  | tooLong
  deriving DecidableEq, Repr

abbrev FileView := String → Entry

namespace FileView

/-- Whether a path can be asked for: it holds no null character. -/
def isNameable (path : String) : Bool :=
  !path.toList.contains '\x00'

def read (view : FileView) (path : String) : Except Error (List UInt8) :=
  if !isNameable path then .error .nullInPath
  else
    match view path with
    | .file bytes => .ok bytes
    | .directory => .error (.isADirectory path)
    | .blocked => .error (.notADirectory path)
    | .tooLong => .error (.nameTooLong path)
    | .vacant | .noDirectory | .missing => .error (.noSuchFile path)

def canWrite (view : FileView) (path : String) : Except Error Unit :=
  if !isNameable path then .error .nullInPath
  else
    match view path with
    | .file _ | .vacant => .ok ()
    | .directory | .noDirectory => .error (.isADirectory path)
    | .blocked => .error (.notADirectory path)
    | .tooLong => .error (.nameTooLong path)
    | .missing => .error (.noSuchFile path)

end FileView

end LineScore
