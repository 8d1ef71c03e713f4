import LineScore.FileView

/-! A tree of files and directories around one working directory. Above it there are directories only,
and the root of the file system holds what it is given. -/

namespace LineScore

/-- Files and directories by the parts of their paths. The working directory has none, those of the
directories above it are double dots, and those of paths from the root begin with a slash. -/
structure FileTree where
  directories : List (List String) := [[], ["/"]]
  files : List (List String × List UInt8) := []
  deriving DecidableEq, Repr

namespace FileTree

def maxNameBytes : Nat := 255

def maxPathBytes : Nat := 4095

def bytesOf? (t : FileTree) (place : List String) : Option (List UInt8) :=
  (t.files.find? fun f => f.1 = place).map Prod.snd

def hasDirectory (t : FileTree) (place : List String) : Bool :=
  t.directories.contains place

/-- The directory above a directory; the root is above itself. -/
def above (place : List String) : List String :=
  if place = ["/"] then place
  else if place.all (· = "..") then place ++ [".."]
  else place.dropLast

/-- Where the parts of a path lead, from a directory on. -/
def follow (t : FileTree) (start : List String) : List String → Entry × List String
  | [] => (.directory, start)
  | part :: rest =>
      if part = "" ∨ part = "." then t.follow start rest
      else if part = ".." then t.follow (above start) rest
      else
        let place := start ++ [part]
        if t.hasDirectory place then t.follow place rest
        else if !rest.isEmpty && rest.all (· = "") then (.noDirectory, place)
        else if maxNameBytes < part.utf8ByteSize then (.tooLong, place)
        else
          match t.bytesOf? place with
          | some bytes => (if rest.isEmpty then .file bytes else .blocked, place)
          | none => (if rest.isEmpty then .vacant else .missing, place)

def locate (t : FileTree) (path : String) : Entry × List String :=
  if path.isEmpty then (.missing, [])
  else if maxPathBytes < path.utf8ByteSize then (.tooLong, [])
  else t.follow (if path.startsWith "/" then ["/"] else []) (path.splitOn "/")

/-- What a program can see of the tree. -/
def view (t : FileTree) : FileView :=
  fun path => (t.locate path).1

/-- The tree with a directory and all directories above it. -/
def addDirectory (t : FileTree) (place : List String) : FileTree :=
  let opened := (List.range (place.length + 1)).map place.take
  { t with directories := t.directories ++ opened.filter fun d => !t.hasDirectory d }

/-- The tree with a file, at the end of the files unless it is there already. -/
def putFile (t : FileTree) (place : List String) (bytes : List UInt8) : FileTree :=
  if (t.bytesOf? place).isSome then
    { t with files := t.files.map fun f => if f.1 = place then (place, bytes) else f }
  else
    { t with files := t.files ++ [(place, bytes)] }

def write (t : FileTree) (path : String) (bytes : List UInt8) : FileTree :=
  t.putFile (t.locate path).2 bytes

end FileTree

end LineScore
