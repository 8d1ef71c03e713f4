/-! File paths. Cutting a path at its slashes drops empty parts and single dots, and keeps double dots;
a leading slash is a root, and exactly two of them are a root of their own. -/

namespace LineScore

/-- A path by its root, empty for a relative one, and its parts. -/
structure Path where
  root : String
  parts : List String
  deriving DecidableEq, Repr

namespace Path

def pieces (text : String) : List String :=
  (text.splitOn "/")

def rootOf : List Char → String
  | '/' :: '/' :: '/' :: _ => "/"
  | '/' :: '/' :: _ => "//"
  | '/' :: _ => "/"
  | _ => ""

def ofText (text : String) : Path :=
  ⟨rootOf text.toList, (pieces text).filter fun part => part ≠ "" ∧ part ≠ "."⟩

def text (p : Path) : String :=
  let joined := p.root ++ "/".intercalate p.parts
  if joined.isEmpty then "." else joined

/-- A file name with its suffix replaced. The suffix is what starts with the last point, unless that is
the first or the last character. -/
def replaceSuffix (suffix name : String) : String :=
  let reversed := name.toList.reverse
  let ending := reversed.takeWhile (· ≠ '.')
  match reversed.dropWhile (· ≠ '.') with
  | '.' :: stem =>
      if stem.isEmpty || ending.isEmpty then name ++ suffix else String.ofList stem.reverse ++ suffix
  | _ => name ++ suffix

def withSuffix (p : Path) (suffix : String) : Path :=
  match p.parts.getLast? with
  | none => p
  | some name => { p with parts := p.parts.dropLast ++ [replaceSuffix suffix name] }

end Path

end LineScore
