import LineScore.Event

/-! The tokens of the notation. A token is `+` or `-` for an octave step, a rest `&`, or a note: a
letter, then as far as they are present an accidental, a run of octave shifts, an accent and an
articulation mark. A rest or note may begin with a duration: digits, dots and a colon. -/

namespace LineScore

/-- The parts of a written note. A part that is absent is left to the line. -/
structure WrittenNote where
  duration : Option Duration
  letter : Letter
  accidental : Option Accidental
  shift : Int
  accented : Bool
  mark : Option Articulation
  deriving DecidableEq, Repr

inductive Token where
  | octaveUp
  | octaveDown
  | rest (duration : Option Duration)
  | note (note : WrittenNote)
  deriving DecidableEq, Repr

namespace Token

/-- A written duration before its digits are read: the digits and the number of dots. -/
structure Figure where
  digits : List Char
  dots : Nat
  deriving DecidableEq, Repr

/-- Takes the duration off the front of a token, if there is one. -/
def takeFigure (text : List Char) : Option Figure × List Char :=
  match text.takeWhile Text.isDigit with
  | [] => (none, text)
  | digits =>
      let tail := text.dropWhile Text.isDigit
      let dots := (tail.takeWhile (· = '.')).length
      match tail.dropWhile (· = '.') with
      | ':' :: tail => (some ⟨digits, dots⟩, tail)
      | tail => (some ⟨digits, dots⟩, tail)

/-- Takes the accidental off the front of what follows a letter, if there is one. -/
def takeAccidental : List Char → Option Accidental × List Char
  | '#' :: tail => (some .sharp, tail)
  | 'b' :: tail => (some .flat, tail)
  | 'n' :: tail => (some .natural, tail)
  | tail => (none, tail)

/-- Takes a run of octave shifts off the front, all of them upward or all of them downward. -/
def takeShift (text : List Char) : Int × List Char :=
  match text with
  | '^' :: _ => ((text.takeWhile (· = '^')).length, text.dropWhile (· = '^'))
  | 'v' :: _ => (-((text.takeWhile (· = 'v')).length : Int), text.dropWhile (· = 'v'))
  | _ => (0, text)

def takeAccent : List Char → Bool × List Char
  | '>' :: tail => (true, tail)
  | tail => (false, tail)

/-- Takes the articulation mark off the front, if there is one. -/
def takeMark : List Char → Option Articulation × List Char
  | '(' :: tail => (some .legato, tail)
  | '-' :: tail => (some .staccato, tail)
  | tail => (none, tail)

/-- The parts of a note that follow its duration, or nothing unless they make up the whole text. -/
def scanNote? (text : List Char) : Option WrittenNote :=
  match text with
  | [] => none
  | c :: tail =>
      match Letter.ofChar? c with
      | none => none
      | some letter =>
          let (accidental, tail) := takeAccidental tail
          let (shift, tail) := takeShift tail
          let (accented, tail) := takeAccent tail
          let (mark, tail) := takeMark tail
          if tail.isEmpty then some ⟨none, letter, accidental, shift, accented, mark⟩ else none

/-- The token that a text after its duration is, its duration left open. -/
def scanBody? : List Char → Option Token
  | ['&'] => some (.rest none)
  | text => (scanNote? text).map .note

def withDuration (duration : Duration) : Token → Token
  | .rest _ => .rest (some duration)
  | .note n => .note { n with duration := some duration }
  | token => token

/-- Reads a token. A duration of zero is as unreadable as any text that is no token. -/
def read (text : List Char) : Except Error Token :=
  let refused := Error.unparseableToken (String.ofList text) none none
  match text with
  | ['+'] => .ok .octaveUp
  | ['-'] => .ok .octaveDown
  | _ =>
      let (figure, tail) := takeFigure text
      match scanBody? tail, figure with
      | none, _ => .error refused
      | some token, none => .ok token
      | some token, some figure =>
          match Text.numeral? figure.digits with
          | none => .error (.longNumeral figure.digits.length)
          | some 0 => .error refused
          | some n => .ok (token.withDuration ⟨n, figure.dots⟩)

end Token

end LineScore
