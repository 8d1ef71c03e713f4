import LineScore.Text.Loose

/-! Control codes of terminals: an escape and a bracket, then parameters, then marks, and one character
that ends the code. Output that is no terminal leaves them out. -/

namespace LineScore.Text

/-- Whether a code point is one of the characters between two others. -/
def isBetween (low high : Char) (p : CodePoint) : Bool :=
  p.char?.any fun c => low ≤ c && c ≤ high

/-- The characters of parameters: digits and what separates them. -/
def isCodeParameter : CodePoint → Bool :=
  isBetween '0' '?'

/-- The marks between the parameters and the end of a code: the blank and the signs up to the slash. -/
def isCodeMark : CodePoint → Bool :=
  isBetween ' ' '/'

def isCodeEnd : CodePoint → Bool :=
  isBetween '@' '~'

/-- How long the control code at the start of a text is, after its escape and its bracket. -/
def codeLength? (text : List CodePoint) : Option Nat :=
  let tail := text.dropWhile isCodeParameter
  match tail.dropWhile isCodeMark with
  | p :: _ =>
      if isCodeEnd p then
        some ((text.takeWhile isCodeParameter).length + (tail.takeWhile isCodeMark).length + 1)
      else none
  | [] => none

/-- A text without its control codes; `skip` characters belong to the code before it. -/
def dropCodes (skip : Nat) : List CodePoint → List CodePoint
  | [] => []
  | p :: rest =>
      match skip with
      | skip + 1 => dropCodes skip rest
      | 0 =>
          match p, rest with
          | .char '\x1b', .char '[' :: text =>
              match codeLength? text with
              | some length => dropCodes (length + 1) rest
              | none => p :: dropCodes 0 rest
          | _, _ => p :: dropCodes 0 rest

/-- A text as it is printed where there is no terminal. -/
def plain (text : LooseText) : LooseText :=
  ⟨dropCodes 0 text.points⟩

end LineScore.Text
