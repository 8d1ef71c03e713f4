import LineScore.Error
import LineScore.Text.Blank

/-! Time signatures: beats to a measure over the beat's part of a whole note. The written form is two
numerals with a slash between them, blanks allowed around both. -/

namespace LineScore

/-- A time signature, both of whose parts are positive. -/
structure Meter where
  numerator : Nat
  denominator : Nat
  numerator_pos : 0 < numerator
  denominator_pos : 0 < denominator
  deriving DecidableEq, Repr

namespace Meter

/-- The time signature of two parts, which have to be positive. -/
def make? (numerator denominator : Int) : Except Error Meter :=
  if h : 0 < numerator ∧ 0 < denominator then
    .ok ⟨numerator.toNat, denominator.toNat, by omega, by omega⟩
  else
    .error (.reporting [numerator, denominator] (.invalidMeter numerator denominator))

/-- Four quarters to a measure. -/
def common : Meter := ⟨4, 4, by decide, by decide⟩

/-- The digits of the two numerals of a written time signature. -/
def scan? (text : List Char) : Option (List Char × List Char) :=
  let text := text.dropWhile Text.isBlank
  let numerator := text.takeWhile Text.isDigit
  match (text.dropWhile Text.isDigit).dropWhile Text.isBlank with
  | '/' :: rest =>
      let rest := rest.dropWhile Text.isBlank
      let denominator := rest.takeWhile Text.isDigit
      if !numerator.isEmpty && !denominator.isEmpty
          && ((rest.dropWhile Text.isDigit).dropWhile Text.isBlank).isEmpty then
        some (numerator, denominator)
      else none
  | _ => none

def numeral (digits : List Char) : Except Error Nat :=
  match Text.numeral? digits with
  | some n => .ok n
  | none => .error (.longNumeral digits.length)

def parse (text : String) : Except Error Meter :=
  match scan? text.toList with
  | none => .error (.malformedMeter text)
  | some (n, d) => do
      let numerator ← numeral n
      let denominator ← numeral d
      make? numerator denominator

def text (m : Meter) : String :=
  s!"{m.numerator}/{m.denominator}"

def beatLength (m : Meter) : Rat :=
  4 / (m.denominator : Rat)

def measureLength (m : Meter) : Rat :=
  m.beatLength * (m.numerator : Rat)

/-- The length of whole measures, in quarter notes. -/
def spanLength (m : Meter) (measures : Int) : Rat :=
  m.measureLength * (measures : Rat)

end Meter

end LineScore
