import LineScore.Json
import LineScore.Text.Digits

/-! Reading JSON text. A reader takes a value off the front of a text and returns what follows it. A
refused text is reported with the place of the fault, kept as the text from there on, so that the number
of its line can be told. -/

namespace LineScore.Json

inductive Cause where
  | byteOrderMark
  | value
  | propertyName
  | colon
  | comma
  | extraData
  | unterminatedString
  | controlCharacter
  | badEscape
  | badUnicodeEscape
  /-- A whole number has too many digits to be converted. -/
  | longNumeral (digits : Nat)
  /-- There is one array or object too many around the place. -/
  | tooDeep (innermost : Container)
  deriving DecidableEq, Repr

/-- A fault and the text from its place on. -/
structure Fault where
  cause : Cause
  rest : List Char
  deriving DecidableEq, Repr

/-- A value off the front of a text, and what follows it. -/
abbrev Read (α : Type) := Except Fault (α × List Char)

def isBlank (c : Char) : Bool :=
  c = ' ' || c = '\t' || c = '\n' || c = '\r'

def skipBlanks (text : List Char) : List Char :=
  text.dropWhile isBlank

def hexValue? (c : Char) : Option Nat :=
  if '0' ≤ c ∧ c ≤ '9' then some (c.toNat - '0'.toNat)
  else if 'a' ≤ c ∧ c ≤ 'f' then some (c.toNat - 'a'.toNat + 10)
  else if 'A' ≤ c ∧ c ≤ 'F' then some (c.toNat - 'A'.toNat + 10)
  else none

def hexCode? (a b c d : Char) : Option Nat := do
  let a ← hexValue? a
  let b ← hexValue? b
  let c ← hexValue? c
  let d ← hexValue? d
  return ((a * 16 + b) * 16 + c) * 16 + d

/-- The character that a letter after a backslash stands for. -/
def escaped? : Char → Option Char
  | '\x22' => some '\x22'
  | '\x5c' => some '\x5c'
  | '/' => some '/'
  | 'b' => some '\x08'
  | 'f' => some '\x0c'
  | 'n' => some '\n'
  | 'r' => some '\r'
  | 't' => some '\t'
  | _ => none

/-- The code that two halves of a surrogate pair make up. -/
def joinSurrogates (high low : Nat) : Nat :=
  0x10000 + (high - 0xd800) * 0x400 + (low - 0xdc00)

/-- The code point of an escaped code, and how much of the text after the escape belongs to it: the low
half of a surrogate pair is an escape of its own. A half that stands alone is kept. -/
def finishEscape (code : Nat) (after : List Char) : Except Fault (Text.CodePoint × Nat) :=
  match after with
  | '\x5c' :: 'u' :: a :: b :: c :: d :: _ :: _ =>
      if 0xd800 ≤ code ∧ code < 0xdc00 then
        match hexCode? a b c d with
        | none => .error ⟨.badUnicodeEscape, after.drop 1⟩
        | some low =>
            if 0xdc00 ≤ low ∧ low < 0xe000 then .ok (.ofNat (joinSurrogates code low), 6)
            else .ok (.ofNat code, 0)
      else .ok (.ofNat code, 0)
  | _ => .ok (.ofNat code, 0)

/-- Reads a string after its opening quote, with which the text `start` begins. The code points so far
stand in `done` in reverse. An escape is never the last thing of a text. -/
def readString (start : List Char) (done : List Text.CodePoint) : List Char → Read LooseText
  | [] => .error ⟨.unterminatedString, start⟩
  | '\x22' :: rest => .ok (⟨done.reverse⟩, rest)
  | '\x5c' :: [] => .error ⟨.unterminatedString, start⟩
  | '\x5c' :: 'u' :: a :: b :: c :: d :: e :: rest =>
      match hexCode? a b c d with
      | none => .error ⟨.badUnicodeEscape, 'u' :: a :: b :: c :: d :: e :: rest⟩
      | some code =>
          match finishEscape code (e :: rest) with
          | .error fault => .error fault
          | .ok (point, taken) => readString start (point :: done) ((e :: rest).drop taken)
  | '\x5c' :: c :: rest =>
      if c = 'u' then .error ⟨.badUnicodeEscape, c :: rest⟩
      else
        match escaped? c with
        | none => .error ⟨.badEscape, '\x5c' :: c :: rest⟩
        | some c => readString start (.char c :: done) rest
  | c :: rest =>
      if c.toNat < 0x20 then .error ⟨.controlCharacter, c :: rest⟩
      else readString start (.char c :: done) rest
  termination_by text => text.length
  decreasing_by all_goals simp only [List.length_cons, List.length_drop]; omega

def isAsciiDigit (c : Char) : Bool :=
  '0' ≤ c && c ≤ '9'

/-- Takes the whole part of a number off the front: a lone zero, or digits that begin with none. -/
def takeWhole? : List Char → Option (List Char × List Char)
  | '0' :: rest => some (['0'], rest)
  | text =>
      match text.takeWhile isAsciiDigit with
      | [] => none
      | digits => some (digits, text.dropWhile isAsciiDigit)

/-- Takes a point and digits off the front, if both are there. -/
def takeFraction (text : List Char) : List Char × List Char :=
  match text with
  | '.' :: rest =>
      match rest.takeWhile isAsciiDigit with
      | [] => ([], text)
      | digits => ('.' :: digits, rest.dropWhile isAsciiDigit)
  | _ => ([], text)

/-- Takes an exponent off the front, if one with digits is there. -/
def takeExponent (text : List Char) : List Char × List Char :=
  match text with
  | [] => ([], [])
  | mark :: rest =>
      if mark = 'e' ∨ mark = 'E' then
        let (sign, rest) :=
          match rest with
          | '+' :: rest => (['+'], rest)
          | '-' :: rest => (['-'], rest)
          | rest => ([], rest)
        match rest.takeWhile isAsciiDigit with
        | [] => ([], text)
        | digits => (mark :: sign ++ digits, rest.dropWhile isAsciiDigit)
      else ([], text)

/-- Reads a number without its sign. -/
def readMagnitude (negative : Bool) (start text : List Char) : Read Json :=
  match takeWhole? text with
  | none => .error ⟨.value, start⟩
  | some (whole, rest) =>
      let (fraction, rest) := takeFraction rest
      let (exponent, rest) := takeExponent rest
      if fraction.isEmpty && exponent.isEmpty then
        match Text.numeral? whole with
        | none => .error ⟨.longNumeral whole.length, start⟩
        | some n => .ok (.integer (if negative then -(n : Int) else n), rest)
      else
        let literal := (if negative then ['-'] else []) ++ whole ++ fraction ++ exponent
        .ok (.decimal (String.ofList literal), rest)

def readNumber (text : List Char) : Read Json :=
  match text with
  | '-' :: rest => readMagnitude true text rest
  | _ => readMagnitude false text text

/-- Takes a word off the front of a text that begins with it. -/
def takeWord? (word : String) (text : List Char) : Option (List Char) :=
  if word.toList.isPrefixOf text then some (text.drop word.length) else none

/-- The values that are written as a word. -/
def wordValues : List (String × Json) :=
  [
    ("null", .null), ("true", .bool true), ("false", .bool false), ("NaN", .decimal "NaN"),
    ("Infinity", .decimal "Infinity"), ("-Infinity", .decimal "-Infinity")
  ]

/-- Reads a value that is no string, array or object. -/
def readPlain (text : List Char) : Read Json :=
  match wordValues.findSome? fun entry => (takeWord? entry.1 text).map fun rest => (entry.2, rest) with
  | some read => .ok read
  | none => readNumber text

mutual

/-- Reads a value, inside which `depth` arrays and objects may be nested. `fuel` bounds the calls; twice
the length of the text is enough. -/
def readValue (fuel depth : Nat) (text : List Char) : Read Json :=
  match fuel with
  | 0 => .error ⟨.value, text⟩
  | fuel + 1 =>
      match text, depth with
      | '\x22' :: rest, _ => (readString text [] rest).map fun read => (.string read.1, read.2)
      | '{' :: _, 0 => .error ⟨.tooDeep .object, text⟩
      | '{' :: rest, depth + 1 =>
          match skipBlanks rest with
          | '}' :: rest => .ok (.object [], rest)
          | rest => readFields fuel depth [] rest
      | '[' :: _, 0 => .error ⟨.tooDeep .array, text⟩
      | '[' :: rest, depth + 1 =>
          match skipBlanks rest with
          | ']' :: rest => .ok (.array [], rest)
          | rest => readItems fuel depth [] rest
      | _, _ => readPlain text

/-- Reads the rest of an array, at the start of an item; the items so far stand in `done` in reverse. -/
def readItems (fuel depth : Nat) (done : List Json) (text : List Char) : Read Json :=
  match fuel with
  | 0 => .error ⟨.value, text⟩
  | fuel + 1 =>
      match readValue fuel depth text with
      | .error fault => .error fault
      | .ok (item, rest) =>
          match skipBlanks rest with
          | ']' :: rest => .ok (.array (item :: done).reverse, rest)
          | ',' :: rest => readItems fuel depth (item :: done) (skipBlanks rest)
          | rest => .error ⟨.comma, rest⟩

/-- Reads the rest of an object, at the start of a field; `done` holds the fields so far. -/
def readFields (fuel depth : Nat) (done : List (LooseText × Json)) (text : List Char) : Read Json :=
  match fuel with
  | 0 => .error ⟨.value, text⟩
  | fuel + 1 =>
      match text with
      | '\x22' :: rest =>
          match readString text [] rest with
          | .error fault => .error fault
          | .ok (key, rest) =>
              match skipBlanks rest with
              | ':' :: rest =>
                  match readValue fuel depth (skipBlanks rest) with
                  | .error fault => .error fault
                  | .ok (value, rest) =>
                      match skipBlanks rest with
                      | '}' :: rest => .ok (.object (put done key value), rest)
                      | ',' :: rest => readFields fuel depth (put done key value) (skipBlanks rest)
                      | rest => .error ⟨.comma, rest⟩
              | rest => .error ⟨.colon, rest⟩
      | _ => .error ⟨.propertyName, text⟩

end

/-- Reads a text that is one value, blanks around it allowed. At most `depth` arrays and objects may stand
inside one another. -/
def readText (depth : Nat) (text : List Char) : Except Fault Json :=
  match text with
  | '\ufeff' :: _ => .error ⟨.byteOrderMark, text⟩
  | _ =>
      match readValue (2 * text.length + 2) depth (skipBlanks text) with
      | .error fault => .error fault
      | .ok (value, rest) =>
          match skipBlanks rest with
          | [] => .ok value
          | rest => .error ⟨.extraData, rest⟩

/-- The number of the line on which the end of a text begins, counted from one. -/
def lineOf (text rest : List Char) : Nat :=
  1 + (text.count '\n' - rest.count '\n')

end LineScore.Json
