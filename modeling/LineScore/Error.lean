import LineScore.Json
import LineScore.Mismatch
import LineScore.Text.Quoted
import LineScore.Text.Utf8
import LineScore.Text.Latin1
import LineScore.Text.Digits

/-! What can go wrong between a song file and a MIDI file. Each constructor is a cause; the wording of
all of them is `Error.message`. -/

namespace LineScore

/-- The cause of a failure. -/
inductive Error where
  /-- The name belongs to no key. -/
  | invalidKey (name : LooseText)
  /-- The name belongs to no General MIDI program. -/
  | unknownProgram (name : LooseText)
  /-- The symbol has been given to an instrument before. -/
  | duplicateInstrument (symbol : LooseText)
  /-- A line is addressed to a symbol that no instrument has. -/
  | unknownInstrument (symbol : LooseText) (place : Option String)
  /-- A token is neither a note, a rest nor an octave step. -/
  | unparseableToken (token : String) (symbol : Option LooseText) (place : Option String)
  /-- The voices of a section do not add up to its length. -/
  | lengthMismatch (mismatch : Mismatch)
  /-- A song needs more voices than there are MIDI channels. -/
  | tooManyVoices (count limit : Int)
  /-- A song file holds no song. -/
  | songFile (path reason : String)
  /-- A text is no time signature. -/
  | malformedMeter (text : String)
  /-- A part of a time signature is not positive. -/
  | invalidMeter (numerator denominator : Int)
  /-- A duration divides the whole note by a number that is not positive. -/
  | invalidDenominator (denominator : Int)
  /-- A duration has fewer than no dots. -/
  | invalidDots (dots : Int)
  /-- A section has no measures. -/
  | emptySection (measures : Int)
  /-- The last measure of a range comes before the first. -/
  | emptyRange (first last : Int)
  /-- The default duration of a line is not positive. -/
  | invalidDefaultNote (denominator : Int)
  /-- A tempo is not positive. -/
  | invalidTempo (bpm : Int)
  /-- A section is applied for a second time. -/
  | alreadyApplied
  /-- The author gave a section up while writing it. -/
  | abandoned
  /-- The text names no articulation. -/
  | unknownArticulation (text : String)
  /-- A table of letters or accidentals has no such entry. -/
  | unknownSpelling (text : String)
  /-- No section of the name has been opened. -/
  | unknownSection (name : String)
  /-- A numeral has too many digits to be read. -/
  | longNumeral (digits : Nat)
  /-- A number has too many digits to be written. -/
  | longNumber
  /-- A length is out of the range of doubles. -/
  | lengthOverflow
  /-- A number of ticks is out of the range of doubles. -/
  | tickOverflow
  /-- A note lies outside the pitches of MIDI. -/
  | pitchOutOfRange (voice : Nat) (instrument : LooseText) (pitch : Int)
  /-- A number does not fit the byte that it is written to. -/
  | byteRange
  /-- The contents of a chunk are longer than its length field can tell. -/
  | chunkRange
  /-- The arrays and objects of a JSON text are nested too deep. -/
  | nestedTooDeep (innermost : Json.Container)
  /-- A file is no UTF-8 text. -/
  | undecodable (fault : Text.Utf8Fault)
  /-- A text has characters outside Latin-1. -/
  | unencodable (fault : Text.EncodingFault)
  /-- A text to be printed has half of a surrogate pair without the other one. -/
  | unprintable (fault : Text.EncodingFault)
  /-- There is no such file. -/
  | noSuchFile (path : String)
  /-- The path leads through a file as if it were a directory. -/
  | notADirectory (path : String)
  /-- The file is a directory. -/
  | isADirectory (path : String)
  /-- The path, or a name in it, is longer than any. -/
  | nameTooLong (path : String)
  /-- The path holds a null character. -/
  | nullInPath
  deriving DecidableEq, Repr

namespace Error

/-- The section and the voice that an error belongs to, as far as they are known. -/
def whereText (place : Option String) (symbol : Option LooseText) : String :=
  let parts :=
    (place.map fun p => s!"measure(s) {p}").toList ++ (symbol.map fun s => s!"voice '{s}'").toList
  if parts.isEmpty then "" else " (in " ++ ", ".intercalate parts ++ ")"

/-- Why a text is no UTF-8. -/
def utf8ReasonText : Text.Utf8Reason → String
  | .invalidStart => "invalid start byte"
  | .invalidContinuation => "invalid continuation byte"
  | .unexpectedEnd => "unexpected end of data"

/-- The bytes that are no UTF-8, one by its value and several by their positions. -/
def utf8FaultText (f : Text.Utf8Fault) : String :=
  let reason := utf8ReasonText f.reason
  if f.length = 1 then
    let byte := String.ofList (Text.hexDigits 2 f.byte.toNat)
    s!"'utf-8' codec can't decode byte 0x{byte} in position {f.start}: {reason}"
  else
    s!"'utf-8' codec can't decode bytes in position {f.start}-{f.start + f.length - 1}: {reason}"

/-- The code points that an encoding has no bytes for, one by its code and several by their positions. -/
def encodingFaultText (encoding reason : String) (f : Text.EncodingFault) : String :=
  if f.length = 1 then
    let code := String.ofList (Text.escapeCode f.first.toNat)
    s!"'{encoding}' codec can't encode character '{code}' in position {f.start}: {reason}"
  else
    s!"'{encoding}' codec can't encode characters in position {f.start}-{f.start + f.length - 1}: {reason}"

/-- The limit on the digits of a numeral, with what is known about the one that exceeds it. -/
def digitLimitText (detail : String) : String :=
  s!"Exceeds the limit ({Text.maxDigits} digits) for integer string conversion{detail}; "
    ++ "use sys.set_int_max_str_digits() to increase the limit"

def message : Error → String
  | .invalidKey name => s!"Invalid key '{name}'."
  | .unknownProgram name => s!"Can't find instrument '{name}'."
  | .duplicateInstrument symbol => s!"Instrument '{symbol}' is already declared."
  | .unknownInstrument symbol place => s!"Undefined instrument '{symbol}'{whereText place none}."
  | .unparseableToken token symbol place => s!"Couldn't parse note '{token}'{whereText place symbol}."
  | .lengthMismatch m => m.report?.getD ""
  | .tooManyVoices count limit => s!"Too many voices. Maximum is {limit}. You have {count}."
  | .songFile path reason => s!"Invalid song file '{path}': {reason}"
  | .malformedMeter text => s!"Invalid time signature '{text}'. Use the form 3/4."
  | .invalidMeter n d => s!"Invalid time signature {n}/{d}."
  | .invalidDenominator d => s!"Note denominator must be positive, got {d}."
  | .invalidDots dots => s!"Dot count must not be negative, got {dots}."
  | .emptySection measures => s!"A section must span at least one measure, got {measures}."
  | .emptyRange first last => s!"Measure range {first}..{last} is empty."
  | .invalidDefaultNote d => s!"default_note must be positive, got {d}."
  | .invalidTempo bpm => s!"Tempo must be positive, got {bpm}."
  | .alreadyApplied => "Section has already been applied."
  | .abandoned => "abandon"
  | .unknownArticulation text => s!"{Text.quoted text} is not a valid Articulation"
  | .unknownSpelling text => Text.quoted text
  | .unknownSection name => Text.quoted name
  | .longNumeral digits => digitLimitText s!": value has {digits} digits"
  | .longNumber => digitLimitText ""
  | .lengthOverflow => "integer division result too large for a float"
  | .tickOverflow => "cannot convert float infinity to integer"
  | .pitchOutOfRange voice instrument pitch =>
      s!"Voice {voice} ({instrument}) has pitch {pitch}, outside the MIDI range 0-127."
  | .nestedTooDeep innermost =>
      s!"maximum recursion depth exceeded while decoding a JSON {innermost.text} from a unicode string"
  | .byteRange => "ubyte format requires 0 <= number <= 255"
  | .chunkRange => "'L' format requires 0 <= number <= 4294967295"
  | .undecodable f => utf8FaultText f
  | .unencodable f => encodingFaultText "latin-1" "ordinal not in range(256)" f
  | .unprintable f => encodingFaultText "utf-8" "surrogates not allowed" f
  | .noSuchFile path => s!"[Errno 2] No such file or directory: {Text.quoted path}"
  | .notADirectory path => s!"[Errno 20] Not a directory: {Text.quoted path}"
  | .isADirectory path => s!"[Errno 21] Is a directory: {Text.quoted path}"
  | .nameTooLong path => s!"[Errno 36] File name too long: {Text.quoted path}"
  | .nullInPath => "embedded null byte"

/-- The error of voices that do not fill their section. Where a length is out of the range of doubles
the report cannot be written, and that is the error instead. -/
def mismatch (m : Mismatch) : Error :=
  if m.report?.isSome then .lengthMismatch m else .lengthOverflow

/-- An error that reports numbers. Where one of them has too many digits to be written, that is the error
instead. -/
def reporting (numbers : List Int) (e : Error) : Error :=
  if numbers.all fun n => (Text.integer? n).isSome then e else .longNumber

/-- What holds of an error and of that of a long number holds of the one that is reported. -/
theorem holds_reporting (P : Error → Prop) {numbers : List Int} {e : Error} (he : P e) (hlong : P .longNumber) :
    P (reporting numbers e) := by
  unfold reporting
  split
  · exact he
  · exact hlong

/-- The same error, told in which section and voice the token stands. -/
def locate (symbol : Option LooseText) (place : Option String) : Error → Error
  | .unparseableToken token _ _ => .unparseableToken token symbol place
  | e => e

end Error

end LineScore
