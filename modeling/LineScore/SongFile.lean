import LineScore.Document.Schema
import LineScore.FileView
import LineScore.Json.Reader
import LineScore.Path
import LineScore.Text.Newline

/-! Song files: a JSON document in UTF-8. -/

namespace LineScore.SongFile

/-- What is wrong with a JSON text, or the error that is not told as one of the file. -/
def causeText : Json.Cause → Except Error String
  | .byteOrderMark => .ok "Unexpected UTF-8 BOM (decode using utf-8-sig)"
  | .value => .ok "Expecting value"
  | .propertyName => .ok "Expecting property name enclosed in double quotes"
  | .colon => .ok "Expecting ':' delimiter"
  | .comma => .ok "Expecting ',' delimiter"
  | .extraData => .ok "Extra data"
  | .unterminatedString => .ok "Unterminated string starting at"
  | .controlCharacter => .ok "Invalid control character at"
  | .badEscape => .ok "Invalid \\escape"
  | .badUnicodeEscape => .ok "Invalid \\uXXXX escape"
  | .longNumeral digits => .error (.longNumeral digits)
  | .tooDeep innermost => .error (.nestedTooDeep innermost)

/-- The error of a text that is no JSON. -/
def faultError (path : String) (text : List Char) (fault : Json.Fault) : Error :=
  match causeText fault.cause with
  | .ok cause => .songFile path s!"not valid JSON ({cause} at line {Json.lineOf text fault.rest})."
  | .error e => e

/-- The document value in the bytes of a file, at most `depth` arrays and objects inside one another. -/
def decode (depth : Nat) (path : String) (bytes : List UInt8) : Except Error Json := do
  let text ← (Text.readUtf8 bytes).mapError Error.undecodable
  let text := Text.unifyNewlines text
  (Json.readText depth text).mapError (faultError path text)

def load (depth : Nat) (view : FileView) (name : String) : Logged Song :=
  let path := (Path.ofText name).text
  (Logged.lift (do decode depth path (← view.read path))).andThen (Document.load path)

end LineScore.SongFile
