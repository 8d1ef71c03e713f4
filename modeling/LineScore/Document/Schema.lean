import LineScore.Document
import LineScore.Json

/-! The shape of song documents in JSON. Types are strict and unknown keys are refused. Every violation
is reported: the fields of an object in their declared order, then its unknown keys in its own order.

This is what the models of the pydantic library are assumed to accept, and the texts are those of its errors:
a strict integer is neither a boolean nor a float, a strict string may hold half of a surrogate pair, and a
value that fits no member of a union is reported under each of them. -/

namespace LineScore

/-- A place in a document that breaks the schema, and what should have been there. -/
structure Violation where
  path : List String
  message : String
  deriving DecidableEq, Repr

/-- A value read from a document, or all violations found in its place. -/
abbrev Checked (α : Type) := Except (List Violation) α

namespace Checked

variable {α β : Type}

/-- A single violation where the value itself should stand. -/
def refuse (message : String) : Checked α :=
  .error [⟨[], message⟩]

/-- The same result, found one step further down. -/
def inside (step : String) (result : Checked α) : Checked α :=
  result.mapError fun violations => violations.map fun v => { v with path := step :: v.path }

/-- Both results, with the violations of both. -/
def both (first : Checked (α → β)) (second : Checked α) : Checked β :=
  match first, second with
  | .ok f, .ok a => .ok (f a)
  | .ok _, .error e => .error e
  | .error e, .ok _ => .error e
  | .error e, .error e' => .error (e ++ e')

/-- The results of a list, with the violations of all of them. -/
def all : List (Checked α) → Checked (List α)
  | [] => .ok []
  | first :: rest => both (first.map List.cons) (all rest)

end Checked

namespace Schema

open Checked

variable {α : Type}

def string : Json → Checked LooseText
  | .string value => .ok value
  | _ => refuse "Input should be a valid string"

def boolean : Json → Checked Bool
  | .bool value => .ok value
  | _ => refuse "Input should be a valid boolean"

def integer : Json → Checked Int
  | .integer value => .ok value
  | _ => refuse "Input should be a valid integer"

def positive (value : Json) : Checked Int := do
  let n ← integer value
  if 0 < n then return n else refuse "Input should be greater than 0"

/-- A value that may be null. -/
def nullable (read : Json → Checked α) : Json → Checked (Option α)
  | .null => .ok none
  | value => (read value).map some

def list (read : Json → Checked α) : Json → Checked (List α)
  | .array items => all (items.mapIdx fun i item => (read item).inside (toString i))
  | _ => refuse "Input should be a valid list"

/-- An object, whose fields `read` takes. -/
def object (name : String) (read : List (LooseText × Json) → Checked α) : Json → Checked α
  | .object fields => read fields
  | _ => refuse s!"Input should be a valid dictionary or instance of {name}"

/-- A field that has to be there. -/
def required (key : LooseText) (read : Json → Checked α) (fields : List (LooseText × Json)) : Checked α :=
  inside key.shown (((Json.get? fields key).map read).getD (refuse "Field required"))

def optional (key : LooseText) (default : α) (read : Json → Checked α) (fields : List (LooseText × Json)) :
    Checked α :=
  inside key.shown (((Json.get? fields key).map read).getD (.ok default))

/-- Refuses every key that is not declared. -/
def noOthers (declared : List LooseText) (fields : List (LooseText × Json)) : Checked Unit :=
  match fields.filter fun f => !declared.contains f.1 with
  | [] => .ok ()
  | others => .error (others.map fun f => ⟨[f.1.shown], "Extra inputs are not permitted"⟩)

def time (value : Json) : Checked LooseText := do
  let text ← string value
  match Meter.parse text.shown with
  | .ok _ => return text
  | .error e => refuse s!"Value error, {e.message}"

def pairItems : List Json → Checked (Int × Int)
  | [] => both (both (.ok Prod.mk) (inside "0" (refuse "Field required"))) (inside "1" (refuse "Field required"))
  | [first] => both (both (.ok Prod.mk) (inside "0" (integer first))) (inside "1" (refuse "Field required"))
  | [first, last] => both (both (.ok Prod.mk) (inside "0" (integer first))) (inside "1" (integer last))
  | items => refuse s!"Tuple should have at most 2 items after validation, not {items.length}"

def pair : Json → Checked (Int × Int)
  | .array items => pairItems items
  | _ => refuse "Input should be a valid tuple"

/-- A positive number of measures, or a range of measures that starts at 1 or later and is not empty.
What is neither is reported as both. -/
def span (value : Json) : Checked Span :=
  match positive value, pair value with
  | .ok measures, _ => .ok (.count measures)
  | .error _, .ok (first, last) =>
      if first < 1 ∨ last < first then
        refuse "Value error, a measure range must be [first, last] with 1 <= first <= last"
      else .ok (.range first last)
  | .error asCount, .error asPair =>
      both (inside "constrained-int" (.error asCount)) (inside "tuple[int, int]" (Except.error asPair : Checked Unit))

def line : Json → Checked LineRequest :=
  object "LineEntry" fun fields =>
    both (both (both (both (both
      (.ok fun symbol notes defaultNote staccato _ => { symbol, notes, defaultNote, staccato })
      (required "voice" string fields))
      (required "notes" string fields))
      (optional "default_note" none (nullable positive) fields))
      (optional "staccato" false boolean fields))
      (noOthers ["voice", "notes", "default_note", "staccato"] fields)

def songSection : Json → Checked SectionEntry :=
  object "SectionEntry" fun fields =>
    both (both (both (both (both (both
      (.ok fun measures times time key lines _ => { measures, times, time, key, lines })
      (optional "measures" (.count 1) span fields))
      (optional "repeat" 1 positive fields))
      (optional "time" none (nullable time) fields))
      (optional "key" none (nullable string) fields))
      (required "lines" (list line) fields))
      (noOthers ["measures", "repeat", "time", "key", "lines"] fields)

def instrument : Json → Checked InstrumentEntry :=
  object "InstrumentEntry" fun fields =>
    both (both (both
      (.ok fun symbol name _ => { symbol, name })
      (required "symbol" string fields))
      (required "name" string fields))
      (noOthers ["symbol", "name"] fields)

def document : Json → Checked Document :=
  object "SongDocument" fun fields =>
    both (both (both (both (both (both (both (both
      (.ok fun title author tempo time key instruments sections _ =>
        { title, author, tempo, time, key, instruments, sections })
      (optional "title" "Untitled" string fields))
      (optional "author" "Anonymous" string fields))
      (optional "tempo" 120 positive fields))
      (optional "time" "4/4" time fields))
      (optional "key" "C+" string fields))
      (required "instruments" (list instrument) fields))
      (required "sections" (list songSection) fields))
      (noOthers ["title", "author", "tempo", "time", "key", "instruments", "sections"] fields)

end Schema

/-- The place of a violation; the document itself where the path is empty. -/
def Violation.placeText (v : Violation) : String :=
  let joined := " -> ".intercalate v.path
  if joined.isEmpty then "document" else joined

/-- One line for each violation. -/
def violationLines (violations : List Violation) : String :=
  "\n".intercalate (violations.map fun v => s!"  {v.placeText}: {v.message}")

/-- The song of a document value. Errors name the document as `path`. -/
def Document.load (path : String) (value : Json) : Logged Song :=
  match Schema.document value with
  | .ok document => document.compile
  | .error violations =>
      let details := violationLines violations
      ⟨[.songRefused path details],
        .error (.songFile path s!"{violations.length} schema error(s):\n{details}")⟩

end LineScore
