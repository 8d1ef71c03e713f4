import LineScore.Event

/-! Events asked for by the values of their fields. Names of articulations and time signatures are
settled first, then the durations, and the spelling of notes last. -/

namespace LineScore

/-- An event by the values of its fields. -/
inductive EventRequest where
  | note (duration : Duration) (letter accidental : String) (octave : Int) (accented : Bool)
      (articulation : String)
  | rest (duration : Duration)
  | measureRest (measures numerator denominator : Int)
  deriving DecidableEq, Repr

namespace EventRequest

/-- Refuses an unknown articulation and an impossible time signature. -/
def checkForm : EventRequest → Except Error Unit
  | .note _ _ _ _ _ articulation => (Articulation.ofText articulation).map fun _ => ()
  | .rest _ => .ok ()
  | .measureRest _ numerator denominator => (Meter.make? numerator denominator).map fun _ => ()

def checkLength : EventRequest → Except Error Unit
  | .note duration _ _ _ _ _ => duration.check
  | .rest duration => duration.check
  | .measureRest _ _ _ => .ok ()

def event : EventRequest → Except Error Event
  | .note duration letter accidental octave accented articulation =>
      match Letter.ofText? letter, Accidental.ofText? accidental with
      | none, _ => .error (.unknownSpelling letter)
      | some _, none => .error (.unknownSpelling accidental)
      | some letter, some accidental => do
          let articulation ← Articulation.ofText articulation
          return .note { duration, letter, accidental, octave, accented, articulation }
  | .rest duration => .ok (.rest duration)
  | .measureRest measures numerator denominator =>
      (Meter.make? numerator denominator).map (.measureRest measures)

/-- The events of requests, refused for the first fault of the earliest kind. -/
def events (requests : List EventRequest) : Except Error (List Event) := do
  requests.forM checkForm
  requests.forM checkLength
  requests.mapM event

end EventRequest

end LineScore
