import LineScore.Event
import LineScore.Instrument
import LineScore.Number.Fraction

/-! Voices: what one instrument plays from the start of a song, event after event. -/

namespace LineScore

/-- An independent run of events of one instrument. `index` tells it from the other voices of its song,
where it is its position, and `length` is the sum of the lengths of its events. -/
structure Voice where
  instrument : Instrument
  index : Int
  events : List Event := []
  length : Rat := 0
  deriving DecidableEq, Repr

namespace Voice

def label (v : Voice) : LooseText :=
  v.instrument.name ++ s!" (voice {v.index})"

def append (v : Voice) (event : Event) : Voice :=
  { v with events := v.events ++ [event], length := v.length + event.length }

def extend (v : Voice) (events : List Event) : Voice :=
  { v with events := v.events ++ events, length := events.foldl (· + ·.length) v.length }

@[simp] theorem extend_instrument (v : Voice) (events : List Event) :
    (v.extend events).instrument = v.instrument := rfl

@[simp] theorem extend_index (v : Voice) (events : List Event) : (v.extend events).index = v.index := rfl

@[simp] theorem extend_events (v : Voice) (events : List Event) :
    (v.extend events).events = v.events ++ events := rfl

theorem extend_nil (v : Voice) : v.extend [] = v := by
  simp [extend]

theorem append_eq_extend (v : Voice) (event : Event) : v.append event = v.extend [event] := rfl

/-- A short description of the voice: its label, and how many events of which length it has. There is
none when the length has too many digits. -/
def describe? (v : Voice) : Option String :=
  (Number.fraction? v.length).map fun length =>
    s!"Voice({Text.quoted v.label}, events={v.events.length}, length={length})"

end Voice

end LineScore
