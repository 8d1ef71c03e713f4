import LineScore.Key
import LineScore.Notation.Token

/-! Lines of notation. The tokens of a line are read from left to right; octave steps carry over to the
tokens after them, and nothing carries over to another line. -/

namespace LineScore

/-- What stays fixed along a line. -/
structure LineContext where
  key : Key
  staccato : Bool := false
  deriving DecidableEq, Repr

/-- What is carried from token to token. -/
structure LineState where
  default : Duration
  octave : Int := 4
  deriving DecidableEq, Repr

/-- The note that a written note stands for. An articulation mark outweighs the line. -/
def WrittenNote.resolve (n : WrittenNote) (context : LineContext) (state : LineState) : Note where
  duration := n.duration.getD state.default
  letter := n.letter
  accidental := n.accidental.getD (context.key.accidentalFor n.letter)
  octave := state.octave + n.shift
  accented := n.accented
  articulation := n.mark.getD (if context.staccato then .staccato else .legato)

namespace Token

/-- The event that a token adds to its voice; octave steps add none. -/
def event? (context : LineContext) (state : LineState) : Token → Option Event
  | .octaveUp => none
  | .octaveDown => none
  | .rest duration => some (.rest (duration.getD state.default))
  | .note n => some (.note (n.resolve context state))

def next (state : LineState) : Token → LineState
  | .octaveUp => { state with octave := state.octave + 1 }
  | .octaveDown => { state with octave := state.octave - 1 }
  | _ => state

end Token

/-- Reads one token and plays it: its event, if it has one, and the state after it. -/
def playToken (context : LineContext) (state : LineState) (text : List Char) :
    Except Error (Option Event × LineState) :=
  (Token.read text).map fun token => (token.event? context state, token.next state)

/-- Plays tokens in order. The first one that cannot be read decides the error. -/
def playTokens (context : LineContext) (state : LineState) :
    List (List Char) → Except Error (List Event)
  | [] => .ok []
  | text :: rest => do
      let (event, state) ← playToken context state text
      let events ← playTokens context state rest
      return event.toList ++ events

theorem playTokens_cons (context : LineContext) (state : LineState) (text : List Char)
    (rest : List (List Char)) :
    playTokens context state (text :: rest) =
      match playToken context state text with
      | .error e => .error e
      | .ok (event, next) => (playTokens context next rest).map (event.toList ++ ·) := by
  rw [playTokens]
  cases playToken context state text <;> rfl

/-- The events of a line, which starts in the reference octave. -/
def playLine (context : LineContext) (default : Duration) (text : String) :
    Except Error (List Event) :=
  playTokens context { default } (Text.words text.toList)

end LineScore
