import LineScore.Key
import LineScore.Voice

/-! Songs under construction. A song is declared piece by piece and then grows by whole sections; it
remembers the sections it has, and where its meter and its key change. -/

namespace LineScore

/-- The most voices of a song: one to each MIDI channel. -/
def maxVoices : Nat := 16

/-- The speed of a song, in beats per minute. -/
abbrev Tempo := { bpm : Nat // 0 < bpm }

def Tempo.standard : Tempo := ⟨120, by decide⟩

/-- A song. Voices stand in the order of their first use. `history` holds the measures and the meter
of every section so far, the change lists the offsets at which meter and key take a new value. -/
structure Song where
  title : LooseText := "Untitled"
  author : LooseText := "Anonymous"
  tempo : Tempo := .standard
  key : Key := .cMajor
  meter : Meter := .common
  instruments : List Instrument := []
  voices : List Voice := []
  length : Rat := 0
  measureCount : Int := 0
  history : List (Int × Meter) := []
  meterChanges : List (Rat × Meter) := []
  keyChanges : List (Rat × Key) := []
  deriving DecidableEq, Repr

namespace Song

def findInstrument? (s : Song) (symbol : LooseText) : Option Instrument :=
  s.instruments.find? fun i => i.symbol = symbol

def addInstrument (s : Song) (symbol name : LooseText) : Except Error Song :=
  match s.findInstrument? symbol with
  | some _ => .error (.duplicateInstrument symbol)
  | none => (Instrument.declare symbol name).map fun i => { s with instruments := s.instruments ++ [i] }

def setKey (s : Song) (name : LooseText) : Except Error Song :=
  (Key.ofName name).map fun key => { s with key }

def setTempo (s : Song) (bpm : Int) : Except Error Song :=
  if h : 0 < bpm then .ok { s with tempo := ⟨bpm.toNat, by omega⟩ }
  else .error (.reporting [bpm] (.invalidTempo bpm))

/-- Sets the meter by its written form, which halves of surrogate pairs cannot be part of. -/
def setTime (s : Song) (text : LooseText) : Except Error Song :=
  (Meter.parse text.shown).map fun meter => { s with meter }

def addVoice (s : Song) (instrument : Instrument) (events : List Event) : Song :=
  { s with voices := s.voices ++ [Voice.extend { instrument, index := s.voices.length } events] }

def extendVoice (s : Song) (index : Int) (events : List Event) : Song :=
  { s with voices := s.voices.map fun v => if v.index = index then v.extend events else v }

/-- Rests for sections, those of one meter that follow each other joined to a single rest. -/
def joinRests (history : List (Int × Meter)) : List (Int × Meter) :=
  history.foldl
    (fun rests entry =>
      match rests.getLast? with
      | some (measures, meter) =>
          if meter = entry.2 then rests.dropLast ++ [(measures + entry.1, meter)] else rests ++ [entry]
      | none => [entry])
    []

/-- The silence of all sections so far, as measure rests. -/
def elapsedRests (s : Song) : List Event :=
  (joinRests s.history).map fun entry => .measureRest entry.1 entry.2

/-- A change list with a value at an offset, noted only where it differs from the value before. -/
def markChange {α : Type} [DecidableEq α] (changes : List (Rat × α)) (offset : Rat) (value : α) :
    List (Rat × α) :=
  match changes.getLast? with
  | some (_, last) => if last = value then changes else changes ++ [(offset, value)]
  | none => [(offset, value)]

/-- Counts a section of the current meter and key. -/
def record (s : Song) (measures : Int) : Song :=
  { s with
    meterChanges := markChange s.meterChanges s.length s.meter
    keyChanges := markChange s.keyChanges s.length s.key
    length := s.length + s.meter.spanLength measures
    measureCount := s.measureCount + measures
    history := s.history ++ [(measures, s.meter)] }

end Song

end LineScore
