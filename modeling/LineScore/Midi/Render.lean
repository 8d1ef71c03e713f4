import LineScore.Midi.File
import LineScore.Notice
import LineScore.Timeline

/-! Rendering a song as MIDI. The first track carries tempo, meters and keys, the second the name of the
song, and each further one a voice on a channel of its own. Offsets become doubles before they become
ticks. -/

namespace LineScore.Midi

/-- The double nearest to a length. -/
def double (x : Rat) : Except Error Rat :=
  match Number.nearest? x with
  | some d => .ok d
  | none => .error .lengthOverflow

/-- The ticks of a length that is a double: the product is rounded to a double and cut to an integer. -/
def ticksOfDouble (d : Rat) : Except Error Int :=
  match Number.nearest? (d * (ticksPerQuarter : Rat)) with
  | some product => .ok (Number.truncate product)
  | none => .error .tickOverflow

def ticks (x : Rat) : Except Error Int := do
  ticksOfDouble (← double x)

/-- The microseconds of a quarter note, cut to an integer after a division in doubles. -/
def microseconds (tempo : Tempo) : Nat :=
  ((Number.nearest? (60000000 / (tempo.val : Rat))).map fun d => (Number.truncate d).toNat).getD 0

def isPowerOfTwo (n : Nat) : Bool :=
  n ≠ 0 && n &&& (n - 1) = 0

/-- The meters of the first track. One whose beat is no power of two is left out. -/
def meterMessages : List (Rat × Meter) → Logged Track
  | [] => pure []
  | (offset, meter) :: rest => do
      if isPowerOfTwo meter.denominator then
        let tick ← Logged.lift (ticks offset)
        let others ← meterMessages rest
        return ⟨tick, .timeSignature meter.numerator meter.denominator.log2⟩ :: others
      else
        Logged.tell (.meterSkipped meter)
        meterMessages rest

/-- The keys of the first track. -/
def keyMessages (changes : List (Rat × Key)) : Except Error Track :=
  changes.mapM fun change => do
    let tick ← ticks change.1
    return ⟨tick, .keySignature change.2.fifths change.2.isMinor⟩

/-- A list of changes, or the value in force when there are none. -/
def changesOr {α : Type} (changes : List (Rat × α)) (current : α) : List (Rat × α) :=
  if changes.isEmpty then [(0, current)] else changes

def nameTrack (s : Song) : Except Error Track := do
  let name ← (Text.writeLatin1 (s.title ++ " by " ++ s.author)).mapError Error.unencodable
  return [⟨0, .trackName name⟩]

def conductorTrack (s : Song) : Logged Track := do
  let meters ← meterMessages (changesOr s.meterChanges s.meter)
  let keys ← Logged.lift (keyMessages (changesOr s.keyChanges s.key))
  return ⟨0, .tempo (microseconds s.tempo)⟩ :: meters ++ keys

def maxPitch : Int := 127

/-- The messages of the notes of a voice, the first of which comes after `cursor`. -/
def noteMessages (channel : Nat) (instrument : LooseText) (cursor : Rat) :
    List TimedNote → Except Error Track
  | [] => .ok []
  | n :: rest => do
      if n.pitch < 0 ∨ maxPitch < n.pitch then
        throw (Error.reporting [n.pitch] (.pitchOutOfRange channel instrument n.pitch))
      let onset ← double (cursor + n.onsetDelay)
      let sound ← double n.soundDuration
      let start ← ticksOfDouble onset
      let length ← ticksOfDouble sound
      let others ← noteMessages channel instrument (cursor + n.onsetDelay + n.soundDuration) rest
      return ⟨start, .noteOn channel n.pitch n.velocity⟩
        :: ⟨start + length, .noteOff channel n.pitch n.velocity⟩ :: others

def volumeController : Nat := 7

def fullVolume : Nat := 127

def voiceTrack (channel : Nat) (t : Timeline) : Except Error Track := do
  let name := s!"Voice {channel}".toList.map fun c => UInt8.ofNat c.toNat
  let notes ← noteMessages channel t.instrument.name 0 t.notes
  return ⟨0, .trackName name⟩ :: ⟨0, .controller channel volumeController fullVolume⟩
    :: ⟨0, .program channel t.instrument.program.val⟩ :: notes

/-- The tracks of voices, the first of them on `channel`. -/
def voiceTracks (channel : Nat) : List Timeline → Logged (List Track)
  | [] => pure []
  | t :: rest => do
      let track ← Logged.lift (voiceTrack channel t)
      Logged.tell (.voiceRendered channel t.instrument.name t.notes.length)
      let others ← voiceTracks (channel + 1) rest
      return track :: others

def render (settings : TimelineSettings) (s : Song) : Logged File := do
  if maxVoices < s.voices.length then
    Logged.lift (.error (.tooManyVoices s.voices.length maxVoices))
  else
    let name ← Logged.lift (nameTrack s)
    let conductor ← conductorTrack s
    let voices ← voiceTracks 0 (s.timelines settings)
    return ⟨conductor :: name :: voices⟩

end LineScore.Midi
