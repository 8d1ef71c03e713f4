import LineScore.Error
import LineScore.Meter
import LineScore.Number.Fraction

/-! Notices: what a compilation tells about itself while it goes on. -/

namespace LineScore

/-- Something that happened during a compilation. -/
inductive Notice where
  | voiceCreated (label : LooseText) (measure : Int)
  | sectionApplied (place : String) (lines voices : Nat) (length : Rat)
  | songRefused (path details : String)
  | songLoaded (title : LooseText) (measures : Int) (voices : Nat)
  | meterSkipped (meter : Meter)
  | voiceRendered (channel : Nat) (instrument : LooseText) (notes : Nat)
  | fileWritten (path : String)
  deriving DecidableEq, Repr

/-- The text of a notice, the part of the program that it comes from in front. There is none when a
number in it has too many digits. -/
def Notice.text? : Notice → Option String
  | .voiceCreated label measure =>
      (Text.integer? measure).map fun number => s!"cabbage.song: Created {label} at measure {number}"
  | .sectionApplied place lines voices length =>
      (Number.fraction? length).map fun length =>
        s!"cabbage.song: Applied measure(s) {place}: {lines} line(s), {voices} voice(s), "
          ++ s!"song length {length}"
  | .songRefused path details =>
      some s!"cabbage.song_file: Song file {path} failed validation:\n{details}"
  | .songLoaded title measures voices =>
      (Text.integer? measures).map fun count =>
        s!"cabbage.song_file: Loaded '{title}': {count} measure(s), {voices} voice(s)"
  | .meterSkipped meter =>
      some s!"cabbage.midi_exporter: Skipping time signature meta event for {meter.text}"
  | .voiceRendered channel instrument notes =>
      some s!"cabbage.midi_exporter: Voice {channel} ({instrument}): {notes} note(s)"
  | .fileWritten path => some s!"cabbage.midi_exporter: Wrote {path}"

/-- A result with the notices given on the way to it. -/
structure Logged (α : Type) where
  notices : List Notice
  result : Except Error α

namespace Logged

variable {α β : Type}

/-- A result without notices. -/
def lift (result : Except Error α) : Logged α :=
  ⟨[], result⟩

/-- A notice by itself. -/
def tell (notice : Notice) : Logged Unit :=
  ⟨[notice], .ok ()⟩

/-- Goes on with a result, unless it is an error. -/
def andThen (first : Logged α) (next : α → Logged β) : Logged β :=
  match first.result with
  | .error e => ⟨first.notices, .error e⟩
  | .ok a => ⟨first.notices ++ (next a).notices, (next a).result⟩

instance : Monad Logged where
  pure a := ⟨[], .ok a⟩
  bind := andThen

end Logged

end LineScore
