import LineScore.Midi.Message

/-! Standard MIDI files of format 1. A track is a chunk of messages with the ticks between them; a file
is a header and its tracks.

Of the midiutil library it is assumed that it sorts each track by ticks and ranks without exchanging equals,
writes nothing for a step back in time, writes the header before it packs the first message, and packs the
length of a chunk in four bytes or fails. -/

namespace LineScore.Midi

/-- A message and the tick at which it happens. -/
structure TimedMessage where
  tick : Int
  message : Message
  deriving DecidableEq, Repr

/-- Whether a message may stand before another one. -/
def TimedMessage.before (a b : TimedMessage) : Bool :=
  a.tick < b.tick || (a.tick = b.tick && a.message.rank ≤ b.message.rank)

def ticksPerQuarter : Nat := 960

/-- The ticks since the message before. A negative number is not written at all. -/
def deltaBytes (ticks : Int) : List UInt8 :=
  if ticks < 0 then [] else quantity ticks.toNat

/-- The messages of a track in the order in which they are added. -/
abbrev Track := List TimedMessage

namespace Track

/-- The messages by tick, then by rank, then in the order in which they were added. -/
def ordered (t : Track) : Track :=
  t.mergeSort TimedMessage.before

/-- The bytes of messages in the order in which they are written, `previous` being the tick before. -/
def messageBytes (previous : Int) : List TimedMessage → Except Error (List UInt8)
  | [] => .ok []
  | m :: rest => do
      let bytes ← m.message.bytes
      let others ← messageBytes m.tick rest
      return deltaBytes (m.tick - previous) ++ bytes ++ others

def ending : List UInt8 := [0x00, 0xff, 0x2f, 0x00]

/-- A chunk: its four letters, the length of its contents, and the contents. -/
def chunk (name : String) (contents : List UInt8) : List UInt8 :=
  name.toList.map (fun c => UInt8.ofNat c.toNat) ++ bigEndian 4 contents.length ++ contents

/-- The most bytes that the contents of a chunk can have. -/
def maxContents : Nat := 4294967295

def bytes (t : Track) : Except Error (List UInt8) := do
  let messages ← messageBytes 0 t.ordered
  let contents := messages ++ ending
  if maxContents < contents.length then throw Error.chunkRange
  return chunk "MTrk" contents

end Track

structure File where
  tracks : List Track
  deriving DecidableEq, Repr

namespace File

/-- The header: the format, the number of tracks and the ticks of a quarter note. -/
def header (f : File) : List UInt8 :=
  Track.chunk "MThd" (bigEndian 2 1 ++ bigEndian 2 f.tracks.length ++ bigEndian 2 ticksPerQuarter)

def bytes (f : File) : Except Error (List UInt8) :=
  (f.tracks.mapM Track.bytes).map fun tracks => f.header ++ tracks.flatten

end File

end LineScore.Midi
