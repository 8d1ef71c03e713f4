import LineScore.Error

/-! MIDI messages and their bytes, as the midiutil library puts them. It is assumed of the library that every
number of a message to a channel and of a time signature is packed as an unsigned byte, that all but the last
24 bits of a tempo and the last eight of a key are dropped without a word, and that the messages of one tick
are sorted by the ranks that `Message.rank` gives. -/

namespace LineScore.Midi

inductive Message where
  | trackName (name : List UInt8)
  /-- The meter; its denominator is a power of two, given by the exponent. -/
  | timeSignature (numerator denominatorLog : Nat)
  /-- The key: its sharps, or its flats as a negative number. -/
  | keySignature (fifths : Int) (minor : Bool)
  /-- The length of a quarter note. -/
  | tempo (microseconds : Nat)
  | controller (channel number value : Nat)
  | program (channel number : Nat)
  | noteOn (channel : Nat) (pitch velocity : Int)
  | noteOff (channel : Nat) (pitch velocity : Int)
  deriving DecidableEq, Repr

/-- A number as the byte that it fits in. -/
def byte? (n : Int) : Except Error UInt8 :=
  if 0 ≤ n ∧ n ≤ 255 then .ok (UInt8.ofNat n.toNat) else .error .byteRange

/-- The groups of seven bits of a number, the highest first, each marked as not the last. -/
def leadingGroups (n : Nat) : List UInt8 :=
  if _h : n = 0 then [] else leadingGroups (n / 128) ++ [UInt8.ofNat (128 + n % 128)]
  termination_by n
  decreasing_by omega

/-- A variable-length quantity. -/
def quantity (n : Nat) : List UInt8 :=
  leadingGroups (n / 128) ++ [UInt8.ofNat (n % 128)]

/-- A number as `width` bytes, the highest first; what does not fit is cut off at the front. -/
def bigEndian (width n : Nat) : List UInt8 :=
  match width with
  | 0 => []
  | width + 1 => bigEndian width (n / 256) ++ [UInt8.ofNat (n % 256)]

theorem length_bigEndian (width n : Nat) : (bigEndian width n).length = width := by
  induction width generalizing n with
  | zero => rfl
  | succ width ih => simp [bigEndian, ih]

namespace Message

/-- Where a message stands among those of one tick. Notes end before others begin. -/
def rank : Message → Nat
  | .trackName _ => 0
  | .timeSignature _ _ => 0
  | .keySignature _ _ => 1
  | .controller _ _ _ => 1
  | .program _ _ => 1
  | .noteOff _ _ _ => 2
  | .noteOn _ _ _ => 3
  | .tempo _ => 3

def bytes : Message → Except Error (List UInt8)
  | .trackName name => .ok ([0xff, 0x03] ++ quantity name.length ++ name)
  | .timeSignature numerator denominatorLog => do
      let numerator ← byte? numerator
      let denominatorLog ← byte? denominatorLog
      return [0xff, 0x58, 0x04, numerator, denominatorLog, 24, 8]
  | .keySignature fifths minor =>
      .ok [0xff, 0x59, 0x02, UInt8.ofNat (fifths % 256).toNat, if minor then 1 else 0]
  | .tempo microseconds => .ok ([0xff, 0x51, 0x03] ++ bigEndian 3 microseconds)
  | .controller channel number value => do
      let status ← byte? (0xb0 + channel)
      let number ← byte? number
      let value ← byte? value
      return [status, number, value]
  | .program channel number => do
      let status ← byte? (0xc0 + channel)
      let number ← byte? number
      return [status, number]
  | .noteOn channel pitch velocity => do
      let status ← byte? (0x90 + channel)
      let pitch ← byte? pitch
      let velocity ← byte? velocity
      return [status, pitch, velocity]
  | .noteOff channel pitch velocity => do
      let status ← byte? (0x80 + channel)
      let pitch ← byte? pitch
      let velocity ← byte? velocity
      return [status, pitch, velocity]

end Message

end LineScore.Midi
