import LineScore.Midi.File

/-! Reading Standard MIDI files. A file is a header chunk and track chunks, each as long as its length field
says. A track is a run of events, each with the ticks since the one before and a status byte of its own;
the event that ends a track stands once, at the end of its chunk. Whatever is not of this form is refused. -/

namespace LineScore.Midi

/-- The number that bytes stand for, the highest first. -/
def ofBigEndian (bytes : List UInt8) : Nat :=
  bytes.foldl (fun n b => 256 * n + b.toNat) 0

/-- Takes a variable-length quantity off the front, `high` being what the groups before come to. -/
def takeQuantity? (high : Nat) : List UInt8 → Option (Nat × List UInt8)
  | [] => none
  | b :: rest =>
      if b.toNat < 128 then some (128 * high + b.toNat, rest)
      else takeQuantity? (128 * high + (b.toNat - 128)) rest

def takeBytes? (count : Nat) (bytes : List UInt8) : Option (List UInt8 × List UInt8) :=
  if count ≤ bytes.length then some (bytes.take count, bytes.drop count) else none

inductive FileEvent where
  /-- A meta event by its type and its contents. -/
  | tag (kind : Nat) (contents : List UInt8)
  /-- A message to a channel. Its kind is the upper half of the status byte. -/
  | channel (kind number : Nat) (data : List Nat)
  deriving DecidableEq, Repr

def FileEvent.ending : FileEvent := .tag 0x2f []

/-- How many data bytes the messages of a kind have. -/
def dataCount? (kind : Nat) : Option Nat :=
  if kind ∈ [8, 9, 10, 11, 14] then some 2 else if kind ∈ [12, 13] then some 1 else none

/-- Takes a meta event off the front, its status byte being gone. -/
def takeTag? : List UInt8 → Option (FileEvent × List UInt8)
  | [] => none
  | kind :: rest => do
      let (length, rest) ← takeQuantity? 0 rest
      let (contents, rest) ← takeBytes? length rest
      return (.tag kind.toNat contents, rest)

/-- Takes the data bytes of a channel message off the front. They are below 128. -/
def takeData? (status : Nat) (bytes : List UInt8) : Option (FileEvent × List UInt8) := do
  let count ← dataCount? (status / 16)
  let (taken, rest) ← takeBytes? count bytes
  let data := taken.map UInt8.toNat
  if data.all (· < 128) then some (.channel (status / 16) (status % 16) data, rest) else none

def takeEvent? : List UInt8 → Option (FileEvent × List UInt8)
  | [] => none
  | status :: rest => if status = 0xff then takeTag? rest else takeData? status.toNat rest

/-- Takes an event off the front, with the ticks since the one before. -/
def takeTimed? (bytes : List UInt8) : Option (Nat × FileEvent × List UInt8) := do
  let (ticks, rest) ← takeQuantity? 0 bytes
  let (event, rest) ← takeEvent? rest
  return (ticks, event, rest)

theorem length_of_takeQuantity? {high n : Nat} {bytes rest : List UInt8}
    (h : takeQuantity? high bytes = some (n, rest)) : rest.length < bytes.length := by
  induction bytes generalizing high with
  | nil => cases h
  | cons b bytes ih =>
      rw [takeQuantity?] at h
      split at h
      · cases h
        exact Nat.lt_succ_self _
      · exact Nat.lt_succ_of_lt (ih h)

theorem length_of_takeBytes? {count : Nat} {bytes taken rest : List UInt8}
    (h : takeBytes? count bytes = some (taken, rest)) : rest.length ≤ bytes.length := by
  unfold takeBytes? at h
  split at h
  · cases h
    rw [List.length_drop]
    exact Nat.sub_le _ _
  · cases h

theorem length_of_takeTag? {bytes rest : List UInt8} {event : FileEvent}
    (h : takeTag? bytes = some (event, rest)) : rest.length ≤ bytes.length := by
  cases bytes with
  | nil => cases h
  | cons kind bytes =>
      obtain ⟨⟨length, contents⟩, hlength, h⟩ := Option.bind_eq_some_iff.mp h
      obtain ⟨⟨taken, others⟩, htaken, h⟩ := Option.bind_eq_some_iff.mp h
      cases h
      have hcontents := length_of_takeQuantity? hlength
      have hrest := length_of_takeBytes? htaken
      exact Nat.le_succ_of_le (Nat.le_trans hrest (Nat.le_of_lt hcontents))

theorem length_of_takeData? {status : Nat} {bytes rest : List UInt8} {event : FileEvent}
    (h : takeData? status bytes = some (event, rest)) : rest.length ≤ bytes.length := by
  obtain ⟨count, -, h⟩ := Option.bind_eq_some_iff.mp h
  obtain ⟨⟨data, others⟩, hdata, h⟩ := Option.bind_eq_some_iff.mp h
  dsimp only at h
  split at h
  · cases h
    exact length_of_takeBytes? hdata
  · cases h

theorem length_of_takeTimed? {ticks : Nat} {bytes rest : List UInt8} {event : FileEvent}
    (h : takeTimed? bytes = some (ticks, event, rest)) : rest.length < bytes.length := by
  obtain ⟨⟨count, others⟩, hticks, h⟩ := Option.bind_eq_some_iff.mp h
  obtain ⟨⟨found, left⟩, hevent, h⟩ := Option.bind_eq_some_iff.mp h
  cases h
  have hothers := length_of_takeQuantity? hticks
  cases others with
  | nil => cases hevent
  | cons status others =>
      have hrest : rest.length ≤ others.length := by
        rw [takeEvent?] at hevent
        split at hevent
        · exact length_of_takeTag? hevent
        · exact length_of_takeData? hevent
      rw [List.length_cons] at hothers
      omega

/-- The events of a track by the contents of its chunk, each at its tick, the one before them being at
`tick`. The ending is left out. -/
def readEvents? (tick : Nat) (bytes : List UInt8) : Option (List (Nat × FileEvent)) :=
  match _h : takeTimed? bytes with
  | none => none
  | some (ticks, event, rest) =>
      if event = .ending then if rest = [] then some [] else none
      else (readEvents? (tick + ticks) rest).map ((tick + ticks, event) :: ·)
  termination_by bytes.length
  decreasing_by exact length_of_takeTimed? _h

theorem readEvents?_of_event {tick ticks : Nat} {bytes rest : List UInt8} {event : FileEvent}
    (h : takeTimed? bytes = some (ticks, event, rest)) (hevent : event ≠ .ending) :
    readEvents? tick bytes = (readEvents? (tick + ticks) rest).map ((tick + ticks, event) :: ·) := by
  rw [readEvents?]
  split
  · next hnone =>
      rw [h] at hnone
      cases hnone
  · next hsome =>
      rw [h] at hsome
      cases hsome
      rw [if_neg hevent]

theorem readEvents?_of_ending {tick ticks : Nat} {bytes : List UInt8}
    (h : takeTimed? bytes = some (ticks, .ending, [])) : readEvents? tick bytes = some [] := by
  rw [readEvents?]
  split
  · next hnone =>
      rw [h] at hnone
      cases hnone
  · next hsome =>
      rw [h] at hsome
      cases hsome
      rw [if_pos rfl, if_pos rfl]

/-- Takes a chunk off the front: its four letters and its contents. -/
def takeChunk? (bytes : List UInt8) : Option (List UInt8 × List UInt8 × List UInt8) := do
  let (name, rest) ← takeBytes? 4 bytes
  let (length, rest) ← takeBytes? 4 rest
  let (contents, rest) ← takeBytes? (ofBigEndian length) rest
  return (name, contents, rest)

/-- The letters of a chunk's name. -/
def letters (name : String) : List UInt8 :=
  name.toList.map fun c => UInt8.ofNat c.toNat

/-- Reads a number of track chunks that follow each other and fill the bytes. -/
def readTracks? : Nat → List UInt8 → Option (List (List (Nat × FileEvent)))
  | 0, bytes => if bytes = [] then some [] else none
  | count + 1, bytes => do
      let (name, contents, rest) ← takeChunk? bytes
      if name = letters "MTrk" then
        let track ← readEvents? 0 contents
        let others ← readTracks? count rest
        return track :: others
      else none

/-- What a Standard MIDI File tells: its format, the ticks of a quarter note, and the events of each
track. -/
structure Contents where
  format : Nat
  division : Nat
  tracks : List (List (Nat × FileEvent))
  deriving DecidableEq, Repr

def read? (bytes : List UInt8) : Option Contents := do
  let (name, header, rest) ← takeChunk? bytes
  if name = letters "MThd" ∧ header.length = 6 then
    let format := ofBigEndian (header.take 2)
    let count := ofBigEndian ((header.drop 2).take 2)
    let division := ofBigEndian (header.drop 4)
    let tracks ← readTracks? count rest
    return ⟨format, division, tracks⟩
  else none

end LineScore.Midi
