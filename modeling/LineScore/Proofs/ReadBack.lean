import LineScore.Midi.Reader
import LineScore.Proofs.Edits
import Mathlib.Data.List.Sort

/-! Files read back. Whatever is written by the encoder, from a number to the whole file, the reader takes
off the front again and leaves the bytes behind it alone. Messages have to fit for that: their channels and
data below the bounds that status bytes set, their ticks not before the start. -/

namespace LineScore.Midi

section Numbers

theorem takeQuantity?_leadingGroups (n : Nat) (rest : List UInt8) :
    takeQuantity? 0 (leadingGroups n ++ rest) = takeQuantity? n rest := by
  induction n using leadingGroups.induct generalizing rest with
  | case1 => rw [leadingGroups, dif_pos rfl, List.nil_append]
  | case2 n hpos ih =>
      have hbyte : (UInt8.ofNat (128 + n % 128)).toNat = 128 + n % 128 := by
        rw [UInt8.toNat_ofNat']
        omega
      have hmore : ¬ 128 + n % 128 < 128 := by omega
      have hsum : 128 * (n / 128) + (128 + n % 128 - 128) = n := by omega
      -- the higher groups are read first, with this one still among what follows them
      rw [leadingGroups, dif_neg hpos, List.append_assoc, ih, List.singleton_append, takeQuantity?, hbyte,
        if_neg hmore, hsum]

theorem takeQuantity?_quantity (n : Nat) (rest : List UInt8) :
    takeQuantity? 0 (quantity n ++ rest) = some (n, rest) := by
  have hbyte : (UInt8.ofNat (n % 128)).toNat = n % 128 := by
    rw [UInt8.toNat_ofNat']
    omega
  have hlast : n % 128 < 128 := by omega
  have hsum : 128 * (n / 128) + n % 128 = n := by omega
  rw [quantity, List.append_assoc, takeQuantity?_leadingGroups, List.singleton_append, takeQuantity?, hbyte,
    if_pos hlast, hsum]

example : takeQuantity? 0 [0x83, 0x60, 0x90] = some (480, [0x90]) := by decide

theorem quantity_of_lt {n : Nat} (hsmall : n < 128) : quantity n = [UInt8.ofNat n] := by
  have hnone : n / 128 = 0 := by omega
  rw [quantity, hnone, leadingGroups, dif_pos rfl, List.nil_append, Nat.mod_eq_of_lt hsmall]

theorem ofBigEndian_concat (bytes : List UInt8) (b : UInt8) :
    ofBigEndian (bytes ++ [b]) = 256 * ofBigEndian bytes + b.toNat :=
  List.foldl_concat _ _ _ _

/-- Bytes tell the number up to what was cut off. -/
theorem ofBigEndian_bigEndian (width n : Nat) : ofBigEndian (bigEndian width n) = n % 256 ^ width := by
  induction width generalizing n with
  | zero => rw [Nat.pow_zero, Nat.mod_one, bigEndian, ofBigEndian, List.foldl_nil]
  | succ width ih =>
      have hbyte : (UInt8.ofNat (n % 256)).toNat = n % 256 := by
        rw [UInt8.toNat_ofNat']
        omega
      rw [bigEndian, ofBigEndian_concat, ih, hbyte, Nat.pow_succ, Nat.mul_comm (256 ^ width), Nat.mod_mul]
      omega

theorem takeBytes?_append {front : List UInt8} {count : Nat} (hcount : front.length = count)
    (rest : List UInt8) : takeBytes? count (front ++ rest) = some (front, rest) := by
  subst hcount
  simp [takeBytes?]

end Numbers

section Messages

/-- The event that a message is written as. -/
def Message.event : Message → FileEvent
  | .trackName name => .tag 0x03 name
  | .timeSignature numerator denominatorLog =>
      .tag 0x58 [UInt8.ofNat numerator, UInt8.ofNat denominatorLog, 24, 8]
  | .keySignature fifths minor => .tag 0x59 [UInt8.ofNat (fifths % 256).toNat, if minor then 1 else 0]
  | .tempo microseconds => .tag 0x51 (bigEndian 3 microseconds)
  | .controller channel number value => .channel 0xb channel [number, value]
  | .program channel number => .channel 0xc channel [number]
  | .noteOn channel pitch velocity => .channel 0x9 channel [pitch.toNat, velocity.toNat]
  | .noteOff channel pitch velocity => .channel 0x8 channel [pitch.toNat, velocity.toNat]

/-- Whether a channel and data are below the bounds of a channel message. -/
def FitsChannel (channel : Nat) (data : List Int) : Prop :=
  channel < 16 ∧ ∀ n ∈ data, 0 ≤ n ∧ n < 128

/-- Whether a message is within the bounds of its kind. -/
def Message.Fits : Message → Prop
  | .controller channel number value => FitsChannel channel [number, value]
  | .program channel number => FitsChannel channel [number]
  | .noteOn channel pitch velocity => FitsChannel channel [pitch, velocity]
  | .noteOff channel pitch velocity => FitsChannel channel [pitch, velocity]
  | _ => True

theorem Message.event_ne_ending (m : Message) : m.event ≠ .ending := by
  cases m <;> simp [Message.event, FileEvent.ending]

theorem byte?_eq_ok {n : Int} {b : UInt8} (h : byte? n = .ok b) :
    0 ≤ n ∧ n ≤ 255 ∧ b = UInt8.ofNat n.toNat := by
  unfold byte? at h
  split at h
  · next hbounds =>
      cases h
      exact ⟨hbounds.1, hbounds.2, rfl⟩
  · cases h

theorem toNat_of_byte? {n : Int} {b : UInt8} (h : byte? n = .ok b) : (b.toNat : Int) = n := by
  obtain ⟨hlow, hhigh, rfl⟩ := byte?_eq_ok h
  rw [UInt8.toNat_ofNat']
  omega

theorem takeEvent?_tag (kind : UInt8) (contents rest : List UInt8) :
    takeEvent? ([0xff, kind] ++ quantity contents.length ++ contents ++ rest) =
      some (.tag kind.toNat contents, rest) := by
  simp only [List.cons_append, List.nil_append, List.append_assoc, takeEvent?, if_true, takeTag?,
    takeQuantity?_quantity, takeBytes?_append rfl, bind, Option.bind, pure]

/-- A status byte with the data bytes that belong to it is a channel message, unless one of them is too
large. -/
theorem takeEvent?_status (kind : Nat) {channel : Nat} {status : UInt8} {bytes : List UInt8} (hkind : kind < 15)
    (hchannel : channel < 16) (hstatus : byte? ((16 * kind : Nat) + channel) = .ok status)
    (hcount : dataCount? kind = some bytes.length) (rest : List UInt8) :
    takeEvent? (status :: bytes ++ rest) =
      if (bytes.map UInt8.toNat).all (· < 128) then some (.channel kind channel (bytes.map UInt8.toNat), rest)
      else none := by
  have hsum := toNat_of_byte? hstatus
  have hupper : status.toNat / 16 = kind := by omega
  have hlower : status.toNat % 16 = channel := by omega
  have hmeta : status ≠ 0xff := by
    rintro rfl
    have : (0xff : UInt8).toNat = 255 := rfl
    omega
  rw [List.cons_append, takeEvent?, if_neg hmeta, takeData?, hupper, hlower, hcount]
  simp only [bind, Option.bind, takeBytes?_append rfl]

theorem takeEvent?_channel (kind : Nat) {channel : Nat} {data : List Int} {status : UInt8}
    {bytes : List UInt8} (hkind : kind < 15) (hstatus : byte? ((16 * kind : Nat) + channel) = .ok status)
    (hfits : FitsChannel channel data) (hdata : bytes.map (fun b => (b.toNat : Int)) = data)
    (hcount : dataCount? kind = some bytes.length)
    (rest : List UInt8) :
    takeEvent? (status :: bytes ++ rest) = some (.channel kind channel (data.map Int.toNat), rest) := by
  have hvalues : bytes.map UInt8.toNat = data.map Int.toNat := by
    rw [← hdata, List.map_map]
    rfl
  have hsmall : (data.map Int.toNat).all (· < 128) = true := by
    rw [List.all_eq_true]
    intro n hn
    obtain ⟨d, hd, rfl⟩ := List.mem_map.mp hn
    have := hfits.2 d hd
    simp only [decide_eq_true_eq]
    omega
  rw [takeEvent?_status kind hkind hfits.1 hstatus hcount, hvalues, if_pos hsmall]

/-- The reader takes a message off the front and leaves what follows. -/
theorem takeEvent?_bytes {m : Message} (hfits : m.Fits) {bytes : List UInt8} (hbytes : m.bytes = .ok bytes)
    (rest : List UInt8) : takeEvent? (bytes ++ rest) = some (m.event, rest) := by
  cases m with
  | trackName name =>
      cases hbytes
      exact takeEvent?_tag 0x03 name rest
  | timeSignature numerator denominatorLog =>
      obtain ⟨n, hn, hbytes⟩ := exists_of_bind_eq_ok hbytes
      obtain ⟨d, hd, hbytes⟩ := exists_of_bind_eq_ok hbytes
      cases hbytes
      obtain ⟨-, -, rfl⟩ := byte?_eq_ok hn
      obtain ⟨-, -, rfl⟩ := byte?_eq_ok hd
      have htag := takeEvent?_tag 0x58 [UInt8.ofNat numerator, UInt8.ofNat denominatorLog, 24, 8] rest
      rw [quantity_of_lt (by simp)] at htag
      exact htag
  | keySignature fifths minor =>
      cases hbytes
      have htag := takeEvent?_tag 0x59 [UInt8.ofNat (fifths % 256).toNat, if minor then 1 else 0] rest
      rw [quantity_of_lt (by simp)] at htag
      exact htag
  | tempo microseconds =>
      cases hbytes
      have htag := takeEvent?_tag 0x51 (bigEndian 3 microseconds) rest
      rw [length_bigEndian, quantity_of_lt (by decide)] at htag
      exact htag
  | controller channel number value =>
      obtain ⟨status, hstatus, hbytes⟩ := exists_of_bind_eq_ok hbytes
      obtain ⟨n, hn, hbytes⟩ := exists_of_bind_eq_ok hbytes
      obtain ⟨v, hv, hbytes⟩ := exists_of_bind_eq_ok hbytes
      cases hbytes
      exact takeEvent?_channel 0xb (by decide) hstatus hfits
        (by simp [toNat_of_byte? hn, toNat_of_byte? hv]) rfl rest
  | program channel number =>
      obtain ⟨status, hstatus, hbytes⟩ := exists_of_bind_eq_ok hbytes
      obtain ⟨n, hn, hbytes⟩ := exists_of_bind_eq_ok hbytes
      cases hbytes
      exact takeEvent?_channel 0xc (by decide) hstatus hfits (by simp [toNat_of_byte? hn]) rfl rest
  | noteOn channel pitch velocity =>
      obtain ⟨status, hstatus, hbytes⟩ := exists_of_bind_eq_ok hbytes
      obtain ⟨p, hp, hbytes⟩ := exists_of_bind_eq_ok hbytes
      obtain ⟨v, hv, hbytes⟩ := exists_of_bind_eq_ok hbytes
      cases hbytes
      exact takeEvent?_channel 0x9 (by decide) hstatus hfits
        (by simp [toNat_of_byte? hp, toNat_of_byte? hv]) rfl rest
  | noteOff channel pitch velocity =>
      obtain ⟨status, hstatus, hbytes⟩ := exists_of_bind_eq_ok hbytes
      obtain ⟨p, hp, hbytes⟩ := exists_of_bind_eq_ok hbytes
      obtain ⟨v, hv, hbytes⟩ := exists_of_bind_eq_ok hbytes
      cases hbytes
      exact takeEvent?_channel 0x8 (by decide) hstatus hfits
        (by simp [toNat_of_byte? hp, toNat_of_byte? hv]) rfl rest

end Messages

section Tracks

def TimedMessage.event (m : TimedMessage) : Nat × FileEvent :=
  (m.tick.toNat, m.message.event)

def Track.events (t : Track) : List (Nat × FileEvent) :=
  t.ordered.map TimedMessage.event

/-- Whether the messages of a track are within their bounds and not before its start. -/
def Track.Fits (t : Track) : Prop :=
  ∀ m ∈ t, 0 ≤ m.tick ∧ m.message.Fits

theorem takeTimed?_delta {ticks : Int} (hticks : 0 ≤ ticks) {bytes rest : List UInt8} {event : FileEvent}
    (h : takeEvent? bytes = some (event, rest)) :
    takeTimed? (deltaBytes ticks ++ bytes) = some (ticks.toNat, event, rest) := by
  simp only [takeTimed?, deltaBytes, if_neg (not_lt.mpr hticks), takeQuantity?_quantity, bind, Option.bind, h,
    pure]

theorem readEvents?_ending (tick : Nat) : readEvents? tick Track.ending = some [] :=
  readEvents?_of_ending (show takeTimed? Track.ending = some (0, .ending, []) from rfl)

/-- Messages that do not go back in time are read from their bytes, each at its tick. -/
theorem readEvents?_messageBytes (messages : List TimedMessage) {previous : Int} (hstart : 0 ≤ previous)
    (hfits : ∀ m ∈ messages, m.message.Fits)
    (hticks : (previous :: messages.map TimedMessage.tick).IsChain (· ≤ ·)) {bytes : List UInt8}
    (hbytes : Track.messageBytes previous messages = .ok bytes) :
    readEvents? previous.toNat (bytes ++ Track.ending) = some (messages.map TimedMessage.event) := by
  induction messages generalizing previous bytes with
  | nil =>
      cases hbytes
      exact readEvents?_ending _
  | cons m rest ih =>
      obtain ⟨here, hhere, hbytes⟩ := exists_of_bind_eq_ok hbytes
      obtain ⟨others, hothers, hbytes⟩ := exists_of_bind_eq_ok hbytes
      cases hbytes
      obtain ⟨hfit, hlater⟩ := List.forall_mem_cons.mp hfits
      obtain ⟨hle, hchain⟩ := List.isChain_cons_cons.mp hticks
      have htimed := takeTimed?_delta (sub_nonneg.mpr hle)
        (takeEvent?_bytes hfit hhere (others ++ Track.ending))
      -- the reader adds up in natural numbers what the writer took apart in integers
      have htick : previous.toNat + (m.tick - previous).toNat = m.tick.toNat := by omega
      rw [List.append_assoc, List.append_assoc, readEvents?_of_event htimed m.message.event_ne_ending, htick,
        ih (hstart.trans hle) hlater hchain hothers]
      rfl

theorem TimedMessage.before_iff (a b : TimedMessage) :
    a.before b = true ↔ a.tick < b.tick ∨ (a.tick = b.tick ∧ a.message.rank ≤ b.message.rank) := by
  simp [TimedMessage.before]

theorem TimedMessage.before_trans (a b c : TimedMessage) (hab : a.before b = true) (hbc : b.before c = true) :
    a.before c = true := by
  rw [before_iff] at hab hbc ⊢
  omega

theorem TimedMessage.before_total (a b : TimedMessage) : (a.before b || b.before a) = true := by
  rw [Bool.or_eq_true, before_iff, before_iff]
  omega

namespace Track

theorem ordered_perm (t : Track) : t.ordered.Perm t :=
  List.mergeSort_perm t _

theorem ordered_pairwise (t : Track) : t.ordered.Pairwise fun a b => a.before b = true :=
  List.pairwise_mergeSort TimedMessage.before_trans TimedMessage.before_total t

/-- Where no two messages tie, there is but one order. -/
theorem ordered_eq {t u : Track} (hperm : t.Perm u) (hsorted : u.Pairwise fun a b => a.before b = true)
    (hties : ∀ a ∈ t, ∀ b ∈ u, a.before b = true → b.before a = true → a = b) : t.ordered = u :=
  (t.ordered_perm.trans hperm).eq_of_pairwise
    (fun a b ha hb => hties a (t.ordered_perm.mem_iff.mp ha) b hb) t.ordered_pairwise hsorted

theorem Fits.ordered {t : Track} (h : t.Fits) : t.ordered.Fits :=
  fun m hm => h m (t.ordered_perm.mem_iff.mp hm)

theorem ordered_ticks {t : Track} (h : ∀ m ∈ t, 0 ≤ m.tick) :
    (0 :: t.ordered.map TimedMessage.tick).IsChain (· ≤ ·) := by
  apply List.Pairwise.isChain
  refine List.pairwise_cons.mpr ⟨?_, ?_⟩
  · intro tick htick
    obtain ⟨m, hm, rfl⟩ := List.mem_map.mp htick
    exact h m (t.ordered_perm.mem_iff.mp hm)
  · refine List.pairwise_map.mpr (t.ordered_pairwise.imp ?_)
    intro a b hab
    rw [TimedMessage.before_iff] at hab
    omega

/-- The chunk of a track holds its events and nothing else. -/
theorem takeChunk?_chunk {name : String} (hname : (letters name).length = 4) {contents : List UInt8}
    (hlength : contents.length ≤ maxContents) (rest : List UInt8) :
    takeChunk? (chunk name contents ++ rest) = some (letters name, contents, rest) := by
  have hnumber : ofBigEndian (bigEndian 4 contents.length) = contents.length := by
    rw [ofBigEndian_bigEndian]
    exact Nat.mod_eq_of_lt (Nat.lt_succ_of_le hlength)
  have hchunk : chunk name contents = letters name ++ bigEndian 4 contents.length ++ contents := rfl
  simp only [takeChunk?, hchunk, List.append_assoc, takeBytes?_append hname,
    takeBytes?_append (length_bigEndian 4 _), hnumber, takeBytes?_append rfl, bind, Option.bind, pure]

/-- What a reader finds in the chunk of a track. -/
def reading? (t : Track) : Option (List (Nat × FileEvent)) :=
  (messageBytes 0 t.ordered).toOption.bind fun messages => readEvents? 0 (messages ++ ending)

theorem exists_chunk {t : Track} {bytes : List UInt8} (hbytes : t.bytes = .ok bytes) :
    ∃ contents, bytes = chunk "MTrk" contents ∧ contents.length ≤ maxContents ∧
      readEvents? 0 contents = t.reading? := by
  obtain ⟨messages, hmessages, hbytes⟩ := exists_of_bind_eq_ok hbytes
  dsimp only at hbytes
  split at hbytes
  · cases hbytes
  · next hfew =>
      cases hbytes
      exact ⟨_, rfl, not_lt.mp hfew, by rw [reading?, hmessages]; rfl⟩

theorem reading?_of_fits {t : Track} (h : t.Fits) {bytes : List UInt8} (hbytes : t.bytes = .ok bytes) :
    t.reading? = some t.events := by
  obtain ⟨messages, hmessages, -⟩ := exists_of_bind_eq_ok hbytes
  rw [reading?, hmessages]
  exact readEvents?_messageBytes t.ordered le_rfl (fun m hm => (h.ordered m hm).2)
    (ordered_ticks fun m hm => (h m hm).1) hmessages

/-- Chunks that follow each other are read one by one. -/
theorem readTracks?_chunks {tracks : List Track} {chunks : List (List UInt8)}
    (hchunks : tracks.mapM Track.bytes = .ok chunks) :
    readTracks? tracks.length chunks.flatten = tracks.mapM reading? := by
  induction tracks generalizing chunks with
  | nil =>
      cases hchunks
      rfl
  | cons t rest ih =>
      rw [List.mapM_cons] at hchunks
      obtain ⟨here, hhere, hchunks⟩ := exists_of_bind_eq_ok hchunks
      obtain ⟨others, hothers, hchunks⟩ := exists_of_bind_eq_ok hchunks
      cases hchunks
      obtain ⟨contents, rfl, hfew, hread⟩ := exists_chunk hhere
      have hname : (letters "MTrk").length = 4 := by decide
      simp only [List.length_cons, List.flatten_cons, readTracks?, takeChunk?_chunk hname hfew, hread,
        ih hothers, bind, Option.bind, pure, if_true, List.mapM_cons]

theorem mapM_reading?_of_fits {tracks : List Track} (hfits : ∀ t ∈ tracks, t.Fits) {chunks : List (List UInt8)}
    (hchunks : tracks.mapM Track.bytes = .ok chunks) : tracks.mapM reading? = some (tracks.map Track.events) := by
  induction tracks generalizing chunks with
  | nil => rfl
  | cons t rest ih =>
      rw [List.mapM_cons] at hchunks
      obtain ⟨here, hhere, hchunks⟩ := exists_of_bind_eq_ok hchunks
      obtain ⟨others, hothers, hchunks⟩ := exists_of_bind_eq_ok hchunks
      obtain ⟨hfit, hlater⟩ := List.forall_mem_cons.mp hfits
      rw [List.mapM_cons, reading?_of_fits hfit hhere, ih hlater hothers]
      rfl

end Track

end Tracks

/-- Three numbers of two bytes each are found at their places. -/
theorem header_fields {a b c : Nat} (ha : a < 65536) (hb : b < 65536) (hc : c < 65536) {contents : List UInt8}
    (hcontents : contents = bigEndian 2 a ++ bigEndian 2 b ++ bigEndian 2 c) :
    contents.length = 6 ∧ ofBigEndian (contents.take 2) = a ∧ ofBigEndian ((contents.drop 2).take 2) = b ∧
      ofBigEndian (contents.drop 4) = c := by
  have hwidth : ∀ n, (bigEndian 2 n).length = 2 := length_bigEndian 2
  have hfront : (bigEndian 2 a ++ bigEndian 2 b).length = 4 := by rw [List.length_append, hwidth, hwidth]
  have hnumber : ∀ n < 65536, ofBigEndian (bigEndian 2 n) = n := by
    intro n hn
    rw [ofBigEndian_bigEndian]
    exact Nat.mod_eq_of_lt hn
  rw [hcontents]
  refine ⟨?_, ?_, ?_, ?_⟩
  · rw [List.length_append, hfront, hwidth]
  · rw [List.append_assoc, List.take_left' (hwidth a), hnumber a ha]
  · rw [List.append_assoc, List.drop_left' (hwidth a), List.take_left' (hwidth b), hnumber b hb]
  · rw [List.drop_left' hfront, hnumber c hc]

/-- A file is read back from its bytes with its format, its division, and what its tracks are read as. -/
theorem File.read?_eq {f : File} (hcount : f.tracks.length < 65536) {bytes : List UInt8}
    (hbytes : f.bytes = .ok bytes) :
    read? bytes = (f.tracks.mapM Track.reading?).map fun tracks => ⟨1, 960, tracks⟩ := by
  obtain ⟨chunks, hchunks, rfl⟩ := exists_of_map_eq_ok hbytes
  have hname : (letters "MThd").length = 4 := by decide
  obtain ⟨hlength, hformat, htracks, hdivision⟩ :=
    header_fields (by decide) hcount (by decide)
      (show _ = bigEndian 2 1 ++ bigEndian 2 f.tracks.length ++ bigEndian 2 ticksPerQuarter from rfl)
  rw [read?, header, Track.takeChunk?_chunk hname (hlength.trans_le (by decide))]
  simp only [bind, Option.bind, hlength, and_self, if_true, hformat, htracks, hdivision,
    Track.readTracks?_chunks hchunks, pure]
  cases f.tracks.mapM Track.reading? <;> rfl

/-- A file whose tracks fit is read back from its bytes: the format, the division, and track after track the
events in their order. -/
theorem File.read?_bytes {f : File} (hfits : ∀ t ∈ f.tracks, t.Fits) (hcount : f.tracks.length < 65536)
    {bytes : List UInt8} (hbytes : f.bytes = .ok bytes) :
    read? bytes = some ⟨1, 960, f.tracks.map Track.events⟩ := by
  obtain ⟨chunks, hchunks, -⟩ := exists_of_map_eq_ok hbytes
  rw [File.read?_eq hcount hbytes, Track.mapM_reading?_of_fits hfits hchunks]
  rfl

end LineScore.Midi
