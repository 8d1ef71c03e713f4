import LineScore.Proofs.ByteLimits
import LineScore.Proofs.Rounding

/-! The first track of a file, read back. Besides the tempo it tells each meter whose beat is a power of two,
and each key, at the tick of its offset. Sorting does not mix up the meters, nor the keys: their ticks do not
fall, because rounding keeps the order of their offsets, and the sort keeps the order of messages that tie. -/

namespace LineScore

theorem changePoints_eq_nil_iff {α : Type} [DecidableEq α] {spans : List (Rat × α)} :
    changePoints spans = [] ↔ spans = [] := by
  cases spans with
  | nil => exact iff_of_true rfl rfl
  | cons span rest =>
      rw [changePoints, changesFrom_other _ _ (by simp)]
      simp

namespace Song.Records

variable {s : Song} {keys : List Key}

theorem isChangeList_meterChanges (h : s.Records keys) : IsChangeList s.meterChanges := by
  rw [h.meterChanges_eq]
  exact h.isChangeList _

theorem isChangeList_keyChanges (h : s.Records keys) : IsChangeList s.keyChanges := by
  rw [h.keyChanges_eq]
  exact h.isChangeList _

/-- Changes are on record as soon as there is a section. -/
theorem changes_eq_nil_iff (h : s.Records keys) :
    (s.meterChanges = [] ↔ s.history = []) ∧ (s.keyChanges = [] ↔ s.history = []) := by
  have hkeys : keys = [] ↔ s.history = [] := by
    rw [← List.length_eq_zero_iff, h.keys_length, List.length_eq_zero_iff]
  rw [h.meterChanges_eq, h.keyChanges_eq, changePoints_eq_nil_iff, changePoints_eq_nil_iff]
  simp only [List.zip_eq_nil_iff, sectionLengths, List.map_eq_nil_iff, or_self, true_and, hkeys]

end Song.Records

/-- The alterations of a key's signature, flats counting as negative. -/
def Key.signedCount (k : Key) : Int :=
  if k.accidental = .flat then -(k.altered.length : Int) else k.altered.length

/-- The byte of a key is its count in two's complement. -/
theorem Key.toInt8_fifths (k : Key) : (UInt8.ofNat (k.fifths % 256).toNat).toInt8.toInt = k.signedCount := by
  obtain ⟨mode, place⟩ := k
  revert place
  cases mode <;> decide

/-- The minor keys are those whose name says so. -/
theorem Key.isMinor_iff (k : Key) : k.isMinor = true ↔ k.name.toList.getLast? = some '-' := by
  obtain ⟨mode, place⟩ := k
  revert place
  cases mode <;> decide +kernel

namespace Midi

section Powers

/-- Clearing the lowest bit of a number leaves nothing exactly if it is a power of two. -/
theorem isPowerOfTwo_iff (n : Nat) : isPowerOfTwo n = true ↔ ∃ e, n = 2 ^ e := by
  rw [isPowerOfTwo, Bool.and_eq_true, decide_eq_true_eq, decide_eq_true_eq]
  constructor
  · rintro ⟨hn, hclear⟩
    exact (Nat.and_sub_one_eq_zero_iff_isPowerOfTwo hn).mp hclear
  · rintro ⟨e, rfl⟩
    have hn : 2 ^ e ≠ 0 := (Nat.two_pow_pos e).ne'
    exact ⟨hn, (Nat.and_sub_one_eq_zero_iff_isPowerOfTwo hn).mpr ⟨e, rfl⟩⟩

theorem two_pow_log2 {n : Nat} (h : isPowerOfTwo n = true) : 2 ^ n.log2 = n := by
  obtain ⟨e, rfl⟩ := (isPowerOfTwo_iff n).mp h
  rw [Nat.log2_two_pow]

end Powers

section Order

/-- Messages of one sort that are in order before sorting stay as they are. -/
theorem Track.filter_ordered {t : Track} {sort : TimedMessage → Bool}
    (h : (t.filter sort).Pairwise fun a b => a.before b = true) : t.ordered.filter sort = t.filter sort := by
  have hsub : (t.filter sort).Sublist t.ordered :=
    List.sublist_mergeSort TimedMessage.before_trans TimedMessage.before_total h List.filter_sublist
  have hself : (t.filter sort).filter sort = t.filter sort :=
    List.filter_eq_self.mpr fun m hm => (List.mem_filter.mp hm).2
  have hfiltered := hsub.filter sort
  rw [hself] at hfiltered
  exact (hfiltered.eq_of_length (t.ordered_perm.filter sort).length_eq.symm).symm

theorem changesOr_of_nil {α : Type} {changes : List (Rat × α)} (h : changes = []) (current : α) :
    changesOr changes current = [(0, current)] :=
  if_pos (by rw [h, List.isEmpty_nil])

theorem changesOr_of_ne_nil {α : Type} {changes : List (Rat × α)} (h : changes ≠ []) (current : α) :
    changesOr changes current = changes :=
  if_neg (by rwa [List.isEmpty_iff])

theorem changesOr_rises {α : Type} {changes : List (Rat × α)}
    (hrises : (changes.map Prod.fst).Pairwise (· < ·)) (current : α) :
    ((changesOr changes current).map Prod.fst).Pairwise (· < ·) := by
  unfold changesOr
  split
  · exact List.pairwise_singleton _ _
  · exact hrises

/-- Messages at the ticks of offsets that rise are in order, if none of them has to stand before another one
of its tick. -/
theorem pairwise_before {α : Type} {changes : List (Rat × α)} (message : Rat × α → TimedMessage)
    (hrises : (changes.map Prod.fst).Pairwise (· < ·)) (hnonneg : ∀ c ∈ changes, 0 ≤ c.1)
    (hticks : ∀ c ∈ changes, ticks c.1 = .ok (message c).tick)
    (hrank : ∀ c d, (message c).message.rank = (message d).message.rank) :
    (changes.map message).Pairwise fun a b => a.before b = true := by
  rw [List.pairwise_map] at hrises ⊢
  refine hrises.imp_of_mem fun {c d} hc hd hlt => ?_
  have hle := ticks_mono (hnonneg c hc) hlt.le (hticks c hc) (hticks d hd)
  have hsame := hrank c d
  rw [TimedMessage.before_iff]
  omega

end Order

section Messages

/-- The message that tells a meter at the tick of its offset. -/
def meterMessage (c : Rat × Meter) : TimedMessage :=
  ⟨tick c.1, .timeSignature c.2.numerator c.2.denominator.log2⟩

/-- The message that tells a key at the tick of its offset. -/
def keyMessage (c : Rat × Key) : TimedMessage :=
  ⟨tick c.1, .keySignature c.2.fifths c.2.isMinor⟩

/-- The changes to a meter that a file can tell. -/
def writable (changes : List (Rat × Meter)) : List (Rat × Meter) :=
  changes.filter fun c => isPowerOfTwo c.2.denominator

theorem writable_rises {changes : List (Rat × Meter)} (hrises : (changes.map Prod.fst).Pairwise (· < ·)) :
    ((writable changes).map Prod.fst).Pairwise (· < ·) :=
  hrises.sublist (List.Sublist.map Prod.fst List.filter_sublist)

theorem meterMessages_eq {changes : List (Rat × Meter)} {messages : Track}
    (h : (meterMessages changes).result = .ok messages) :
    messages = (writable changes).map meterMessage ∧ ∀ c ∈ writable changes, ticks c.1 = .ok (tick c.1) := by
  induction changes generalizing messages with
  | nil =>
      cases h
      exact ⟨rfl, fun c hc => absurd hc List.not_mem_nil⟩
  | cons change rest ih =>
      rw [meterMessages] at h
      unfold writable
      split at h
      · next hpower =>
          obtain ⟨first, hfirst, h⟩ := Logged.exists_of_bind h
          obtain ⟨others, hothers, h⟩ := Logged.exists_of_bind h
          cases h
          obtain ⟨rfl, hrest⟩ := ih hothers
          have hticks : ticks change.1 = .ok first := hfirst
          rw [List.filter_cons_of_pos (by exact hpower), ← tick_eq hticks]
          refine ⟨rfl, List.forall_mem_cons.mpr ⟨?_, hrest⟩⟩
          rw [tick_eq hticks, hticks]
      · next hother =>
          obtain ⟨_, -, h⟩ := Logged.exists_of_bind h
          rw [List.filter_cons_of_neg (by exact hother)]
          exact ih h

theorem keyMessages_eq {changes : List (Rat × Key)} {messages : Track}
    (h : keyMessages changes = .ok messages) :
    messages = changes.map keyMessage ∧ ∀ c ∈ changes, ticks c.1 = .ok (tick c.1) := by
  induction changes generalizing messages with
  | nil =>
      cases h
      exact ⟨rfl, fun c hc => absurd hc List.not_mem_nil⟩
  | cons change rest ih =>
      rw [keyMessages, List.mapM_cons] at h
      obtain ⟨message, hmessage, h⟩ := exists_of_bind_eq_ok h
      obtain ⟨first, hticks, hmessage⟩ := exists_of_bind_eq_ok hmessage
      obtain ⟨others, hothers, h⟩ := exists_of_bind_eq_ok h
      cases hmessage
      cases h
      obtain ⟨rfl, hrest⟩ := ih hothers
      rw [← tick_eq hticks]
      refine ⟨rfl, List.forall_mem_cons.mpr ⟨?_, hrest⟩⟩
      rw [tick_eq hticks, hticks]

end Messages

section Events

def FileEvent.kind? : FileEvent → Option Nat
  | .tag kind _ => some kind
  | .channel _ _ _ => none

/-- The meta events of a kind, in the order of the file. -/
def tagged (kind : Nat) (events : List (Nat × FileEvent)) : List (Nat × FileEvent) :=
  events.filter fun e => e.2.kind? = some kind

/-- Whether an event tells a meter, at the tick of its offset. -/
def TellsMeter (change : Rat × Meter) (event : Nat × FileEvent) : Prop :=
  ticks change.1 = .ok event.1 ∧ ∃ numerator exponent : UInt8,
    event.2 = .tag 0x58 [numerator, exponent, 24, 8] ∧ numerator.toNat = change.2.numerator ∧
      2 ^ exponent.toNat = change.2.denominator

/-- Whether an event tells a key, at the tick of its offset. The count is a signed byte. -/
def TellsKey (change : Rat × Key) (event : Nat × FileEvent) : Prop :=
  ticks change.1 = .ok event.1 ∧ ∃ count minor : UInt8,
    event.2 = .tag 0x59 [count, minor] ∧ count.toInt8.toInt = change.2.signedCount ∧
      minor = if change.2.name.toList.getLast? = some '-' then 1 else 0

theorem tellsMeter_event {c : Rat × Meter} (hoffset : 0 ≤ c.1) (hticks : ticks c.1 = .ok (tick c.1))
    (hpower : isPowerOfTwo c.2.denominator = true) (hfits : ¬ c.2.Overflows) :
    TellsMeter c (meterMessage c).event := by
  have hsmall : c.2.numerator ≤ 255 ∧ c.2.denominator.log2 ≤ 255 := by
    by_contra hlarge
    exact hfits ⟨hpower, by omega⟩
  have htick : ((tick c.1).toNat : Int) = tick c.1 := Int.toNat_of_nonneg (tick_nonneg hoffset)
  refine ⟨by rw [hticks]; exact congrArg Except.ok htick.symm, _, _, rfl, ?_, ?_⟩
  · rw [UInt8.toNat_ofNat', Nat.mod_eq_of_lt (by omega)]
  · rw [UInt8.toNat_ofNat', Nat.mod_eq_of_lt (by omega), two_pow_log2 hpower]

theorem tellsKey_event {c : Rat × Key} (hoffset : 0 ≤ c.1) (hticks : ticks c.1 = .ok (tick c.1)) :
    TellsKey c (keyMessage c).event := by
  have htick : ((tick c.1).toNat : Int) = tick c.1 := Int.toNat_of_nonneg (tick_nonneg hoffset)
  refine ⟨by rw [hticks]; exact congrArg Except.ok htick.symm, _, _, rfl, c.2.toInt8_fifths, ?_⟩
  simp only [← Key.isMinor_iff]

theorem tagged_events {t : Track} {kind : Nat}
    (h : (t.filter fun m => m.message.event.kind? = some kind).Pairwise fun a b => a.before b = true) :
    tagged kind t.events = (t.filter fun m => m.message.event.kind? = some kind).map TimedMessage.event := by
  rw [tagged, Track.events, List.filter_map, ← Track.filter_ordered h]
  rfl

theorem conductorTrack_eq {s : Song} {t : Track} (h : (conductorTrack s).result = .ok t) :
    let meters := writable (changesOr s.meterChanges s.meter)
    let keys := changesOr s.keyChanges s.key
    t = ⟨0, .tempo (microseconds s.tempo)⟩ :: meters.map meterMessage ++ keys.map keyMessage ∧
      (∀ c ∈ meters, ticks c.1 = .ok (tick c.1)) ∧ ∀ c ∈ keys, ticks c.1 = .ok (tick c.1) := by
  obtain ⟨meters, hmeters, h⟩ := Logged.exists_of_bind h
  obtain ⟨keys, hkeys, h⟩ := Logged.exists_of_bind h
  cases h
  obtain ⟨rfl, hmeterTicks⟩ := meterMessages_eq hmeters
  obtain ⟨rfl, hkeyTicks⟩ := keyMessages_eq hkeys
  exact ⟨rfl, hmeterTicks, hkeyTicks⟩

/-- The messages of a track of tempo, meters and keys, sort by sort. -/
theorem filter_conductor (micros : Nat) (meters : List (Rat × Meter)) (keys : List (Rat × Key)) :
    let t : Track := ⟨0, .tempo micros⟩ :: meters.map meterMessage ++ keys.map keyMessage
    t.filter (fun m => m.message.event.kind? = some 0x51) = [⟨0, .tempo micros⟩] ∧
      t.filter (fun m => m.message.event.kind? = some 0x58) = meters.map meterMessage ∧
      t.filter (fun m => m.message.event.kind? = some 0x59) = keys.map keyMessage ∧
      ∀ m ∈ t, m.message.event.kind? ∈ [some 0x51, some 0x58, some 0x59] := by
  have hmeter : ∀ c : Rat × Meter, (meterMessage c).message.event.kind? = some 0x58 := fun _ => rfl
  have hkey : ∀ c : Rat × Key, (keyMessage c).message.event.kind? = some 0x59 := fun _ => rfl
  have htempo : (Message.tempo micros).event.kind? = some 0x51 := rfl
  intro t
  refine ⟨?_, ?_, ?_, fun m hm => ?_⟩
  · simp [t, List.filter_map, Function.comp_def, hmeter, hkey, htempo]
  · simp [t, List.filter_map, Function.comp_def, hmeter, hkey, htempo]
  · simp [t, List.filter_map, Function.comp_def, hmeter, hkey, htempo]
  · simp only [t, List.mem_append, List.mem_cons, List.mem_map] at hm
    rcases hm with (rfl | ⟨c, -, rfl⟩) | ⟨c, -, rfl⟩
    · simp [htempo]
    · simp [hmeter]
    · simp [hkey]

/-- The first track tells the tempo once, at its start. -/
theorem tagged_tempo {s : Song} {t : Track} (h : (conductorTrack s).result = .ok t) :
    tagged 0x51 t.events = [(0, .tag 0x51 (bigEndian 3 (microseconds s.tempo)))] := by
  obtain ⟨htrack, -, -⟩ := conductorTrack_eq h
  have htempo := (filter_conductor (microseconds s.tempo) (writable (changesOr s.meterChanges s.meter))
    (changesOr s.keyChanges s.key)).1
  rw [← htrack] at htempo
  rw [tagged_events (by rw [htempo]; exact List.pairwise_singleton _ _), htempo]
  rfl

/-- What the first track of a song tells, if all of its meters fit their bytes. -/
theorem tagged_conductor {s : Song} {inForce : List Key} (hs : s.Records inForce) {t : Track}
    (h : (conductorTrack s).result = .ok t) (hnarrow : ¬ s.MeterOverflows) :
    tagged 0x51 t.events = [(0, .tag 0x51 (bigEndian 3 (microseconds s.tempo)))] ∧
      List.Forall₂ TellsMeter (writable (changesOr s.meterChanges s.meter)) (tagged 0x58 t.events) ∧
      List.Forall₂ TellsKey (changesOr s.keyChanges s.key) (tagged 0x59 t.events) ∧
      ∀ e ∈ t.events, e.2.kind? ∈ [some 0x51, some 0x58, some 0x59] := by
  obtain ⟨htrack, hmeterTicks, hkeyTicks⟩ := conductorTrack_eq h
  have hmeters : ∀ c ∈ writable (changesOr s.meterChanges s.meter),
      c ∈ changesOr s.meterChanges s.meter ∧ isPowerOfTwo c.2.denominator = true :=
    fun c hc => List.mem_filter.mp hc
  have hmetersNonneg := changesOr_nonneg hs.meterChanges_nonneg s.meter
  have hkeysNonneg := changesOr_nonneg hs.keyChanges_nonneg s.key
  have hmetersRise := writable_rises (changesOr_rises hs.isChangeList_meterChanges.rises s.meter)
  have hkeysRise := changesOr_rises hs.isChangeList_keyChanges.rises s.key
  obtain ⟨-, hmeter, hkey, hall⟩ := filter_conductor (microseconds s.tempo)
    (writable (changesOr s.meterChanges s.meter)) (changesOr s.keyChanges s.key)
  rw [← htrack] at hmeter hkey hall
  refine ⟨tagged_tempo h, ?meters, ?keys, ?others⟩
  case meters =>
    have hordered := pairwise_before meterMessage hmetersRise
      (fun c hc => hmetersNonneg c (hmeters c hc).1) hmeterTicks fun _ _ => rfl
    rw [tagged_events (by rw [hmeter]; exact hordered), hmeter, List.map_map, List.forall₂_map_right_iff]
    refine List.forall₂_same.mpr fun c hc => ?_
    exact tellsMeter_event (hmetersNonneg c (hmeters c hc).1) (hmeterTicks c hc) (hmeters c hc).2
      fun hwide => hnarrow ⟨c, (hmeters c hc).1, hwide⟩
  case keys =>
    have hordered := pairwise_before keyMessage hkeysRise hkeysNonneg hkeyTicks fun _ _ => rfl
    rw [tagged_events (by rw [hkey]; exact hordered), hkey, List.map_map, List.forall₂_map_right_iff]
    exact List.forall₂_same.mpr fun c hc => tellsKey_event (hkeysNonneg c hc) (hkeyTicks c hc)
  case others =>
    intro e he
    obtain ⟨m, hm, rfl⟩ := List.mem_map.mp he
    exact hall m (t.ordered_perm.mem_iff.mp hm)

end Events

section Songs

variable {settings : TimelineSettings} {steps : List Step} {f : File} {bytes : List UInt8}

def readFirst? (bytes : List UInt8) : Option (List (Nat × FileEvent)) := do
  let (_, _, rest) ← takeChunk? bytes
  let (name, contents, _) ← takeChunk? rest
  if name = letters "MTrk" then readEvents? 0 contents else none

theorem readFirst?_bytes {t : Track} {rest : List Track} (hfits : t.Fits)
    (hbytes : File.bytes ⟨t :: rest⟩ = .ok bytes) :
    (∃ chunk, t.bytes = .ok chunk) ∧ readFirst? bytes = some t.events := by
  obtain ⟨chunks, hchunks, rfl⟩ := exists_of_map_eq_ok hbytes
  rw [List.mapM_cons] at hchunks
  obtain ⟨here, hhere, hchunks⟩ := exists_of_bind_eq_ok hchunks
  obtain ⟨others, hothers, hchunks⟩ := exists_of_bind_eq_ok hchunks
  cases hchunks
  obtain ⟨contents, rfl, hfew, hread⟩ := Track.exists_chunk hhere
  rw [Track.reading?_of_fits hfits hhere] at hread
  refine ⟨⟨_, hhere⟩, ?_⟩
  have hheader : (bigEndian 2 1 ++ bigEndian 2 (t :: rest).length ++ bigEndian 2 ticksPerQuarter).length ≤
      Track.maxContents := by
    simp only [List.length_append, length_bigEndian]
    decide
  rw [readFirst?, File.header, Track.takeChunk?_chunk (by decide) hheader, List.flatten_cons]
  simp only [bind, Option.bind, Track.takeChunk?_chunk (show (letters "MTrk").length = 4 by decide) hfew,
    if_true, hread]

/-- The first track of a song that has been rendered and put into bytes holds the tempo and, each in the order
of its changes, the meters whose beats are powers of two and the keys. Without sections these are the meter
and the key in force. -/
theorem conductor_of_render (hrender : (render settings (Session.run {} steps).song).result = .ok f)
    (hbytes : f.bytes = .ok bytes) :
    let s := (Session.run {} steps).song
    let meters := changesOr s.meterChanges s.meter
    let keys := changesOr s.keyChanges s.key
    ∃ events, readFirst? bytes = some events ∧
      tagged 0x51 events = [(0, .tag 0x51 (bigEndian 3 (microseconds s.tempo)))] ∧
      List.Forall₂ TellsMeter (meters.filter fun c => isPowerOfTwo c.2.denominator) (tagged 0x58 events) ∧
      List.Forall₂ TellsKey keys (tagged 0x59 events) ∧
      (∀ e ∈ events, e.2.kind? ∈ [some 0x51, some 0x58, some 0x59]) ∧
      (s.history = [] → meters = [(0, s.meter)] ∧ keys = [(0, s.key)] ∧ ticks 0 = .ok 0) ∧
      (s.history ≠ [] → meters = s.meterChanges ∧ keys = s.keyChanges) ∧
      ∀ n, (isPowerOfTwo n = true ↔ ∃ e, n = 2 ^ e) ∧ ∀ e, n = 2 ^ e → n.log2 = e := by
  intro s meters keys
  have hrecords := Session.records_of_run steps
  obtain ⟨-, ⟨name, conductor, -, hconductor, rfl⟩, -⟩ := exists_of_render hrender
  have hfits := conductorTrack_fits hrecords hconductor
  obtain ⟨⟨chunk, hchunk⟩, hread⟩ := readFirst?_bytes hfits hbytes
  have hnarrow : ¬ s.MeterOverflows := by
    intro hwide
    rw [Track.bytes_of_overflows hfits ((conductorTrack_overflows hconductor).mpr hwide)] at hchunk
    cases hchunk
  obtain ⟨htempo, hmeters, hkeys, hothers⟩ := tagged_conductor hrecords hconductor hnarrow
  obtain ⟨hmeterChanges, hkeyChanges⟩ := hrecords.changes_eq_nil_iff
  refine ⟨conductor.events, hread, htempo, hmeters, hkeys, hothers, fun hnone => ?_, fun hsome => ?_, fun n => ?_⟩
  · have hzero : ticks 0 = .ok 0 := by decide +kernel
    exact ⟨changesOr_of_nil (hmeterChanges.mpr hnone) s.meter,
      changesOr_of_nil (hkeyChanges.mpr hnone) s.key, hzero⟩
  · exact ⟨changesOr_of_ne_nil (mt hmeterChanges.mp hsome) s.meter,
      changesOr_of_ne_nil (mt hkeyChanges.mp hsome) s.key⟩
  · refine ⟨isPowerOfTwo_iff n, ?_⟩
    rintro e rfl
    exact Nat.log2_two_pow

/-- Meters of four quarters, of five sixths and of six eighths, the last one in e flat minor. The second one is
not told, and the third one and its key stand at the same tick. -/
theorem conductor_of_render_sixths :
    let steps : List Step := [.applySection 1 [] none, .meter 5 6, .applySection 1 [] none, .meter 6 8,
      .key "eb-", .applySection 2 [] none]
    ∃ f bytes events, (render {} (Session.run {} steps).song).result = .ok f ∧ f.bytes = .ok bytes ∧
      readFirst? bytes = some events ∧
      List.Forall₂ TellsMeter [(0, .common), (22 / 3, ⟨6, 8, by decide, by decide⟩)] (tagged 0x58 events) ∧
      List.Forall₂ TellsKey [(0, .cMajor), (22 / 3, ⟨.minor, 0⟩)] (tagged 0x59 events) ∧
      ticks (22 / 3) = .ok 7040 := by
  intro steps
  let conductor : Track := [⟨0, .tempo 500000⟩, ⟨0, .timeSignature 4 2⟩, ⟨7040, .timeSignature 6 3⟩,
    ⟨0, .keySignature 0 false⟩, ⟨7040, .keySignature (-6) true⟩]
  let name : Track := [⟨0, .trackName (letters "Untitled by Anonymous")⟩]
  have hrender : (render {} (Session.run {} steps).song).result = .ok ⟨[conductor, name]⟩ := by decide +kernel
  have hordered : conductor.ordered = [⟨0, .timeSignature 4 2⟩, ⟨0, .keySignature 0 false⟩, ⟨0, .tempo 500000⟩,
      ⟨7040, .timeSignature 6 3⟩, ⟨7040, .keySignature (-6) true⟩] :=
    Track.ordered_eq (by decide) (by decide) (by decide)
  have hchunks : ∀ t ∈ [conductor, name], ∃ b, t.bytes = .ok b := by
    refine List.forall_mem_cons.mpr ⟨?_, List.forall_mem_singleton.mpr ?_⟩
    · apply exists_of_isOk
      simp only [Track.bytes, hordered]
      decide +kernel
    · apply exists_of_isOk
      simp only [name, Track.bytes, Track.ordered, List.mergeSort_singleton]
      decide +kernel
  obtain ⟨bytes, hbytes⟩ := File.exists_bytes hchunks
  obtain ⟨events, hread, -, hmeters, hkeys, -⟩ := conductor_of_render hrender hbytes
  have hwritten : ((changesOr (Session.run {} steps).song.meterChanges (Session.run {} steps).song.meter).filter
      fun c => isPowerOfTwo c.2.denominator) = [(0, .common), (22 / 3, ⟨6, 8, by decide, by decide⟩)] := by
    decide +kernel
  have hplayed : changesOr (Session.run {} steps).song.keyChanges (Session.run {} steps).song.key =
      [(0, .cMajor), (22 / 3, ⟨.minor, 0⟩)] := by decide +kernel
  rw [hwritten] at hmeters
  rw [hplayed] at hkeys
  exact ⟨_, bytes, events, hrender, hbytes, hread, hmeters, hkeys, by decide +kernel⟩

end Songs

end Midi

end LineScore
