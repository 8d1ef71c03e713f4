import LineScore.Proofs.Rendering

/-! Which rendered songs have bytes. Everything but the meters has been kept within its bounds by then; a
meter is written as two numbers of one byte each, and nothing keeps those small. Besides, the length of a
chunk is written in four bytes. -/

namespace LineScore

/-- Whether a meter goes into a file, but with a number that no byte holds. -/
def Meter.Overflows (m : Meter) : Prop :=
  Midi.isPowerOfTwo m.denominator = true ∧ (255 < m.numerator ∨ 255 < m.denominator.log2)

instance (m : Meter) : Decidable m.Overflows :=
  inferInstanceAs (Decidable (_ ∧ _))

/-- Whether one of the meters in a song's file overflows. -/
def Song.MeterOverflows (s : Song) : Prop :=
  ∃ change ∈ Midi.changesOr s.meterChanges s.meter, change.2.Overflows

instance (s : Song) : Decidable s.MeterOverflows :=
  inferInstanceAs (Decidable (∃ change ∈ _, _))

namespace Midi

section Messages

/-- Whether a message has a number that no byte holds, although nothing is said against it before. -/
def Message.Overflows : Message → Prop
  | .timeSignature numerator denominatorLog => 255 < numerator ∨ 255 < denominatorLog
  | _ => False

theorem exists_byte {n : Int} (hlow : 0 ≤ n) (hhigh : n ≤ 255) : ∃ b, byte? n = .ok b :=
  ⟨_, if_pos ⟨hlow, hhigh⟩⟩

theorem byte?_of_lt {n : Int} (h : 255 < n) : byte? n = .error .byteRange :=
  if_neg fun hbounds => absurd hbounds.2 (not_le.mpr h)

theorem Message.bytes_of_overflows {m : Message} (h : m.Overflows) : m.bytes = .error .byteRange := by
  cases m with
  | timeSignature numerator denominatorLog =>
      by_cases hnumerator : 255 < numerator
      · have hwide : byte? numerator = .error .byteRange := byte?_of_lt (by omega)
        rw [Message.bytes, hwide]
        rfl
      · have hlog : 255 < denominatorLog := h.resolve_left hnumerator
        obtain ⟨b, hb⟩ : ∃ b, byte? numerator = .ok b := exists_byte (by omega) (by omega)
        have hwide : byte? denominatorLog = .error .byteRange := byte?_of_lt (by omega)
        rw [Message.bytes, hb, hwide]
        rfl
  | _ => exact absurd h id

section Channels

variable {status : Int} {channel : Nat} {first second : Int}

theorem exists_byte_of_status (hlow : 0 ≤ status) (hhigh : status ≤ 240) {data : List Int}
    (hfits : FitsChannel channel data) : ∃ b, byte? (status + channel) = .ok b := by
  have hchannel := hfits.1
  exact exists_byte (by omega) (by omega)

theorem exists_byte_of_mem {data : List Int} (hfits : FitsChannel channel data) {n : Int} (hn : n ∈ data) :
    ∃ b, byte? n = .ok b := by
  obtain ⟨hlow, hhigh⟩ := hfits.2 n hn
  exact exists_byte hlow (by omega)

theorem exists_bytes_of_one (hlow : 0 ≤ status) (hhigh : status ≤ 240) (hfits : FitsChannel channel [first]) :
    ∃ bytes : List UInt8, (do
      let status ← byte? (status + channel)
      let first ← byte? first
      return [status, first]) = .ok bytes := by
  obtain ⟨a, ha⟩ := exists_byte_of_status hlow hhigh hfits
  obtain ⟨b, hb⟩ := exists_byte_of_mem hfits List.mem_cons_self
  exact ⟨[a, b], by rw [ha, hb]; rfl⟩

theorem exists_bytes_of_two (hlow : 0 ≤ status) (hhigh : status ≤ 240)
    (hfits : FitsChannel channel [first, second]) :
    ∃ bytes : List UInt8, (do
      let status ← byte? (status + channel)
      let first ← byte? first
      let second ← byte? second
      return [status, first, second]) = .ok bytes := by
  obtain ⟨a, ha⟩ := exists_byte_of_status hlow hhigh hfits
  obtain ⟨b, hb⟩ := exists_byte_of_mem hfits List.mem_cons_self
  obtain ⟨c, hc⟩ := exists_byte_of_mem hfits (List.mem_cons_of_mem _ List.mem_cons_self)
  exact ⟨[a, b, c], by rw [ha, hb, hc]; rfl⟩

end Channels

theorem Message.exists_bytes {m : Message} (hfits : m.Fits) (hsmall : ¬ m.Overflows) :
    ∃ bytes, m.bytes = .ok bytes := by
  cases m with
  | trackName name => exact ⟨_, rfl⟩
  | timeSignature numerator denominatorLog =>
      have hbounds : numerator ≤ 255 ∧ denominatorLog ≤ 255 := by
        rw [Message.Overflows] at hsmall
        omega
      obtain ⟨a, ha⟩ : ∃ b, byte? numerator = .ok b := exists_byte (by omega) (by omega)
      obtain ⟨b, hb⟩ : ∃ b, byte? denominatorLog = .ok b := exists_byte (by omega) (by omega)
      exact ⟨_, by rw [Message.bytes, ha, hb]; rfl⟩
  | keySignature fifths minor => exact ⟨_, rfl⟩
  | tempo microseconds => exact ⟨_, rfl⟩
  | controller channel number value => exact exists_bytes_of_two (by decide) (by decide) hfits
  | program channel number => exact exists_bytes_of_one (by decide) (by decide) hfits
  | noteOn channel pitch velocity => exact exists_bytes_of_two (by decide) (by decide) hfits
  | noteOff channel pitch velocity => exact exists_bytes_of_two (by decide) (by decide) hfits

end Messages

section Tracks

namespace Track

/-- Whether a message of a track overflows. -/
def Overflows (t : Track) : Prop :=
  ∃ m ∈ t, m.message.Overflows

/-- Whether the messages of a track have bytes, but more than the length of a chunk can tell. -/
def IsTooLong (t : Track) : Prop :=
  ∃ messages, messageBytes 0 t.ordered = .ok messages ∧ maxContents < (messages ++ ending).length

variable {t u : Track} {previous : Int}

theorem overflows_cons {m : TimedMessage} : Overflows (m :: t) ↔ m.message.Overflows ∨ Overflows t := by
  simp [Overflows]

theorem overflows_append : Overflows (t ++ u) ↔ Overflows t ∨ Overflows u := by
  simp [Overflows, or_and_right, exists_or]

theorem overflows_ordered : Overflows t.ordered ↔ Overflows t := by
  simp [Overflows, t.ordered_perm.mem_iff]

theorem messageBytes_of_overflows (hfits : t.Fits) (h : t.Overflows) :
    messageBytes previous t = .error .byteRange := by
  induction t generalizing previous with
  | nil => simp [Overflows] at h
  | cons m rest ih =>
      obtain ⟨⟨-, hfit⟩, hlater⟩ := List.forall_mem_cons.mp hfits
      by_cases hover : m.message.Overflows
      · rw [messageBytes, Message.bytes_of_overflows hover]
        rfl
      · obtain ⟨bytes, hbytes⟩ := Message.exists_bytes hfit hover
        rw [messageBytes, hbytes, ih hlater ((overflows_cons.mp h).resolve_left hover)]
        rfl

theorem exists_messageBytes (hfits : t.Fits) (h : ¬ t.Overflows) :
    ∃ bytes, messageBytes previous t = .ok bytes := by
  induction t generalizing previous with
  | nil => exact ⟨[], rfl⟩
  | cons m rest ih =>
      obtain ⟨⟨-, hfit⟩, hlater⟩ := List.forall_mem_cons.mp hfits
      rw [overflows_cons, not_or] at h
      obtain ⟨bytes, hbytes⟩ := Message.exists_bytes hfit h.1
      obtain ⟨others, hothers⟩ : ∃ bytes, messageBytes m.tick rest = .ok bytes := ih hlater h.2
      exact ⟨_, by rw [messageBytes, hbytes, hothers]; rfl⟩

theorem bytes_of_overflows (hfits : t.Fits) (h : t.Overflows) : t.bytes = .error .byteRange := by
  rw [Track.bytes, messageBytes_of_overflows hfits.ordered (overflows_ordered.mpr h)]
  rfl

theorem bytes_of_isTooLong (h : t.IsTooLong) : t.bytes = .error .chunkRange := by
  obtain ⟨messages, hmessages, hlong⟩ := h
  simp only [Track.bytes, hmessages, bind, Except.bind, if_pos hlong, throw, throwThe, MonadExceptOf.throw]

theorem exists_bytes (hfits : t.Fits) (hsmall : ¬ t.Overflows) (hshort : ¬ t.IsTooLong) :
    ∃ bytes, t.bytes = .ok bytes := by
  obtain ⟨messages, hmessages⟩ : ∃ bytes, messageBytes 0 t.ordered = .ok bytes :=
    exists_messageBytes hfits.ordered (mt overflows_ordered.mp hsmall)
  have hfew : ¬ maxContents < (messages ++ ending).length := fun hlong => hshort ⟨messages, hmessages, hlong⟩
  refine ⟨chunk "MTrk" (messages ++ ending), ?_⟩
  simp only [Track.bytes, hmessages, bind, Except.bind, if_neg hfew, pure, Except.pure]

end Track

theorem File.bytes_of_overflows {t : Track} {rest : List Track} (hfits : t.Fits) (h : t.Overflows) :
    File.bytes ⟨t :: rest⟩ = .error .byteRange := by
  rw [File.bytes, List.mapM_cons, Track.bytes_of_overflows hfits h]
  rfl

theorem File.bytes_of_isTooLong {tracks : List Track} (hfits : ∀ t ∈ tracks, t.Fits)
    (hsmall : ∀ t ∈ tracks, ¬ t.Overflows) (h : ∃ t ∈ tracks, t.IsTooLong) :
    File.bytes ⟨tracks⟩ = .error .chunkRange := by
  have hchunks : tracks.mapM Track.bytes = .error .chunkRange := by
    induction tracks with
    | nil => simp at h
    | cons t rest ih =>
        obtain ⟨hfit, hfits⟩ := List.forall_mem_cons.mp hfits
        obtain ⟨hno, hsmall⟩ := List.forall_mem_cons.mp hsmall
        by_cases hlong : t.IsTooLong
        · rw [List.mapM_cons, Track.bytes_of_isTooLong hlong]
          rfl
        · obtain ⟨bytes, hbytes⟩ := Track.exists_bytes hfit hno hlong
          rw [List.mapM_cons, hbytes, ih hfits hsmall (by simpa [hlong] using h)]
          rfl
  rw [File.bytes, hchunks]
  rfl

end Tracks

section Songs

theorem meterMessages_overflows {changes : List (Rat × Meter)} {messages : Track}
    (h : (meterMessages changes).result = .ok messages) :
    messages.Overflows ↔ ∃ change ∈ changes, change.2.Overflows := by
  induction changes generalizing messages with
  | nil =>
      cases h
      simp [Track.Overflows]
  | cons change rest ih =>
      rw [meterMessages] at h
      split at h
      · next hpower =>
          obtain ⟨tick, -, h⟩ := Logged.exists_of_bind h
          obtain ⟨others, hothers, h⟩ := Logged.exists_of_bind h
          cases h
          rw [Track.overflows_cons, ih hothers, List.exists_mem_cons_iff]
          simp [Message.Overflows, Meter.Overflows, hpower]
      · next hpower =>
          obtain ⟨_, -, h⟩ := Logged.exists_of_bind h
          rw [ih h, List.exists_mem_cons_iff]
          simp [Meter.Overflows, hpower]

theorem keyMessages_not_overflows {changes : List (Rat × Key)} {messages : Track}
    (h : keyMessages changes = .ok messages) : ¬ messages.Overflows := by
  induction changes generalizing messages with
  | nil =>
      cases h
      simp [Track.Overflows]
  | cons change rest ih =>
      rw [keyMessages, List.mapM_cons] at h
      obtain ⟨message, hmessage, h⟩ := exists_of_bind_eq_ok h
      obtain ⟨tick, -, hmessage⟩ := exists_of_bind_eq_ok hmessage
      obtain ⟨others, hothers, h⟩ := exists_of_bind_eq_ok h
      cases hmessage
      cases h
      rw [Track.overflows_cons, not_or]
      exact ⟨id, ih hothers⟩

/-- In the first track the meters overflow or nothing does. -/
theorem conductorTrack_overflows {s : Song} {t : Track} (h : (conductorTrack s).result = .ok t) :
    t.Overflows ↔ s.MeterOverflows := by
  obtain ⟨meters, hmeters, h⟩ := Logged.exists_of_bind h
  obtain ⟨keys, hkeys, h⟩ := Logged.exists_of_bind h
  cases h
  rw [Track.overflows_append, Track.overflows_cons, meterMessages_overflows hmeters]
  simp [Message.Overflows, keyMessages_not_overflows hkeys, Song.MeterOverflows]

theorem nameTrack_not_overflows {s : Song} {t : Track} (h : nameTrack s = .ok t) : ¬ t.Overflows := by
  obtain ⟨name, -, h⟩ := exists_of_bind_eq_ok h
  cases h
  simp [Track.Overflows, Message.Overflows]

theorem keyed_not_overflows (channel : Nat) (notes : List (Rat × TimedNote)) :
    ¬ (keyed channel notes).Overflows := by
  rintro ⟨m, hm, hover⟩
  obtain ⟨p, -, hm⟩ := List.mem_flatMap.mp hm
  rcases List.mem_pair.mp hm with rfl | rfl
  · exact hover
  · exact hover

theorem performed_not_overflows (channel : Nat) (t : Timeline) : ¬ (performed channel t).Overflows := by
  have hopening : ¬ (opening channel t.instrument.program).Overflows := by
    simp [opening, Track.Overflows, Message.Overflows]
  rw [performed, Track.overflows_append, not_or]
  exact ⟨hopening, keyed_not_overflows channel _⟩

section Files

variable (steps : List Step) {f : File}

theorem bytes_of_meterOverflows (hrender : (render {} (Session.run {} steps).song).result = .ok f)
    (hmeter : (Session.run {} steps).song.MeterOverflows) : f.bytes = .error .byteRange := by
  have hfits := fits_of_render steps hrender
  obtain ⟨-, ⟨name, conductor, -, hconductor, rfl⟩, -⟩ := exists_of_render hrender
  -- the meters stand in the first track, so nothing is found out before them
  exact File.bytes_of_overflows (hfits conductor List.mem_cons_self)
    ((conductorTrack_overflows hconductor).mpr hmeter)

theorem tracks_not_overflow {s : Song} (hrender : (render {} s).result = .ok f) (hmeter : ¬ s.MeterOverflows) :
    ∀ t ∈ f.tracks, ¬ t.Overflows := by
  obtain ⟨-, ⟨name, conductor, hname, hconductor, rfl⟩, -⟩ := exists_of_render hrender
  refine List.forall_mem_cons.mpr ⟨mt (conductorTrack_overflows hconductor).mp hmeter, ?_⟩
  refine List.forall_mem_cons.mpr ⟨nameTrack_not_overflows hname, fun t ht => ?_⟩
  obtain ⟨n, hn, rfl⟩ := List.mem_mapIdx.mp ht
  exact performed_not_overflows n _

/-- A rendered song that steps have written is kept out of a file by a meter first, by the length of a chunk
next, and by nothing else. -/
theorem bytes_of_render (hrender : (render {} (Session.run {} steps).song).result = .ok f) :
    let s := (Session.run {} steps).song
    (s.MeterOverflows ∧ f.bytes = .error .byteRange) ∨
      (¬ s.MeterOverflows ∧ (∃ t ∈ f.tracks, t.IsTooLong) ∧ f.bytes = .error .chunkRange) ∨
      (¬ s.MeterOverflows ∧ (∀ t ∈ f.tracks, ¬ t.IsTooLong) ∧ ∃ bytes, f.bytes = .ok bytes) := by
  intro s
  have hfits := fits_of_render steps hrender
  by_cases hmeter : s.MeterOverflows
  · exact .inl ⟨hmeter, bytes_of_meterOverflows steps hrender hmeter⟩
  · right
    have hsmall := tracks_not_overflow hrender hmeter
    by_cases hlong : ∃ t ∈ f.tracks, t.IsTooLong
    · exact .inl ⟨hmeter, hlong, File.bytes_of_isTooLong hfits hsmall hlong⟩
    · have hshort : ∀ t ∈ f.tracks, ¬ t.IsTooLong := fun t ht h => hlong ⟨t, ht, h⟩
      exact .inr ⟨hmeter, hshort, File.exists_bytes fun t ht =>
        Track.exists_bytes (hfits t ht) (hsmall t ht) (hshort t ht)⟩

end Files

end Songs

end Midi

end LineScore
