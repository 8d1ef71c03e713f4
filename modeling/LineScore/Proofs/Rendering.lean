import LineScore.Proofs.Positive
import LineScore.Proofs.Ticks

/-! What a rendered song is read back as. The file has one track for the tempo, the meters and the keys, one
for the name, and one for each voice: its name, its volume and its program, then the messages of its notes,
sorted by tick. Nothing in it leaves the bounds of a file, so the reader finds all of it again. -/

namespace LineScore

theorem Logged.exists_of_bind {α β : Type} {x : Logged α} {next : α → Logged β} {b : β}
    (h : (x >>= next).result = .ok b) : ∃ a, x.result = .ok a ∧ (next a).result = .ok b := by
  change (x.andThen next).result = .ok b at h
  unfold Logged.andThen at h
  cases hx : x.result with
  | error e =>
      rw [hx] at h
      cases h
  | ok a =>
      rw [hx] at h
      exact ⟨a, rfl, h⟩

/-- Notes have one of the two velocities of the settings. -/
theorem Timeline.velocity_of_mem_emit {settings : TimelineSettings} {pending : Rat} {events : List Event}
    {n : TimedNote} (hn : n ∈ (emit settings pending events).1) :
    n.velocity = settings.normalVelocity ∨ n.velocity = settings.accentVelocity := by
  induction events generalizing pending with
  | nil => exact absurd hn List.not_mem_nil
  | cons event events ih =>
      cases event with
      | note m =>
          rcases List.mem_cons.mp hn with rfl | hn
          · cases haccent : m.accented with
            | false => exact Or.inl (by simp [timed, haccent])
            | true => exact Or.inr (by simp [timed, haccent])
          · exact ih hn
      | rest d => exact ih hn
      | measureRest measures meter => exact ih hn

namespace Song.Records

variable {s : Song} {keys : List Key}

theorem changePoints_nonneg (h : Records s keys) {α : Type} [DecidableEq α] (values : List α) :
    ∀ c ∈ changePoints (s.sectionLengths.zip values), 0 ≤ c.1 :=
  le_of_mem_changesFrom fun _ hspan => h.lengths_pos _ (List.of_mem_zip hspan).1

theorem meterChanges_nonneg (h : Records s keys) : ∀ c ∈ s.meterChanges, 0 ≤ c.1 := by
  rw [h.meterChanges_eq]
  exact h.changePoints_nonneg _

theorem keyChanges_nonneg (h : Records s keys) : ∀ c ∈ s.keyChanges, 0 ≤ c.1 := by
  rw [h.keyChanges_eq]
  exact h.changePoints_nonneg _

end Song.Records

namespace Midi

section Conductor

theorem changesOr_nonneg {α : Type} {changes : List (Rat × α)} (hchanges : ∀ c ∈ changes, 0 ≤ c.1)
    (current : α) : ∀ c ∈ changesOr changes current, 0 ≤ c.1 := by
  intro c hc
  unfold changesOr at hc
  split at hc
  · rw [List.mem_singleton.mp hc]
  · exact hchanges c hc

theorem meterMessages_fits {changes : List (Rat × Meter)} (hchanges : ∀ c ∈ changes, 0 ≤ c.1)
    {messages : Track} (h : (meterMessages changes).result = .ok messages) : messages.Fits := by
  induction changes generalizing messages with
  | nil =>
      cases h
      exact fun m hm => absurd hm List.not_mem_nil
  | cons change rest ih =>
      obtain ⟨hoffset, hrest⟩ := List.forall_mem_cons.mp hchanges
      rw [meterMessages] at h
      split at h
      · obtain ⟨tick, htick, h⟩ := Logged.exists_of_bind h
        obtain ⟨others, hothers, h⟩ := Logged.exists_of_bind h
        cases h
        exact List.forall_mem_cons.mpr ⟨⟨ticks_nonneg hoffset htick, trivial⟩, ih hrest hothers⟩
      · obtain ⟨_, -, h⟩ := Logged.exists_of_bind h
        exact ih hrest h

theorem keyMessages_fits {changes : List (Rat × Key)} (hchanges : ∀ c ∈ changes, 0 ≤ c.1) {messages : Track}
    (h : keyMessages changes = .ok messages) : messages.Fits := by
  induction changes generalizing messages with
  | nil =>
      cases h
      exact fun m hm => absurd hm List.not_mem_nil
  | cons change rest ih =>
      obtain ⟨hoffset, hrest⟩ := List.forall_mem_cons.mp hchanges
      rw [keyMessages, List.mapM_cons] at h
      obtain ⟨message, hmessage, h⟩ := exists_of_bind_eq_ok h
      obtain ⟨tick, htick, hmessage⟩ := exists_of_bind_eq_ok hmessage
      obtain ⟨others, hothers, h⟩ := exists_of_bind_eq_ok h
      cases hmessage
      cases h
      exact List.forall_mem_cons.mpr ⟨⟨ticks_nonneg hoffset htick, trivial⟩, ih hrest hothers⟩

theorem conductorTrack_fits {s : Song} {keys : List Key} (hs : s.Records keys) {t : Track}
    (h : (conductorTrack s).result = .ok t) : t.Fits := by
  obtain ⟨meters, hmeters, h⟩ := Logged.exists_of_bind h
  obtain ⟨signatures, hsignatures, h⟩ := Logged.exists_of_bind h
  cases h
  have hmeter := meterMessages_fits (changesOr_nonneg hs.meterChanges_nonneg s.meter) hmeters
  have hkey := keyMessages_fits (changesOr_nonneg hs.keyChanges_nonneg s.key) hsignatures
  intro m hm
  rcases List.mem_append.mp hm with hm | hm
  · rcases List.mem_cons.mp hm with rfl | hm
    · exact ⟨le_rfl, trivial⟩
    · exact hmeter m hm
  · exact hkey m hm

theorem nameTrack_fits {s : Song} {t : Track} (h : nameTrack s = .ok t) : t.Fits := by
  obtain ⟨name, -, h⟩ := exists_of_bind_eq_ok h
  cases h
  intro m hm
  rw [List.mem_singleton.mp hm]
  exact ⟨le_rfl, trivial⟩

end Conductor

section Voices

/-- A note of a voice that steps can write, played with the default settings: it comes at the start or later,
it does not end before it begins, and it has one of the two velocities. -/
structure Playable (p : Rat × TimedNote) : Prop where
  onset_nonneg : 0 ≤ tick p.1
  sound_nonneg : 0 ≤ tick p.2.soundDuration
  velocity : p.2.velocity = 63 ∨ p.2.velocity = 75

/-- The notes of a voice with their exact onsets, under the default settings. -/
def played (v : Voice) : List (Rat × TimedNote) :=
  placed 0 (Timeline.ofVoice {} v).notes

/-- Notes of events that take time come at the start or later and do not end before they begin. -/
theorem ticks_nonneg_of_mem_placed {settings : TimelineSettings} (hstaccato : 0 ≤ settings.staccatoLength)
    {v : Voice} (hv : ∀ e ∈ v.events, 0 < e.length) :
    ∀ p ∈ placed 0 (Timeline.ofVoice settings v).notes, 0 ≤ tick p.1 ∧ 0 ≤ tick p.2.soundDuration := by
  intro p hp
  obtain ⟨before, n, after, delay, hsplit, rfl⟩ := exists_split_of_mem_placed hp
  rw [hsplit, List.forall_mem_append, List.forall_mem_cons] at hv
  obtain ⟨hbefore, hn, -⟩ := hv
  have hstart : 0 ≤ totalLength before := totalLength_nonneg fun e he => (hbefore e he).le
  have hlength : 0 < n.duration.length := hn
  rw [add_zero, zero_add]
  exact ⟨tick_nonneg hstart, tick_nonneg (Timeline.soundOf_nonneg settings hstaccato hlength.le)⟩

theorem playable_of_mem_played {v : Voice} (hv : ∀ e ∈ v.events, 0 < e.length) :
    ∀ p ∈ played v, Playable p := by
  intro p hp
  obtain ⟨honset, hsound⟩ := ticks_nonneg_of_mem_placed (by norm_num) hv p hp
  exact ⟨honset, hsound, Timeline.velocity_of_mem_emit (mem_of_mem_placed hp)⟩

/-- The messages that the track of a voice begins with. -/
def opening (channel : Nat) (program : Program) : Track :=
  [⟨0, .trackName (letters s!"Voice {channel}")⟩, ⟨0, .controller channel volumeController fullVolume⟩,
    ⟨0, .program channel program.val⟩]

/-- The track of a voice that can be rendered. -/
def performed (channel : Nat) (t : Timeline) : Track :=
  opening channel t.instrument.program ++ keyed channel (placed 0 t.notes)

theorem mem_performed {channel : Nat} {t : Timeline} {m : TimedMessage} :
    m ∈ performed channel t ↔ m ∈ opening channel t.instrument.program ∨
      ∃ p ∈ placed 0 t.notes, m ∈ [strikes channel p, releases channel p] := by
  rw [performed, List.mem_append, keyed, List.mem_flatMap]

theorem voiceTrack_eq {channel : Nat} {t : Timeline} {track : Track} (h : voiceTrack channel t = .ok track) :
    track = performed channel t ∧ ∀ p ∈ placed 0 t.notes, Rendered p := by
  obtain ⟨notes, hnotes, h⟩ := exists_of_bind_eq_ok h
  cases h
  obtain ⟨rfl, hrendered⟩ := noteMessages_eq channel t.instrument.name t.notes hnotes
  exact ⟨rfl, hrendered⟩

theorem voiceTracks_eq {channel : Nat} {timelines : List Timeline} {tracks : List Track}
    (h : (voiceTracks channel timelines).result = .ok tracks) :
    tracks = timelines.mapIdx (fun n t => performed (channel + n) t) ∧
      ∀ t ∈ timelines, ∀ p ∈ placed 0 t.notes, Rendered p := by
  induction timelines generalizing channel tracks with
  | nil =>
      cases h
      exact ⟨rfl, fun t ht => absurd ht List.not_mem_nil⟩
  | cons t rest ih =>
      obtain ⟨track, htrack, h⟩ := Logged.exists_of_bind h
      obtain ⟨_, -, h⟩ := Logged.exists_of_bind h
      obtain ⟨others, hothers, h⟩ := Logged.exists_of_bind h
      cases h
      obtain ⟨rfl, hnotes⟩ := voiceTrack_eq htrack
      obtain ⟨rfl, hrest⟩ := ih hothers
      refine ⟨?_, List.forall_mem_cons.mpr ⟨hnotes, hrest⟩⟩
      simp only [List.mapIdx_cons, Nat.add_zero, Nat.add_assoc, Nat.add_comm 1]

theorem exists_of_render {settings : TimelineSettings} {s : Song} {f : File}
    (h : (render settings s).result = .ok f) :
    s.voices.length ≤ 16 ∧ (∃ name conductor, nameTrack s = .ok name ∧
      (conductorTrack s).result = .ok conductor ∧
      f = ⟨conductor :: name :: (s.timelines settings).mapIdx performed⟩) ∧
      ∀ t ∈ s.timelines settings, ∀ p ∈ placed 0 t.notes, Rendered p := by
  unfold render at h
  split at h
  · cases h
  · next hroom =>
      obtain ⟨name, hname, h⟩ := Logged.exists_of_bind h
      obtain ⟨conductor, hconductor, h⟩ := Logged.exists_of_bind h
      obtain ⟨tracks, htracks, h⟩ := Logged.exists_of_bind h
      cases h
      obtain ⟨rfl, hrendered⟩ := voiceTracks_eq htracks
      simp only [Nat.zero_add]
      exact ⟨not_lt.mp hroom, ⟨name, conductor, hname, hconductor, rfl⟩, hrendered⟩

theorem opening_fits {channel : Nat} (hchannel : channel < 16) (program : Program) :
    (opening channel program).Fits := by
  have hprogram := program.isLt
  intro m hm
  simp only [opening, List.mem_cons, List.not_mem_nil, or_false] at hm
  rcases hm with rfl | rfl | rfl
  · exact ⟨le_rfl, trivial⟩
  · exact ⟨le_rfl, hchannel, by decide⟩
  · refine ⟨le_rfl, hchannel, fun n hn => ?_⟩
    rw [List.mem_singleton.mp hn]
    omega

/-- The two messages of a note fit if it comes at the start or later, does not end before it begins, and has a
velocity that data bytes can have. -/
theorem fits_of_rendered {channel : Nat} (hchannel : channel < 16) {p : Rat × TimedNote} (hrendered : Rendered p)
    (honset : 0 ≤ tick p.1) (hsound : 0 ≤ tick p.2.soundDuration) (hlow : 0 ≤ p.2.velocity)
    (hhigh : p.2.velocity ≤ 127) : ∀ m ∈ [strikes channel p, releases channel p], 0 ≤ m.tick ∧ m.message.Fits := by
  have hpitch := hrendered.pitch_nonneg
  have hpitch' := hrendered.pitch_le
  have hfits : FitsChannel channel [p.2.pitch, p.2.velocity] := by
    refine ⟨hchannel, fun n hn => ?_⟩
    simp only [List.mem_cons, List.not_mem_nil, or_false] at hn
    omega
  intro m hm
  simp only [List.mem_cons, List.not_mem_nil, or_false] at hm
  rcases hm with rfl | rfl
  · exact ⟨honset, hfits⟩
  · exact ⟨add_nonneg honset hsound, hfits⟩

/-- The track of a voice of events that take time fits, if data bytes can have the velocities of its notes. -/
theorem performed_fits {channel : Nat} (hchannel : channel < 16) {settings : TimelineSettings}
    (hstaccato : 0 ≤ settings.staccatoLength) {v : Voice} (hv : ∀ e ∈ v.events, 0 < e.length)
    (hrendered : ∀ p ∈ placed 0 (Timeline.ofVoice settings v).notes, Rendered p)
    (hvelocity : ∀ x ∈ (Timeline.ofVoice settings v).notes, 0 ≤ x.velocity ∧ x.velocity ≤ 127) :
    (performed channel (Timeline.ofVoice settings v)).Fits := by
  intro m hm
  rcases mem_performed.mp hm with hopening | ⟨p, hp, hnote⟩
  · exact opening_fits hchannel _ m hopening
  · obtain ⟨honset, hsound⟩ := ticks_nonneg_of_mem_placed hstaccato hv p hp
    obtain ⟨hlow, hhigh⟩ := (forall_mem_placed 0).mpr hvelocity p hp
    exact fits_of_rendered hchannel (hrendered p hp) honset hsound hlow hhigh m hnote

end Voices

section Order

/-- A message that may stand before all others of a track stays in front of them. -/
theorem Track.ordered_cons {m : TimedMessage} {t : Track} (hfirst : ∀ other ∈ t, m.before other = true) :
    Track.ordered (m :: t) = m :: t.ordered := by
  obtain ⟨front, back, hsplit, hsort, hfront⟩ :=
    List.mergeSort_cons TimedMessage.before_trans TimedMessage.before_total m t
  -- the sort leaves in front of `m` only what `m` may not precede
  have hnone : front = [] := by
    apply List.eq_nil_iff_forall_not_mem.mpr
    intro other hother
    have hmem : other ∈ t.mergeSort TimedMessage.before := by
      rw [hsort]
      exact List.mem_append_left _ hother
    have hnot := hfront other hother
    rw [hfirst other (List.mem_mergeSort.mp hmem)] at hnot
    cases hnot
  rw [hnone] at hsplit hsort
  rw [Track.ordered, Track.ordered, hsplit, hsort]
  rfl

theorem Track.ordered_append {front back : Track} (hfront : front.Pairwise fun a b => a.before b = true)
    (hback : ∀ m ∈ front, ∀ other ∈ back, m.before other = true) :
    Track.ordered (front ++ back) = front ++ Track.ordered back := by
  induction front with
  | nil => rfl
  | cons m front ih =>
      obtain ⟨hm, hfront⟩ := List.pairwise_cons.mp hfront
      obtain ⟨hothers, hback⟩ := List.forall_mem_cons.mp hback
      have hfirst : ∀ other ∈ front ++ back, m.before other = true := by
        intro other hother
        rcases List.mem_append.mp hother with hother | hother
        · exact hm other hother
        · exact hothers other hother
      rw [List.cons_append, ordered_cons hfirst, ih hfront hback, List.cons_append]

theorem opening_pairwise (channel : Nat) (program : Program) :
    (opening channel program).Pairwise fun a b => a.before b = true := by
  simp [opening, TimedMessage.before_iff, Message.rank]

/-- What opens a track stays in front of the notes. -/
theorem opening_before_keyed {channel : Nat} (program : Program) {notes : List (Rat × TimedNote)}
    (hnotes : ∀ p ∈ notes, Playable p) :
    ∀ m ∈ opening channel program, ∀ other ∈ keyed channel notes, m.before other = true := by
  intro m hm other hother
  obtain ⟨p, hp, hother⟩ := List.mem_flatMap.mp hother
  have honset := (hnotes p hp).onset_nonneg
  have hsound := (hnotes p hp).sound_nonneg
  have hopening : m.tick = 0 ∧ m.message.rank ≤ 1 := by
    simp only [opening, List.mem_cons, List.not_mem_nil, or_false] at hm
    rcases hm with rfl | rfl | rfl <;> simp [Message.rank]
  have hnote : 0 ≤ other.tick ∧ 2 ≤ other.message.rank := by
    simp only [List.mem_cons, List.not_mem_nil, or_false] at hother
    rcases hother with rfl | rfl
    · exact ⟨honset, by simp [strikes, Message.rank]⟩
    · exact ⟨add_nonneg honset hsound, by simp [releases, Message.rank]⟩
  rw [TimedMessage.before_iff]
  omega

theorem ordered_performed (channel : Nat) {v : Voice} (hnotes : ∀ p ∈ played v, Playable p) :
    (performed channel (Timeline.ofVoice {} v)).ordered =
      opening channel v.instrument.program ++ (keyed channel (played v)).ordered :=
  Track.ordered_append (opening_pairwise channel v.instrument.program)
    (opening_before_keyed v.instrument.program hnotes)

end Order

section Violin

/-- The tracks before those of the voices, in a song of which only instruments are declared. -/
def plainTracks : List Track :=
  [[⟨0, .tempo 500000⟩, ⟨0, .timeSignature 4 2⟩, ⟨0, .keySignature 0 false⟩],
    [⟨0, .trackName (letters "Untitled by Anonymous")⟩]]

theorem exists_of_isOk {ε α : Type} {x : Except ε α} (h : x.isOk = true) : ∃ a, x = .ok a := by
  cases x with
  | error e => cases h
  | ok a => exact ⟨a, rfl⟩

theorem File.exists_bytes {tracks : List Track} (h : ∀ t ∈ tracks, ∃ b, t.bytes = .ok b) :
    ∃ bytes, File.bytes ⟨tracks⟩ = .ok bytes := by
  have hchunks : ∃ chunks, tracks.mapM Track.bytes = .ok chunks := by
    induction tracks with
    | nil => exact ⟨[], rfl⟩
    | cons t rest ih =>
        obtain ⟨⟨b, hb⟩, hrest⟩ := List.forall_mem_cons.mp h
        obtain ⟨chunks, hchunks⟩ := ih hrest
        exact ⟨b :: chunks, by rw [List.mapM_cons, hb, hchunks]; rfl⟩
  obtain ⟨chunks, hchunks⟩ := hchunks
  exact ⟨_, by rw [File.bytes, hchunks]; rfl⟩

theorem exists_bytes_of_mem_plainTracks : ∀ t ∈ plainTracks, ∃ b, t.bytes = .ok b := by
  intro t ht
  simp only [plainTracks, List.mem_cons, List.not_mem_nil, or_false] at ht
  rcases ht with rfl | rfl
  · have hordered : Track.ordered [⟨0, .tempo 500000⟩, ⟨0, .timeSignature 4 2⟩, ⟨0, .keySignature 0 false⟩] =
        [⟨0, .timeSignature 4 2⟩, ⟨0, .keySignature 0 false⟩, ⟨0, .tempo 500000⟩] :=
      Track.ordered_eq (by decide) (by decide) (by decide)
    apply exists_of_isOk
    simp only [Track.bytes, hordered]
    decide +kernel
  · apply exists_of_isOk
    simp only [Track.bytes, Track.ordered, List.mergeSort_singleton]
    decide +kernel

end Violin

section Files

variable (steps : List Step) {f : File} {bytes : List UInt8}

theorem track_of_render {settings : TimelineSettings} {s : Song} (hrender : (render settings s).result = .ok f)
    {n : Nat} {v : Voice} (hv : s.voices[n]? = some v) :
    f.tracks[n + 2]? = some (performed n (Timeline.ofVoice settings v)) ∧ n < 16 ∧
      ∀ p ∈ placed 0 (Timeline.ofVoice settings v).notes, Rendered p := by
  obtain ⟨hroom, ⟨name, conductor, -, -, rfl⟩, hrendered⟩ := exists_of_render hrender
  have hn := (List.getElem?_eq_some_iff.mp hv).1
  refine ⟨?_, by omega, hrendered _ (List.mem_map_of_mem (List.mem_of_getElem? hv))⟩
  simp only [List.getElem?_cons_succ, List.getElem?_mapIdx, Song.timelines, List.getElem?_map, hv,
    Option.map_some]

theorem voices_of_render (hrender : (render {} (Session.run {} steps).song).result = .ok f) {n : Nat}
    {v : Voice} (hv : (Session.run {} steps).song.voices[n]? = some v) :
    f.tracks[n + 2]? = some (performed n (Timeline.ofVoice {} v)) ∧
      ∀ p ∈ played v, Playable p ∧ Rendered p := by
  obtain ⟨htrack, -, hrendered⟩ := track_of_render hrender hv
  have hplayable := playable_of_mem_played ((Session.run_positive steps).events_pos v (List.mem_of_getElem? hv))
  exact ⟨htrack, fun p hp => ⟨hplayable p hp, hrendered p hp⟩⟩

theorem length_of_render {settings : TimelineSettings} {s : Song} (hrender : (render settings s).result = .ok f) :
    f.tracks.length = s.voices.length + 2 ∧ f.tracks.length < 65536 := by
  obtain ⟨hroom, ⟨name, conductor, -, -, rfl⟩, -⟩ := exists_of_render hrender
  have hlength : (conductor :: name :: (s.timelines settings).mapIdx performed).length = s.voices.length + 2 := by
    simp only [List.length_cons, List.length_mapIdx, Song.timelines, List.length_map]
  exact ⟨hlength, by rw [hlength]; omega⟩

/-- All tracks of a file fit, if data bytes can have the velocities of its notes. -/
theorem fits_of_velocities {settings : TimelineSettings} (hstaccato : 0 ≤ settings.staccatoLength)
    (hrender : (render settings (Session.run {} steps).song).result = .ok f)
    (hvelocity : ∀ v ∈ (Session.run {} steps).song.voices, ∀ x ∈ (Timeline.ofVoice settings v).notes,
      0 ≤ x.velocity ∧ x.velocity ≤ 127) : ∀ t ∈ f.tracks, t.Fits := by
  have hevents := (Session.run_positive steps).events_pos
  obtain ⟨hroom, ⟨name, conductor, hname, hconductor, rfl⟩, hrendered⟩ := exists_of_render hrender
  refine List.forall_mem_cons.mpr ⟨conductorTrack_fits (Session.records_of_run steps) hconductor, ?_⟩
  refine List.forall_mem_cons.mpr ⟨nameTrack_fits hname, fun t ht => ?_⟩
  obtain ⟨n, hn, rfl⟩ := List.mem_mapIdx.mp ht
  rw [Song.timelines, List.length_map] at hn
  have hv := List.getElem_mem hn
  simp only [Song.timelines, List.getElem_map]
  exact performed_fits (by omega) hstaccato (hevents _ hv) (hrendered _ (List.mem_map_of_mem hv)) (hvelocity _ hv)

theorem fits_of_render (hrender : (render {} (Session.run {} steps).song).result = .ok f) :
    ∀ t ∈ f.tracks, t.Fits := by
  refine fits_of_velocities steps (by norm_num) hrender fun v hv x hx => ?_
  have hvelocity : x.velocity = 63 ∨ x.velocity = 75 := Timeline.velocity_of_mem_emit hx
  omega

/-- The events of a note: it begins at the tick of its onset and ends as many ticks later as its length has. -/
def noteEvents (channel : Nat) (p : Rat × TimedNote) : List (Nat × FileEvent) :=
  [((tick p.1).toNat, .channel 0x9 channel [p.2.pitch.toNat, p.2.velocity.toNat]),
    ((tick p.1 + tick p.2.soundDuration).toNat, .channel 0x8 channel [p.2.pitch.toNat, p.2.velocity.toNat])]

theorem events_keyed_perm (channel : Nat) (notes : List (Rat × TimedNote)) :
    (keyed channel notes).events.Perm (notes.flatMap (noteEvents channel)) := by
  have hevents : (keyed channel notes).map TimedMessage.event = notes.flatMap (noteEvents channel) := by
    rw [keyed, List.map_flatMap]
    rfl
  rw [← hevents]
  exact (keyed channel notes).ordered_perm.map _

/-- The bytes of a song that steps have written and that can be rendered are read back as a file of format 1
with 960 ticks to a quarter and two tracks more than there are voices. The track of a voice has its name,
its volume and its program first, and then the events of its notes and no others, on its own channel. -/
theorem render_read_back (hrender : (render {} (Session.run {} steps).song).result = .ok f)
    (hbytes : f.bytes = .ok bytes) :
    let s := (Session.run {} steps).song
    ∃ tracks, read? bytes = some ⟨1, 960, tracks⟩ ∧ tracks.length = s.voices.length + 2 ∧
      ∀ (n : Nat) v, s.voices[n]? = some v → ∃ events,
        tracks[n + 2]? = some ((0, .tag 0x03 (letters s!"Voice {n}")) :: (0, .channel 0xb n [7, 127]) ::
          (0, .channel 0xc n [v.instrument.program.val]) :: events) ∧
        events.Perm ((played v).flatMap (noteEvents n)) ∧ ∀ p ∈ played v, Playable p ∧ Rendered p := by
  intro s
  obtain ⟨hlength, hcount⟩ := length_of_render hrender
  refine ⟨_, File.read?_bytes (fits_of_render steps hrender) hcount hbytes, ?_, ?_⟩
  · rw [List.length_map, hlength]
  · intro n v hv
    obtain ⟨htrack, hnotes⟩ := voices_of_render steps hrender hv
    refine ⟨(keyed n (played v)).events, ?_, events_keyed_perm n _, hnotes⟩
    rw [List.getElem?_map, htrack, Option.map_some, Track.events,
      ordered_performed n fun p hp => (hnotes p hp).1, List.map_append]
    rfl

/-- A song of one whole note. -/
theorem render_read_back_note :
    let steps : List Step := [.instrument "vi" "Violin",
      .applySection 1 [{ symbol := "vi", notes := "1:c" }] none]
    ∃ f bytes tracks events, (render {} (Session.run {} steps).song).result = .ok f ∧ f.bytes = .ok bytes ∧
      read? bytes = some ⟨1, 960, tracks⟩ ∧ tracks.length = 3 ∧
      tracks[2]? = some ((0, .tag 0x03 (letters "Voice 0")) :: (0, .channel 0xb 0 [7, 127]) ::
        (0, .channel 0xc 0 [40]) :: events) ∧
      events.Perm [(0, .channel 0x9 0 [64, 63]), (3840, .channel 0x8 0 [64, 63])] := by
  intro steps
  let whole : Note := { duration := ⟨1, 0⟩, letter := .c, accidental := .natural, octave := 4 }
  let voice : Voice := ⟨⟨"vi", "Violin", 40⟩, 0, [.note whole], 4⟩
  have hvoices : (Session.run {} steps).song.voices = [voice] := by
    rw [run_violin]
    decide +kernel
  have hrender : (render {} (Session.run {} steps).song).result =
      .ok ⟨plainTracks ++ [performed 0 (Timeline.ofVoice {} voice)]⟩ := by
    rw [run_violin]
    decide +kernel
  have hvoice : (performed 0 (Timeline.ofVoice {} voice)).ordered = performed 0 (Timeline.ofVoice {} voice) :=
    List.mergeSort_of_pairwise (by decide +kernel)
  obtain ⟨bytes, hbytes⟩ : ∃ bytes, File.bytes ⟨plainTracks ++ [performed 0 (Timeline.ofVoice {} voice)]⟩ =
      .ok bytes := by
    refine File.exists_bytes (List.forall_mem_append.mpr ⟨exists_bytes_of_mem_plainTracks, ?_⟩)
    refine List.forall_mem_singleton.mpr (exists_of_isOk ?_)
    simp only [Track.bytes, hvoice]
    decide +kernel
  obtain ⟨tracks, hread, hlength, htracks⟩ := render_read_back steps hrender hbytes
  rw [hvoices] at hlength htracks
  obtain ⟨events, htrack, hevents, -⟩ := htracks 0 voice rfl
  have hnotes : (played voice).flatMap (noteEvents 0) =
      [(0, .channel 0x9 0 [64, 63]), (3840, .channel 0x8 0 [64, 63])] := by decide +kernel
  rw [hnotes] at hevents
  exact ⟨_, bytes, tracks, events, hrender, hbytes, hread, hlength, htrack, hevents⟩

end Files

end Midi

end LineScore
