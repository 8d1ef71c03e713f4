import LineScore.Proofs.Alternation
import LineScore.Proofs.Rounding

/-! Exact ticks. A length on the grid of sixty-fourths is a double as long as it is not too large, and so is
its product with the ticks of a quarter, which leaves nothing to cut off. Sums of such lengths are on the grid
again, so no error adds up along a voice: every note begins and ends at the tick that its exact place has, and
notes that follow each other in the voice do so in ticks. -/

namespace LineScore

/-- Whether an event takes time, or at least none back if it is silent. -/
def Event.Lasts : Event → Prop
  | .note n => 0 < n.duration.length
  | .rest d => 0 ≤ d.length
  | .measureRest measures meter => 0 ≤ meter.spanLength measures

instance : (e : Event) → Decidable e.Lasts
  | .note n => inferInstanceAs (Decidable (0 < n.duration.length))
  | .rest d => inferInstanceAs (Decidable (0 ≤ d.length))
  | .measureRest measures meter => inferInstanceAs (Decidable (0 ≤ meter.spanLength measures))

theorem Event.Lasts.nonneg {e : Event} (h : e.Lasts) : 0 ≤ e.length := by
  cases e with
  | note n => exact le_of_lt h
  | rest d => exact h
  | measureRest measures meter => exact h

theorem Event.lasts_of_pos {e : Event} (h : 0 < e.length) : e.Lasts := by
  cases e with
  | note n => exact h
  | rest d => exact h.le
  | measureRest measures meter => exact h.le

theorem Timeline.onGrid_soundOf {parts : Nat} {settings : TimelineSettings} {n : Note}
    (hstaccato : OnGrid parts settings.staccatoLength) (hlength : OnGrid parts n.duration.length) :
    OnGrid parts (soundOf settings n) := by
  rw [soundOf_eq]
  split
  · rcases min_choice n.duration.length settings.staccatoLength with hmin | hmin
    · rw [hmin]
      exact hlength
    · rw [hmin]
      exact hstaccato
  · exact hlength

/-- Whether a voice is made of sixty-fourths of a quarter note and shorter than 2 to the power 40 quarters. -/
structure Voice.OnFineGrid (v : Voice) : Prop where
  lasts : ∀ e ∈ v.events, e.Lasts
  onGrid : ∀ e ∈ v.events, OnGrid 64 e.length
  short : totalLength v.events < 2 ^ 40

namespace Midi

/-- A length on the grid has exactly its 960 ticks to a quarter. -/
theorem tick_of_onGrid {x : Rat} (hgrid : OnGrid 64 x) (hx : 0 ≤ x) (hshort : x < 2 ^ 40) :
    (tick x : Rat) = 960 * x := by
  obtain ⟨k, rfl⟩ := hgrid
  rw [Nat.cast_ofNat] at hx hshort ⊢
  obtain ⟨n, rfl⟩ : ∃ n : Nat, k = n := by
    have hk : (0 : Rat) ≤ k := by linarith
    exact Int.eq_ofNat_of_zero_le (by exact_mod_cast hk)
  rw [Int.cast_natCast] at hshort ⊢
  have hn : n < 2 ^ 46 := by
    have hcast : (n : Rat) < 2 ^ 46 := by linarith
    exact_mod_cast hcast
  -- this many sixty-fourths and fifteen times as many ticks both have less than the 53 bits of a double
  have hdouble : Number.nearest? (n / 64) = some (n / 64 : Rat) :=
    Number.nearest?_of_fraction (k := n) (e := 6) (by omega) (by decide) (by norm_num)
  have hproduct : Number.nearest? ((n / 64 : Rat) * (ticksPerQuarter : Rat)) = some ((15 * n : Nat) : Rat) := by
    have hticks : (n / 64 : Rat) * (ticksPerQuarter : Rat) = (15 * n : Nat) := by
      rw [ticksPerQuarter]
      push_cast
      ring
    rw [hticks]
    exact Number.nearest?_of_fraction (k := 15 * n) (e := 0) (by omega) (by decide) (by simp)
  have hcut : Number.truncate ((15 * n : Nat) : Rat) = (15 * n : Nat) := by
    rw [Number.truncate_eq_floor (Nat.cast_nonneg _), Int.floor_natCast]
  have hok : ticks (n / 64) = .ok (15 * n : Nat) := by
    simp only [ticks, double, hdouble, ticksOfDouble, bind, Except.bind, hproduct, hcut]
  rw [tick_eq hok]
  push_cast
  ring

section Voices

variable {v : Voice} {p : Rat × TimedNote}

/-- Whether a note begins at or after the start and sounds, both in exactly as many ticks as its lengths have. -/
structure IsExact (p : Rat × TimedNote) : Prop where
  onset_nonneg : 0 ≤ p.1
  sound_pos : 0 < p.2.soundDuration
  onset : (tick p.1 : Rat) = 960 * p.1
  sound : (tick p.2.soundDuration : Rat) = 960 * p.2.soundDuration

theorem IsExact.tick_sound_pos (h : IsExact p) : 0 < tick p.2.soundDuration := by
  have hsound : (0 : Rat) < tick p.2.soundDuration := by
    rw [h.sound]
    linarith [h.sound_pos]
  exact_mod_cast hsound

theorem isExact_of_mem_played (hv : v.OnFineGrid) : ∀ p ∈ played v, IsExact p := by
  intro p hp
  obtain ⟨before, n, after, delay, hsplit, rfl⟩ := exists_split_of_mem_placed hp
  have hlasts := hv.lasts
  have hgrid := hv.onGrid
  have hshort := hv.short
  rw [hsplit, List.forall_mem_append, List.forall_mem_cons] at hlasts hgrid
  rw [hsplit, totalLength_append, totalLength_cons] at hshort
  obtain ⟨hbefore, hn, hafter⟩ := hlasts
  obtain ⟨hbeforeGrid, hnGrid, -⟩ := hgrid
  have hstart : 0 ≤ totalLength before := totalLength_nonneg fun e he => (hbefore e he).nonneg
  have hrest : 0 ≤ totalLength after := totalLength_nonneg fun e he => (hafter e he).nonneg
  have hlength : 0 < (Event.note n).length := hn
  have hsound : 0 < Timeline.soundOf {} n := Timeline.soundOf_pos {} (by norm_num) hn
  have hfits : Timeline.soundOf {} n ≤ (Event.note n).length := Timeline.soundOf_le {} n
  have hsoundGrid : OnGrid 64 (Timeline.soundOf {} n) := Timeline.onGrid_soundOf (by decide +kernel) hnGrid
  have honsetShort : totalLength before < 2 ^ 40 := by linarith
  have hsoundShort : Timeline.soundOf {} n < 2 ^ 40 := by linarith
  rw [add_zero, zero_add]
  exact ⟨hstart, hsound, tick_of_onGrid (OnGrid.totalLength hbeforeGrid) hstart honsetShort,
    tick_of_onGrid hsoundGrid hsound.le hsoundShort⟩

theorem IsExact.playable (h : IsExact p) (hp : p ∈ played v) : Playable p where
  onset_nonneg := tick_nonneg h.onset_nonneg
  sound_nonneg := h.tick_sound_pos.le
  velocity := Timeline.velocity_of_mem_emit (mem_of_mem_placed hp)

/-- On the grid the notes of a voice stay apart in ticks, since they do in time. -/
theorem apart_played (hv : v.OnFineGrid) : Apart (played v) where
  sounds p hp := (isExact_of_mem_played hv p hp).tick_sound_pos
  follows := by
    have hdelays := Timeline.emit_delay_nonneg {} (fun e he _ => (hv.lasts e he).nonneg) le_rfl
    refine (isChain_placed hdelays 0).imp_of_mem_imp fun p q hp hq hle => ?_
    have hexact := isExact_of_mem_played hv p hp
    have hnext := isExact_of_mem_played hv q hq
    have hcast : (tick p.1 + tick p.2.soundDuration : Rat) ≤ tick q.1 := by
      rw [hexact.onset, hexact.sound, hnext.onset]
      linarith
    exact_mod_cast hcast

theorem getElem?_keyed (channel : Nat) (notes : List (Rat × TimedNote)) (j : Nat) :
    (keyed channel notes)[2 * j]? = notes[j]?.map (strikes channel) ∧
      (keyed channel notes)[2 * j + 1]? = notes[j]?.map (releases channel) := by
  induction notes generalizing j with
  | nil => exact ⟨rfl, rfl⟩
  | cons p rest ih =>
      cases j with
      | zero => exact ⟨rfl, rfl⟩
      | succ j => exact ih j

/-- The messages of a note on the grid stand behind those of the notes before it, at the exact ticks of its place
and of the end of its sounding part. -/
theorem exists_ticks_of_note (hv : v.OnFineGrid) (channel : Nat) {before after : List Event} {n : Note}
    (hsplit : v.events = before ++ .note n :: after) : ∃ on off : Int,
      let velocity := if n.accented then 75 else 63
      let sound := if n.articulation = .staccato then min n.duration.length (1 / 8) else n.duration.length
      (keyed channel (played v))[2 * (notesOf before).length]? = some ⟨on, .noteOn channel (n.pitch {}) velocity⟩ ∧
      (keyed channel (played v))[2 * (notesOf before).length + 1]? =
        some ⟨off, .noteOff channel (n.pitch {}) velocity⟩ ∧
      (on : Rat) = 960 * totalLength before ∧ (off : Rat) = 960 * (totalLength before + sound) ∧ on < off := by
  obtain ⟨delay, hat⟩ := getElem?_placed {} 0 0 before after n
  rw [← hsplit, add_zero, zero_add] at hat
  obtain ⟨hstrikes, hreleases⟩ := getElem?_keyed channel (played v) (notesOf before).length
  have hnote := isExact_of_mem_played hv _ (List.mem_of_getElem? hat)
  have honset : (tick (totalLength before) : Rat) = 960 * totalLength before := hnote.onset
  have hlength : (tick (Timeline.soundOf {} n) : Rat) = 960 * Timeline.soundOf {} n := hnote.sound
  have hpos : 0 < tick (Timeline.soundOf {} n) := hnote.tick_sound_pos
  refine ⟨tick (totalLength before), tick (totalLength before) + tick (Timeline.soundOf {} n),
    hstrikes.trans ?_, hreleases.trans ?_, honset, ?_, by omega⟩
  · exact congrArg (Option.map (strikes channel)) hat
  · exact congrArg (Option.map (releases channel)) hat
  · rw [← Timeline.soundOf_eq {} n]
    push_cast
    rw [honset, hlength]
    ring

theorem length_keyed (channel : Nat) (notes : List (Rat × TimedNote)) :
    (keyed channel notes).length = 2 * notes.length := by
  induction notes with
  | nil => rfl
  | cons p rest ih =>
      change (keyed channel rest).length + 2 = 2 * (rest.length + 1)
      omega

theorem length_placed (notes : List TimedNote) (cursor : Rat) : (placed cursor notes).length = notes.length := by
  induction notes generalizing cursor with
  | nil => rfl
  | cons n rest ih => rw [placed, List.length_cons, List.length_cons, ih]

end Voices

section Songs

/-- Songs that steps write have events that last, and what is read back from their files is what their tracks
hold. In any song of such events whose lengths are sixty-fourths of a quarter note, no voice reaching 2 to the
power 40 quarters, the track of a voice has its notes one after the other in the order of the voice: each begins
at exactly 960 ticks to a quarter of the events before it, and it ends where its sounding part ends, at least a
tick later. No message comes before the one that it follows. -/
theorem render_exact :
    (∀ (steps : List Step) (f : File) (bytes : List UInt8),
      (render {} (Session.run {} steps).song).result = .ok f → f.bytes = .ok bytes →
      (∀ v ∈ (Session.run {} steps).song.voices, v.length = totalLength v.events ∧ ∀ e ∈ v.events, e.Lasts) ∧
      read? bytes = some ⟨1, 960, f.tracks.map Track.events⟩) ∧
    ∀ (s : Song) (f : File), (∀ v ∈ s.voices, v.OnFineGrid) → (render {} s).result = .ok f →
      ∀ (k : Nat) v, s.voices[k]? = some v → ∃ track messages, f.tracks[k + 2]? = some track ∧
        track.ordered = opening k v.instrument.program ++ messages ∧
        messages.length = 2 * (notesOf v.events).length ∧
        (∀ before n after, v.events = before ++ .note n :: after → ∃ on off : Int,
          let pitch := n.pitch {}
          let velocity := if n.accented then 75 else 63
          let sound := if n.articulation = .staccato then min n.duration.length (1 / 8) else n.duration.length
          messages[2 * (notesOf before).length]? = some ⟨on, .noteOn k pitch velocity⟩ ∧
          messages[2 * (notesOf before).length + 1]? = some ⟨off, .noteOff k pitch velocity⟩ ∧
          (on : Rat) = 960 * totalLength before ∧ (off : Rat) = 960 * (totalLength before + sound) ∧ on < off) ∧
        (messages.map TimedMessage.tick).IsChain (· ≤ ·) := by
  refine ⟨fun steps f bytes hrender hbytes => ⟨fun v hv => ⟨?_, fun e he => ?_⟩, ?_⟩, ?_⟩
  · exact (Session.run_consistent steps).voice_length v hv
  · exact Event.lasts_of_pos ((Session.run_positive steps).events_pos v hv e he)
  · exact File.read?_bytes (fits_of_render steps hrender) (length_of_render hrender).2 hbytes
  · intro s f hfine hrender k v hv
    have hgrid := hfine v (List.mem_of_getElem? hv)
    have hexact := isExact_of_mem_played hgrid
    have hsorted := (ordered_keyed_iff k (played v)).mpr (apart_played hgrid)
    have hordered := ordered_performed k fun p hp => (hexact p hp).playable hp
    obtain ⟨htrack, -, -⟩ := track_of_render hrender hv
    refine ⟨performed k (Timeline.ofVoice {} v), keyed k (played v), htrack, ?_, ?_, ?_, ?_⟩
    · rw [hordered, hsorted]
    · rw [length_keyed, played, length_placed]
      exact congrArg (2 * ·) (Timeline.emit_length {} 0 v.events)
    · intro before n after hsplit
      exact exists_ticks_of_note hgrid k hsplit
    · have hpairwise := (keyed k (played v)).ordered_pairwise
      rw [hsorted] at hpairwise
      refine (List.pairwise_map.mpr (hpairwise.imp fun {a b} hab => ?_)).isChain
      rw [TimedMessage.before_iff] at hab
      omega

/-- Staccato notes, the second after a rest: it begins after three quarters and sounds for an eighth of one. -/
theorem render_exact_staccato :
    let steps : List Step := [.instrument "vi" "Violin",
      .applySection 1 [{ symbol := "vi", notes := "2:c 4:& 4:d", staccato := true }] none]
    ∃ f track messages, (render {} (Session.run {} steps).song).result = .ok f ∧ f.tracks[2]? = some track ∧
      track.ordered = opening 0 40 ++ messages ∧ messages.length = 4 ∧
      messages[2]? = some ⟨2880, .noteOn 0 66 63⟩ ∧ messages[3]? = some ⟨3000, .noteOff 0 66 63⟩ := by
  intro steps
  let half : Note :=
    { duration := ⟨2, 0⟩, letter := .c, accidental := .natural, octave := 4, articulation := .staccato }
  let quarter : Note := { half with duration := ⟨4, 0⟩, letter := .d }
  let voice : Voice := ⟨⟨"vi", "Violin", 40⟩, 0, [.note half, .rest ⟨4, 0⟩, .note quarter], 4⟩
  have hvoices : (Session.run {} steps).song.voices = [voice] := by
    rw [run_violin]
    decide +kernel
  obtain ⟨f, hrender⟩ : ∃ f, (render {} (Session.run {} steps).song).result = .ok f := by
    rw [run_violin]
    exact exists_of_isOk (by decide +kernel)
  have hfine : ∀ v ∈ (Session.run {} steps).song.voices, v.OnFineGrid := by
    rw [hvoices, List.forall_mem_singleton]
    exact ⟨by decide +kernel, by decide +kernel, by decide +kernel⟩
  obtain ⟨track, messages, htrack, hordered, hlength, hnotes, -⟩ :=
    render_exact.2 _ f hfine hrender 0 voice (by rw [hvoices]; rfl)
  obtain ⟨on, off, hon, hoff, honset, hend, -⟩ := hnotes [.note half, .rest ⟨4, 0⟩] quarter [] rfl
  have hbefore : totalLength [.note half, .rest ⟨4, 0⟩] = 3 := by decide +kernel
  have hsound : (if quarter.articulation = .staccato then min quarter.duration.length (1 / 8)
      else quarter.duration.length) = 1 / 8 := by decide +kernel
  rw [hbefore] at honset hend
  rw [hsound] at hend
  obtain rfl : on = 2880 := by
    have hcast : (on : Rat) = 2880 := by linarith
    exact_mod_cast hcast
  obtain rfl : off = 3000 := by
    have hcast : (off : Rat) = 3000 := by linarith
    exact_mod_cast hcast
  exact ⟨f, track, messages, hrender, htrack, hordered, hlength, hon, hoff⟩

end Songs

end Midi

end LineScore
