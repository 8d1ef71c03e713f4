import LineScore.Proofs.Rendering

/-! Keys going down and up. A voice plays one note at a time, but its onsets and lengths become ticks
separately, and doubles come between. The keys of its track go down and up in turn if every note has a tick
of its own and ends no later than the next one begins; otherwise a note may be released before it is struck,
or still be held when the next one is struck. -/

namespace LineScore.Midi

/-- What a message does to a key, if anything: whether the key goes down, and its pitch. -/
def Message.stroke? : Message → Option (Bool × Int)
  | .noteOn _ pitch _ => some (true, pitch)
  | .noteOff _ pitch _ => some (false, pitch)
  | _ => none

/-- What a track does to the keys, in the order of the file. -/
def Track.strokes (t : Track) : List (Bool × Int) :=
  t.ordered.filterMap fun m => m.message.stroke?

/-- Whether keys go down one at a time, each coming up again before the next, and all of them in the end. -/
def alternates : List (Bool × Int) → Bool
  | [] => true
  | (true, struck) :: (false, released) :: rest => struck = released && alternates rest
  | _ => false

/-- Whether notes stay apart in ticks: each ends after it begins, and no later than the next one begins. -/
structure Apart (notes : List (Rat × TimedNote)) : Prop where
  sounds : ∀ p ∈ notes, 0 < tick p.2.soundDuration
  follows : notes.IsChain fun p q => tick p.1 + tick p.2.soundDuration ≤ tick q.1

section Strokes

theorem strokes_keyed (channel : Nat) (notes : List (Rat × TimedNote)) :
    (keyed channel notes).filterMap (fun m => m.message.stroke?) =
      notes.flatMap fun p => [(true, p.2.pitch), (false, p.2.pitch)] := by
  induction notes with
  | nil => rfl
  | cons p rest ih =>
      rw [keyed, List.flatMap_cons, List.flatMap_cons, List.filterMap_append, ← keyed, ih]
      rfl

theorem alternates_of_notes (notes : List (Rat × TimedNote)) :
    alternates (notes.flatMap fun p => [(true, p.2.pitch), (false, p.2.pitch)]) = true := by
  induction notes with
  | nil => rfl
  | cons p rest ih =>
      rw [List.flatMap_cons, List.cons_append, List.cons_append, List.nil_append, alternates, ih,
        decide_eq_true rfl, Bool.true_and]

theorem count_strokes_keyed (channel : Nat) (notes : List (Rat × TimedNote)) (pitch : Int) :
    ((keyed channel notes).filterMap fun m => m.message.stroke?).count (true, pitch) =
      ((keyed channel notes).filterMap fun m => m.message.stroke?).count (false, pitch) := by
  rw [strokes_keyed]
  induction notes with
  | nil => rfl
  | cons p rest ih =>
      have hpair : [(true, p.2.pitch), (false, p.2.pitch)].count (true, pitch) =
          [(true, p.2.pitch), (false, p.2.pitch)].count (false, pitch) := rfl
      rw [List.flatMap_cons, List.count_append, List.count_append, ih, hpair]

end Strokes

section Order

theorem Track.ordered_eq_iff (t : Track) : t.ordered = t ↔ t.Pairwise fun a b => a.before b = true := by
  constructor
  · intro hsorted
    rw [← hsorted]
    exact t.ordered_pairwise
  · exact List.mergeSort_of_pairwise

theorem apart_singleton (p : Rat × TimedNote) : Apart [p] ↔ 0 < tick p.2.soundDuration := by
  constructor
  · intro h
    exact h.sounds p List.mem_cons_self
  · intro hsound
    exact ⟨List.forall_mem_singleton.mpr hsound, List.isChain_singleton p⟩

theorem apart_cons_cons (p q : Rat × TimedNote) (rest : List (Rat × TimedNote)) :
    Apart (p :: q :: rest) ↔
      0 < tick p.2.soundDuration ∧ tick p.1 + tick p.2.soundDuration ≤ tick q.1 ∧ Apart (q :: rest) := by
  constructor
  · intro h
    obtain ⟨hsound, hsounds⟩ := List.forall_mem_cons.mp h.sounds
    obtain ⟨hfollows, hchain⟩ := List.isChain_cons_cons.mp h.follows
    exact ⟨hsound, hfollows, hsounds, hchain⟩
  · rintro ⟨hsound, hfollows, hsounds, hchain⟩
    exact ⟨List.forall_mem_cons.mpr ⟨hsound, hsounds⟩, List.isChain_cons_cons.mpr ⟨hfollows, hchain⟩⟩

theorem strikes_before_releases (channel : Nat) (p : Rat × TimedNote) :
    (strikes channel p).before (releases channel p) = true ↔ 0 < tick p.2.soundDuration := by
  rw [TimedMessage.before_iff]
  simp [strikes, releases, Message.rank]

theorem releases_before_strikes (channel : Nat) (p q : Rat × TimedNote) :
    (releases channel p).before (strikes channel q) = true ↔
      tick p.1 + tick p.2.soundDuration ≤ tick q.1 := by
  rw [TimedMessage.before_iff]
  simp [strikes, releases, Message.rank, Int.le_iff_lt_or_eq]

/-- Messages of notes are in order one note after the other exactly if the notes stay apart. -/
theorem isChain_keyed_iff (channel : Nat) (notes : List (Rat × TimedNote)) :
    (keyed channel notes).IsChain (fun a b => a.before b = true) ↔ Apart notes := by
  induction notes with
  | nil =>
      have hnone : Apart [] := ⟨fun p hp => absurd hp List.not_mem_nil, List.isChain_nil⟩
      exact ⟨fun _ => hnone, fun _ => List.isChain_nil⟩
  | cons p rest ih =>
      -- a release is compared with the next strike, if there is one
      cases rest with
      | nil =>
          rw [apart_singleton, ← strikes_before_releases channel]
          exact List.isChain_pair
      | cons q rest =>
          rw [apart_cons_cons, ← ih, ← strikes_before_releases channel, ← releases_before_strikes channel]
          change List.IsChain _ (strikes channel p :: releases channel p :: strikes channel q :: _) ↔ _
          rw [List.isChain_cons_cons, List.isChain_cons_cons]
          rfl

theorem ordered_keyed_iff (channel : Nat) (notes : List (Rat × TimedNote)) :
    (keyed channel notes).ordered = keyed channel notes ↔ Apart notes := by
  have : IsTrans TimedMessage fun a b => a.before b = true := ⟨TimedMessage.before_trans⟩
  rw [Track.ordered_eq_iff, ← List.isChain_iff_pairwise, isChain_keyed_iff]

end Order

section Voices

variable (steps : List Step) {f : File}

/-- In a song that steps have written and that can be rendered, a voice puts down every key as often as it
lets it go. The file has its notes one after the other exactly if they stay apart in ticks, and then its
keys go down and up in turn. -/
theorem render_alternates (hrender : (render {} (Session.run {} steps).song).result = .ok f) {n : Nat}
    {v : Voice} (hv : (Session.run {} steps).song.voices[n]? = some v) :
    ∃ track, f.tracks[n + 2]? = some track ∧
      (∀ pitch, track.strokes.count (true, pitch) = track.strokes.count (false, pitch)) ∧
      (track.ordered = opening n v.instrument.program ++ keyed n (played v) ↔ Apart (played v)) ∧
      (Apart (played v) → alternates track.strokes = true) := by
  obtain ⟨htrack, hnotes⟩ := voices_of_render steps hrender hv
  have hordered := ordered_performed n fun p hp => (hnotes p hp).1
  have hstrokes : (performed n (Timeline.ofVoice {} v)).strokes =
      (keyed n (played v)).ordered.filterMap fun m => m.message.stroke? := by
    rw [Track.strokes, hordered, List.filterMap_append]
    rfl
  refine ⟨_, htrack, fun pitch => ?_, ?_, fun happart => ?_⟩
  · have hperm := (keyed n (played v)).ordered_perm.filterMap fun m => m.message.stroke?
    rw [hstrokes, hperm.count_eq, hperm.count_eq]
    exact count_strokes_keyed n (played v) pitch
  · rw [hordered, List.append_cancel_left_eq]
    exact ordered_keyed_iff n (played v)
  · rw [hstrokes, (ordered_keyed_iff n (played v)).mpr happart, strokes_keyed]
    exact alternates_of_notes (played v)

/-- Two half notes stay apart. -/
theorem render_alternates_halves :
    let steps : List Step := [.instrument "vi" "Violin",
      .applySection 1 [{ symbol := "vi", notes := "2:c 2:d" }] none]
    ∃ f track, (render {} (Session.run {} steps).song).result = .ok f ∧ f.tracks[2]? = some track ∧
      alternates track.strokes = true := by
  intro steps
  let half : Note := { duration := ⟨2, 0⟩, letter := .c, accidental := .natural, octave := 4 }
  let voice : Voice := ⟨⟨"vi", "Violin", 40⟩, 0, [.note half, .note { half with letter := .d }], 4⟩
  have hvoice : (Session.run {} steps).song.voices[0]? = some voice := by
    rw [run_violin]
    decide +kernel
  obtain ⟨f, hrender⟩ : ∃ f, (render {} (Session.run {} steps).song).result = .ok f := by
    rw [run_violin]
    exact exists_of_isOk (by decide +kernel)
  obtain ⟨track, htrack, -, -, halternates⟩ := render_alternates steps hrender hvoice
  have happart : Apart (played voice) := by
    refine (apart_cons_cons _ _ _).mpr ⟨?_, ?_, (apart_singleton _).mpr ?_⟩ <;> decide +kernel
  exact ⟨f, track, hrender, htrack, halternates happart⟩

/-- Triplets after four bars of rest do not stay apart: the second one is struck a tick before the first one
is released. -/
theorem strokes_of_triplets :
    let steps : List Step := [.instrument "vi" "Violin",
      .applySection 5 [{ symbol := "vi", notes := "1:& 1:& 1:& 1:& 12:c 12:d 12:e 2.:&" }] none]
    ∃ f bytes track, (render {} (Session.run {} steps).song).result = .ok f ∧ f.bytes = .ok bytes ∧
      f.tracks[2]? = some track ∧
      track.strokes = [(true, 64), (true, 66), (false, 64), (false, 66), (true, 68), (false, 68)] ∧
      alternates track.strokes = false := by
  intro steps
  let keys : Track := [⟨15360, .noteOn 0 64 63⟩, ⟨15680, .noteOff 0 64 63⟩, ⟨15679, .noteOn 0 66 63⟩,
    ⟨15999, .noteOff 0 66 63⟩, ⟨16000, .noteOn 0 68 63⟩, ⟨16320, .noteOff 0 68 63⟩]
  have hrender : (render {} (Session.run {} steps).song).result =
      .ok ⟨plainTracks ++ [opening 0 40 ++ keys]⟩ := by
    rw [run_violin]
    decide +kernel
  have hkeys : keys.ordered = [⟨15360, .noteOn 0 64 63⟩, ⟨15679, .noteOn 0 66 63⟩, ⟨15680, .noteOff 0 64 63⟩,
      ⟨15999, .noteOff 0 66 63⟩, ⟨16000, .noteOn 0 68 63⟩, ⟨16320, .noteOff 0 68 63⟩] :=
    Track.ordered_eq (by decide) (by decide) (by decide)
  have hordered := Track.ordered_append (opening_pairwise 0 40)
    (show ∀ m ∈ opening 0 40, ∀ other ∈ keys, m.before other = true by decide +kernel)
  rw [hkeys] at hordered
  obtain ⟨bytes, hbytes⟩ : ∃ bytes, File.bytes ⟨plainTracks ++ [opening 0 40 ++ keys]⟩ = .ok bytes := by
    refine File.exists_bytes (List.forall_mem_append.mpr ⟨exists_bytes_of_mem_plainTracks, ?_⟩)
    refine List.forall_mem_singleton.mpr (exists_of_isOk ?_)
    simp only [Track.bytes, hordered]
    decide +kernel
  refine ⟨_, bytes, opening 0 40 ++ keys, hrender, hbytes, rfl, ?_⟩
  rw [Track.strokes, hordered]
  exact ⟨rfl, rfl⟩

end Voices

end LineScore.Midi
