import LineScore.Midi.Render
import LineScore.Proofs.Onsets
import LineScore.Proofs.ReadBack

/-! From exact onsets to ticks. Along a voice the exporter keeps the exact place of every note and turns it
into ticks only then; the length of the note is turned into ticks by itself. Rounding never goes below zero,
so what is at the start or later stays there. -/

namespace LineScore.Number

theorem powTwo_nonneg (e : Int) : 0 ≤ powTwo e := by
  unfold powTwo
  split
  · positivity
  · positivity

theorem nearest?_nonneg {x y : Rat} (hx : 0 ≤ x) (h : nearest? x = some y) : 0 ≤ y := by
  unfold nearest? at h
  dsimp only at h
  split at h
  · cases h
    exact le_rfl
  · split at h
    · cases h
    · cases h
      rw [if_neg (not_lt.mpr (Rat.num_nonneg.mpr hx)), roundMagnitude]
      exact mul_nonneg (Nat.cast_nonneg _) (powTwo_nonneg _)

theorem truncate_nonneg {x : Rat} (hx : 0 ≤ x) : 0 ≤ truncate x :=
  Int.tdiv_nonneg (Rat.num_nonneg.mpr hx) (Int.natCast_nonneg _)

end LineScore.Number

namespace LineScore.Midi

theorem double_nonneg {x d : Rat} (hx : 0 ≤ x) (h : double x = .ok d) : 0 ≤ d := by
  unfold double at h
  split at h
  · next hnearest =>
      cases h
      exact Number.nearest?_nonneg hx hnearest
  · cases h

theorem ticksOfDouble_nonneg {d : Rat} {t : Int} (hd : 0 ≤ d) (h : ticksOfDouble d = .ok t) : 0 ≤ t := by
  unfold ticksOfDouble at h
  split at h
  · next hproduct =>
      cases h
      have hscale : (0 : Rat) ≤ (ticksPerQuarter : Rat) := Nat.cast_nonneg _
      exact Number.truncate_nonneg (Number.nearest?_nonneg (mul_nonneg hd hscale) hproduct)
  · cases h

theorem ticks_nonneg {x : Rat} {t : Int} (hx : 0 ≤ x) (h : ticks x = .ok t) : 0 ≤ t := by
  obtain ⟨d, hdouble, h⟩ := exists_of_bind_eq_ok h
  exact ticksOfDouble_nonneg (double_nonneg hx hdouble) h

/-- The tick of a length that has one. -/
def tick (x : Rat) : Int :=
  (ticks x).toOption.getD 0

theorem tick_eq {x : Rat} {t : Int} (h : ticks x = .ok t) : tick x = t := by
  rw [tick, h]
  rfl

theorem tick_nonneg {x : Rat} (hx : 0 ≤ x) : 0 ≤ tick x := by
  cases h : ticks x with
  | error e =>
      rw [tick, h]
      exact le_rfl
  | ok t =>
      rw [tick_eq h]
      exact ticks_nonneg hx h

/-- Notes with their exact onsets, the first of them coming after `cursor`. -/
def placed (cursor : Rat) : List TimedNote → List (Rat × TimedNote)
  | [] => []
  | n :: rest => (cursor + n.onsetDelay, n) :: placed (cursor + n.onsetDelay + n.soundDuration) rest

theorem map_snd_placed (notes : List TimedNote) (cursor : Rat) : (placed cursor notes).map Prod.snd = notes := by
  induction notes generalizing cursor with
  | nil => rfl
  | cons n rest ih => rw [placed, List.map_cons, ih]

theorem forall_mem_placed {notes : List TimedNote} (cursor : Rat) {P : TimedNote → Prop} :
    (∀ p ∈ placed cursor notes, P p.2) ↔ ∀ n ∈ notes, P n := by
  conv_rhs => rw [← map_snd_placed notes cursor, List.forall_mem_map]

theorem mem_of_mem_placed {notes : List TimedNote} {cursor : Rat} {p : Rat × TimedNote}
    (hp : p ∈ placed cursor notes) : p.2 ∈ notes := by
  rw [← map_snd_placed notes cursor]
  exact List.mem_map_of_mem hp

/-- What is placed is a note of the events, where the events before it end. -/
theorem exists_split_of_mem_placed {settings : TimelineSettings} {events : List Event} {cursor pending : Rat}
    {p : Rat × TimedNote} (hp : p ∈ placed cursor (Timeline.emit settings pending events).1) :
    ∃ before n after delay, events = before ++ .note n :: after ∧
      p = (cursor + pending + totalLength before, Timeline.timed settings delay n) := by
  induction events generalizing cursor pending with
  | nil => exact absurd hp List.not_mem_nil
  | cons event events ih =>
      cases event with
      | note m =>
          rcases List.mem_cons.mp hp with rfl | hp
          · exact ⟨[], m, events, pending, rfl, by rw [totalLength_nil, add_zero]; rfl⟩
          · obtain ⟨before, n, after, delay, rfl, rfl⟩ := ih hp
            refine ⟨.note m :: before, n, after, delay, rfl, ?_⟩
            simp only [Timeline.timed, totalLength_cons, Event.length]
            ring_nf
      | rest d =>
          obtain ⟨before, n, after, delay, rfl, rfl⟩ := ih hp
          exact ⟨.rest d :: before, n, after, delay, rfl, by simp only [totalLength_cons, add_assoc]⟩
      | measureRest measures meter =>
          obtain ⟨before, n, after, delay, rfl, rfl⟩ := ih hp
          exact ⟨.measureRest measures meter :: before, n, after, delay, rfl,
            by simp only [totalLength_cons, add_assoc]⟩

/-- Every note of the events is placed, after as many others as come before it, where the events before it
end. -/
theorem getElem?_placed (settings : TimelineSettings) (cursor pending : Rat) (before after : List Event) (n : Note) :
    ∃ delay, (placed cursor (Timeline.emit settings pending (before ++ .note n :: after)).1)[(notesOf before).length]? =
      some (cursor + pending + totalLength before, Timeline.timed settings delay n) := by
  induction before generalizing cursor pending with
  | nil => exact ⟨pending, by rw [totalLength_nil, add_zero]; rfl⟩
  | cons event before ih =>
      cases event with
      | note m =>
          obtain ⟨delay, hat⟩ := ih (cursor + pending + Timeline.soundOf settings m)
            (m.duration.length - Timeline.soundOf settings m)
          refine ⟨delay, hat.trans ?_⟩
          simp only [totalLength_cons, Event.length]
          ring_nf
      | rest d =>
          obtain ⟨delay, hat⟩ := ih cursor (pending + d.length)
          exact ⟨delay, hat.trans (by simp only [totalLength_cons, Event.length, add_assoc])⟩
      | measureRest measures meter =>
          obtain ⟨delay, hat⟩ := ih cursor (pending + meter.spanLength measures)
          exact ⟨delay, hat.trans (by simp only [totalLength_cons, Event.length, add_assoc])⟩

/-- Notes that no negative silence comes before do not overlap. -/
theorem isChain_placed {notes : List TimedNote} (hnotes : ∀ n ∈ notes, 0 ≤ n.onsetDelay) (cursor : Rat) :
    (placed cursor notes).IsChain fun p q => p.1 + p.2.soundDuration ≤ q.1 := by
  induction notes generalizing cursor with
  | nil => exact List.isChain_nil
  | cons n rest ih =>
      obtain ⟨-, hrest⟩ := List.forall_mem_cons.mp hnotes
      cases rest with
      | nil => exact List.isChain_singleton _
      | cons m rest =>
          refine List.isChain_cons_cons.mpr ⟨?_, ih hrest _⟩
          exact le_add_of_nonneg_right (hrest m List.mem_cons_self)

/-- The message that begins a note, at the tick of its onset. -/
def strikes (channel : Nat) (p : Rat × TimedNote) : TimedMessage :=
  ⟨tick p.1, .noteOn channel p.2.pitch p.2.velocity⟩

/-- The message that ends a note, as many ticks later as its length has. -/
def releases (channel : Nat) (p : Rat × TimedNote) : TimedMessage :=
  ⟨tick p.1 + tick p.2.soundDuration, .noteOff channel p.2.pitch p.2.velocity⟩

/-- The messages of notes in the order of the notes. -/
def keyed (channel : Nat) (notes : List (Rat × TimedNote)) : Track :=
  notes.flatMap fun p => [strikes channel p, releases channel p]

/-- A note that has been rendered: its pitch is in range, and its onset and its length have ticks. -/
structure Rendered (p : Rat × TimedNote) : Prop where
  pitch_nonneg : 0 ≤ p.2.pitch
  pitch_le : p.2.pitch ≤ 127
  onset : ticks p.1 = .ok (tick p.1)
  sound : ticks p.2.soundDuration = .ok (tick p.2.soundDuration)

theorem rendered_of_ticks {x : Rat} {n : TimedNote} (hpitch : ¬(n.pitch < 0 ∨ maxPitch < n.pitch)) {a b : Int}
    (honset : ticks x = .ok a) (hsound : ticks n.soundDuration = .ok b) : Rendered (x, n) := by
  push Not at hpitch
  refine ⟨hpitch.1, hpitch.2, ?_, ?_⟩
  · rw [tick_eq honset, honset]
  · rw [tick_eq hsound, hsound]

/-- The messages of a voice that is rendered are those of its notes, each of which is rendered. -/
theorem noteMessages_eq (channel : Nat) (instrument : LooseText) (notes : List TimedNote) {cursor : Rat}
    {messages : Track} (h : noteMessages channel instrument cursor notes = .ok messages) :
    messages = keyed channel (placed cursor notes) ∧ ∀ p ∈ placed cursor notes, Rendered p := by
  induction notes generalizing cursor messages with
  | nil =>
      cases h
      exact ⟨rfl, fun p hp => absurd hp List.not_mem_nil⟩
  | cons n rest ih =>
      rw [noteMessages] at h
      split at h
      · cases h
      · next hpitch =>
          obtain ⟨onset, honset, h⟩ := exists_of_bind_eq_ok h
          obtain ⟨sound, hsound, h⟩ := exists_of_bind_eq_ok h
          obtain ⟨start, hstart, h⟩ := exists_of_bind_eq_ok h
          obtain ⟨length, hlength, h⟩ := exists_of_bind_eq_ok h
          obtain ⟨others, hothers, h⟩ := exists_of_bind_eq_ok h
          cases h
          have hstart' : ticks (cursor + n.onsetDelay) = .ok start := by rw [ticks, honset]; exact hstart
          have hlength' : ticks n.soundDuration = .ok length := by rw [ticks, hsound]; exact hlength
          obtain ⟨rfl, hrest⟩ := ih hothers
          refine ⟨?_, List.forall_mem_cons.mpr ⟨rendered_of_ticks hpitch hstart' hlength', hrest⟩⟩
          rw [← tick_eq hstart', ← tick_eq hlength']
          rfl

end LineScore.Midi
