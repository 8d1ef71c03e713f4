import LineScore.Proofs.Lengths
import LineScore.Timeline

/-! Where the notes of a timeline begin. The silence that the emitter carries along is what the notes so
far leave of the events so far: spans of notes and pending silence always add up to the events consumed.
So each note begins at the sum of the lengths of all events before it, whatever rests, measure rests and
staccato remainders lie between. -/

namespace LineScore

/-- The note that an event is, if it is one. -/
def Event.note? : Event → Option Note
  | .note n => some n
  | _ => none

/-- The notes among events, in order. -/
def notesOf (events : List Event) : List Note :=
  events.filterMap Event.note?

/-- The length of a sounding note together with the silence before it. -/
def TimedNote.span (n : TimedNote) : Rat :=
  n.onsetDelay + n.soundDuration

namespace Timeline

variable (settings : TimelineSettings)

theorem length_eq (t : Timeline) :
    t.length = (t.notes.map TimedNote.span).sum + t.trailingRest := by
  rw [length, List.sum, List.foldr_map]
  rfl

theorem soundOf_eq (n : Note) :
    soundOf settings n =
      if n.articulation = .staccato then min n.duration.length settings.staccatoLength
      else n.duration.length := by
  unfold soundOf
  by_cases hstaccato : n.articulation = .staccato
  · by_cases hlong : settings.staccatoLength < n.duration.length
    · simp only [hstaccato, hlong, and_self, if_true, min_eq_right hlong.le]
    · simp only [hstaccato, hlong, and_false, if_false, if_true, min_eq_left (not_lt.mp hlong)]
  · simp only [hstaccato, false_and, if_false]

theorem soundOf_le (n : Note) : soundOf settings n ≤ n.duration.length := by
  rw [soundOf_eq]
  split
  · exact min_le_left _ _
  · exact le_rfl

theorem soundOf_nonneg {n : Note} (hstaccato : 0 ≤ settings.staccatoLength) (hlength : 0 ≤ n.duration.length) :
    0 ≤ soundOf settings n := by
  rw [soundOf_eq]
  split
  · exact le_min hlength hstaccato
  · exact hlength

theorem soundOf_pos {n : Note} (hstaccato : 0 < settings.staccatoLength) (hlength : 0 < n.duration.length) :
    0 < soundOf settings n := by
  rw [soundOf_eq]
  split
  · exact lt_min hlength hstaccato
  · exact hlength

theorem emit_note (pending : Rat) (n : Note) (rest : List Event) :
    emit settings pending (.note n :: rest) =
      (timed settings pending n :: (emit settings (n.duration.length - soundOf settings n) rest).1,
        (emit settings (n.duration.length - soundOf settings n) rest).2) := rfl

theorem emit_silence (pending : Rat) {event : Event} (hsilent : event.note? = none) (rest : List Event) :
    emit settings pending (event :: rest) = emit settings (pending + event.length) rest := by
  cases event with
  | note n => cases hsilent
  | rest d => rfl
  | measureRest measures meter => rfl

/-- Emitting events in two parts, the second of which starts with the silence left by the first. -/
theorem emit_append (pending : Rat) (before after : List Event) :
    emit settings pending (before ++ after) =
      ((emit settings pending before).1 ++ (emit settings (emit settings pending before).2 after).1,
        (emit settings (emit settings pending before).2 after).2) := by
  induction before generalizing pending with
  | nil => rfl
  | cons event before ih =>
      cases hnote : event.note? with
      | none => simp only [List.cons_append, emit_silence settings _ hnote, ih]
      | some n =>
          cases event with
          | note n => simp only [List.cons_append, emit_note, ih]
          | rest d => cases hnote
          | measureRest measures meter => cases hnote

/-- Nothing of the silence at the start and of the events is lost: it is in the spans of the notes or
in the silence at the end. -/
theorem emit_total (pending : Rat) (events : List Event) :
    ((emit settings pending events).1.map TimedNote.span).sum + (emit settings pending events).2 =
      pending + totalLength events := by
  induction events generalizing pending with
  | nil => simp [emit]
  | cons event events ih =>
      cases event with
      | note n =>
          have htail := ih (n.duration.length - soundOf settings n)
          simp only [emit_note, List.map_cons, List.sum_cons, TimedNote.span, timed, totalLength_cons,
            Event.length] at htail ⊢
          linarith
      | rest d =>
          rw [emit_silence settings pending rfl, ih, totalLength_cons]
          ring
      | measureRest measures meter =>
          rw [emit_silence settings pending rfl, ih, totalLength_cons]
          ring

theorem emit_length (pending : Rat) (events : List Event) :
    (emit settings pending events).1.length = (notesOf events).length := by
  induction events generalizing pending with
  | nil => rfl
  | cons event events ih =>
      cases event with
      | note n =>
          simp only [emit_note, List.length_cons, ih]
          rfl
      | rest d => exact ih _
      | measureRest measures meter => exact ih _

/-- While silence is not negative and events have positive lengths, every note sounds and no silence is
negative. -/
theorem emit_nonneg (hstaccato : 0 < settings.staccatoLength) {events : List Event}
    (hevents : ∀ e ∈ events, 0 < e.length) {pending : Rat} (hpending : 0 ≤ pending) :
    (∀ n ∈ (emit settings pending events).1, 0 < n.soundDuration ∧ 0 ≤ n.onsetDelay) ∧
      0 ≤ (emit settings pending events).2 := by
  induction events generalizing pending with
  | nil => exact ⟨fun n hn => absurd hn List.not_mem_nil, hpending⟩
  | cons event events ih =>
      obtain ⟨hevent, hrest⟩ := List.forall_mem_cons.mp hevents
      cases event with
      | note n =>
          obtain ⟨hnotes, htrailing⟩ := ih hrest (sub_nonneg.mpr (soundOf_le settings n))
          rw [emit_note]
          refine ⟨fun m hm => ?_, htrailing⟩
          rcases List.mem_cons.mp hm with rfl | hm
          · exact ⟨soundOf_pos settings hstaccato hevent, hpending⟩
          · exact hnotes m hm
      | rest d => exact ih hrest (add_nonneg hpending hevent.le)
      | measureRest measures meter => exact ih hrest (add_nonneg hpending hevent.le)

/-- Silence before notes is that of rests and of what staccato leaves, so it is not negative where rests are
not. -/
theorem emit_delay_nonneg {events : List Event} (hsilent : ∀ e ∈ events, e.note? = none → 0 ≤ e.length)
    {pending : Rat} (hpending : 0 ≤ pending) : ∀ n ∈ (emit settings pending events).1, 0 ≤ n.onsetDelay := by
  induction events generalizing pending with
  | nil => exact fun n hn => absurd hn List.not_mem_nil
  | cons event events ih =>
      obtain ⟨hevent, hrest⟩ := List.forall_mem_cons.mp hsilent
      cases event with
      | note n => exact List.forall_mem_cons.mpr ⟨hpending, ih hrest (sub_nonneg.mpr (soundOf_le settings n))⟩
      | rest d => exact ih hrest (add_nonneg hpending (hevent rfl))
      | measureRest measures meter => exact ih hrest (add_nonneg hpending (hevent rfl))

theorem ofVoice_length (v : Voice) : (ofVoice settings v).length = totalLength v.events := by
  rw [length_eq]
  exact (emit_total settings 0 v.events).trans (zero_add _)

/-- The timeline of a voice has one sounding note for each of its notes, in order. With `before` the
events before a note, as many notes sound earlier as there are in `before`, and the note begins where
`before` ends. -/
theorem ofVoice_notes (v : Voice) :
    let t := ofVoice settings v
    t.notes.length = (notesOf v.events).length ∧
    (∀ (before : List Event) (n : Note) (after : List Event), v.events = before ++ .note n :: after →
      ∃ (earlier : List TimedNote) (sounding : TimedNote) (later : List TimedNote),
        t.notes = earlier ++ sounding :: later ∧
        earlier.length = (notesOf before).length ∧
        sounding.pitch = n.pitch settings.pitchMapping ∧
        sounding.velocity = (if n.accented then settings.accentVelocity else settings.normalVelocity) ∧
        (earlier.map fun e => e.onsetDelay + e.soundDuration).sum + sounding.onsetDelay =
          totalLength before ∧
        sounding.soundDuration =
          (if n.articulation = .staccato then min n.duration.length settings.staccatoLength
          else n.duration.length)) ∧
    t.length = totalLength v.events ∧
    (0 < settings.staccatoLength → (∀ e ∈ v.events, 0 < e.length) →
      (∀ n ∈ t.notes, 0 < n.soundDuration ∧ 0 ≤ n.onsetDelay) ∧ 0 ≤ t.trailingRest) := by
  refine ⟨emit_length settings 0 v.events, ?_, ofVoice_length settings v,
    fun hstaccato hevents => emit_nonneg settings hstaccato hevents le_rfl⟩
  intro before n after hsplit
  refine ⟨(emit settings 0 before).1, timed settings (emit settings 0 before).2 n,
    (emit settings (n.duration.length - soundOf settings n) after).1, ?_, emit_length settings 0 before,
    rfl, rfl, ?_, soundOf_eq settings n⟩
  · change (emit settings 0 v.events).1 = _
    rw [hsplit, emit_append, emit_note]
  · exact (emit_total settings 0 before).trans (zero_add _)

end Timeline

end LineScore
