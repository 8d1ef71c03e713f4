import LineScore.Proofs.Changes
import LineScore.Proofs.Onsets
import LineScore.Song.Step

/-! Songs that nothing tells apart. Two songs may have different histories, if these come to the same rests,
and voices with different events, if these come to the same notes at the same times. Whatever an author
does to both of them, it fails for one as it does for the other, and they stay alike. -/

namespace LineScore

/-- Whether two attempts end in related states and with the same error, if any. -/
structure Attempt.Agree {σ τ : Type} (R : σ → τ → Prop) (a : Attempt σ) (b : Attempt τ) : Prop where
  state : R a.state b.state
  error : b.error = a.error

theorem Attempt.Agree.andThen {σ τ : Type} {R : σ → τ → Prop} {a : Attempt σ} {b : Attempt τ}
    {f : σ → Attempt σ} {g : τ → Attempt τ} (h : Agree R a b) (hnext : ∀ x y, R x y → Agree R (f x) (g y)) :
    Agree R (a.andThen f) (b.andThen g) := by
  cases herror : a.error with
  | none =>
      rw [andThen_of_ok herror, andThen_of_ok (h.error.trans herror)]
      exact hnext _ _ h.state
  | some e =>
      rw [andThen_of_error herror, andThen_of_error (h.error.trans herror)]
      exact h

theorem map_eq_of_forall₂ {α β : Type} {R : α → α → Prop} {f : α → β} {xs ys : List α}
    (h : List.Forall₂ R xs ys) (hf : ∀ x y, R x y → f y = f x) : ys.map f = xs.map f := by
  induction h with
  | nil => rfl
  | cons hxy _ ih => rw [List.map_cons, List.map_cons, hf _ _ hxy, ih]

/-- Whether two voices are played alike: at every time they have sounded the same notes. -/
structure Voice.Alike (v w : Voice) : Prop where
  instrument : w.instrument = v.instrument
  index : w.index = v.index
  length : w.length = v.length
  emit : ∀ settings pending, Timeline.emit settings pending w.events = Timeline.emit settings pending v.events

namespace Voice.Alike

variable {v w : Voice}

theorem refl (v : Voice) : Alike v v :=
  ⟨rfl, rfl, rfl, fun _ _ => rfl⟩

theorem extend (h : Alike v w) (events : List Event) : Alike (v.extend events) (w.extend events) where
  instrument := h.instrument
  index := h.index
  length := by rw [extend_length, extend_length, h.length]
  emit settings pending := by
    rw [extend_events, extend_events, Timeline.emit_append, Timeline.emit_append, h.emit]

theorem label (h : Alike v w) : w.label = v.label := by
  rw [Voice.label, Voice.label, h.instrument, h.index]

theorem ofVoice (h : Alike v w) (settings : TimelineSettings) :
    Timeline.ofVoice settings w = Timeline.ofVoice settings v := by
  rw [Timeline.ofVoice, Timeline.ofVoice, h.emit, h.instrument]

end Voice.Alike

namespace Song

/-- Whether two songs are alike, and have the same voices from a place on. -/
structure Alike (count : Nat) (s t : Song) : Prop where
  same : t = { s with voices := t.voices, history := t.history }
  rests : joinRests t.history = joinRests s.history
  voices : List.Forall₂ Voice.Alike s.voices t.voices
  late : t.voices.drop count = s.voices.drop count

/-- Whether a change of songs neither reads nor writes their voices and their history. -/
structure Blind (change : Song → Song) : Prop where
  voices : ∀ s, (change s).voices = s.voices
  history : ∀ s, (change s).history = s.history
  same : ∀ s voices history, change { s with voices, history } = { change s with voices, history }

namespace Alike

variable {count : Nat} {s t : Song}

theorem refl (count : Nat) (s : Song) : Alike count s s :=
  ⟨rfl, rfl, List.forall₂_same.mpr fun v _ => .refl v, rfl⟩

theorem length_voices (h : Alike count s t) : t.voices.length = s.voices.length :=
  h.voices.length_eq.symm

theorem elapsedRests (h : Alike count s t) : t.elapsedRests = s.elapsedRests := by
  rw [Song.elapsedRests, Song.elapsedRests, h.rests]

theorem findInstrument? (h : Alike count s t) (symbol : LooseText) :
    t.findInstrument? symbol = s.findInstrument? symbol := by
  rw [h.same]
  rfl

theorem key (h : Alike count s t) : t.key = s.key := by
  rw [h.same]

theorem meter (h : Alike count s t) : t.meter = s.meter := by
  rw [h.same]

theorem length (h : Alike count s t) : t.length = s.length := by
  rw [h.same]

theorem measureCount (h : Alike count s t) : t.measureCount = s.measureCount := by
  rw [h.same]

theorem meterChanges (h : Alike count s t) : t.meterChanges = s.meterChanges := by
  rw [h.same]

theorem keyChanges (h : Alike count s t) : t.keyChanges = s.keyChanges := by
  rw [h.same]

theorem change (h : Alike count s t) {change : Song → Song} (hblind : Blind change) :
    Alike count (change s) (change t) where
  same := by
    rw [hblind.voices, hblind.history]
    conv_lhs => rw [h.same, hblind.same]
  rests := by rw [hblind.history, hblind.history, h.rests]
  voices := by
    rw [hblind.voices, hblind.voices]
    exact h.voices
  late := by rw [hblind.voices, hblind.voices, h.late]

theorem addVoice (h : Alike count s t) (i : Instrument) (events : List Event) :
    Alike count (s.addVoice i events) (t.addVoice i events) where
  same := by
    conv_lhs => rw [h.same]
    rfl
  rests := h.rests
  voices := by
    rw [Song.addVoice, Song.addVoice, h.length_voices]
    exact List.rel_append h.voices (.cons (.refl _) .nil)
  late := by
    rw [Song.addVoice, Song.addVoice, List.drop_append, List.drop_append, h.late, h.length_voices]

/-- Voices that are alike play on alike, as long as the part of a voice is told by its index. -/
theorem play (h : Alike count s t) (part : Int → List Event) :
    Alike count (s.play fun v => part v.index) (t.play fun v => part v.index) where
  same := by
    conv_lhs => rw [h.same]
    rfl
  rests := h.rests
  voices := by
    rw [Song.play, Song.play, List.forall₂_map_left_iff, List.forall₂_map_right_iff]
    refine h.voices.imp fun v w hvw => ?_
    rw [hvw.index]
    exact hvw.extend _
  late := by rw [Song.play, Song.play, ← List.map_drop, ← List.map_drop, h.late]

theorem record (h : Alike count s t) (measures : Int) : Alike count (s.record measures) (t.record measures) where
  same := by
    have hhistory : (t.record measures).history = t.history ++ [(measures, s.meter)] := by
      rw [Song.record, h.meter]
    rw [hhistory]
    conv_lhs => rw [h.same]
    rfl
  rests := by
    rw [Song.record, Song.record, joinRests_concat, joinRests_concat, h.rests, h.meter]
  voices := h.voices
  late := h.late

theorem measureLabel (h : Alike count s t) (measures : Int) :
    t.measureLabel measures = s.measureLabel measures := by
  rw [h.same]
  rfl

theorem sectionPlace (h : Alike count s t) (measures : Int) (label : Option String) :
    t.sectionPlace measures label = s.sectionPlace measures label := by
  rw [Song.sectionPlace, Song.sectionPlace, h.measureLabel]

theorem lengths (h : Alike count s t) :
    (t.voices.map fun v => (v.label, v.length)) = s.voices.map fun v => (v.label, v.length) :=
  map_eq_of_forall₂ h.voices fun v w hvw => by rw [hvw.label, hvw.length]

theorem isEven (h : Alike count s t) : t.isEven = s.isEven := by
  have heven : ∀ u : Song, u.isEven =
      (u.voices.map fun v => (v.label, v.length)).all fun entry => distance entry.2 u.length ≤ tolerance := by
    intro u
    rw [List.all_map]
    rfl
  rw [heven, heven, h.lengths, h.length]

theorem lastLengths (h : Alike count s t) (sectionLength : Rat) :
    t.lastLengths sectionLength = s.lastLengths sectionLength := by
  have hlast : ∀ u : Song, u.lastLengths sectionLength =
      (u.voices.map fun v => (v.label, v.length)).map fun entry =>
        (entry.1, entry.2 - (u.length - sectionLength)) := by
    intro u
    rw [List.map_map]
    rfl
  rw [hlast, hlast, h.lengths, h.length]

theorem checkLengths (h : Alike count s t) (place : String) (sectionLength : Rat) :
    Attempt.Agree (Alike count) (s.checkLengths place sectionLength) (t.checkLengths place sectionLength) := by
  rw [Song.checkLengths, Song.checkLengths, h.isEven, h.lastLengths]
  split
  · exact ⟨h, rfl⟩
  · exact ⟨h, rfl⟩

/-- The first free voice of an instrument stands in the same place of both songs. -/
theorem find? (h : Alike count s t) {p : Voice → Bool} (hp : ∀ v w, Voice.Alike v w → p w = p v) :
    s.voices.find? p = none ∧ t.voices.find? p = none ∨
      ∃ v w, s.voices.find? p = some v ∧ t.voices.find? p = some w ∧ Voice.Alike v w := by
  have hvoices := h.voices
  generalize s.voices = xs at hvoices ⊢
  generalize t.voices = ys at hvoices ⊢
  induction hvoices with
  | nil => exact Or.inl ⟨rfl, rfl⟩
  | @cons v w xs ys hvw _ ih =>
      cases hv : p v with
      | true => exact Or.inr ⟨v, w, by simp [hv], by simp [hp v w hvw, hv], hvw⟩
      | false => simpa [hv, hp v w hvw] using ih

theorem voiceFor (h : Alike count s t) (i : Instrument) (active : List Int) :
    (∃ e, s.voiceFor i active = .error e ∧ t.voiceFor i active = .error e) ∨
      ∃ u u' index, s.voiceFor i active = .ok (u, index) ∧ t.voiceFor i active = .ok (u', index) ∧
        Alike count u u' := by
  have hp : ∀ v w, Voice.Alike v w →
      (w.instrument = i && !active.contains w.index) = (v.instrument = i && !active.contains v.index) := by
    intro v w hvw
    rw [hvw.instrument, hvw.index]
  rcases h.find? hp with ⟨hs, ht⟩ | ⟨v, w, hs, ht, hvw⟩
  · simp only [Song.voiceFor, hs, ht, h.length_voices, h.elapsedRests]
    by_cases hfull : maxVoices ≤ s.voices.length
    · simp [hfull]
    · simp only [hfull, if_false]
      exact Or.inr ⟨_, _, _, rfl, rfl, h.addVoice i _⟩
  · simp only [Song.voiceFor, hs, ht, hvw.index]
    exact Or.inr ⟨_, _, _, rfl, rfl, h⟩

end Alike

/-- Whether two songs are alike in the middle of a section. -/
structure Stage.Alike (count : Nat) (st su : Stage) : Prop where
  song : Song.Alike count st.song su.song
  active : su.active = st.active

namespace Stage.Alike

variable {count : Nat} {st su : Stage}

theorem playLine (h : Alike count st su) (place : String) (line : Line) :
    Attempt.Agree (Alike count) (Stage.playLine place line st) (Stage.playLine place line su) := by
  simp only [Stage.playLine, h.song.findInstrument?, h.active]
  cases st.song.findInstrument? line.symbol with
  | none => exact ⟨h, rfl⟩
  | some i =>
      rcases h.song.voiceFor i st.active with ⟨e, hs, ht⟩ | ⟨u, u', index, hs, ht, hu⟩
      · simp only [hs, ht]
        exact ⟨h, rfl⟩
      · simp only [hs, ht, hu.key, hu.meter]
        cases line.events u.key u.meter with
        | error e => exact ⟨⟨hu, rfl⟩, rfl⟩
        | ok events =>
            refine ⟨⟨?_, rfl⟩, rfl⟩
            simp only [extendVoice_eq_play]
            exact hu.play fun k => if k = index then events else []

theorem playLines (h : Alike count st su) (place : String) (lines : List Line) :
    Attempt.Agree (Alike count) (Stage.playLines place lines st) (Stage.playLines place lines su) := by
  induction lines generalizing st su with
  | nil => exact ⟨h, rfl⟩
  | cons line rest ih => exact (h.playLine place line).andThen fun _ _ hnext => ih hnext

theorem padded (h : Alike count st su) (measures : Int) :
    Song.Alike count (st.padded measures) (su.padded measures) := by
  rw [Stage.padded_eq_play, Stage.padded_eq_play, h.active, h.song.meter]
  exact h.song.play fun k => if st.active.contains k then [] else [.measureRest measures st.song.meter]

end Stage.Alike

theorem Alike.applySection {count : Nat} {s t : Song} (h : Alike count s t) (measures : Int) (lines : List Line)
    (label : Option String) :
    Attempt.Agree (Alike count) (s.applySection measures lines label) (t.applySection measures lines label) := by
  rw [Song.applySection, Song.applySection, h.sectionPlace, h.meter]
  by_cases hnone : measures ≤ 0
  · rw [if_pos hnone, if_pos hnone]
    exact ⟨h, rfl⟩
  · rw [if_neg hnone, if_neg hnone]
    cases s.sectionPlace measures label with
    | error e => exact ⟨h, rfl⟩
    | ok place =>
        have hstart : Stage.Alike count ⟨s, []⟩ ⟨t, []⟩ := ⟨h, rfl⟩
        have hplayed := hstart.playLines place lines
        simp only [hplayed.error]
        cases (Stage.playLines place lines ⟨s, []⟩).error with
        | some e => exact ⟨hplayed.state.song, rfl⟩
        | none => exact ((hplayed.state.padded measures).record measures).checkLengths place _

end Song

namespace Session

/-- Whether two songs are alike, and the same sections are open. -/
structure Alike (count : Nat) (s t : Session) : Prop where
  song : Song.Alike count s.song t.song
  sections : t.sections = s.sections

namespace Alike

variable {count : Nat} {s t : Session}

/-- A declaration that takes nothing from a song but its instruments declares the same for both. -/
theorem onSong (h : Alike count s t) {α : Type} (change : Song → Except Error Song) (result : Except Error α)
    (make : α → Song → Song) (hblind : ∀ a, Song.Blind (make a))
    (hchange : ∀ u, u.instruments = s.song.instruments → change u = result.map fun a => make a u) :
    Attempt.Agree (Alike count) (s.onSong change) (t.onSong change) := by
  have hinstruments : t.song.instruments = s.song.instruments := by rw [h.song.same]
  rw [Session.onSong, Session.onSong, hchange _ rfl, hchange _ hinstruments]
  cases result with
  | error e => exact ⟨h, rfl⟩
  | ok a => exact ⟨⟨h.song.change (hblind a), h.sections⟩, rfl⟩

theorem openSection (h : Alike count s t) (measures : Int) (label : Option String) :
    Alike count (s.openSection measures label) (t.openSection measures label) :=
  ⟨h.song, by rw [Session.openSection, Session.openSection, h.sections]⟩

theorem setSection (h : Alike count s t) (number : Nat) (entry : OpenSection) :
    Alike count (s.setSection number entry) (t.setSection number entry) :=
  ⟨h.song, by rw [Session.setSection, Session.setSection, h.sections]⟩

theorem applySection (h : Alike count s t) (measures : Int) (lines : List Line) (label : Option String) :
    Attempt.Agree (Alike count) (s.applySection measures lines label) (t.applySection measures lines label) := by
  obtain ⟨hstate, herror⟩ := h.song.applySection measures lines label
  exact ⟨⟨hstate, h.sections⟩, herror⟩

theorem addLine (h : Alike count s t) (number : Nat) (request : LineRequest) :
    Attempt.Agree (Alike count) (s.addLine number request) (t.addLine number request) := by
  rw [Session.addLine, Session.addLine, h.sections]
  cases s.sections[number]? with
  | none => exact ⟨h, rfl⟩
  | some entry =>
      cases Line.make? request with
      | error e => exact ⟨h, rfl⟩
      | ok line => exact ⟨h.setSection number _, rfl⟩

theorem addLines (h : Alike count s t) (number : Nat) (requests : List LineRequest) :
    Attempt.Agree (Alike count) (Session.addLines number requests s) (Session.addLines number requests t) := by
  induction requests generalizing s t with
  | nil => exact ⟨h, rfl⟩
  | cons request rest ih => exact (h.addLine number request).andThen fun _ _ hnext => ih hnext

theorem apply (h : Alike count s t) (number : Nat) :
    Attempt.Agree (Alike count) (s.apply number) (t.apply number) := by
  rw [Session.apply, Session.apply, h.sections]
  cases s.sections[number]? with
  | none => exact ⟨h, rfl⟩
  | some entry =>
      dsimp only
      split
      · exact ⟨h, rfl⟩
      · exact (h.applySection entry.measures entry.lines entry.label).andThen fun _ _ hnext =>
          ⟨hnext.setSection number _, rfl⟩

/-- A step fails for both or for neither, and leaves them alike. -/
theorem step (h : Alike count s t) (next : Step) : Attempt.Agree (Alike count) (s.step next) (t.step next) := by
  cases next with
  | title title =>
      exact h.onSong (fun s => .ok { s with title }) (.ok title) (fun title s => { s with title })
        (fun _ => ⟨fun _ => rfl, fun _ => rfl, fun _ _ _ => rfl⟩) fun _ _ => rfl
  | author author =>
      exact h.onSong (fun s => .ok { s with author }) (.ok author) (fun author s => { s with author })
        (fun _ => ⟨fun _ => rfl, fun _ => rfl, fun _ _ _ => rfl⟩) fun _ _ => rfl
  | key name =>
      exact h.onSong (·.setKey name) (Key.ofName name) (fun key s => { s with key })
        (fun _ => ⟨fun _ => rfl, fun _ => rfl, fun _ _ _ => rfl⟩) fun _ _ => rfl
  | tempo bpm =>
      refine h.onSong (·.setTempo bpm) (({} : Song).setTempo bpm) (fun u s => { s with tempo := u.tempo })
        (fun _ => ⟨fun _ => rfl, fun _ => rfl, fun _ _ _ => rfl⟩) fun u _ => ?_
      unfold Song.setTempo
      split <;> rfl
  | time text =>
      exact h.onSong (·.setTime text) (Meter.parse text.shown) (fun meter s => { s with meter })
        (fun _ => ⟨fun _ => rfl, fun _ => rfl, fun _ _ _ => rfl⟩) fun _ _ => rfl
  | meter numerator denominator =>
      exact h.onSong (fun s => (Meter.make? numerator denominator).map fun meter => { s with meter })
        (Meter.make? numerator denominator) (fun meter s => { s with meter })
        (fun _ => ⟨fun _ => rfl, fun _ => rfl, fun _ _ _ => rfl⟩) fun _ _ => rfl
  | instrument symbol name =>
      refine h.onSong (·.addInstrument symbol name) (s.song.addInstrument symbol name)
        (fun u s => { s with instruments := u.instruments })
        (fun _ => ⟨fun _ => rfl, fun _ => rfl, fun _ _ _ => rfl⟩) fun u hu => ?_
      rw [Song.addInstrument, Song.addInstrument, Song.findInstrument?, Song.findInstrument?, hu]
      cases s.song.instruments.find? fun i => i.symbol = symbol with
      | some i => rfl
      | none => cases Instrument.declare symbol name <;> rfl
  | applySection measures requests label =>
      rw [Session.step, Session.step]
      cases requests.mapM Line.make? with
      | error e => exact ⟨h, rfl⟩
      | ok lines => exact h.applySection measures lines label
  | openSection measures label => exact ⟨h.openSection measures label, rfl⟩
  | openMeasure number =>
      rw [Session.step, Session.step]
      cases Text.integer? number with
      | none => exact ⟨h, rfl⟩
      | some label => exact ⟨h.openSection 1 label, rfl⟩
  | openMeasures first last =>
      rw [Session.step, Session.step]
      split
      · exact ⟨h, rfl⟩
      · split
        · exact ⟨h.openSection _ _, rfl⟩
        · exact ⟨h, rfl⟩
  | addLine number request => exact h.addLine number request
  | apply number => exact h.apply number
  | write measures label requests abandon =>
      rw [Session.step, Session.step, h.sections]
      refine ((h.openSection measures label).addLines s.sections.length requests).andThen fun u v huv => ?_
      cases abandon with
      | true => exact ⟨huv, rfl⟩
      | false => exact huv.apply s.sections.length

end Alike

theorem run_alike {count : Nat} {s t : Session} (h : Alike count s t) (steps : List Step) :
    Alike count (s.run steps) (t.run steps) := by
  induction steps generalizing s t with
  | nil => exact h
  | cons next rest ih => exact ih (h.step next).state

end Session

end LineScore
