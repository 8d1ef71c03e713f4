import LineScore.Proofs.Lengths
import LineScore.Song.Section

/-! What can become of a section. A section is refused, or stopped at one of its lines, or counted; only a
counted section has its lengths checked, and the check itself changes nothing. Lines touch nothing of a
song but its voices. -/

namespace LineScore.Song

/-- Whether two songs differ in their voices at most. -/
def SameButVoices (s t : Song) : Prop :=
  ∃ voices, t = { s with voices }

namespace SameButVoices

variable {s t u : Song}

theorem refl (s : Song) : SameButVoices s s :=
  ⟨s.voices, rfl⟩

theorem trans (hst : SameButVoices s t) (htu : SameButVoices t u) : SameButVoices s u := by
  obtain ⟨voices, rfl⟩ := hst
  obtain ⟨more, rfl⟩ := htu
  exact ⟨more, rfl⟩

end SameButVoices

theorem mem_of_findInstrument? {s : Song} {symbol : LooseText} {i : Instrument}
    (h : s.findInstrument? symbol = some i) : i ∈ s.instruments :=
  List.mem_of_find?_eq_some h

/-- A line goes to a voice of its instrument that has no line yet. A new voice is made only when there is
no such voice and the song has room for one. -/
theorem voiceFor_cases {s t : Song} {i : Instrument} {active : List Int} {index : Int}
    (h : s.voiceFor i active = .ok (t, index)) :
    (t = s ∧ ∃ v ∈ s.voices, v.instrument = i ∧ v.index ∉ active ∧ v.index = index) ∨
    ((∀ v ∈ s.voices, v.instrument = i → v.index ∈ active) ∧ s.voices.length < maxVoices ∧
      t = s.addVoice i s.elapsedRests ∧ index = s.voices.length) := by
  unfold voiceFor at h
  cases hfind : s.voices.find? fun v => v.instrument = i && !active.contains v.index with
  | some v =>
      rw [hfind] at h
      cases h
      have hv := List.find?_some hfind
      simp only [Bool.and_eq_true, decide_eq_true_eq, Bool.not_eq_true', List.contains_eq_mem,
        decide_eq_false_iff_not] at hv
      exact Or.inl ⟨rfl, v, List.mem_of_find?_eq_some hfind, hv.1, hv.2, rfl⟩
  | none =>
      rw [hfind] at h
      dsimp only at h
      split at h
      · cases h
      · next hroom =>
          cases h
          refine Or.inr ⟨fun v hv hinstrument => ?_, not_le.mp hroom, rfl, rfl⟩
          have hbusy := List.find?_eq_none.mp hfind v hv
          simpa [hinstrument] using hbusy

theorem voiceFor_sameButVoices {s t : Song} {i : Instrument} {active : List Int} {index : Int}
    (h : s.voiceFor i active = .ok (t, index)) : SameButVoices s t := by
  rcases voiceFor_cases h with ⟨rfl, -⟩ | ⟨-, -, rfl, -⟩
  · exact .refl t
  · exact ⟨_, rfl⟩

namespace Stage

theorem playLine_sameButVoices (place : String) (line : Line) (st : Stage) :
    SameButVoices st.song (playLine place line st).state.song := by
  unfold playLine
  split
  · exact .refl _
  · split
    · exact .refl _
    · next song index hvoice =>
        have hentered := voiceFor_sameButVoices hvoice
        dsimp only
        split
        · exact hentered
        · exact hentered.trans ⟨_, rfl⟩

theorem playLines_sameButVoices (place : String) (lines : List Line) (st : Stage) :
    SameButVoices st.song (playLines place lines st).state.song := by
  induction lines generalizing st with
  | nil => exact .refl _
  | cons line rest ih =>
      exact Attempt.andThen_state (P := fun t : Stage => SameButVoices st.song t.song)
        (playLine_sameButVoices place line st) fun hline => hline.trans (ih _)

theorem padded_sameButVoices (st : Stage) (measures : Int) :
    SameButVoices st.song (st.padded measures) :=
  ⟨_, rfl⟩

end Stage

theorem checkLengths_state (s : Song) (place : String) (sectionLength : Rat) :
    (s.checkLengths place sectionLength).state = s := by
  unfold checkLengths
  split <;> rfl

theorem isEven_iff (s : Song) : s.isEven = true ↔ ∀ v ∈ s.voices, |v.length - s.length| ≤ tolerance := by
  simp only [isEven, List.all_eq_true, decide_eq_true_eq, distance_eq_abs]

theorem checkLengths_error_eq_none_iff (s : Song) (place : String) (sectionLength : Rat) :
    (s.checkLengths place sectionLength).error = none ↔
      ∀ v ∈ s.voices, |v.length - s.length| ≤ tolerance := by
  rw [← isEven_iff]
  unfold checkLengths
  split
  · next heven => simp only [heven]
  · next hodd => simp only [hodd, reduceCtorEq]

/-- What an attempt to add a section comes to. -/
inductive SectionOutcome (s : Song) (measures : Int) (lines : List Line) (label : Option String) :
    Attempt Song → Prop where
  /-- There are no measures to add. -/
  | empty (hnone : measures ≤ 0) :
      SectionOutcome s measures lines label ⟨s, some (.reporting [measures] (.emptySection measures))⟩
  /-- The measure numbers have too many digits to name the section by. -/
  | unnamed (e : Error) (hpos : 0 < measures) (hplace : s.sectionPlace measures label = .error e) :
      SectionOutcome s measures lines label ⟨s, some e⟩
  /-- A line cannot be played. What the lines before it did to the voices stays. -/
  | stopped (place : String) (e : Error) (hpos : 0 < measures)
      (hplace : s.sectionPlace measures label = .ok place)
      (hstop : (Stage.playLines place lines ⟨s, []⟩).error = some e) :
      SectionOutcome s measures lines label ⟨(Stage.playLines place lines ⟨s, []⟩).state.song, some e⟩
  /-- All lines have been played, and the section is counted before its lengths are checked. -/
  | counted (place : String) (hpos : 0 < measures) (hplace : s.sectionPlace measures label = .ok place)
      (hplayed : (Stage.playLines place lines ⟨s, []⟩).error = none) :
      SectionOutcome s measures lines label
        ((((Stage.playLines place lines ⟨s, []⟩).state.padded measures).record measures).checkLengths place
          (s.meter.spanLength measures))

theorem applySection_outcome (s : Song) (measures : Int) (lines : List Line) (label : Option String) :
    SectionOutcome s measures lines label (s.applySection measures lines label) := by
  unfold applySection
  split
  · next hnone => exact .empty hnone
  · next hsome =>
      have hpos : 0 < measures := not_le.mp hsome
      split
      · next e hplace => exact .unnamed e hpos hplace
      · next place hplace =>
          dsimp only
          split
          · next e hstop => exact .stopped place e hpos hplace hstop
          · next hplayed => exact .counted place hpos hplace hplayed

/-- An attempt to add a section changes voices at most, or it counts one section of the key and the meter
in force. -/
theorem applySection_counts (s : Song) (measures : Int) (lines : List Line) (label : Option String) :
    SameButVoices s (s.applySection measures lines label).state ∨
      ∃ u, 0 < measures ∧ SameButVoices s u ∧ (s.applySection measures lines label).state = u.record measures := by
  have houtcome := applySection_outcome s measures lines label
  generalize s.applySection measures lines label = a at houtcome ⊢
  cases houtcome with
  | empty _ => exact Or.inl (.refl s)
  | unnamed e _ _ => exact Or.inl (.refl s)
  | stopped place e _ _ _ => exact Or.inl (Stage.playLines_sameButVoices place lines ⟨s, []⟩)
  | counted place hpos _ _ =>
      have hplayed := Stage.playLines_sameButVoices place lines ⟨s, []⟩
      exact Or.inr ⟨_, hpos, hplayed.trans (Stage.padded_sameButVoices _ measures), checkLengths_state _ _ _⟩

/-- Whether all lines of a section are played, so that it comes to the check of its lengths. -/
def FinishesLines (s : Song) (measures : Int) (lines : List Line) (label : Option String) : Prop :=
  0 < measures ∧ ∃ place, s.sectionPlace measures label = .ok place ∧
    (Stage.playLines place lines ⟨s, []⟩).error = none

/-- A section whose lines are all played fails exactly when some voice is off by more than the tolerance. -/
theorem applySection_error_eq_none_iff {s : Song} {measures : Int} {lines : List Line}
    {label : Option String} (hfinish : s.FinishesLines measures lines label) :
    (s.applySection measures lines label).error = none ↔
      ∀ v ∈ (s.applySection measures lines label).state.voices,
        |v.length - (s.applySection measures lines label).state.length| ≤ tolerance := by
  obtain ⟨hpos, place, hplace, hplayed⟩ := hfinish
  have houtcome := applySection_outcome s measures lines label
  generalize s.applySection measures lines label = a at houtcome ⊢
  cases houtcome with
  | empty hnone => exact absurd hpos (not_lt.mpr hnone)
  | unnamed e _ hother =>
      rw [hplace] at hother
      cases hother
  | stopped other e _ hother hstop =>
      rw [hplace] at hother
      cases hother
      rw [hplayed] at hstop
      cases hstop
  | counted other _ _ _ =>
      rw [checkLengths_error_eq_none_iff, checkLengths_state]

/-- A section that does not fail has all of its lines played. -/
theorem finishesLines_of_ok {s : Song} {measures : Int} {lines : List Line} {label : Option String}
    (hok : (s.applySection measures lines label).error = none) : s.FinishesLines measures lines label := by
  have houtcome := applySection_outcome s measures lines label
  generalize s.applySection measures lines label = a at houtcome hok
  cases houtcome with
  | empty _ => cases hok
  | unnamed e _ _ => cases hok
  | stopped place e _ _ _ => cases hok
  | counted place hpos hplace hplayed => exact ⟨hpos, place, hplace, hplayed⟩

end LineScore.Song
