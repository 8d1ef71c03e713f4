import LineScore.Proofs.Alike
import LineScore.Proofs.Positive

/-! Silent sections. Whether a stretch of silence is written as one section or as two makes no difference to
anything that comes after it: the rests join, the changes of meter and key are noted once, and measures and
lengths add up. Only the names of sections can tell, and only where measure numbers become too long to be
written. -/

namespace LineScore

/-- A number that is not negative has too many digits to be written from a power of ten on. -/
theorem Text.integer?_eq_none_iff {n : Int} (hn : 0 ≤ n) : integer? n = none ↔ 10 ^ maxDigits ≤ n := by
  have hdigits : n.natAbs.repr.length ≤ maxDigits ↔ n.natAbs < 10 ^ maxDigits :=
    Nat.length_repr_le_iff (by decide)
  have hcast : (10 : Int) ^ maxDigits ≤ n ↔ 10 ^ maxDigits ≤ n.natAbs := by
    zify
    rw [abs_of_nonneg hn]
  rw [hcast, ← not_lt, ← hdigits, not_le]
  simp [integer?]

/-- A rest of some measures and another one are played as one rest of all of them. -/
theorem Voice.alike_rests (v : Voice) (a b : Int) (meter : Meter) :
    Voice.Alike (v.extend [.measureRest (a + b) meter])
      ((v.extend [.measureRest a meter]).extend [.measureRest b meter]) where
  instrument := rfl
  index := rfl
  length := by
    simp only [extend_length, totalLength_cons, totalLength_nil, Event.length, Meter.spanLength_add]
    ring
  emit settings pending := by
    simp only [extend_events, Timeline.emit_append, Timeline.emit, Event.length, Meter.spanLength_add,
      List.append_nil, add_assoc]

namespace Song

variable {s : Song} {a b : Int}

/-- The song after measures without a line. -/
def rest (s : Song) (measures : Int) : Song :=
  (s.play fun _ => [.measureRest measures s.meter]).record measures

theorem measureCount_rest (s : Song) (measures : Int) :
    (s.rest measures).measureCount = s.measureCount + measures := rfl

theorem markChange_markChange {α : Type} [DecidableEq α] (changes : List (Rat × α)) (offset later : Rat)
    (value : α) :
    markChange (markChange changes offset value) later value = markChange changes offset value := by
  rw [markChange_eq, markChange_eq]
  by_cases hlast : changes.getLast?.map Prod.snd = some value
  · simp [hlast]
  · simp [hlast]

/-- Two rests of one meter are joined to one. -/
theorem joinRests_concat_concat (history : List (Int × Meter)) (a b : Int) (meter : Meter) :
    joinRests (history ++ [(a, meter)] ++ [(b, meter)]) = joinRests (history ++ [(a + b, meter)]) := by
  by_cases hlast : ((joinRests history).map Prod.snd).getLast? = some meter
  · obtain ⟨rests, before, hrests⟩ := exists_concat_of_getLast? hlast
    rw [joinRests_lengthen (joinRests_lengthen hrests a), joinRests_lengthen hrests, add_assoc]
  · rw [joinRests_lengthen (joinRests_start hlast a), joinRests_start hlast]

/-- Silence that is written in two parts is like silence that is written in one. -/
theorem alike_rest_rest (s : Song) (a b : Int) :
    Alike s.voices.length (s.rest (a + b)) ((s.rest a).rest b) where
  same := by
    have hmeters := markChange_markChange s.meterChanges s.length (s.length + s.meter.spanLength a) s.meter
    have hkeys := markChange_markChange s.keyChanges s.length (s.length + s.meter.spanLength a) s.key
    simp only [rest, record, play, hmeters, hkeys, Meter.spanLength_add, add_assoc]
  rests := joinRests_concat_concat s.history a b s.meter
  voices := by
    simp only [rest, record, play, List.map_map, List.forall₂_map_left_iff, List.forall₂_map_right_iff]
    exact List.forall₂_same.mpr fun v _ => v.alike_rests a b s.meter
  late := by
    have hvoices : ∀ t : Song, t.voices.length = s.voices.length → t.voices.drop s.voices.length = [] :=
      fun t ht => List.drop_of_length_le ht.le
    rw [hvoices _ (by simp [rest, record, play]), hvoices _ (by simp [rest, record, play])]

/-- Whether the last measure of a section that comes next has a number that can be written. -/
def Nameable (s : Song) (measures : Int) : Prop :=
  Text.integer? (s.measureCount + measures) ≠ none

instance (s : Song) (measures : Int) : Decidable (s.Nameable measures) :=
  inferInstanceAs (Decidable (Text.integer? _ ≠ none))

variable {measures : Int}

theorem nameable_iff (hcount : 0 ≤ s.measureCount) (hpos : 0 < measures) :
    s.Nameable measures ↔ s.measureCount + measures < 10 ^ Text.maxDigits := by
  rw [Nameable, ne_eq, Text.integer?_eq_none_iff (by omega), not_le]

theorem nameable_of_sectionPlace {place : String} (h : s.sectionPlace measures none = .ok place) :
    s.Nameable measures := by
  intro hlong
  change s.measureLabel measures = .ok place at h
  simp [measureLabel, hlong] at h

theorem not_nameable_of_sectionPlace (hcount : 0 ≤ s.measureCount) (hpos : 0 < measures) {e : Error}
    (h : s.sectionPlace measures none = .error e) : ¬ s.Nameable measures := by
  rw [nameable_iff hcount hpos]
  obtain ⟨-, -, hfirst | hlast⟩ := sectionPlace_error h
  · rw [Text.integer?_eq_none_iff (by omega)] at hfirst
    omega
  · rw [Text.integer?_eq_none_iff (by omega)] at hlast
    omega

/-- A silent section adds its measures, or nothing if it cannot be named. -/
theorem applySection_silent (hcount : 0 ≤ s.measureCount) (hpos : 0 < measures) :
    (s.Nameable measures → (s.applySection measures [] none).state = s.rest measures) ∧
      (¬ s.Nameable measures → (s.applySection measures [] none).state = s) := by
  have houtcome := applySection_outcome s measures [] none
  generalize s.applySection measures [] none = x at houtcome ⊢
  cases houtcome with
  | empty hnone => omega
  | unnamed e _ hplace =>
      exact ⟨fun hname => absurd hname (not_nameable_of_sectionPlace hcount hpos hplace), fun _ => rfl⟩
  | stopped place e _ _ hstop => cases hstop
  | counted place _ hplace _ =>
      refine ⟨fun _ => ?_, fun hname => absurd (nameable_of_sectionPlace hplace) hname⟩
      rw [checkLengths_state, Stage.padded_eq_play]
      rfl

theorem measureCount_silent (hcount : 0 ≤ s.measureCount) (hpos : 0 < measures) :
    (s.applySection measures [] none).state.measureCount =
      if s.Nameable measures then s.measureCount + measures else s.measureCount := by
  obtain ⟨hnamed, hunnamed⟩ := applySection_silent hcount hpos
  by_cases hname : s.Nameable measures
  · rw [hnamed hname, if_pos hname, measureCount_rest]
  · rw [hunnamed hname, if_neg hname]

/-- A silent section of a song without voices does not fail if it can be named. -/
theorem applySection_silent_ok (hcount : 0 ≤ s.measureCount) (hpos : 0 < measures) (hname : s.Nameable measures)
    (hvoices : s.voices = []) : (s.applySection measures [] none).error = none := by
  cases hplace : s.sectionPlace measures none with
  | error e => exact absurd hname (not_nameable_of_sectionPlace hcount hpos hplace)
  | ok place =>
      rw [applySection_error_eq_none_iff ⟨hpos, place, hplace, rfl⟩, (applySection_silent hcount hpos).1 hname]
      simp [rest, record, play, hvoices]

end Song

namespace Session

/-- A silent section of some measures. -/
def silence (measures : Int) : Step :=
  .applySection measures [] none

variable {s : Session} {a b : Int}

theorem step_silence (s : Session) (measures : Int) :
    (s.step (silence measures)).state.song = (s.song.applySection measures [] none).state := rfl

theorem step_silence_error (s : Session) (measures : Int) :
    (s.step (silence measures)).error = (s.song.applySection measures [] none).error := rfl

/-- Whether nobody can tell if the silence that comes next is one section of `a + b` measures, or a section
of `a` measures and one of `b` measures. -/
def Splits (s : Song) (a b : Int) : Prop :=
  s.Nameable (a + b) ∨ ¬ s.Nameable a ∧ ¬ s.Nameable b

theorem alike_of_splits (hcount : 0 ≤ s.song.measureCount) (ha : 0 < a) (hb : 0 < b)
    (hsplits : Splits s.song a b) :
    Alike s.song.voices.length (s.step (silence (a + b))).state
      ((s.step (silence a)).state.step (silence b)).state := by
  refine ⟨?_, rfl⟩
  have hab : 0 < a + b := by omega
  have hsum := Song.nameable_iff hcount hab
  have hfirst := Song.nameable_iff hcount ha
  rw [step_silence, step_silence, step_silence]
  rcases hsplits with hname | ⟨hnone, hnone'⟩
  · have hname' : s.song.Nameable a := by
      rw [hfirst]
      have := hsum.mp hname
      omega
    have hcount' : 0 ≤ (s.song.rest a).measureCount := by
      rw [Song.measureCount_rest]
      omega
    have hsecond : (s.song.rest a).Nameable b := by
      rw [Song.nameable_iff hcount' hb, Song.measureCount_rest]
      have := hsum.mp hname
      omega
    rw [(Song.applySection_silent hcount hab).1 hname, (Song.applySection_silent hcount ha).1 hname',
      (Song.applySection_silent hcount' hb).1 hsecond]
    exact s.song.alike_rest_rest a b
  · have hnone'' : ¬ s.song.Nameable (a + b) := by
      rw [hsum]
      have := mt hfirst.mpr hnone
      omega
    rw [(Song.applySection_silent hcount hab).2 hnone'', (Song.applySection_silent hcount ha).2 hnone,
      (Song.applySection_silent hcount hb).2 hnone']
    exact .refl _ _

/-- Where silence does not split, the numbers of measures differ. -/
theorem measureCount_of_not_splits (hcount : 0 ≤ s.song.measureCount) (ha : 0 < a) (hb : 0 < b)
    (hsplits : ¬ Splits s.song a b) :
    (s.step (silence (a + b))).state.song.measureCount <
      ((s.step (silence a)).state.step (silence b)).state.song.measureCount := by
  obtain ⟨hsum, hparts⟩ := not_or.mp hsplits
  have hab : 0 < a + b := by omega
  rw [step_silence, step_silence, step_silence, Song.measureCount_silent hcount hab, if_neg hsum]
  by_cases hfirst : s.song.Nameable a
  · have hpart := Song.measureCount_silent hcount ha
    rw [if_pos hfirst] at hpart
    have hcount' : 0 ≤ (s.song.applySection a [] none).state.measureCount := by omega
    -- the first part counts, whether the second does or not
    rw [Song.measureCount_silent hcount' hb]
    split <;> omega
  · have hsecond : s.song.Nameable b := by
      by_contra hnone
      exact hparts ⟨hfirst, hnone⟩
    rw [(Song.applySection_silent hcount ha).2 hfirst, Song.measureCount_silent hcount hb, if_pos hsecond]
    omega

theorem run_measureCount_nonneg (steps : List Step) : 0 ≤ (run {} steps).song.measureCount := by
  rw [(run_consistent steps).measureCount_eq]
  refine List.sum_nonneg fun measures hmeasures => ?_
  obtain ⟨entry, hentry, rfl⟩ := List.mem_map.mp hmeasures
  exact ((run_positive steps).history_pos entry hentry).le

/-- After any steps it makes no difference to anything that comes later if silence is one section or two,
except where the measures have numbers that are too long to be written: all further steps fail alike, and
leave the same length, measures, changes, voices and timelines. -/
theorem run_silence (steps : List Step) {a b : Int} (ha : 0 < a) (hb : 0 < b) :
    let s := run {} steps
    let one := s.run [silence (a + b)]
    let two := s.run [silence a, silence b]
    (Splits s.song a b → ∀ later,
      let t := one.run later
      let u := two.run later
      (∀ next, (u.step next).error = (t.step next).error) ∧
      u.song.length = t.song.length ∧ u.song.measureCount = t.song.measureCount ∧
      u.song.meterChanges = t.song.meterChanges ∧ u.song.keyChanges = t.song.keyChanges ∧
      (u.song.voices.map fun v => (v.instrument, v.length)) = t.song.voices.map (fun v => (v.instrument, v.length)) ∧
      (∀ settings, u.song.timelines settings = t.song.timelines settings) ∧
      ∀ k ≥ s.song.voices.length, u.song.voices[k]? = t.song.voices[k]?) ∧
    (¬ Splits s.song a b → one.song.measureCount < two.song.measureCount) := by
  intro s one two
  have hcount : 0 ≤ s.song.measureCount := run_measureCount_nonneg steps
  refine ⟨fun hsplits later => ?_, measureCount_of_not_splits hcount ha hb⟩
  have halike := run_alike (alike_of_splits hcount ha hb hsplits) later
  refine ⟨fun next => (halike.step next).error, halike.song.length, halike.song.measureCount,
    halike.song.meterChanges, halike.song.keyChanges, ?_, ?_, ?_⟩
  · exact map_eq_of_forall₂ halike.song.voices fun v w hvw => by rw [hvw.instrument, hvw.length]
  · exact fun settings => map_eq_of_forall₂ halike.song.voices fun v w hvw => hvw.ofVoice settings
  · intro k hk
    have hlate := congrArg (fun voices => voices[k - s.song.voices.length]?) halike.song.late
    simp only [List.getElem?_drop, Nat.add_sub_cancel' hk] at hlate
    exact hlate

/-- One measure of silence and another one are like two measures of silence. -/
theorem run_silence_measure :
    let s := run {} [.instrument "vi" "Violin"]
    let later : List Step := [.applySection 1 [⟨"vi", "1:c", none, false⟩] none]
    ((s.run [silence 2]).run later).song.timelines {} = ((s.run [silence 1, silence 1]).run later).song.timelines {} := by
  intro s later
  have hsilence := run_silence [.instrument "vi" "Violin"] Int.one_pos Int.one_pos
  have hsplits : Splits s.song 1 1 := by
    simp only [s, run_cons, step_violin]
    exact Or.inl (by decide +kernel)
  obtain ⟨-, -, -, -, -, -, htimelines, -⟩ := hsilence.1 hsplits later
  exact (htimelines {}).symm

/-- After as many measures as leave two numbers for more, two measures of silence cannot be named, but the
first of them can be if it comes by itself. -/
theorem silence_at_limit :
    let steps : List Step := [.time "1/4", silence (10 ^ Text.maxDigits - 2)]
    (attemptAll steps {}).error = none ∧
      ((run {} steps).run [silence 2]).song.measureCount <
        ((run {} steps).run [silence 1, silence 1]).song.measureCount := by
  intro steps
  have hlimit : (10 : Int) ≤ 10 ^ Text.maxDigits := le_self_pow₀ (by norm_num) (by decide)
  have hstart : ({} : Session).step (.time "1/4") =
      ⟨{ song := { meter := ⟨1, 4, by decide, by decide⟩ } }, none⟩ := by decide +kernel
  generalize hquarter : ({ song := { meter := ⟨1, 4, by decide, by decide⟩ } } : Session) = quarter at hstart
  have hcount : quarter.song.measureCount = 0 := by rw [← hquarter]
  have hname : quarter.song.Nameable (10 ^ Text.maxDigits - 2) := by
    rw [Song.nameable_iff hcount.ge (by omega)]
    omega
  have herror : (quarter.step (silence (10 ^ Text.maxDigits - 2))).error = none := by
    rw [step_silence_error]
    exact Song.applySection_silent_ok hcount.ge (by omega) hname (by rw [← hquarter])
  have hfull : (quarter.step (silence (10 ^ Text.maxDigits - 2))).state.song.measureCount =
      10 ^ Text.maxDigits - 2 := by
    rw [step_silence, Song.measureCount_silent hcount.ge (by omega), if_pos hname, hcount]
    omega
  have hrun : run {} steps = (quarter.step (silence (10 ^ Text.maxDigits - 2))).state := by
    rw [run_cons, hstart]
    rfl
  have htwo : ∀ s : Session, 0 ≤ s.song.measureCount → ¬ Splits s.song 1 1 →
      (s.run [silence 2]).song.measureCount < (s.run [silence 1, silence 1]).song.measureCount :=
    fun s hcount => measureCount_of_not_splits hcount Int.one_pos Int.one_pos
  rw [hrun]
  constructor
  · rw [attemptAll, hstart, Attempt.andThen_of_ok rfl, attemptAll, Attempt.andThen_of_ok herror]
    rfl
  · have hroom : 0 ≤ (quarter.step (silence (10 ^ Text.maxDigits - 2))).state.song.measureCount := by omega
    refine htwo _ hroom ?_
    rw [Splits, Song.nameable_iff hroom (by omega), Song.nameable_iff hroom (by omega), hfull]
    omega

end Session

end LineScore
