import LineScore.Proofs.FirstFit

/-! What a section leaves behind, whether it is accepted or fails. A section without measures or without a
name leaves the song as it was. One that is stopped at a line leaves the lines before it in their voices,
and of the line itself at most a new voice. One whose voices are uneven has been counted all the same: it
leaves what an accepted section leaves. -/

namespace LineScore

open LineScore.Part

namespace Song

variable {s : Song}

/-- The voices of a section after its parts, those without a line resting for its measures. -/
def rested (s : Song) (measures : Int) (parts : List Part) (voices : List Voice) : List Voice :=
  voices.mapIdx fun k v => if k ∈ places parts then v else v.append (.measureRest measures s.meter)

/-- The song once a section of parts is counted. -/
def counted (s : Song) (measures : Int) (parts : List Part) (voices : List Voice) : Song :=
  { s with
    voices := rested s measures parts voices
    length := s.length + s.meter.spanLength measures
    measureCount := s.measureCount + measures
    history := s.history ++ [(measures, s.meter)]
    meterChanges := markChange s.meterChanges s.length s.meter
    keyChanges := markChange s.keyChanges s.length s.key }

theorem padded_seatedStage (hs : s.Consistent) {lines : List Line} {parts : List Part} {voices : List Voice}
    (h : Seated s lines parts voices) (measures : Int) :
    ((seatedStage s parts voices).padded measures).record measures = counted s measures parts voices := by
  have hvoices : (voices.map fun v => if ((places parts).map Int.ofNat).contains v.index then v
      else v.append (.measureRest measures s.meter)) = rested s measures parts voices := by
    apply List.ext_getElem?
    intro k
    rw [List.getElem?_map, rested, List.getElem?_mapIdx]
    cases hv : voices[k]? with
    | none => rfl
    | some v =>
        rw [Option.map_some, Option.map_some, h.index_eq hs hv, contains_active]
        simp only [decide_eq_true_eq]
  unfold Stage.padded record counted
  rw [← hvoices]
  rfl

/-- How a section fails, and the song that it leaves behind. -/
inductive Failure (s : Song) (measures : Int) (lines : List Line) (label : Option String) :
    Error → Song → Prop where
  /-- There are no measures. -/
  | empty (hnone : measures ≤ 0) :
      Failure s measures lines label (.reporting [measures] (.emptySection measures)) s
  /-- The measure numbers have too many digits to name the section by. -/
  | unnamed (hpos : 0 < measures) (hlabel : label = none)
      (hlong : Text.integer? (s.measureCount + 1) = none ∨ Text.integer? (s.measureCount + measures) = none) :
      Failure s measures lines label .longNumber s
  /-- A line stops the section. The lines before it stay in their voices. -/
  | stopped {place : String} {before rest : List Line} {line : Line} {parts : List Part}
      {voices after : List Voice} {e : Error} (hpos : 0 < measures)
      (hplace : s.sectionPlace measures label = .ok place) (hlines : lines = before ++ line :: rest)
      (hseated : Seated s before parts voices) (hstops : Stops s place line parts voices e after) :
      Failure s measures lines label e { s with voices := after }
  /-- The voices are uneven, but the section has been counted. -/
  | uneven {place : String} {parts : List Part} {voices : List Voice} (hpos : 0 < measures)
      (hplace : s.sectionPlace measures label = .ok place) (hseated : Seated s lines parts voices)
      (hodd : ∃ v ∈ (counted s measures parts voices).voices,
        tolerance < |v.length - (counted s measures parts voices).length|) :
      Failure s measures lines label
        (.mismatch ⟨place, s.meter.spanLength measures,
          (counted s measures parts voices).lastLengths (s.meter.spanLength measures)⟩)
        (counted s measures parts voices)

theorem sectionPlace_error {measures : Int} {label : Option String} {e : Error}
    (h : s.sectionPlace measures label = .error e) :
    label = none ∧ e = .longNumber ∧
      (Text.integer? (s.measureCount + 1) = none ∨ Text.integer? (s.measureCount + measures) = none) := by
  cases label with
  | some text => cases h
  | none =>
      change s.measureLabel measures = .error e at h
      unfold measureLabel at h
      cases hfirst : Text.integer? (s.measureCount + 1) with
      | none =>
          simp only [hfirst] at h
          cases h
          exact ⟨rfl, rfl, Or.inl rfl⟩
      | some first =>
          cases hlast : Text.integer? (s.measureCount + measures) with
          | none =>
              simp only [hfirst, hlast] at h
              cases h
              exact ⟨rfl, rfl, Or.inr rfl⟩
          | some last =>
              simp only [hfirst, hlast] at h
              cases h

/-- Whether two songs have been declared alike. -/
structure SameDeclarations (s t : Song) : Prop where
  title : t.title = s.title
  author : t.author = s.author
  tempo : t.tempo = s.tempo
  key : t.key = s.key
  meter : t.meter = s.meter
  instruments : t.instruments = s.instruments

theorem Failure.sameDeclarations {measures : Int} {lines : List Line} {label : Option String} {e : Error}
    {t : Song} (h : Failure s measures lines label e t) : SameDeclarations s t := by
  cases h <;> exact ⟨rfl, rfl, rfl, rfl, rfl, rfl⟩

/-- An attempt to add a section is counted, or it fails in one of the ways there are. -/
theorem applySection_cases (hs : s.Consistent) (measures : Int) (lines : List Line) (label : Option String) :
    (∃ parts voices, 0 < measures ∧ Seated s lines parts voices ∧
      (∀ v ∈ (counted s measures parts voices).voices,
        |v.length - (counted s measures parts voices).length| ≤ tolerance) ∧
      s.applySection measures lines label = ⟨counted s measures parts voices, none⟩) ∨
    ∃ e t, Failure s measures lines label e t ∧ s.applySection measures lines label = ⟨t, some e⟩ := by
  have houtcome := applySection_outcome s measures lines label
  generalize s.applySection measures lines label = a at houtcome
  cases houtcome with
  | empty hnone => exact Or.inr ⟨_, _, .empty hnone, rfl⟩
  | unnamed e hpos hplace =>
      obtain ⟨hlabel, rfl, hlong⟩ := sectionPlace_error hplace
      exact Or.inr ⟨_, _, .unnamed hpos hlabel hlong, rfl⟩
  | stopped place e hpos hplace hstop =>
      have hlines := playLines_outcome hs place lines
      generalize Stage.playLines place lines ⟨s, []⟩ = played at hlines hstop ⊢
      cases hlines with
      | played _ => cases hstop
      | stopped hlines hseated hstops =>
          cases hstop
          exact Or.inr ⟨_, _, .stopped hpos hplace hlines hseated hstops, rfl⟩
  | counted place hpos hplace hplayed =>
      have hlines := playLines_outcome hs place lines
      generalize Stage.playLines place lines ⟨s, []⟩ = played at hlines hplayed ⊢
      cases hlines with
      | stopped _ _ _ => cases hplayed
      | @played parts voices hseated =>
          rw [padded_seatedStage hs hseated]
          unfold checkLengths
          split
          · next heven => exact Or.inl ⟨parts, voices, hpos, hseated, (isEven_iff _).mp heven, rfl⟩
          · next hodd =>
              rw [isEven_iff] at hodd
              push Not at hodd
              exact Or.inr ⟨_, _, .uneven hpos hplace hseated hodd, rfl⟩

end Song

namespace Session

/-- After any steps, a section that fails leaves the song in exactly the state that its way of failing
tells, and with all declarations as they were. One that does not fail leaves what a section with uneven
voices leaves, except that its voices are even. In both cases the song and the lines alone decide the
parts and the voices. -/
theorem applySection_failure (steps : List Step) (measures : Int) (lines : List Line) (label : Option String) :
    let s := (run {} steps).song
    let a := s.applySection measures lines label
    (∀ e, a.error = some e → s.Failure measures lines label e a.state ∧ s.SameDeclarations a.state) ∧
    (a.error = none → ∃ parts voices, 0 < measures ∧ s.Seated lines parts voices ∧
      a.state = s.counted measures parts voices ∧
      ∀ v ∈ a.state.voices, |v.length - a.state.length| ≤ tolerance) ∧
    ∀ played parts voices others those, s.Seated played parts voices → s.Seated played others those →
      parts = others ∧ voices = those := by
  intro s a
  have hcases := Song.applySection_cases (run_consistent steps) measures lines label
  refine ⟨?_, ?_, fun _ _ _ _ _ h h' => h.unique h'⟩
  · intro e he
    rcases hcases with ⟨parts, voices, -, -, -, hok⟩ | ⟨e', t, hfailure, hfail⟩
    · have hnone : a.error = none := congrArg Attempt.error hok
      rw [hnone] at he
      cases he
    · have hstate : a.state = t := congrArg Attempt.state hfail
      have herror : a.error = some e' := congrArg Attempt.error hfail
      obtain rfl := Option.some.inj (herror.symm.trans he)
      rw [hstate]
      exact ⟨hfailure, hfailure.sameDeclarations⟩
  · intro hok
    rcases hcases with ⟨parts, voices, hpos, hseated, heven, hcounted⟩ | ⟨e, t, -, hfail⟩
    · have hstate : a.state = s.counted measures parts voices := congrArg Attempt.state hcounted
      rw [hstate]
      exact ⟨parts, voices, hpos, hseated, rfl, heven⟩
    · have herror : a.error = some e := congrArg Attempt.error hfail
      rw [hok] at herror
      cases herror

/-- A second line that cannot be read leaves the first line in its voice and a new voice without events. -/
theorem applySection_failure_unreadable :
    let s := (run {} [.instrument "vi" "Violin"]).song
    let lines : List Line := [⟨⟨"vi", "1:c", none, false⟩, by simp⟩, ⟨⟨"vi", "c q", none, false⟩, by simp⟩]
    let a := s.applySection 1 lines none
    let e := Error.unparseableToken "q" (some "vi") (some "1")
    a.error = some e ∧ s.Failure 1 lines none e a.state ∧ a.state.history = [] ∧
      a.state.voices.map (fun v => v.events.length) = [1, 0] := by
  have hfailure := applySection_failure [.instrument "vi" "Violin"] 1
    [⟨⟨"vi", "1:c", none, false⟩, by simp⟩, ⟨⟨"vi", "c q", none, false⟩, by simp⟩] none
  have hsong : (run {} [.instrument "vi" "Violin"]).song =
      { instruments := [⟨"vi", "Violin", ⟨40, by decide⟩⟩] } := by decide +kernel
  rw [hsong] at hfailure ⊢
  intro s lines a e
  have herror : a.error = some e := by decide +kernel
  exact ⟨herror, (hfailure.1 e herror).1, by decide +kernel, by decide +kernel⟩

end Session

end LineScore
