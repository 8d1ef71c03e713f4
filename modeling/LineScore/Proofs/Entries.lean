import LineScore.Proofs.Calls

/-! How often a section is entered in the history of its song. An open section remembers that it has been
applied only once an application of it has succeeded, but the song counts it before its lengths are
checked. So every application that fails at that check makes an entry of its own, and success makes the
last one. -/

namespace LineScore

namespace Song

variable {s : Song} {measures : Int} {lines : List Line} {label : Option String}

theorem history_of_ok (hok : (s.applySection measures lines label).error = none) :
    (s.applySection measures lines label).state.history = s.history ++ [(measures, s.meter)] := by
  have houtcome := applySection_outcome s measures lines label
  generalize s.applySection measures lines label = a at houtcome hok ⊢
  cases houtcome with
  | empty _ => cases hok
  | unnamed e _ _ => cases hok
  | stopped place e _ _ _ => cases hok
  | counted place hpos hplace hplayed =>
      obtain ⟨voices, hvoices⟩ := Stage.playLines_sameButVoices place lines ⟨s, []⟩
      rw [checkLengths_state, Stage.padded, record, hvoices]

/-- A section that fails and is counted all the same fails because a voice is off. -/
theorem exists_off_of_counted (hfail : (s.applySection measures lines label).error ≠ none)
    (hcounted : s.history.length < (s.applySection measures lines label).state.history.length) :
    ∃ v ∈ (s.applySection measures lines label).state.voices,
      tolerance < |v.length - (s.applySection measures lines label).state.length| := by
  have houtcome := applySection_outcome s measures lines label
  generalize s.applySection measures lines label = a at houtcome hfail hcounted ⊢
  cases houtcome with
  | empty _ => exact absurd hcounted (lt_irrefl _)
  | unnamed e _ _ => exact absurd hcounted (lt_irrefl _)
  | stopped place e _ _ _ =>
      rw [(Stage.playLines_sameButVoices place lines ⟨s, []⟩).sameCounts.history] at hcounted
      exact absurd hcounted (lt_irrefl _)
  | counted place hpos hplace hplayed =>
      rw [Ne, checkLengths_error_eq_none_iff] at hfail
      push Not at hfail
      rw [checkLengths_state]
      exact hfail

end Song

namespace Session

/-- Whether an open section has been applied with success. -/
def isApplied (s : Session) (number : Nat) : Bool :=
  s.sections[number]?.any (·.applied)

/-- The open section that a step applies, by its number. -/
def target? (s : Session) : Step → Option Nat
  | .apply number => some number
  | .write _ _ _ _ => some s.sections.length
  | _ => none

/-- How many entries an attempt has added to the history of the song. -/
def growth (s : Session) (a : Attempt Session) : Nat :=
  a.state.song.history.length - s.song.history.length

/-- How many entries of the history steps make by applying an open section. -/
def entriesOf (number : Nat) : Session → List Step → Nat
  | _, [] => 0
  | s, next :: rest =>
      (if s.target? next = some number then s.growth (s.step next) else 0) +
        entriesOf number (s.step next).state rest

/-- How many of these entries are made by applications that fail. -/
def failedEntriesOf (number : Nat) : Session → List Step → Nat
  | _, [] => 0
  | s, next :: rest =>
      (if s.target? next = some number ∧ (s.step next).error ≠ none then s.growth (s.step next) else 0) +
        failedEntriesOf number (s.step next).state rest

variable {s : Session} {number other : Nat}

theorem isApplied_of_sections_eq {t : Session} (hsections : t.sections = s.sections) (number : Nat) :
    t.isApplied number = s.isApplied number := by
  rw [isApplied, isApplied, hsections]

theorem isApplied_pushSection (s : Session) {entry : OpenSection} (hopen : entry.applied = false) (number : Nat) :
    (s.pushSection entry).isApplied number = s.isApplied number := by
  rw [isApplied, isApplied, pushSection, getElem?_concat]
  split
  · next hlast => rw [List.getElem?_eq_none hlast.ge, Option.any_some, hopen, Option.any_none]
  · rfl

theorem isApplied_of_opening {next : Step} {opening : Except Error Draft} (hopening : next.opening? = some opening)
    (number : Nat) : (s.step next).state.isApplied number = s.isApplied number := by
  rw [step_of_opening hopening]
  cases opening with
  | error e => rfl
  | ok draft => exact s.isApplied_pushSection rfl number

theorem isApplied_setSection (s : Session) (number other : Nat) (entry : OpenSection) :
    (s.setSection number entry).isApplied other =
      if number = other ∧ number < s.sections.length then entry.applied else s.isApplied other := by
  rw [isApplied, isApplied, setSection, List.getElem?_set]
  by_cases hsame : number = other
  · subst hsame
    by_cases hlt : number < s.sections.length
    · simp [hlt]
    · simp [hlt]
  · simp [hsame]

theorem isApplied_addLine (s : Session) (number : Nat) (request : LineRequest) (other : Nat) :
    (s.addLine number request).state.isApplied other = s.isApplied other := by
  unfold addLine
  cases hentry : s.sections[number]? with
  | none => rfl
  | some entry =>
      cases hline : Line.make? request with
      | error e => rfl
      | ok line =>
          change (s.setSection number { entry with lines := entry.lines ++ [line] }).isApplied other = _
          rw [isApplied_setSection]
          split
          · next hsame =>
              obtain ⟨rfl, -⟩ := hsame
              rw [isApplied, hentry]
              rfl
          · rfl

/-- What an application of an open section comes to. -/
inductive ApplyOutcome (s : Session) (number : Nat) : Attempt Session → Prop where
  /-- There is no such section, or it has been applied before. -/
  | refused (e : Error) : ApplyOutcome s number ⟨s, some e⟩
  | failed {entry : OpenSection} {e : Error}
      (herror : (s.applySection entry.measures entry.lines entry.label).error = some e) :
      ApplyOutcome s number (s.applySection entry.measures entry.lines entry.label)
  /-- The section has been added to the song, and only now it is marked. -/
  | done {entry : OpenSection} (hentry : s.sections[number]? = some entry) (hopen : entry.applied = false)
      (hok : (s.applySection entry.measures entry.lines entry.label).error = none) :
      ApplyOutcome s number
        ⟨(s.applySection entry.measures entry.lines entry.label).state.setSection number
          { entry with applied := true }, none⟩

theorem apply_outcome (s : Session) (number : Nat) : ApplyOutcome s number (s.apply number) := by
  unfold apply
  split
  · exact .refused _
  · next entry hentry =>
      split
      · exact .refused _
      · next hopen =>
          cases herror : (s.applySection entry.measures entry.lines entry.label).error with
          | some e =>
              rw [Attempt.andThen_of_error herror]
              exact .failed herror
          | none =>
              rw [Attempt.andThen_of_ok herror]
              exact .done hentry (Bool.eq_false_iff.mpr hopen) herror

theorem isApplied_apply_of_ne (hother : number ≠ other) :
    (s.apply number).state.isApplied other = s.isApplied other := by
  have houtcome := s.apply_outcome number
  generalize s.apply number = a at houtcome ⊢
  cases houtcome with
  | refused e => rfl
  | failed herror => rfl
  | done hentry hopen hok =>
      rw [isApplied_setSection, if_neg fun h => hother h.1]
      rfl

theorem growth_self (s : Session) (error : Option Error) : s.growth ⟨s, error⟩ = 0 :=
  Nat.sub_self _

theorem growth_of_ok {measures : Int} {lines : List Line} {label : Option String}
    (hok : (s.applySection measures lines label).error = none) (entry : OpenSection) :
    s.growth ⟨(s.applySection measures lines label).state.setSection number entry, none⟩ = 1 := by
  have hhistory : (s.song.applySection measures lines label).state.history =
      s.song.history ++ [(measures, s.song.meter)] := Song.history_of_ok hok
  change (s.song.applySection measures lines label).state.history.length - s.song.history.length = 1
  rw [hhistory, List.length_append, List.length_singleton]
  omega

/-- Only an application that succeeds marks the section, and it makes one entry. -/
theorem apply_entries (s : Session) (number : Nat) :
    s.growth (s.apply number) + (s.isApplied number).toNat =
      (if (s.apply number).error ≠ none then s.growth (s.apply number) else 0) +
        ((s.apply number).state.isApplied number).toNat := by
  have houtcome := s.apply_outcome number
  generalize s.apply number = a at houtcome ⊢
  cases houtcome with
  | refused e => rw [if_pos (by simp)]
  | failed herror =>
      rw [herror, if_pos (by simp)]
      rfl
  | @done entry hentry hopen hok =>
      have hlt : number < s.sections.length := (List.getElem?_eq_some_iff.mp hentry).1
      have hbefore : s.isApplied number = false := by
        rw [isApplied, hentry, Option.any_some, hopen]
      have hafter : ((s.applySection entry.measures entry.lines entry.label).state.setSection number
          { entry with applied := true }).isApplied number = true := by
        rw [isApplied_setSection, if_pos ⟨rfl, hlt⟩]
      rw [growth_of_ok hok, hbefore, hafter]
      rfl

/-- An application that fails but makes an entry leaves a voice that is off. -/
theorem apply_off (hfail : (s.apply number).error ≠ none) (hgrowth : 0 < s.growth (s.apply number)) :
    ∃ v ∈ (s.apply number).state.song.voices,
      tolerance < |v.length - (s.apply number).state.song.length| := by
  have houtcome := s.apply_outcome number
  generalize s.apply number = a at houtcome hfail hgrowth ⊢
  cases houtcome with
  | refused e =>
      rw [growth_self] at hgrowth
      exact absurd hgrowth (lt_irrefl 0)
  | failed herror => exact Song.exists_off_of_counted hfail (Nat.lt_of_sub_pos hgrowth)
  | done hentry hopen hok => exact absurd rfl hfail

/-- A section written in one go is given up before its application, or applied to the same song. -/
theorem step_write (s : Session) (measures : Int) (label : Option String) (requests : List LineRequest)
    (abandon : Bool) :
    ∃ t : Session, t.song = s.song ∧ (∀ other, t.isApplied other = s.isApplied other) ∧
      ((∃ e, s.step (.write measures label requests abandon) = ⟨t, some e⟩) ∨
        s.step (.write measures label requests abandon) = t.apply s.sections.length) := by
  refine ⟨s.pushSection { measures, label, lines := Line.accepted requests }, rfl,
    s.isApplied_pushSection rfl, ?_⟩
  rw [step_write_eq]
  cases Line.refusal? requests with
  | some e => exact Or.inl ⟨e, rfl⟩
  | none =>
      cases abandon with
      | true => exact Or.inl ⟨.abandoned, rfl⟩
      | false => exact Or.inr rfl

/-- Whether the entries that a step makes for a section, taken with the section's mark before it, are the
failed ones taken with the mark after it. -/
def Balances (s : Session) (number : Nat) (next : Step) : Prop :=
  (if s.target? next = some number then s.growth (s.step next) else 0) + (s.isApplied number).toNat =
    (if s.target? next = some number ∧ (s.step next).error ≠ none then s.growth (s.step next) else 0) +
      ((s.step next).state.isApplied number).toNat

/-- A step that applies no section and marks none balances. -/
theorem Balances.of_no_target {next : Step} (htarget : s.target? next = none)
    (hmark : (s.step next).state.isApplied number = s.isApplied number) : Balances s number next := by
  simp [Balances, htarget, hmark]

/-- A step that comes down to an application balances. -/
theorem Balances.of_apply {next : Step} {t : Session} {target : Nat} (htarget : s.target? next = some target)
    (hsong : t.song = s.song) (hmark : ∀ other, t.isApplied other = s.isApplied other)
    (hstep : s.step next = t.apply target) : Balances s number next := by
  have hgrowth : s.growth (t.apply target) = t.growth (t.apply target) := by rw [growth, growth, hsong]
  rw [Balances, hstep, htarget, ← hmark number, hgrowth]
  by_cases hsame : target = number
  · subst hsame
    simpa only [true_and, if_true] using t.apply_entries target
  · simp [hsame, isApplied_apply_of_ne hsame]

theorem step_balances (s : Session) (number : Nat) (next : Step) : Balances s number next := by
  cases next with
  | openSection measures label => exact .of_no_target rfl (isApplied_of_opening rfl number)
  | openMeasure first => exact .of_no_target rfl (isApplied_of_opening rfl number)
  | openMeasures first last => exact .of_no_target rfl (isApplied_of_opening rfl number)
  | addLine target request => exact .of_no_target rfl (s.isApplied_addLine target request number)
  | apply target => exact .of_apply rfl rfl (fun _ => rfl) rfl
  | write measures label requests abandon =>
      obtain ⟨t, hsong, hmark, ⟨e, hgiven⟩ | happly⟩ := s.step_write measures label requests abandon
      · have hgrowth : s.growth ⟨t, some e⟩ = 0 := by rw [growth, hsong, Nat.sub_self]
        rw [Balances, hgiven, hgrowth, hmark number]
        simp
      · exact .of_apply rfl hsong hmark happly
  | _ => exact .of_no_target rfl (isApplied_of_sections_eq (s.sections_of_isPlain rfl) number)

theorem entriesOf_add (s : Session) (number : Nat) (steps : List Step) :
    entriesOf number s steps + (s.isApplied number).toNat =
      failedEntriesOf number s steps + ((s.run steps).isApplied number).toNat := by
  induction steps generalizing s with
  | nil => rfl
  | cons next rest ih =>
      have hstep : Balances s number next := s.step_balances number next
      have hrest := ih (s.step next).state
      -- the mark after the step is the one that the rest starts with
      rw [Balances] at hstep
      rw [entriesOf, failedEntriesOf, run_cons]
      omega

theorem exists_off_of_failed {next : Step} (htarget : s.target? next = some number)
    (hfail : (s.step next).error ≠ none) (hgrowth : 0 < s.growth (s.step next)) :
    ∃ v ∈ (s.step next).state.song.voices,
      tolerance < |v.length - (s.step next).state.song.length| := by
  cases next with
  | apply target => exact apply_off hfail hgrowth
  | write measures label requests abandon =>
      obtain ⟨t, hsong, -, ⟨e, hgiven⟩ | happly⟩ := s.step_write measures label requests abandon
      · rw [hgiven, growth, hsong, Nat.sub_self] at hgrowth
        exact absurd hgrowth (lt_irrefl 0)
      · rw [growth, ← hsong, happly] at hgrowth
        rw [happly] at hfail ⊢
        exact apply_off hfail hgrowth
  | _ => cases htarget

/-- Over any steps a section makes as many entries as its applications fail after being counted, and one
more once it has been applied with success. An application that fails after being counted leaves a voice
that is off by more than the tolerance. -/
theorem run_entries (steps : List Step) (number : Nat) :
    entriesOf number {} steps = failedEntriesOf number {} steps + ((run {} steps).isApplied number).toNat ∧
    ∀ before next after, steps = before ++ next :: after →
      let s := run {} before
      let a := s.step next
      s.target? next = some number → a.error ≠ none → 0 < s.growth a →
        ∃ v ∈ a.state.song.voices, tolerance < |v.length - a.state.song.length| :=
  ⟨entriesOf_add {} number steps, fun _ _ _ _ => exists_off_of_failed⟩

/-- A section that is tried again after its lengths were wrong is entered twice, and counted twice in the
song's length and measures. -/
theorem entriesOf_retried :
    let steps : List Step := [.instrument "vi" "Violin", .openSection 1 none,
      .addLine 0 { symbol := "vi", notes := "c" }, .apply 0, .apply 0]
    entriesOf 0 {} steps = 2 ∧ (run {} steps).song.history = [(1, .common), (1, .common)] ∧
      (run {} steps).song.length = 8 ∧ (run {} steps).song.measureCount = 2 := by
  decide +kernel

end Session

end LineScore
