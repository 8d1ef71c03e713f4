import LineScore.Proofs.Edits

/-! The sections that steps add to a song. Every step for an open section has a normal form, in which what it
does to the song is told apart from what it does to the section. Whatever way an author takes to write a
section, at once, opened and applied later, or in one go, it comes down to one attempt to add it to the song as
it then is. A step that makes no such attempt changes nothing but declarations. -/

namespace LineScore

/-- An attempt to add a section to a song. -/
structure SectionCall where
  song : Song
  measures : Int
  lines : List Line
  label : Option String

namespace SectionCall

def outcome (c : SectionCall) : Attempt Song :=
  c.song.applySection c.measures c.lines c.label

/-- Whether all lines of the section are played. -/
def FinishesLines (c : SectionCall) : Prop :=
  c.song.FinishesLines c.measures c.lines c.label

end SectionCall

namespace Line

/-- The lines in front of the first one that is refused. -/
def accepted : List LineRequest → List Line
  | [] => []
  | request :: rest =>
      match make? request with
      | .error _ => []
      | .ok line => line :: accepted rest

/-- Why the first line that is refused is so. -/
def refusal? : List LineRequest → Option Error
  | [] => none
  | request :: rest =>
      match make? request with
      | .error e => some e
      | .ok _ => refusal? rest

theorem mapM_make? (requests : List LineRequest) :
    requests.mapM make? =
      match refusal? requests with
      | some e => .error e
      | none => .ok (accepted requests) := by
  induction requests with
  | nil => rfl
  | cons request rest ih =>
      rw [List.mapM_cons, ih, refusal?, accepted]
      cases make? request with
      | error e => rfl
      | ok line =>
          cases refusal? rest with
          | none => rfl
          | some e => rfl

theorem mapM_make?_eq_error_iff {requests : List LineRequest} {e : Error} :
    requests.mapM make? = .error e ↔ refusal? requests = some e := by
  rw [mapM_make?]
  cases refusal? requests <;> simp

theorem mapM_make?_eq_ok_iff {requests : List LineRequest} {lines : List Line} :
    requests.mapM make? = .ok lines ↔ refusal? requests = none ∧ accepted requests = lines := by
  rw [mapM_make?]
  cases refusal? requests <;> simp

theorem make?_of_pos {request : LineRequest} (hpos : ∀ n ∈ request.defaultNote, 0 < n) :
    make? request = .ok ⟨request, hpos⟩ := by
  unfold make?
  split
  · rfl
  · next n hn => rw [dif_pos (hpos n hn)]

end Line

namespace Song

/-- Nothing that is declared is taken back. -/
theorem Edit.keeps_instruments {s t : Song} (hedit : Edit s t) : s.instruments <+: t.instruments := by
  cases hedit with
  | declare hdeclares =>
      cases hdeclares with
      | instrument i hfresh => exact List.prefix_append _ _
      | _ => exact List.prefix_rfl
  | _ => exact List.prefix_rfl

theorem Edits.keep_instruments {s t : Song} (hedits : Edits s t) : s.instruments <+: t.instruments :=
  hedits.keeps (P := fun u => s.instruments <+: u.instruments)
    (fun _ _ hedit hso => hso.trans hedit.keeps_instruments) List.prefix_rfl

end Song

/-- What is known of a section before it is applied. -/
structure Draft where
  measures : Int
  label : Option String
  lines : List Line
  deriving DecidableEq, Repr

/-- The open section of a draft. -/
def Draft.entry (draft : Draft) : OpenSection :=
  { measures := draft.measures, label := draft.label, lines := draft.lines }

namespace Step

/-- Whether a step declares something about the song. -/
def isDeclaration : Step → Bool
  | .title _ => true
  | .author _ => true
  | .key _ => true
  | .tempo _ => true
  | .time _ => true
  | .meter _ _ => true
  | .instrument _ _ => true
  | _ => false

/-- Whether a step neither opens a section nor is about one that is open. -/
def isPlain : Step → Bool
  | .applySection _ _ _ => true
  | next => next.isDeclaration

/-- The section that a step opens and does nothing else with, or why it does not open one. -/
def opening? : Step → Option (Except Error Draft)
  | .openSection measures label => some (.ok ⟨measures, label, []⟩)
  | .openMeasure number =>
      some (match Text.integer? number with
        | none => .error .longNumber
        | some label => .ok ⟨1, label, []⟩)
  | .openMeasures first last =>
      some (if last < first then .error (.reporting [first, last] (.emptyRange first last))
        else
          match Text.integer? first, Text.integer? last with
          | some a, some b => .ok ⟨last - first + 1, s!"{a}..{b}", []⟩
          | _, _ => .error .longNumber)
  | _ => none

end Step

namespace Session

/-- The attempt that a step makes to add a section, if it comes to one: all lines of the section have to be
acceptable, and it must not have been applied or given up before. -/
def call? (s : Session) : Step → Option SectionCall
  | .applySection measures requests label =>
      (requests.mapM Line.make?).toOption.map fun lines => ⟨s.song, measures, lines, label⟩
  | .apply number =>
      s.sections[number]?.bind fun entry =>
        if entry.applied then none else some ⟨s.song, entry.measures, entry.lines, entry.label⟩
  | .write measures label requests abandon =>
      if abandon then none
      else (requests.mapM Line.make?).toOption.map fun lines => ⟨s.song, measures, lines, label⟩
  | _ => none

/-- The attempts that steps make to add sections, in order. -/
def calls : Session → List Step → List SectionCall
  | _, [] => []
  | s, next :: rest => (s.call? next).toList ++ calls (s.step next).state rest

variable {s : Session} {number : Nat}

theorem addLine_of_unknown (hnone : s.sections[number]? = none) (request : LineRequest) :
    s.addLine number request = ⟨s, some (.unknownSection (toString number))⟩ := by
  simp only [addLine, hnone]

theorem addLine_of_refused {entry : OpenSection} {request : LineRequest} {e : Error}
    (hentry : s.sections[number]? = some entry) (hline : Line.make? request = .error e) :
    s.addLine number request = ⟨s, some e⟩ := by
  simp only [addLine, hentry, hline]
  rfl

theorem addLine_of_accepted {entry : OpenSection} {request : LineRequest} {line : Line}
    (hentry : s.sections[number]? = some entry) (hline : Line.make? request = .ok line) :
    s.addLine number request = ⟨s.setSection number { entry with lines := entry.lines ++ [line] }, none⟩ := by
  simp only [addLine, hentry, hline]
  rfl

theorem getElem?_setSection {entry : OpenSection} (other : OpenSection)
    (hentry : s.sections[number]? = some entry) : (s.setSection number other).sections[number]? = some other := by
  have hlt := (List.getElem?_eq_some_iff.mp hentry).1
  simp [setSection, hlt]

theorem setSection_setSection (s : Session) (number : Nat) (first second : OpenSection) :
    (s.setSection number first).setSection number second = s.setSection number second := by
  simp [setSection]

theorem setSection_self {entry : OpenSection} (hentry : s.sections[number]? = some entry) :
    s.setSection number entry = s := by
  obtain ⟨hlt, hget⟩ := List.getElem?_eq_some_iff.mp hentry
  simp only [setSection, ← hget, List.set_getElem_self]

/-- Lines are added to an open section up to the first that is refused. -/
theorem addLines_eq {entry : OpenSection} (requests : List LineRequest)
    (hentry : s.sections[number]? = some entry) :
    addLines number requests s =
      ⟨s.setSection number { entry with lines := entry.lines ++ Line.accepted requests },
        Line.refusal? requests⟩ := by
  induction requests generalizing s entry with
  | nil => simp [addLines, Line.accepted, Line.refusal?, setSection_self hentry]
  | cons request rest ih =>
      rw [addLines, Line.accepted, Line.refusal?]
      cases hline : Line.make? request with
      | error e =>
          rw [addLine_of_refused hentry hline, Attempt.andThen_of_error rfl]
          simp [setSection_self hentry]
      | ok line =>
          rw [addLine_of_accepted hentry hline, Attempt.andThen_of_ok rfl, ih (getElem?_setSection _ hentry),
            setSection_setSection]
          simp

theorem openSection_getElem? (s : Session) (measures : Int) (label : Option String) :
    (s.openSection measures label).sections[s.sections.length]? = some { measures, label } := by
  simp [openSection]

/-- An open section is marked as applied if its application succeeds; else all is as if it had not been
marked. -/
theorem apply_eq_of_open {entry : OpenSection} (hentry : s.sections[number]? = some entry)
    (hopen : entry.applied = false) :
    s.apply number = (s.applySection entry.measures entry.lines entry.label).map fun t =>
      t.setSection number { entry with
        applied := (s.song.applySection entry.measures entry.lines entry.label).error.isNone } := by
  have happly : s.apply number = (s.applySection entry.measures entry.lines entry.label).andThen fun t =>
      ⟨t.setSection number { entry with applied := true }, none⟩ := by
    simp [apply, hentry, hopen]
  have herror : (s.applySection entry.measures entry.lines entry.label).error =
      (s.song.applySection entry.measures entry.lines entry.label).error := rfl
  rw [happly]
  cases h : (s.song.applySection entry.measures entry.lines entry.label).error with
  | none =>
      rw [Attempt.andThen_of_ok (herror.trans h), Attempt.map, herror, h]
      rfl
  | some e =>
      have hunmarked : ({ entry with applied := false } : OpenSection) = entry := by rw [← hopen]
      have hsame : (s.applySection entry.measures entry.lines entry.label).state.setSection number entry =
          (s.applySection entry.measures entry.lines entry.label).state := setSection_self hentry
      rw [Attempt.andThen_of_error (herror.trans h), Attempt.map, Option.isNone_some, hunmarked, hsame]

theorem apply_of_open {entry : OpenSection} (hentry : s.sections[number]? = some entry)
    (hopen : entry.applied = false) :
    (s.apply number).state.song = (s.song.applySection entry.measures entry.lines entry.label).state ∧
      (s.apply number).error = (s.song.applySection entry.measures entry.lines entry.label).error := by
  rw [apply_eq_of_open hentry hopen]
  exact ⟨rfl, rfl⟩

theorem apply_of_unknown (hnone : s.sections[number]? = none) :
    s.apply number = ⟨s, some (.unknownSection (toString number))⟩ := by
  simp only [apply, hnone]

theorem apply_of_applied {entry : OpenSection} (hentry : s.sections[number]? = some entry)
    (happlied : entry.applied = true) : s.apply number = ⟨s, some .alreadyApplied⟩ := by
  simp only [apply, hentry, happlied, if_true]

theorem apply_of_closed (hclosed : ∀ entry, s.sections[number]? = some entry → entry.applied = true) :
    (s.apply number).state = s := by
  cases hentry : s.sections[number]? with
  | none => rw [apply_of_unknown hentry]
  | some entry => rw [apply_of_applied hentry (hclosed entry hentry)]

/-- Puts a section behind those that are open. -/
def pushSection (s : Session) (entry : OpenSection) : Session :=
  { s with sections := s.sections ++ [entry] }

theorem pushSection_getElem? (s : Session) (entry : OpenSection) :
    (s.pushSection entry).sections[s.sections.length]? = some entry := by
  simp [pushSection]

theorem step_of_opening {s : Session} {next : Step} {opening : Except Error Draft}
    (hopening : next.opening? = some opening) :
    s.step next = Attempt.ofExcept s (opening.map fun draft => s.pushSection draft.entry) := by
  cases next with
  | openSection measures label =>
      cases hopening
      rfl
  | openMeasure number =>
      cases hopening
      rw [step]
      cases Text.integer? number <;> rfl
  | openMeasures first last =>
      cases hopening
      rw [step]
      split
      · rfl
      · cases Text.integer? first with
        | none => rfl
        | some a => cases Text.integer? last <;> rfl
  | _ => cases hopening

theorem song_of_opening {s : Session} {next : Step} {opening : Except Error Draft}
    (hopening : next.opening? = some opening) : (s.step next).state.song = s.song := by
  rw [step_of_opening hopening]
  cases opening <;> rfl

/-- A plain step attempts something on the song. The open sections have no part in it. -/
theorem exists_of_isPlain {next : Step} (hplain : next.isPlain = true) :
    ∃ (change : Song → Attempt Song) (tell : Song → Song → List Notice), ∀ s : Session,
      s.step next = (change s.song).map fun song => { s with song, notices := s.notices ++ tell s.song song } := by
  have honSong : ∀ change : Song → Except Error Song, (∀ s : Session, s.step next = s.onSong change) →
      ∃ (attempt : Song → Attempt Song) (tell : Song → Song → List Notice), ∀ s : Session, s.step next =
        (attempt s.song).map fun song => { s with song, notices := s.notices ++ tell s.song song } := by
    intro change hstep
    refine ⟨fun song => Attempt.ofExcept song (change song), fun _ _ => [], fun s => ?_⟩
    rw [hstep, onSong]
    simp only [List.append_nil]
    cases change s.song <;> rfl
  cases next with
  | applySection measures requests label =>
      cases hlines : requests.mapM Line.make? with
      | error e =>
          refine ⟨fun song => ⟨song, some e⟩, fun _ _ => [], fun s => ?_⟩
          simp [step, hlines, Attempt.map]
      | ok lines =>
          refine ⟨fun song => song.applySection measures lines label,
            fun before song => sectionNotices before song measures lines.length label, fun s => ?_⟩
          rw [step, hlines]
          rfl
  | title title => exact honSong (fun song => .ok { song with title }) fun _ => rfl
  | author author => exact honSong (fun song => .ok { song with author }) fun _ => rfl
  | key name => exact honSong (·.setKey name) fun _ => rfl
  | tempo bpm => exact honSong (·.setTempo bpm) fun _ => rfl
  | time text => exact honSong (·.setTime text) fun _ => rfl
  | meter numerator denominator =>
      exact honSong (fun song => (Meter.make? numerator denominator).map fun meter => { song with meter })
        fun _ => rfl
  | instrument symbol name => exact honSong (·.addInstrument symbol name) fun _ => rfl
  | _ => cases hplain

theorem sections_of_isPlain (s : Session) {next : Step} (hplain : next.isPlain = true) :
    (s.step next).state.sections = s.sections := by
  obtain ⟨change, tell, hstep⟩ := exists_of_isPlain hplain
  rw [hstep]
  rfl

/-- It does not matter for the application of a section that it has just been opened. -/
theorem apply_pushSection (s : Session) {entry : OpenSection} (hopen : entry.applied = false) :
    (s.pushSection entry).apply s.sections.length =
      (s.applySection entry.measures entry.lines entry.label).map fun t =>
        t.pushSection { entry with
          applied := (s.song.applySection entry.measures entry.lines entry.label).error.isNone } := by
  rw [apply_eq_of_open (s.pushSection_getElem? entry) hopen]
  simp only [Attempt.map, applySection, pushSection, setSection, List.set_append_right _ _ le_rfl, Nat.sub_self,
    List.set_cons_zero]

/-- A section that is written in one go is opened with its lines, up to the first that is refused. Then it is
applied, unless a line has been refused or the author abandons it. -/
theorem step_write_eq (s : Session) (measures : Int) (label : Option String) (requests : List LineRequest)
    (abandon : Bool) :
    s.step (.write measures label requests abandon) =
      match Line.refusal? requests with
      | some e => ⟨s.pushSection { measures, label, lines := Line.accepted requests }, some e⟩
      | none =>
          if abandon then ⟨s.pushSection { measures, label, lines := Line.accepted requests }, some .abandoned⟩
          else (s.pushSection { measures, label, lines := Line.accepted requests }).apply s.sections.length := by
  have hopen : (s.openSection measures label).setSection s.sections.length
      { measures, label, lines := Line.accepted requests } =
        s.pushSection { measures, label, lines := Line.accepted requests } := by
    simp [setSection, openSection, pushSection]
  have hstep : s.step (.write measures label requests abandon) =
      (addLines s.sections.length requests (s.openSection measures label)).andThen fun t =>
        if abandon then ⟨t, some .abandoned⟩ else t.apply s.sections.length := rfl
  rw [hstep, addLines_eq requests (s.openSection_getElem? measures label), List.nil_append, hopen]
  cases Line.refusal? requests with
  | none => rfl
  | some e => rfl

/-- Sections that are written in one go are added as they are given. -/
theorem step_write_of_accepted (s : Session) (measures : Int) (label : Option String)
    {requests : List LineRequest} {lines : List Line} (hlines : requests.mapM Line.make? = .ok lines) :
    (s.step (.write measures label requests false)).state.song =
        (s.song.applySection measures lines label).state ∧
      (s.step (.write measures label requests false)).error =
        (s.song.applySection measures lines label).error := by
  obtain ⟨haccepted, rfl⟩ := Line.mapM_make?_eq_ok_iff.mp hlines
  rw [step_write_eq, haccepted]
  exact apply_of_open (s.pushSection_getElem? _) rfl

/-- A step that tries to add a section changes the song and fails as the attempt does. -/
theorem step_of_call {next : Step} {c : SectionCall} (h : s.call? next = some c) :
    c.song = s.song ∧ (s.step next).state.song = c.outcome.state ∧ (s.step next).error = c.outcome.error := by
  cases next with
  | applySection measures requests label =>
      cases hlines : requests.mapM Line.make? with
      | error e => simp [call?, hlines, Except.toOption] at h
      | ok lines =>
          simp only [call?, hlines, Except.toOption, Option.map_some, Option.some.injEq] at h
          subst h
          rw [step, hlines]
          exact ⟨rfl, rfl, rfl⟩
  | apply number =>
      obtain ⟨entry, hentry, hopen⟩ := Option.bind_eq_some_iff.mp h
      by_cases happlied : entry.applied
      · simp [happlied] at hopen
      · simp only [happlied, Bool.false_eq_true, if_false, Option.some.injEq] at hopen
        subst hopen
        exact ⟨rfl, apply_of_open hentry (by simpa using happlied)⟩
  | write measures label requests abandon =>
      cases abandon with
      | true => simp [call?] at h
      | false =>
          cases hlines : requests.mapM Line.make? with
          | error e => simp [call?, hlines, Except.toOption] at h
          | ok lines =>
              simp only [call?, hlines, Except.toOption, Option.map_some, Bool.false_eq_true, if_false,
                Option.some.injEq] at h
              subst h
              exact ⟨rfl, s.step_write_of_accepted measures label hlines⟩
  | _ => simp [call?] at h

theorem step_write_of_abandoned (s : Session) (measures : Int) (label : Option String)
    (requests : List LineRequest) : (s.step (.write measures label requests true)).state.song = s.song := by
  rw [step_write_eq]
  cases Line.refusal? requests <;> rfl

theorem step_write_of_refused (s : Session) (measures : Int) (label : Option String)
    {requests : List LineRequest} {e : Error} (hlines : requests.mapM Line.make? = .error e) (abandon : Bool) :
    (s.step (.write measures label requests abandon)).state.song = s.song := by
  rw [step_write_eq, Line.mapM_make?_eq_error_iff.mp hlines]
  rfl

/-- A step that neither declares anything nor tries to add a section leaves the song as it is. -/
theorem song_of_no_call {next : Step} (h : s.call? next = none) (hplain : next.isDeclaration = false) :
    (s.step next).state.song = s.song := by
  cases next with
  | applySection measures requests label =>
      cases hlines : requests.mapM Line.make? with
      | error e => simp [step, hlines]
      | ok lines => simp [call?, hlines, Except.toOption] at h
  | apply number =>
      refine congrArg Session.song (apply_of_closed fun entry hentry => ?_)
      by_contra hopen
      simp [call?, hentry, hopen] at h
  | write measures label requests abandon =>
      cases hlines : requests.mapM Line.make? with
      | error e => exact s.step_write_of_refused measures label hlines abandon
      | ok lines =>
          cases abandon with
          | true => exact s.step_write_of_abandoned measures label requests
          | false => simp [call?, hlines, Except.toOption] at h
  | openSection measures label => exact song_of_opening rfl
  | openMeasure number => exact song_of_opening rfl
  | openMeasures first last => exact song_of_opening rfl
  | addLine number request => exact s.addLine_song number request
  | _ => cases hplain

/-- A step that does not try to add a section declares something at most. -/
theorem step_of_no_call {next : Step} (h : s.call? next = none) :
    Song.Declares s.song (s.step next).state.song := by
  cases hplain : next.isDeclaration with
  | false =>
      rw [song_of_no_call h hplain]
      exact .nothing
  | true =>
      refine s.step_declares ?_
      cases next with
      | applySection measures requests label => cases hplain
      | apply number => cases hplain
      | write measures label requests abandon => cases hplain
      | _ => rfl

end Session

end LineScore
