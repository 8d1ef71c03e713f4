import LineScore.Proofs.Entries

/-! What open sections hold, and what the song takes from it. The measures, the name and the lines of an open
section are told by the steps that open it and hand in lines, whatever the song is by then. The song is told
by the declarations, the sections that are appended at once, and the applications of open sections with what
these hold at the time. -/

namespace LineScore

def OpenSection.draft (entry : OpenSection) : Draft :=
  ⟨entry.measures, entry.label, entry.lines⟩

namespace Step

/-- The section that a step opens, with the lines that it hands in itself. -/
def opened? : Step → Option Draft
  | .write measures label requests _ => some ⟨measures, label, Line.accepted requests⟩
  | next => next.opening?.bind Except.toOption

theorem opened?_of_opening {next : Step} {opening : Except Error Draft} (hopening : next.opening? = some opening) :
    next.opened? = opening.toOption := by
  cases next <;> first | exact congrArg (Option.bind · Except.toOption) hopening | cases hopening

end Step

namespace Draft

/-- The drafts after one more step. A section that is opened comes last, and an accepted line is added to the
section that it is handed in for. -/
def after (drafts : List Draft) : Step → List Draft
  | .addLine number request =>
      match Line.make? request with
      | .error _ => drafts
      | .ok line => drafts.modify number fun draft => { draft with lines := draft.lines ++ [line] }
  | next => drafts ++ next.opened?.toList

/-- The drafts that steps make. -/
def ofSteps (steps : List Step) : List Draft :=
  steps.foldl after []

end Draft

/-- What can matter to the song about a step. -/
inductive Act where
  /-- Declares something, or appends a section at once. -/
  | plain (next : Step)
  /-- Applies an open section with what it holds. -/
  | apply (number : Nat) (draft : Draft)
  deriving Repr

namespace Act

/-- What matters about a step, given the drafts before it. A section that is written in one go is applied
only if no line is refused and the author does not abandon it. -/
def ofStep? (drafts : List Draft) : Step → Option Act
  | .apply number => drafts[number]?.map (.apply number)
  | .write measures label requests abandon =>
      if abandon = true ∨ Line.refusal? requests ≠ none then none
      else some (.apply drafts.length ⟨measures, label, Line.accepted requests⟩)
  | next => if next.isPlain then some (.plain next) else none

/-- What matters about steps, in order. -/
def ofSteps (drafts : List Draft) : List Step → List Act
  | [] => []
  | next :: rest => (ofStep? drafts next).toList ++ ofSteps (Draft.after drafts next) rest

end Act

/-- A song, and the numbers of the open sections that have been applied to it. -/
structure Performance where
  song : Song
  applied : List Nat := []

namespace Performance

/-- Does what matters about a step. No open section takes part in it but by its draft, and that counts until
it has been applied with success. -/
def perform (p : Performance) : Act → Performance
  | .plain next => { p with song := (({ song := p.song } : Session).step next).state.song }
  | .apply number draft =>
      if number ∈ p.applied then p
      else
        let a := p.song.applySection draft.measures draft.lines draft.label
        { song := a.state, applied := if a.error = none then number :: p.applied else p.applied }

end Performance

namespace Session

def drafts (s : Session) : List Draft :=
  s.sections.map OpenSection.draft

theorem drafts_getElem? (s : Session) (number : Nat) :
    s.drafts[number]? = s.sections[number]?.map OpenSection.draft :=
  List.getElem?_map

theorem drafts_pushSection (s : Session) (entry : OpenSection) :
    (s.pushSection entry).drafts = s.drafts ++ [entry.draft] := by
  simp [drafts, pushSection]

/-- Whatever a section holds, whether it is marked as applied is no part of it. -/
theorem drafts_setSection_applied {s : Session} {number : Nat} {entry : OpenSection}
    (hentry : s.sections[number]? = some entry) (applied : Bool) :
    (s.setSection number { entry with applied }).drafts = s.drafts := by
  have hdraft : s.drafts[number]? = some entry.draft := by rw [drafts_getElem?, hentry]; rfl
  obtain ⟨hlt, hget⟩ := List.getElem?_eq_some_iff.mp hdraft
  rw [drafts, setSection, List.map_set]
  change s.drafts.set number entry.draft = s.drafts
  rw [← hget, List.set_getElem_self]

theorem drafts_of_opening (s : Session) {next : Step} (opening : Except Error Draft)
    (hopening : next.opening? = some opening) :
    (s.step next).state.drafts = s.drafts ++ opening.toOption.toList := by
  rw [step_of_opening hopening]
  cases opening with
  | error e => exact (List.append_nil _).symm
  | ok draft => exact s.drafts_pushSection draft.entry

theorem drafts_addLine (s : Session) (number : Nat) (request : LineRequest) :
    (s.addLine number request).state.drafts = Draft.after s.drafts (.addLine number request) := by
  cases hentry : s.sections[number]? with
  | none =>
      have hnone : s.drafts.length ≤ number := by simpa [drafts] using hentry
      rw [addLine_of_unknown hentry, Draft.after]
      split
      · rfl
      · rw [List.modify_eq_self hnone]
  | some entry =>
      have hdraft : s.drafts[number]? = some entry.draft := by rw [drafts_getElem?, hentry]; rfl
      rw [Draft.after]
      cases hline : Line.make? request with
      | error e => rw [addLine_of_refused hentry hline]
      | ok line =>
          rw [addLine_of_accepted hentry hline, drafts, setSection, List.map_set]
          dsimp only
          rw [List.modify_eq_set_getElem?, hdraft]
          rfl

theorem drafts_apply (s : Session) (number : Nat) : (s.apply number).state.drafts = s.drafts := by
  have houtcome := s.apply_outcome number
  generalize s.apply number = a at houtcome ⊢
  cases houtcome with
  | refused e => rfl
  | failed herror => rfl
  | done hentry hopen hok => exact drafts_setSection_applied (s := (s.applySection _ _ _).state) hentry true

theorem drafts_write (s : Session) (measures : Int) (label : Option String) (requests : List LineRequest)
    (abandon : Bool) :
    (s.step (.write measures label requests abandon)).state.drafts =
      s.drafts ++ [⟨measures, label, Line.accepted requests⟩] := by
  rw [step_write_eq]
  split
  · exact s.drafts_pushSection _
  · split
    · exact s.drafts_pushSection _
    · rw [drafts_apply]
      exact s.drafts_pushSection _

/-- What the open sections hold after a step does not depend on the song. -/
theorem step_drafts (s : Session) (next : Step) : (s.step next).state.drafts = Draft.after s.drafts next := by
  have hplain : next.isPlain = true → (s.step next).state.drafts = s.drafts ++ [] := by
    intro h
    rw [drafts, s.sections_of_isPlain h, List.append_nil, drafts]
  cases next with
  | addLine number request => exact s.drafts_addLine number request
  | apply number => exact (s.drafts_apply number).trans (List.append_nil _).symm
  | write measures label requests abandon => exact s.drafts_write measures label requests abandon
  | openSection measures label => exact s.drafts_of_opening (.ok ⟨measures, label, []⟩) rfl
  | openMeasure number => exact s.drafts_of_opening _ rfl
  | openMeasures first last => exact s.drafts_of_opening _ rfl
  | _ => exact hplain rfl

theorem run_drafts (s : Session) (steps : List Step) :
    (s.run steps).drafts = steps.foldl Draft.after s.drafts := by
  induction steps generalizing s with
  | nil => rfl
  | cons next rest ih => rw [run_cons, ih, step_drafts, List.foldl_cons]

/-- A section is marked as applied when its application succeeds. -/
theorem isApplied_apply_of_open {s : Session} {number : Nat} {entry : OpenSection}
    (hentry : s.sections[number]? = some entry) (hopen : entry.applied = false) (other : Nat) :
    (s.apply number).state.isApplied other = true ↔
      (s.apply number).error = none ∧ other = number ∨ s.isApplied other = true := by
  have hlt := (List.getElem?_eq_some_iff.mp hentry).1
  have hmark : s.isApplied number = false := by rw [isApplied, hentry, Option.any_some, hopen]
  rw [(apply_of_open hentry hopen).2, apply_eq_of_open hentry hopen]
  change ((Session.setSection _ number _).isApplied other = true) ↔ _
  rw [isApplied_setSection]
  by_cases hsame : number = other
  · subst hsame
    have hlength : number < (s.applySection entry.measures entry.lines entry.label).state.sections.length := hlt
    simp [hlength, hmark]
  · rw [if_neg fun h => hsame h.1]
    simp only [Ne.symm hsame, and_false, false_or]
    rfl

end Session

namespace Performance

/-- Whether a performance tells the song of a session and which of its sections have been applied. -/
structure Tells (p : Performance) (s : Session) : Prop where
  song : p.song = s.song
  applied : ∀ number, number ∈ p.applied ↔ s.isApplied number = true

variable {p : Performance} {s : Session}

theorem Tells.idle (htells : p.Tells s) {t : Session} (hsong : t.song = s.song)
    (happlied : ∀ number, t.isApplied number = s.isApplied number) : p.Tells t :=
  ⟨htells.song.trans hsong.symm, fun number => by rw [htells.applied, happlied]⟩

theorem Tells.plain (htells : p.Tells s) {next : Step} (hplain : next.isPlain = true) :
    (p.perform (.plain next)).Tells (s.step next).state := by
  refine ⟨?_, fun number => ?_⟩
  · obtain ⟨change, tell, hstep⟩ := Session.exists_of_isPlain hplain
    rw [perform, hstep, hstep, htells.song]
    rfl
  · rw [Session.isApplied_of_sections_eq (s.sections_of_isPlain hplain)]
    exact htells.applied number

/-- Applying a section is told by what it holds. -/
theorem Tells.apply (htells : p.Tells s) {number : Nat} {entry : OpenSection}
    (hentry : s.sections[number]? = some entry) :
    (p.perform (.apply number entry.draft)).Tells (s.apply number).state := by
  have hmark : s.isApplied number = entry.applied := by rw [Session.isApplied, hentry, Option.any_some]
  have hmem := htells.applied number
  rw [hmark] at hmem
  cases hopen : entry.applied with
  | true =>
      rw [Session.apply_of_applied hentry hopen, perform, if_pos (hmem.mpr hopen)]
      exact htells
  | false =>
      obtain ⟨hsong, herror⟩ := Session.apply_of_open hentry hopen
      have hnew : number ∉ p.applied := by
        rw [hmem, hopen]
        exact Bool.false_ne_true
      rw [perform, if_neg hnew, htells.song]
      refine ⟨hsong.symm, fun other => ?_⟩
      rw [Session.isApplied_apply_of_open hentry hopen, ← htells.applied, herror]
      change (other ∈ if (s.song.applySection entry.measures entry.lines entry.label).error = none then
        number :: p.applied else p.applied) ↔ _
      split
      · next hok => simp [hok]
      · next hfail => simp [hfail]

/-- What matters about a step is enough to tell the song after it. -/
theorem Tells.step (htells : p.Tells s) (next : Step) :
    ((Act.ofStep? s.drafts next).toList.foldl perform p).Tells (s.step next).state := by
  have hopening : ∀ opening, next.opening? = some opening → p.Tells (s.step next).state := fun _ h =>
    htells.idle (Session.song_of_opening h) (Session.isApplied_of_opening h)
  cases next with
  | openSection measures label => exact hopening _ rfl
  | openMeasure number => exact hopening _ rfl
  | openMeasures first last => exact hopening _ rfl
  | addLine number request =>
      exact htells.idle (s.addLine_song number request) (s.isApplied_addLine number request)
  | apply number =>
      rw [Act.ofStep?, Session.drafts_getElem?]
      cases hentry : s.sections[number]? with
      | none =>
          have hclosed : (s.step (.apply number)).state = s := congrArg Attempt.state (Session.apply_of_unknown hentry)
          rw [hclosed]
          exact htells
      | some entry => exact htells.apply hentry
  | write measures label requests abandon =>
      have hpushed : p.Tells (s.pushSection { measures, label, lines := Line.accepted requests }) :=
        htells.idle rfl (s.isApplied_pushSection rfl)
      have hlength : s.drafts.length = s.sections.length := List.length_map _
      rw [Act.ofStep?, Session.step_write_eq, hlength]
      cases Line.refusal? requests with
      | some e => simpa using hpushed
      | none =>
          cases abandon with
          | true => simpa using hpushed
          | false => exact hpushed.apply (s.pushSection_getElem? _)
  | _ => exact htells.plain rfl

theorem Tells.run (htells : p.Tells s) (steps : List Step) :
    ((Act.ofSteps s.drafts steps).foldl perform p).Tells (s.run steps) := by
  induction steps generalizing p s with
  | nil => exact htells
  | cons next rest ih =>
      rw [Act.ofSteps, List.foldl_append, ← s.step_drafts next]
      exact ih (htells.step next)

end Performance

end LineScore
