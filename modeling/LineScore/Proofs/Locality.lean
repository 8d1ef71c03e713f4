import LineScore.Proofs.Drafts
import Mathlib.Logic.Equiv.Basic

/-! Open sections keep to themselves. A step reads one open section at most, its own, and all that it does to
the others is to come before or after them. So a step that leaves the song alone can be made earlier or later,
across all steps that are not for its section, and nobody notices but by the numbers of sections that have
been opened in the other order. -/

namespace LineScore

namespace Step

/-- The open section that a step names. -/
def named? : Step → Option Nat
  | .addLine number _ => some number
  | .apply number => some number
  | _ => none

theorem named?_of_opened {next : Step} (hopened : next.opened?.isSome) : next.named? = none := by
  cases next <;> first | rfl | cases hopened

theorem named?_of_opening {next : Step} {opening : Except Error Draft} (hopening : next.opening? = some opening) :
    next.named? = none := by
  cases next <;> first | rfl | cases hopening

theorem named?_of_isPlain {next : Step} (hplain : next.isPlain = true) : next.named? = none := by
  cases next <;> first | rfl | cases hplain

theorem opened?_of_isPlain {next : Step} (hplain : next.isPlain = true) : next.opened? = none := by
  cases next <;> first | rfl | cases hplain

/-- The same step for a section with another number. -/
def renumber (f : Nat → Nat) : Step → Step
  | .addLine number request => .addLine (f number) request
  | .apply number => .apply (f number)
  | next => next

theorem renumber_id (next : Step) : next.renumber id = next := by
  cases next <;> rfl

theorem renumber_of_named?_eq_none {next : Step} (h : next.named? = none) (f : Nat → Nat) :
    next.renumber f = next := by
  cases next with
  | addLine number request => cases h
  | apply number => cases h
  | _ => rfl

end Step

/-- What a step does to the list of open sections. -/
inductive SectionChange where
  | nothing
  | opened (entry : OpenSection)
  | revised (number : Nat) (entry : OpenSection)

namespace SectionChange

def on : SectionChange → List OpenSection → List OpenSection
  | .nothing, sections => sections
  | .opened entry, sections => sections ++ [entry]
  | .revised number entry, sections => sections.set number entry

def renumber (f : Nat → Nat) : SectionChange → SectionChange
  | .revised number entry => .revised (f number) entry
  | change => change

theorem renumber_id (change : SectionChange) : change.renumber id = change := by
  cases change <;> rfl

/-- Whether a step can make a change: only a step that opens a section adds one, and only the section that a
step names is revised. -/
inductive IsBy (next : Step) : SectionChange → Prop where
  | nothing (hopened : next.opened? = none) : IsBy next .nothing
  | opened {entry : OpenSection} (hopened : next.opened?.isSome) : IsBy next (.opened entry)
  | revised {number : Nat} {entry : OpenSection} (hnamed : next.named? = some number) :
      IsBy next (.revised number entry)

theorem IsBy.exists_opened {next : Step} {change : SectionChange} (hby : change.IsBy next)
    (hopened : next.opened?.isSome) : ∃ entry, change = .opened entry := by
  cases hby with
  | nothing hnone =>
      rw [hnone] at hopened
      cases hopened
  | @opened entry _ => exact ⟨entry, rfl⟩
  | revised hnamed =>
      rw [Step.named?_of_opened hopened] at hnamed
      cases hnamed

end SectionChange

namespace Session

/-- The open section that a step is for: the one that it names or opens. -/
def section? (s : Session) (next : Step) : Option Nat :=
  next.named? <|> next.opened?.map fun _ => s.sections.length

theorem section?_of_named (s : Session) {next : Step} {number : Nat} (hnamed : next.named? = some number) :
    s.section? next = some number := by
  rw [section?, hnamed]
  rfl

theorem section?_of_opened (s : Session) {next : Step} (hopened : next.opened?.isSome) :
    s.section? next = some s.sections.length := by
  obtain ⟨draft, hdraft⟩ := Option.isSome_iff_exists.mp hopened
  rw [section?, Step.named?_of_opened hopened, hdraft]
  rfl

/-- Whether a list of sections has the section that a step names, with another number if need be. What it
does not have keeps its number. -/
def SameOwn (s : Session) (next : Step) (f : Nat → Nat) (sections : List OpenSection) : Prop :=
  ∀ number, next.named? = some number →
    sections[f number]? = s.sections[number]? ∧ (s.sections[number]? = none → f number = number)

variable {s : Session} {next : Step}

theorem SameOwn.entry {f : Nat → Nat} {sections : List OpenSection} (hown : s.SameOwn next f sections)
    {number : Nat} {entry : OpenSection} (hnamed : next.named? = some number)
    (hentry : s.sections[number]? = some entry) : sections[f number]? = some entry :=
  (hown number hnamed).1.trans hentry

theorem SameOwn.unknown {f : Nat → Nat} {sections : List OpenSection} (hown : s.SameOwn next f sections)
    {number : Nat} (hnamed : next.named? = some number) (hnone : s.sections[number]? = none) :
    f number = number ∧ sections[f number]? = none :=
  ⟨(hown number hnamed).2 hnone, (hown number hnamed).1.trans hnone⟩

/-- Whether a step leaves the song alone: it opens a section, hands in a line, applies a section that has
been applied, or writes a section that the author abandons or that has a line refused. -/
inductive Idle (s : Session) : Step → Prop where
  | opening {next : Step} {opening : Except Error Draft} (hopening : next.opening? = some opening) : Idle s next
  | addLine (number : Nat) (request : LineRequest) : Idle s (.addLine number request)
  | applied {number : Nat} (happlied : s.isApplied number = true) : Idle s (.apply number)
  | abandoned (measures : Int) (label : Option String) (requests : List LineRequest) :
      Idle s (.write measures label requests true)
  | refused (measures : Int) (label : Option String) {requests : List LineRequest} {e : Error}
      (hrefusal : Line.refusal? requests = some e) (abandon : Bool) :
      Idle s (.write measures label requests abandon)

/-- A step that leaves the song alone does not look at it either. -/
theorem Idle.exists_change (hidle : s.Idle next) :
    ∃ (change : SectionChange) (error : Option Error), change.IsBy next ∧
      ∀ (f : Nat → Nat) (t : Session), s.SameOwn next f t.sections →
        t.step (next.renumber f) = ⟨{ t with sections := (change.renumber f).on t.sections }, error⟩ := by
  cases hidle with
  | @opening next opening hopening =>
      have hnamed := Step.named?_of_opening hopening
      have hopened := Step.opened?_of_opening hopening
      cases opening with
      | error e =>
          refine ⟨.nothing, some e, .nothing hopened, fun f t _ => ?_⟩
          rw [Step.renumber_of_named?_eq_none hnamed]
          exact step_of_opening hopening
      | ok draft =>
          refine ⟨.opened draft.entry, none, .opened (by rw [hopened]; rfl), fun f t _ => ?_⟩
          rw [Step.renumber_of_named?_eq_none hnamed]
          exact step_of_opening hopening
  | addLine number request =>
      cases hentry : s.sections[number]? with
      | none =>
          -- the error tells the number, so this may not be another one
          refine ⟨.nothing, some (.unknownSection (toString number)), .nothing rfl, fun f t hown => ?_⟩
          obtain ⟨hfixed, hunknown⟩ := hown.unknown rfl hentry
          change t.addLine (f number) request = _
          rw [addLine_of_unknown hunknown, hfixed]
          rfl
      | some entry =>
          cases hline : Line.make? request with
          | error e =>
              refine ⟨.nothing, some e, .nothing rfl, fun f t hown => ?_⟩
              exact addLine_of_refused (hown.entry rfl hentry) hline
          | ok line =>
              refine ⟨.revised number { entry with lines := entry.lines ++ [line] }, none, .revised rfl,
                fun f t hown => ?_⟩
              exact addLine_of_accepted (hown.entry rfl hentry) hline
  | @applied number happlied =>
      obtain ⟨entry, hentry, hmark⟩ := (Option.any_eq_true _ _).mp happlied
      refine ⟨.nothing, some .alreadyApplied, .nothing rfl, fun f t hown => ?_⟩
      exact apply_of_applied (hown.entry rfl hentry) hmark
  | abandoned measures label requests =>
      refine ⟨.opened { measures, label, lines := Line.accepted requests },
        some ((Line.refusal? requests).getD .abandoned), .opened rfl, fun f t _ => ?_⟩
      rw [Step.renumber_of_named?_eq_none rfl, step_write_eq]
      cases Line.refusal? requests <;> rfl
  | @refused measures label requests e hrefusal abandon =>
      refine ⟨.opened { measures, label, lines := Line.accepted requests }, some e, .opened rfl, fun f t _ => ?_⟩
      rw [Step.renumber_of_named?_eq_none rfl, step_write_eq, hrefusal]
      rfl

/-- Whether a change is all that a step does to the open sections, and it does to the song what it does
whatever the others hold and however they are numbered. -/
structure IsConfined (s : Session) (next : Step) (change : SectionChange) : Prop where
  isBy : change.IsBy next
  step (f : Nat → Nat) (sections : List OpenSection) (hown : s.SameOwn next f sections) :
    ({ s with sections } : Session).step (next.renumber f) =
      (s.step next).map fun t => { t with sections := (change.renumber f).on sections }

theorem Idle.exists_isConfined (hidle : s.Idle next) : ∃ change, s.IsConfined next change := by
  obtain ⟨change, error, hby, hstep⟩ := hidle.exists_change
  have hself := hstep id s fun _ _ => ⟨rfl, fun _ => rfl⟩
  rw [Step.renumber_id] at hself
  refine ⟨change, hby, fun f sections hown => ?_⟩
  rw [hstep f _ hown, hself]
  rfl

theorem exists_isConfined_of_isPlain (s : Session) (hplain : next.isPlain = true) :
    ∃ change, s.IsConfined next change := by
  refine ⟨.nothing, .nothing (Step.opened?_of_isPlain hplain), fun f sections _ => ?_⟩
  obtain ⟨change, tell, hstep⟩ := exists_of_isPlain hplain
  rw [Step.renumber_of_named?_eq_none (Step.named?_of_isPlain hplain), hstep, hstep]
  rfl

theorem exists_isConfined_apply (s : Session) (number : Nat) : ∃ change, s.IsConfined (.apply number) change := by
  cases hentry : s.sections[number]? with
  | none =>
      refine ⟨.nothing, .nothing rfl, fun f sections hown => ?_⟩
      obtain ⟨hfixed, hunknown⟩ := hown.unknown rfl hentry
      change ({ s with sections } : Session).apply (f number) = (s.apply number).map _
      rw [apply_of_unknown hentry, apply_of_unknown hunknown, hfixed]
      rfl
  | some entry =>
      cases happlied : entry.applied with
      | true => exact (Idle.applied (by rw [isApplied, hentry, Option.any_some, happlied])).exists_isConfined
      | false =>
          refine ⟨.revised number { entry with
            applied := (s.song.applySection entry.measures entry.lines entry.label).error.isNone }, .revised rfl,
            fun f sections hown => ?_⟩
          change ({ s with sections } : Session).apply (f number) = (s.apply number).map _
          rw [apply_eq_of_open hentry happlied, apply_eq_of_open (hown.entry rfl hentry) happlied]
          rfl

theorem exists_isConfined_write (s : Session) (measures : Int) (label : Option String)
    (requests : List LineRequest) (abandon : Bool) :
    ∃ change, s.IsConfined (.write measures label requests abandon) change := by
  cases hrefusal : Line.refusal? requests with
  | some e => exact (Idle.refused measures label hrefusal abandon).exists_isConfined
  | none =>
      cases abandon with
      | true => exact (Idle.abandoned measures label requests).exists_isConfined
      | false =>
          refine ⟨.opened
            { measures
              label
              lines := Line.accepted requests
              applied := (s.song.applySection measures (Line.accepted requests) label).error.isNone },
            .opened rfl, fun f sections _ => ?_⟩
          rw [Step.renumber_of_named?_eq_none rfl, step_write_eq, step_write_eq, hrefusal]
          simp only [Bool.false_eq_true, if_false]
          rw [apply_pushSection _ rfl, apply_pushSection _ rfl]
          rfl

theorem exists_isConfined (s : Session) (next : Step) : ∃ change, s.IsConfined next change := by
  cases next with
  | openSection measures label => exact (Idle.opening rfl).exists_isConfined
  | openMeasure number => exact (Idle.opening rfl).exists_isConfined
  | openMeasures first last => exact (Idle.opening rfl).exists_isConfined
  | addLine number request => exact (Idle.addLine number request).exists_isConfined
  | apply number => exact s.exists_isConfined_apply number
  | write measures label requests abandon => exact s.exists_isConfined_write measures label requests abandon
  | _ => exact s.exists_isConfined_of_isPlain rfl

theorem IsConfined.sections_eq {change : SectionChange} (hconfined : s.IsConfined next change) :
    (s.step next).state.sections = change.on s.sections := by
  have hstep := hconfined.step id s.sections fun _ _ => ⟨rfl, fun _ => rfl⟩
  rw [Step.renumber_id, SectionChange.renumber_id] at hstep
  exact congrArg (fun a : Attempt Session => a.state.sections) hstep

/-- Whether neither of two steps names the open section that the other one is for. Two steps that open a
section are for different ones. -/
structure Apart (s : Session) (first second : Step) : Prop where
  left : ∀ number, first.named? = some number → s.section? second ≠ some number
  right : ∀ number, second.named? = some number → s.section? first ≠ some number

/-- No step is for the same open section as one that is for none. -/
theorem apart_of_isPlain {first : Step} (hplain : first.isPlain = true) (second : Step) :
    s.Apart first second := by
  have hnamed := Step.named?_of_isPlain hplain
  have hsection : s.section? first = none := by
    rw [section?, hnamed, Step.opened?_of_isPlain hplain]
    rfl
  refine ⟨fun number h => ?_, fun number _ => ?_⟩
  · rw [hnamed] at h
    cases h
  · rw [hsection]
    exact (Option.some_ne_none number).symm

theorem getElem?_on {change : SectionChange} (hby : change.IsBy next) {number : Nat}
    (hother : s.section? next ≠ some number) : (change.on s.sections)[number]? = s.sections[number]? := by
  cases hby with
  | nothing hopened => rfl
  | @opened entry hopened =>
      have hnumber : number ≠ s.sections.length := by
        rintro rfl
        exact hother (section?_of_opened s hopened)
      exact (getElem?_concat _ _ _).trans (if_neg hnumber)
  | @revised own entry hnamed =>
      have hnumber : own ≠ number := by
        rintro rfl
        exact hother (section?_of_named s hnamed)
      exact List.getElem?_set_ne hnumber

/-- Whether two lists hold the same sections under other numbers. -/
structure SameSections (σ : Equiv.Perm Nat) (left right : List OpenSection) : Prop where
  length : right.length = left.length
  getElem? : ∀ number, right[σ number]? = left[number]?
  fixes : ∀ number, left.length ≤ number → σ number = number

theorem SameSections.lt_iff {σ : Equiv.Perm Nat} {left right : List OpenSection}
    (hsame : SameSections σ left right) (number : Nat) : σ number < right.length ↔ number < left.length := by
  rw [← not_le, ← not_le, ← List.getElem?_eq_none_iff, ← List.getElem?_eq_none_iff, hsame.getElem?]

theorem SameSections.on {σ : Equiv.Perm Nat} {left right : List OpenSection}
    (hsame : SameSections σ left right) (change : SectionChange) :
    SameSections σ (change.on left) ((change.renumber σ).on right) := by
  cases change with
  | nothing => exact hsame
  | opened entry =>
      have hlength : (right ++ [entry]).length = (left ++ [entry]).length := by simp [hsame.length]
      -- the new section comes last in both lists, so its number has to stay what it is
      have hlast : ∀ number, σ number = right.length ↔ number = left.length := by
        intro number
        rw [hsame.length, ← hsame.fixes left.length le_rfl, σ.apply_eq_iff_eq, hsame.fixes left.length le_rfl]
      refine ⟨hlength, fun number => ?_, fun number hge => hsame.fixes number ?_⟩
      · change (right ++ [entry])[σ number]? = (left ++ [entry])[number]?
        rw [getElem?_concat, getElem?_concat, hsame.getElem?]
        simp only [hlast]
      · exact le_trans (by simp [SectionChange.on]) hge
  | revised own entry =>
      have hlength : (right.set (σ own) entry).length = (left.set own entry).length := by simp [hsame.length]
      refine ⟨hlength, fun number => ?_, fun number hge => hsame.fixes number ?_⟩
      · change (right.set (σ own) entry)[σ number]? = (left.set own entry)[number]?
        rw [List.getElem?_set, List.getElem?_set, hsame.getElem?]
        simp only [EmbeddingLike.apply_eq_iff_eq, hsame.lt_iff]
      · simpa [SectionChange.on] using hge

/-- Whether two sessions are the same but for the numbers of their open sections. -/
structure Renumbered (σ : Equiv.Perm Nat) (s t : Session) : Prop where
  eq : t = { s with sections := t.sections }
  sections : SameSections σ s.sections t.sections

theorem Renumbered.song {σ : Equiv.Perm Nat} {t : Session} (hsame : Renumbered σ s t) : t.song = s.song := by
  rw [hsame.eq]

theorem Renumbered.step {σ : Equiv.Perm Nat} {t : Session} (hsame : Renumbered σ s t) (next : Step) :
    Renumbered σ (s.step next).state (t.step (next.renumber σ)).state ∧
      (t.step (next.renumber σ)).error = (s.step next).error := by
  obtain ⟨change, hconfined⟩ := s.exists_isConfined next
  have hown : s.SameOwn next σ t.sections := fun number _ =>
    ⟨hsame.sections.getElem? number, fun hnone => hsame.sections.fixes number (List.getElem?_eq_none_iff.mp hnone)⟩
  have hstep := hconfined.step σ t.sections hown
  rw [← hsame.eq] at hstep
  rw [hstep]
  refine ⟨⟨rfl, ?_⟩, rfl⟩
  rw [hconfined.sections_eq]
  exact hsame.sections.on change

def outcomes : Session → List Step → List (Option Error)
  | _, [] => []
  | s, next :: rest => (s.step next).error :: outcomes (s.step next).state rest

theorem Renumbered.run {σ : Equiv.Perm Nat} {t : Session} (hsame : Renumbered σ s t) (steps : List Step) :
    Renumbered σ (s.run steps) (t.run (steps.map (Step.renumber σ))) ∧
      t.outcomes (steps.map (Step.renumber σ)) = s.outcomes steps := by
  induction steps generalizing s t with
  | nil => exact ⟨hsame, rfl⟩
  | cons next rest ih =>
      obtain ⟨hnext, herror⟩ := hsame.step next
      obtain ⟨hrest, houtcomes⟩ := ih hnext
      refine ⟨hrest, ?_⟩
      rw [List.map_cons, outcomes, outcomes, herror, houtcomes]

/-- The numbers of the open sections when two steps are done in the other order. -/
def exchange (s : Session) (first second : Step) : Equiv.Perm Nat :=
  if first.opened?.isSome ∧ second.opened?.isSome then
    Equiv.swap s.sections.length (s.sections.length + 1)
  else Equiv.refl Nat

theorem set_concat_of_ne {sections : List OpenSection} {number : Nat} (hother : number ≠ sections.length)
    (entry added : OpenSection) :
    (sections ++ [added]).set number entry = sections.set number entry ++ [added] := by
  rw [List.set_append]
  split
  · rfl
  · have hpast : [added].length ≤ number - sections.length := by
      rw [List.length_singleton]
      omega
    rw [List.set_eq_of_length_le hpast, List.set_eq_of_length_le (by omega)]

/-- Two changes to different sections can be made in either order, unless both add a section. -/
theorem on_comm {first second : Step} {change other : SectionChange} (hapart : s.Apart first second)
    (hfirst : change.IsBy first) (hsecond : other.IsBy second)
    (hone : ¬(first.opened?.isSome ∧ second.opened?.isSome)) :
    change.on (other.on s.sections) = other.on (change.on s.sections) := by
  cases hfirst with
  | nothing _ => rfl
  | opened hopened =>
      cases hsecond with
      | nothing _ => rfl
      | opened hother => exact absurd ⟨hopened, hother⟩ hone
      | @revised number entry hnamed =>
          have hnumber : number ≠ s.sections.length := by
            rintro rfl
            exact hapart.right _ hnamed (section?_of_opened s hopened)
          exact (set_concat_of_ne hnumber _ _).symm
  | @revised number entry hnamed =>
      cases hsecond with
      | nothing _ => rfl
      | opened hopened =>
          have hnumber : number ≠ s.sections.length := by
            rintro rfl
            exact hapart.left _ hnamed (section?_of_opened s hopened)
          exact set_concat_of_ne hnumber _ _
      | @revised other entry hother =>
          have hnumber : other ≠ number := by
            rintro rfl
            exact hapart.left _ hnamed (section?_of_named s hother)
          exact List.set_comm _ _ hnumber

theorem sameSections_refl (sections : List OpenSection) : SameSections (Equiv.refl Nat) sections sections :=
  ⟨rfl, fun _ => rfl, fun _ _ => rfl⟩

theorem sameSections_swap (sections : List OpenSection) (entry other : OpenSection) :
    SameSections (Equiv.swap sections.length (sections.length + 1)) (sections ++ [entry] ++ [other])
      (sections ++ [other] ++ [entry]) := by
  refine ⟨by simp, fun number => ?_, fun number hge => ?_⟩
  · simp only [getElem?_concat, List.length_append, List.length_singleton]
    rcases eq_or_ne number sections.length with rfl | hfirst
    · rw [Equiv.swap_apply_left]
      simp
    · rcases eq_or_ne number (sections.length + 1) with rfl | hsecond
      · rw [Equiv.swap_apply_right]
        simp
      · rw [Equiv.swap_apply_of_ne_of_ne hfirst hsecond]
        simp [hfirst, hsecond]
  · rw [List.length_append, List.length_append, List.length_singleton, List.length_singleton] at hge
    exact Equiv.swap_apply_of_ne_of_ne (by omega) (by omega)

theorem sameSections_exchange {first second : Step} {change other : SectionChange} (hapart : s.Apart first second)
    (hfirst : change.IsBy first) (hsecond : other.IsBy second) :
    SameSections (s.exchange first second) (other.on (change.on s.sections)) (change.on (other.on s.sections)) := by
  by_cases hboth : first.opened?.isSome ∧ second.opened?.isSome
  · obtain ⟨entry, rfl⟩ := hfirst.exists_opened hboth.1
    obtain ⟨added, rfl⟩ := hsecond.exists_opened hboth.2
    rw [exchange, if_pos hboth]
    exact sameSections_swap s.sections entry added
  · rw [exchange, if_neg hboth, on_comm hapart hfirst hsecond hboth]
    exact sameSections_refl _

theorem Idle.of_isApplied {t : Session} (hidle : s.Idle next)
    (hsame : ∀ number, next.named? = some number → t.isApplied number = s.isApplied number) : t.Idle next := by
  cases hidle with
  | opening hopening => exact .opening hopening
  | addLine number request => exact .addLine number request
  | applied happlied => exact .applied ((hsame _ rfl).trans happlied)
  | abandoned measures label requests => exact .abandoned measures label requests
  | refused measures label hrefusal abandon => exact .refused measures label hrefusal abandon

/-- A step leaves the sections alone that it is not for. -/
theorem getElem?_step {number : Nat} (hother : s.section? next ≠ some number) :
    (s.step next).state.sections[number]? = s.sections[number]? := by
  obtain ⟨change, hconfined⟩ := s.exists_isConfined next
  rw [hconfined.sections_eq, getElem?_on hconfined.isBy hother]

theorem idle_step_iff {first second : Step} (hapart : s.Apart first second) :
    (s.step first).state.Idle second ↔ s.Idle second := by
  have hsame : ∀ number, second.named? = some number →
      (s.step first).state.isApplied number = s.isApplied number := by
    intro number hnamed
    rw [isApplied, getElem?_step (hapart.right number hnamed), isApplied]
  exact ⟨fun h => h.of_isApplied fun number hnamed => (hsame number hnamed).symm, fun h => h.of_isApplied hsame⟩

/-- A step that leaves the song alone can be done before another one or after it. -/
theorem Idle.renumbered {first : Step} (hidle : s.Idle next) (hapart : s.Apart first next) :
    Renumbered (s.exchange first next) ((s.step first).state.step next).state ((s.step next).state.step first).state ∧
      ((s.step first).state.step next).error = (s.step next).error ∧
      ((s.step next).state.step first).error = (s.step first).error := by
  obtain ⟨change, error, hby, hnext⟩ := hidle.exists_change
  obtain ⟨other, hconfined⟩ := s.exists_isConfined first
  have halone := hnext id s fun _ _ => ⟨rfl, fun _ => rfl⟩
  have hafter := hnext id (s.step first).state fun number hnamed =>
    ⟨getElem?_step (hapart.right number hnamed), fun _ => rfl⟩
  have hbefore := hconfined.step id (change.on s.sections) fun number hnamed =>
    ⟨getElem?_on hby (hapart.left number hnamed), fun _ => rfl⟩
  rw [Step.renumber_id, SectionChange.renumber_id] at halone hafter hbefore
  rw [hafter, halone, hbefore]
  -- the song is what the one step makes of it in either order, and the sections take both changes
  refine ⟨⟨rfl, ?_⟩, rfl, rfl⟩
  change SameSections _ (change.on (s.step first).state.sections) (other.on (change.on s.sections))
  rw [hconfined.sections_eq]
  exact sameSections_exchange hapart hconfined.isBy hby

/-- Whether two steps can trade places. Whatever steps follow, the song comes out the same, and each step
ends as it did. -/
def Exchanges (s : Session) (first second : Step) : Prop :=
  ∀ rest : List Step,
    let renumbered := rest.map (Step.renumber (s.exchange first second))
    (s.run (second :: first :: renumbered)).song = (s.run (first :: second :: rest)).song ∧
      ∃ one two ends, s.outcomes (first :: second :: rest) = one :: two :: ends ∧
        s.outcomes (second :: first :: renumbered) = two :: one :: ends

theorem Idle.exchanges {first : Step} (hidle : s.Idle next) (hapart : s.Apart first next) :
    s.Exchanges first next := by
  intro rest
  obtain ⟨hsame, herror, hother⟩ := hidle.renumbered hapart
  obtain ⟨hrest, houtcomes⟩ := hsame.run rest
  refine ⟨hrest.song, (s.step first).error, (s.step next).error,
    outcomes ((s.step first).state.step next).state rest, ?_, ?_⟩
  · rw [outcomes, outcomes, herror]
  · rw [outcomes, outcomes, hother, houtcomes]

/-- Whether steps come from others by trades, in which a step that leaves the song alone is moved across one
that is not for its section. -/
inductive Rearranged : Session → List Step → List Step → Prop where
  | refl (s : Session) (steps : List Step) : Rearranged s steps steps
  | symm {s : Session} {steps others : List Step} (h : Rearranged s steps others) : Rearranged s others steps
  | trans {s : Session} {steps others last : List Step} (hfirst : Rearranged s steps others)
      (hsecond : Rearranged s others last) : Rearranged s steps last
  | cons {s : Session} {next : Step} {steps others : List Step} (h : Rearranged (s.step next).state steps others) :
      Rearranged s (next :: steps) (next :: others)
  | trade {s : Session} {first second : Step} (hapart : s.Apart first second) (hidle : s.Idle second)
      (rest : List Step) :
      Rearranged s (first :: second :: rest) (second :: first :: rest.map (Step.renumber (s.exchange first second)))

theorem Rearranged.run {steps others : List Step} (h : Rearranged s steps others) :
    (s.run others).song = (s.run steps).song ∧ (s.outcomes others).Perm (s.outcomes steps) := by
  induction h with
  | refl s steps => exact ⟨rfl, .refl _⟩
  | symm _ ih => exact ⟨ih.1.symm, ih.2.symm⟩
  | trans _ _ hfirst hsecond => exact ⟨hsecond.1.trans hfirst.1, hsecond.2.trans hfirst.2⟩
  | cons _ ih => exact ⟨ih.1, ih.2.cons _⟩
  | trade hapart hidle rest =>
      obtain ⟨hsong, one, two, ends, hends, hother⟩ := hidle.exchanges hapart rest
      rw [hends, hother]
      exact ⟨hsong, .swap one two ends⟩

theorem Idle.song_eq (hidle : s.Idle next) : (s.step next).state.song = s.song := by
  obtain ⟨change, error, -, hnext⟩ := hidle.exists_change
  have halone := hnext id s fun _ _ => ⟨rfl, fun _ => rfl⟩
  rw [Step.renumber_id] at halone
  rw [halone]

/-- After any steps, on whatever song they have been begun, the song and which sections have been applied are
told by what matters about the steps, and what the sections hold is told by the steps themselves. Steps that
leave the song alone can trade places with declarations and with steps for other sections, one time or often.
An application does what appending the section does, under whatever is in force by then. -/
theorem run_detached (song : Song) (steps : List Step) :
    let s := run { song } steps
    ((Act.ofSteps [] steps).foldl Performance.perform { song }).Tells s ∧
      s.drafts = Draft.ofSteps steps ∧
      (∀ next, s.Idle next → (s.step next).state.song = s.song) ∧
      (∀ number draft, s.drafts[number]? = some draft → s.isApplied number = false →
        (s.step (.apply number)).state.song =
            (s.song.applySection draft.measures draft.lines draft.label).state ∧
          (s.step (.apply number)).error =
            (s.song.applySection draft.measures draft.lines draft.label).error) ∧
      (∀ measures label requests lines, requests.mapM Line.make? = .ok lines →
        (s.step (.write measures label requests false)).state.song =
            (s.song.applySection measures lines label).state ∧
          (s.step (.write measures label requests false)).error =
            (s.song.applySection measures lines label).error) ∧
      (∀ first second, first.isPlain = true ∨ s.Apart first second →
        ((s.step first).state.Idle second ↔ s.Idle second) ∧ (s.Idle second → s.Exchanges first second)) ∧
      ∀ others, Rearranged { song } steps others →
        (run { song } others).song = s.song ∧ (outcomes { song } others).Perm (outcomes { song } steps) := by
  intro s
  have hstart : Performance.Tells { song } ({ song } : Session) := ⟨rfl, fun number => by simp [isApplied]⟩
  refine ⟨hstart.run steps, run_drafts _ steps, fun next hidle => hidle.song_eq, ?_, ?_, ?_,
    fun others hrearranged => hrearranged.run⟩
  · intro number draft hdraft hopen
    rw [drafts_getElem?] at hdraft
    obtain ⟨entry, hentry, rfl⟩ := Option.map_eq_some_iff.mp hdraft
    rw [isApplied, hentry] at hopen
    exact apply_of_open hentry hopen
  · intro measures label requests lines hlines
    exact s.step_write_of_accepted measures label hlines
  · intro first second hother
    have hapart : s.Apart first second := hother.elim (fun hplain => apart_of_isPlain hplain second) id
    exact ⟨idle_step_iff hapart, fun hidle => hidle.exchanges hapart⟩

/-- A section that is opened earlier gets the number of the one that was opened before it, and is applied all
the same. -/
theorem run_detached_violin :
    let line : LineRequest := { symbol := "vi", notes := "1:c" }
    let steps : List Step := [.instrument "vi" "Violin", .openSection 1 none, .addLine 0 line]
    let s := run {} steps
    s.Idle (.openMeasure 7) ∧ s.Apart (.openSection 2 none) (.openMeasure 7) ∧ s.isApplied 0 = false ∧
      (∃ draft, s.drafts[0]? = some draft ∧ (s.step (.apply 0)).error =
        (s.song.applySection draft.measures draft.lines draft.label).error) ∧
      (s.run [.openMeasure 7, .openSection 2 none, .addLine 1 line, .apply 1, .apply 0]).song =
        (s.run [.openSection 2 none, .openMeasure 7, .addLine 2 line, .apply 2, .apply 0]).song := by
  intro line steps s
  obtain ⟨-, -, -, happly, -, hmove, -⟩ := run_detached {} steps
  have hidle : s.Idle (.openMeasure 7) := .opening rfl
  have hapart : s.Apart (.openSection 2 none) (.openMeasure 7) := ⟨fun _ h => (by cases h), fun _ h => (by cases h)⟩
  have hsections : s.sections = [{ measures := 1, label := none, lines := [⟨line, fun n hn => nomatch hn⟩] }] := by
    have hrun : s = run { song := { instruments := [⟨"vi", "Violin", ⟨40, by decide⟩⟩] } }
        [.openSection 1 none, .addLine 0 line] := run_violin _
    rw [hrun]
    rfl
  have hopen : s.isApplied 0 = false := by rw [isApplied, hsections]; rfl
  have hlength : s.sections.length = 1 := by rw [hsections]; rfl
  have hexchange : s.exchange (.openSection 2 none) (.openMeasure 7) = Equiv.swap 1 2 := by
    rw [exchange, hlength, if_pos (by decide)]
  have hrest : [Step.addLine 2 line, .apply 2, .apply 0].map (Step.renumber (Equiv.swap 1 2)) =
      [.addLine 1 line, .apply 1, .apply 0] := rfl
  have hmoved := ((hmove _ _ (Or.inr hapart)).2 hidle [.addLine 2 line, .apply 2, .apply 0]).1
  rw [hexchange, hrest] at hmoved
  have hdraft : s.drafts[0]? = some ⟨1, none, [⟨line, fun n hn => nomatch hn⟩]⟩ := by rw [drafts, hsections]; rfl
  exact ⟨hidle, hapart, hopen, ⟨_, hdraft, (happly 0 _ hdraft hopen).2⟩, hmoved⟩

end Session

end LineScore
