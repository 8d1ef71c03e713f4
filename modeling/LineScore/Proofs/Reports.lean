import LineScore.Proofs.Flaws
import LineScore.Proofs.Halves

/-! How runs end. A run goes through its stages until one fails. Most errors are told in a line of their own,
some are not, since nobody at that stage waits for them: bytes that are no text, documents that are nested too
deep, numbers that are too long, lengths and ticks that no double holds, what does not fit its bytes, and
halves of surrogate pairs where the song is printed. -/

namespace LineScore

section Results

variable {α β : Type} {P Q : Error → Prop}

/-- Whether a computation fails with errors of one sort only. -/
def FailsOnlyWith (P : Error → Prop) (x : Except Error α) : Prop :=
  ∀ e, x = .error e → P e

namespace FailsOnlyWith

theorem ok (a : α) : FailsOnlyWith P (.ok a) :=
  fun _ he => nomatch he

theorem error {e : Error} (h : P e) : FailsOnlyWith P (.error e : Except Error α) := by
  intro other he
  cases he
  exact h

/-- What fails in either of two steps fails in one of them. -/
theorem bind {x : Except Error α} {f : α → Except Error β} (hx : FailsOnlyWith P x)
    (hf : ∀ a, FailsOnlyWith P (f a)) : FailsOnlyWith P (x >>= f) := by
  intro e he
  cases x with
  | error other =>
      cases he
      exact hx e rfl
  | ok a => exact hf a e he

theorem map {x : Except Error α} (h : FailsOnlyWith P x) (f : α → β) : FailsOnlyWith P (x.map f) := by
  cases x with
  | error e => exact .error (h e rfl)
  | ok a => exact .ok (f a)

theorem mapError {ε : Type} {x : Except ε α} {f : ε → Error} (h : ∀ cause, P (f cause)) :
    FailsOnlyWith P (x.mapError f) := by
  cases x with
  | error cause => exact .error (h cause)
  | ok a => exact .ok a

theorem mapM {xs : List α} {f : α → Except Error β} (h : ∀ x ∈ xs, FailsOnlyWith P (f x)) :
    FailsOnlyWith P (xs.mapM f) := by
  induction xs with
  | nil => exact .ok []
  | cons x rest ih =>
      obtain ⟨hfirst, hrest⟩ := List.forall_mem_cons.mp h
      rw [List.mapM_cons]
      exact hfirst.bind fun _ => (ih hrest).bind fun _ => .ok _

end FailsOnlyWith

end Results

namespace SongFile

end SongFile

namespace Midi

end Midi

namespace Command

inductive Stage where
  /-- Looking for the song file. -/
  | asking
  | loading
  /-- Summing up the song. -/
  | summing
  | rendering
  /-- Opening the target. -/
  | opening
  /-- Putting the tracks into bytes. -/
  | packing
  /-- Printing timelines. -/
  | printing
  deriving DecidableEq, Repr

def rowsOf (s : Song) : List (Except Error String) :=
  ((s.timelines {}).mapIdx timelineRows).flatten

namespace Outcome

/-- Whether a run has failed without an error line. -/
structure Crashes (o : Outcome) (e : Error) : Prop where
  exitCode : o.exitCode = 1
  exception : o.exception = some e

variable {o : Outcome} {e : Error}

@[simp] theorem exception_log (o : Outcome) (verbose : Bool) (notices : List Notice) :
    (o.log verbose notices).exception = o.exception := by
  cases verbose <;> rfl

theorem crashes_crash (o : Outcome) (e : Error) : (o.crash e).Crashes e :=
  ⟨rfl, rfl⟩

end Outcome

section Rows

variable {e : Error}

theorem printRows_of_error {rows : List (Except Error String)} (h : rows.mapM id = .error e) (o : Outcome) :
    (printRows o rows).Crashes e := by
  induction rows generalizing o with
  | nil => cases h
  | cons row rest ih =>
      cases row with
      | error other =>
          cases h
          exact o.crashes_crash e
      | ok text =>
          refine ih ?_ (o.print text)
          cases hrest : rest.mapM id with
          | error other =>
              simp only [List.mapM_cons, id, hrest] at h
              cases h
              rfl
          | ok texts =>
              simp only [List.mapM_cons, id, hrest] at h
              cases h

end Rows

section Stages

variable {depth : Nat} {view : FileView} {arguments : List String} {r : Request} {s : Song} {line : String}
  {e : Error}

theorem run_of_summary_error (hasked : read view arguments = .run r) (hverb : r.verb = .compile)
    (hload : (SongFile.load depth view r.song).result = .ok s) (hsum : summary s = .error e) :
    (run depth view arguments).Crashes e := by
  obtain ⟨verbose, verb, song, output⟩ := r
  obtain rfl : verb = .compile := hverb
  rw [run, hasked]
  dsimp only [runCompile]
  rw [hload]
  dsimp only
  rw [hsum]
  exact Outcome.crashes_crash _ e

theorem run_of_timeline (hasked : read view arguments = .run r) (hverb : r.verb = .timeline)
    (hload : (SongFile.load depth view r.song).result = .ok s) :
    ∃ o : Outcome,
      o.exitCode = 0 ∧ o.exception = none ∧ run depth view arguments = printRows o (rowsOf s) := by
  obtain ⟨verbose, verb, song, output⟩ := r
  obtain rfl : verb = .timeline := hverb
  refine ⟨?before, ?code, ?none, ?printed⟩
  case printed =>
    rw [run, hasked]
    dsimp only [runTimeline]
    rw [hload]
    rfl
  case code => rw [Outcome.exitCode_log]
  case none => rw [Outcome.exception_log]

/-- Half of a surrogate pair in what a command prints of its song ends the run without a report. -/
theorem run_of_half (hasked : read view arguments = .run r)
    (hload : (SongFile.load depth view r.song).result = .ok s)
    (hhalf : r.verb = .compile ∧ ¬ (s.title.IsWhole ∧ s.author.IsWhole) ∨
      r.verb = .timeline ∧ ∃ v ∈ s.voices, ¬ v.instrument.name.IsWhole) :
    ∃ e, (run depth view arguments).Crashes e := by
  rcases hhalf with ⟨hverb, hhalf⟩ | ⟨hverb, v, hv, hhalf⟩
  · cases hsum : summary s with
    | ok line => exact absurd ((summary_succeeds_iff s).mp ⟨line, hsum⟩).2 hhalf
    | error e => exact ⟨e, run_of_summary_error hasked hverb hload hsum⟩
  · cases hrows : (rowsOf s).mapM id with
    | ok texts =>
        obtain ⟨channel, hv⟩ := List.mem_iff_getElem?.mp hv
        have hrow : voiceRow channel (Timeline.ofVoice {} v) ∈ rowsOf s := by
          refine List.mem_flatten.mpr ⟨timelineRows channel (Timeline.ofVoice {} v), ?_, List.mem_cons_self⟩
          exact List.mem_iff_getElem?.mpr ⟨channel, by simp [Song.timelines, hv]⟩
        exact absurd ((voiceRow_succeeds_iff channel _).mp (exists_of_mem_mapM hrows _ hrow)) hhalf
    | error e =>
        obtain ⟨o, -, -, hrun⟩ := run_of_timeline hasked hverb hload
        rw [hrun]
        exact ⟨e, printRows_of_error hrows o⟩

theorem eager?_ne_unanswered (verb : Option Verb) (options : List (String × String)) :
    eager? verb options ≠ some (.unanswered e) := by
  intro h
  obtain ⟨o, -, ho⟩ := List.exists_of_findSome?_eq_some h
  split at ho
  · cases ho
  · split at ho <;> cases ho

theorem unanswered_of_eager?_getD {verb : Option Verb} {options : List (String × String)} {other : Invocation}
    (h : (eager? verb options).getD other = .unanswered e) : other = .unanswered e := by
  cases heager : eager? verb options with
  | none =>
      rw [heager] at h
      exact h
  | some answer =>
      rw [heager, Option.getD_some] at h
      exact absurd (heager.trans (congrArg some h)) (eager?_ne_unanswered verb options)

theorem requestOf_error {verbose : Bool} {verb : Verb} {scanned : Scanned}
    (h : requestOf view verbose verb scanned = .unanswered e) : e = .nullInPath := by
  unfold requestOf at h
  split at h
  · cases h
  · split at h
    · cases h
      rfl
    · split at h
      · cases h
      · split at h <;> cases h
      · cases h

theorem readVerb_error {verbose : Bool} {verb : Verb} {rest : List String}
    (h : readVerb view verbose verb rest = .unanswered e) : e = .nullInPath := by
  unfold readVerb at h
  split at h
  · cases h
  · exact requestOf_error (unanswered_of_eager?_getD h)

theorem readUnknown_ne_unanswered (name : String) (rest : List String) :
    readUnknown name rest ≠ .unanswered e := by
  intro h
  unfold readUnknown at h
  dsimp only at h
  split at h
  · cases h
  · split at h
    · cases h
    · split at h
      · cases h
      · cases unanswered_of_eager?_getD h

/-- It can be asked whether the song file is there unless its name has a null character. -/
theorem read_error (hasked : read view arguments = .unanswered e) : e = .nullInPath := by
  unfold read at hasked
  split at hasked
  · cases hasked
  · split at hasked
    · cases hasked
    · split at hasked
      · next answer heager => exact absurd (heager.trans (congrArg some hasked)) (eager?_ne_unanswered _ _)
      · split at hasked
        · cases hasked
        · split at hasked
          · exact readVerb_error hasked
          · exact absurd hasked (readUnknown_ne_unanswered _ _)

end Stages

end Command

end LineScore
