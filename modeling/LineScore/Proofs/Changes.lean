import LineScore.Proofs.ChangePoints
import LineScore.Proofs.Edits
import Mathlib.Data.List.Induction

/-! Where the meter and the key of a song change. The change lists, which a song keeps up section by
section, are the change points of its history; and the rests of a late voice are the runs of one meter
between these points. -/

namespace LineScore

/-- The runs of one meter in a history: the measures of the entries of each run, and its meter. -/
structure AreRuns (history : List (Int × Meter)) (runs : List (List Int × Meter)) : Prop where
  history_eq : history = runs.flatMap fun run => run.1.map fun measures => (measures, run.2)
  nonempty : ∀ run ∈ runs, run.1 ≠ []
  differs : (runs.map Prod.snd).IsChain (· ≠ ·)

namespace AreRuns

variable {history : List (Int × Meter)} {runs : List (List Int × Meter)} {entries : List Int}
  {measures : Int} {meter : Meter}

/-- An entry of the last run's meter makes that run longer. -/
theorem lengthen (h : AreRuns history (runs ++ [(entries, meter)])) :
    AreRuns (history ++ [(measures, meter)]) (runs ++ [(entries ++ [measures], meter)]) where
  history_eq := by
    rw [h.history_eq]
    simp only [List.flatMap_append, List.flatMap_singleton, List.map_append, List.map_singleton,
      List.append_assoc]
  nonempty run hrun := by
    rcases List.mem_append.mp hrun with hold | hlast
    · exact h.nonempty run (List.mem_append_left _ hold)
    · rw [List.mem_singleton.mp hlast]
      simp
  differs := by
    have hdiffers := h.differs
    rw [List.map_append, List.map_singleton] at hdiffers ⊢
    exact hdiffers

/-- An entry of another meter starts a run of its own. -/
theorem start (h : AreRuns history runs) (hother : (runs.map Prod.snd).getLast? ≠ some meter) :
    AreRuns (history ++ [(measures, meter)]) (runs ++ [([measures], meter)]) where
  history_eq := by
    rw [h.history_eq]
    simp only [List.flatMap_append, List.flatMap_singleton, List.map_singleton]
  nonempty run hrun := by
    rcases List.mem_append.mp hrun with hold | hlast
    · exact h.nonempty run hold
    · rw [List.mem_singleton.mp hlast]
      simp
  differs := by
    rw [List.map_append, List.map_singleton]
    refine h.differs.append (List.isChain_singleton _) ?_
    intro x hx y hy heq
    rw [List.head?_singleton, Option.mem_some_iff] at hy
    subst hy heq
    exact hother hx

end AreRuns

namespace Song

/-- The length of each section of a song. -/
def sectionLengths (s : Song) : List Rat :=
  s.history.map fun entry => entry.2.spanLength entry.1

theorem exists_concat_of_getLast? {β : Type} {xs : List (β × Meter)} {meter : Meter}
    (hlast : (xs.map Prod.snd).getLast? = some meter) : ∃ ys y, xs = ys ++ [(y, meter)] := by
  rw [List.getLast?_map, Option.map_eq_some_iff] at hlast
  obtain ⟨⟨y, _⟩, hlast, rfl⟩ := hlast
  obtain ⟨ys, rfl⟩ := List.getLast?_eq_some_iff.mp hlast
  exact ⟨ys, y, rfl⟩

theorem joinRests_concat (history : List (Int × Meter)) (entry : Int × Meter) :
    joinRests (history ++ [entry]) =
      match (joinRests history).getLast? with
      | some (measures, meter) =>
          if meter = entry.2 then (joinRests history).dropLast ++ [(measures + entry.1, meter)]
          else joinRests history ++ [entry]
      | none => [entry] :=
  List.foldl_concat _ _ _ _

theorem joinRests_lengthen {history rests : List (Int × Meter)} {before : Int} {meter : Meter}
    (hrests : joinRests history = rests ++ [(before, meter)]) (measures : Int) :
    joinRests (history ++ [(measures, meter)]) = rests ++ [(before + measures, meter)] := by
  simp [joinRests_concat, hrests]

theorem joinRests_start {history : List (Int × Meter)} {meter : Meter}
    (hother : ((joinRests history).map Prod.snd).getLast? ≠ some meter) (measures : Int) :
    joinRests (history ++ [(measures, meter)]) = joinRests history ++ [(measures, meter)] := by
  rw [joinRests_concat]
  rw [List.getLast?_map] at hother
  cases hlast : (joinRests history).getLast? with
  | none => simp [List.getLast?_eq_none_iff.mp hlast]
  | some last =>
      rw [hlast, Option.map_some, Option.some_inj.ne] at hother
      simp [hother]

/-- Joining rests leaves their length as it was. -/
theorem sum_joinRests (history : List (Int × Meter)) :
    ((joinRests history).map fun entry => entry.2.spanLength entry.1).sum =
      (history.map fun entry => entry.2.spanLength entry.1).sum := by
  induction history using List.reverseRecOn with
  | nil => rfl
  | append_singleton history entry ih =>
      obtain ⟨measures, meter⟩ := entry
      rw [List.map_append, List.sum_append, ← ih]
      by_cases hlast : ((joinRests history).map Prod.snd).getLast? = some meter
      · obtain ⟨rests, before, hrests⟩ := exists_concat_of_getLast? hlast
        rw [joinRests_lengthen hrests, hrests]
        simp only [List.map_append, List.map_singleton, List.sum_append, List.sum_singleton,
          Meter.spanLength_add, add_assoc]
      · rw [joinRests_start hlast, List.map_append, List.sum_append]

/-- The joined rests are the runs of the history, and the change points have the meters of the runs. -/
theorem exists_runs (history : List (Int × Meter)) (lengths : List Rat)
    (hcount : lengths.length = history.length) :
    ∃ runs, AreRuns history runs ∧ joinRests history = runs.map (fun run => (run.1.sum, run.2)) ∧
      (changePoints (lengths.zip (history.map Prod.snd))).map Prod.snd = runs.map Prod.snd := by
  induction history using List.reverseRecOn generalizing lengths with
  | nil =>
      rw [List.map_nil, List.zip_nil_right]
      exact ⟨[], ⟨rfl, by simp, List.isChain_nil⟩, rfl, rfl⟩
  | append_singleton history entry ih =>
      obtain ⟨measures, meter⟩ := entry
      obtain rfl | ⟨before, length, rfl⟩ := lengths.eq_nil_or_concat
      · simp at hcount
      have hbefore : before.length = history.length := by simpa using hcount
      obtain ⟨runs, hruns, hrests, hpoints⟩ := ih before hbefore
      have hmeters : (joinRests history).map Prod.snd = runs.map Prod.snd := by
        rw [hrests, List.map_map]
        rfl
      rw [List.concat_eq_append, List.map_append, List.map_singleton,
        changePoints_concat (by simpa using hbefore), markChange_eq, List.map_append, ← List.getLast?_map,
        hpoints]
      by_cases hlast : (runs.map Prod.snd).getLast? = some meter
      · obtain ⟨others, entries, rfl⟩ := exists_concat_of_getLast? hlast
        rw [List.map_append, List.map_singleton] at hrests
        refine ⟨others ++ [(entries ++ [measures], meter)], hruns.lengthen, ?_, ?_⟩
        · rw [joinRests_lengthen hrests, List.map_append, List.map_singleton, List.sum_append,
            List.sum_singleton]
        · rw [if_pos hlast]
          simp
      · refine ⟨runs ++ [([measures], meter)], hruns.start hlast, ?_, ?_⟩
        · rw [joinRests_start (hmeters ▸ hlast), hrests, List.map_append, List.map_singleton,
            List.sum_singleton]
        · rw [if_neg hlast]
          simp

/-- Whether a song has recorded its sections, of which `keys` are the keys: its length and its change
lists are those of the history. -/
structure Records (s : Song) (keys : List Key) : Prop where
  keys_length : keys.length = s.history.length
  length_eq : s.length = s.sectionLengths.sum
  meterChanges_eq : s.meterChanges = changePoints (s.sectionLengths.zip (s.history.map Prod.snd))
  keyChanges_eq : s.keyChanges = changePoints (s.sectionLengths.zip keys)
  lengths_pos : ∀ length ∈ s.sectionLengths, 0 < length

namespace Records

variable {s t : Song} {keys : List Key}

theorem of_sameCounts (h : Records s keys) (hsame : SameCounts s t) : Records t keys where
  keys_length := by rw [hsame.history, h.keys_length]
  length_eq := by rw [hsame.length, h.length_eq, sectionLengths, sectionLengths, hsame.history]
  meterChanges_eq := by
    rw [hsame.meterChanges, h.meterChanges_eq, sectionLengths, sectionLengths, hsame.history]
  keyChanges_eq := by rw [hsame.keyChanges, h.keyChanges_eq, sectionLengths, sectionLengths, hsame.history]
  lengths_pos := by
    rw [sectionLengths, hsame.history]
    exact h.lengths_pos

theorem record (h : Records s keys) {measures : Int} (hpos : 0 < measures) :
    Records (s.record measures) (keys ++ [s.key]) := by
  have hlengths : (s.record measures).sectionLengths = s.sectionLengths ++ [s.meter.spanLength measures] := by
    simp only [sectionLengths, Song.record, List.map_append, List.map_singleton]
  have hcount : s.sectionLengths.length = (s.history.map Prod.snd).length := by
    rw [sectionLengths, List.length_map, List.length_map]
  have hcount' : s.sectionLengths.length = keys.length := by
    rw [sectionLengths, List.length_map, h.keys_length]
  refine ⟨?_, ?_, ?_, ?_, ?_⟩
  · rw [Song.record, List.length_append, List.length_append, h.keys_length]
    rfl
  · rw [hlengths, List.sum_append, List.sum_singleton, ← h.length_eq]
    rfl
  · change markChange s.meterChanges s.length s.meter = _
    rw [hlengths, Song.record, List.map_append, List.map_singleton, changePoints_concat hcount,
      ← h.meterChanges_eq, ← h.length_eq]
  · change markChange s.keyChanges s.length s.key = _
    rw [hlengths, changePoints_concat hcount', ← h.keyChanges_eq, ← h.length_eq]
  · rw [hlengths]
    intro length hlength
    rcases List.mem_append.mp hlength with hold | hlast
    · exact h.lengths_pos length hold
    · rw [List.mem_singleton.mp hlast]
      exact s.meter.spanLength_pos hpos

theorem isChangeList (h : Records s keys) {α : Type} [DecidableEq α] (values : List α) :
    IsChangeList (changePoints (s.sectionLengths.zip values)) :=
  isChangeList_changePoints fun _ hspan => h.lengths_pos _ (List.of_mem_zip hspan).1

theorem totalLength_elapsedRests (h : Records s keys) : totalLength s.elapsedRests = s.length := by
  rw [h.length_eq, sectionLengths, ← sum_joinRests, totalLength_eq_sum, elapsedRests, List.map_map]
  rfl

end Records

end Song

namespace Session

/-- The keys in force when steps counted sections, in the order of the sections. -/
def keysInForce : Session → List Step → List Key
  | _, [] => []
  | s, next :: rest =>
      let after := (s.step next).state
      if s.song.history.length < after.song.history.length then s.song.key :: keysInForce after rest
      else keysInForce after rest

theorem run_records (s : Session) (keys : List Key) (h : s.song.Records keys) (steps : List Step) :
    (s.run steps).song.Records (keys ++ keysInForce s steps) := by
  induction steps generalizing s keys with
  | nil =>
      rw [keysInForce, List.append_nil]
      exact h
  | cons next rest ih =>
      rw [run_cons, keysInForce]
      rcases s.step_counts next with hsame | ⟨measures, u, hpos, hvoices, hrecord⟩
      · have hnone : ¬ s.song.history.length < (s.step next).state.song.history.length := by
          rw [hsame.history]
          exact lt_irrefl _
        rw [if_neg hnone]
        exact ih _ _ (h.of_sameCounts hsame)
      · have hcounted : s.song.history.length < (s.step next).state.song.history.length := by
          rw [hrecord, Song.record, List.length_append, hvoices.sameCounts.history]
          exact Nat.lt_succ_self _
        have hnext := (h.of_sameCounts hvoices.sameCounts).record hpos
        obtain ⟨voices, rfl⟩ := hvoices
        rw [← hrecord] at hnext
        rw [if_pos hcounted, List.append_cons]
        exact ih _ _ hnext

theorem records_of_run (steps : List Step) : (run {} steps).song.Records (keysInForce {} steps) :=
  run_records {} [] ⟨rfl, rfl, rfl, rfl, fun _ h => absurd h List.not_mem_nil⟩ steps

/-- After any steps the change lists of the song are the change points of its history, the meters being
those of the history and the keys those in force when each section was counted. The rests of the sections
so far are the runs of one meter between the changes, and as long as the song. -/
theorem run_changes (steps : List Step) :
    let s := (run {} steps).song
    let keys := keysInForce {} steps
    s.meterChanges = changePoints (s.sectionLengths.zip (s.history.map Prod.snd)) ∧
    keys.length = s.history.length ∧
    s.keyChanges = changePoints (s.sectionLengths.zip keys) ∧
    IsChangeList s.meterChanges ∧
    IsChangeList s.keyChanges ∧
    (∃ runs, AreRuns s.history runs ∧ s.meterChanges.map Prod.snd = runs.map Prod.snd ∧
      s.elapsedRests = runs.map fun run => .measureRest run.1.sum run.2) ∧
    totalLength s.elapsedRests = s.length := by
  intro s keys
  have hrecords : s.Records keys :=
    run_records {} [] ⟨rfl, rfl, rfl, rfl, fun _ h => absurd h List.not_mem_nil⟩ steps
  have hcount : s.sectionLengths.length = s.history.length := List.length_map _
  obtain ⟨runs, hruns, hrests, hmeters⟩ := Song.exists_runs s.history s.sectionLengths hcount
  refine ⟨hrecords.meterChanges_eq, hrecords.keys_length, hrecords.keyChanges_eq, ?_, ?_, ?_,
    hrecords.totalLength_elapsedRests⟩
  · rw [hrecords.meterChanges_eq]
    exact hrecords.isChangeList _
  · rw [hrecords.keyChanges_eq]
    exact hrecords.isChangeList _
  · refine ⟨runs, hruns, ?_, ?_⟩
    · rw [hrecords.meterChanges_eq, hmeters]
    · rw [Song.elapsedRests, hrests, List.map_map]
      rfl

end Session

end LineScore
