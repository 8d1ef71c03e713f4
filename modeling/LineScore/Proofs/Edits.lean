import LineScore.Proofs.Section
import LineScore.Song.Step
import Mathlib.Logic.Relation

/-! Writing as a sequence of edits. Whatever step an author takes, and wherever it fails, the song is
changed by declarations, by voices that enter, by parts that voices play and by sections that are counted.
What every edit keeps is therefore kept by every run of steps. -/

namespace LineScore

theorem getElem?_concat {α : Type} (xs : List α) (x : α) (k : Nat) :
    (xs ++ [x])[k]? = if k = xs.length then some x else xs[k]? := by
  rcases lt_trichotomy k xs.length with hlt | rfl | hgt
  · rw [List.getElem?_append_left hlt, if_neg hlt.ne]
  · rw [List.getElem?_concat_length, if_pos rfl]
  · rw [List.getElem?_eq_none (by rw [List.length_append, List.length_singleton]; omega), if_neg hgt.ne',
      List.getElem?_eq_none hgt.le]

theorem getElem?_concat_cases {α : Type} {xs : List α} {x y : α} {k : Nat} (h : (xs ++ [x])[k]? = some y) :
    xs[k]? = some y ∨ (k = xs.length ∧ y = x) := by
  rw [getElem?_concat] at h
  split at h
  · next hlast => exact Or.inr ⟨hlast, (Option.some.inj h).symm⟩
  · exact Or.inl h

namespace Song

/-- The song after every voice has played a part of its own, which may be empty. -/
def play (s : Song) (part : Voice → List Event) : Song :=
  { s with voices := s.voices.map fun v => v.extend (part v) }

theorem extendVoice_eq_play (s : Song) (index : Int) (events : List Event) :
    s.extendVoice index events = s.play fun v => if v.index = index then events else [] := by
  have hvoice : ∀ v : Voice, (if v.index = index then v.extend events else v) =
      v.extend (if v.index = index then events else []) := by
    intro v
    split
    · rfl
    · exact v.extend_nil.symm
  simp only [extendVoice, play, hvoice]

theorem Stage.padded_eq_play (st : Stage) (measures : Int) :
    st.padded measures = st.song.play fun v =>
      if st.active.contains v.index then [] else [.measureRest measures st.song.meter] := by
  have hvoice : ∀ v : Voice,
      (if st.active.contains v.index then v else v.append (.measureRest measures st.song.meter)) =
        v.extend (if st.active.contains v.index then [] else [.measureRest measures st.song.meter]) := by
    intro v
    split
    · exact v.extend_nil.symm
    · exact v.append_eq_extend _
  simp only [padded, play, hvoice]

/-- What declarations make of a song. -/
inductive Declares (s : Song) : Song → Prop where
  | nothing : Declares s s
  | title (title : LooseText) : Declares s { s with title }
  | author (author : LooseText) : Declares s { s with author }
  | key (key : Key) : Declares s { s with key }
  | tempo (tempo : Tempo) : Declares s { s with tempo }
  | meter (meter : Meter) : Declares s { s with meter }
  | instrument (i : Instrument) (hfresh : s.findInstrument? i.symbol = none) :
      Declares s { s with instruments := s.instruments ++ [i] }

/-- Whether two songs have counted the same sections. -/
structure SameCounts (s t : Song) : Prop where
  length : t.length = s.length
  measureCount : t.measureCount = s.measureCount
  history : t.history = s.history
  meterChanges : t.meterChanges = s.meterChanges
  keyChanges : t.keyChanges = s.keyChanges

theorem Declares.sameCounts {s t : Song} (hdeclares : Declares s t) : SameCounts s t := by
  cases hdeclares <;> exact ⟨rfl, rfl, rfl, rfl, rfl⟩

theorem Declares.voices_eq {s t : Song} (hdeclares : Declares s t) : t.voices = s.voices := by
  cases hdeclares <;> rfl

theorem SameButVoices.sameCounts {s t : Song} (hsame : SameButVoices s t) : SameCounts s t := by
  obtain ⟨voices, rfl⟩ := hsame
  exact ⟨rfl, rfl, rfl, rfl, rfl⟩

/-- The smallest changes that writing makes to a song. -/
inductive Edit (s : Song) : Song → Prop where
  | declare {t : Song} (hdeclares : Declares s t) : Edit s t
  /-- A new voice enters, silent for all sections so far. -/
  | enter (i : Instrument) (hdeclared : i ∈ s.instruments) (hroom : s.voices.length < maxVoices) :
      Edit s (s.addVoice i s.elapsedRests)
  | play (part : Voice → List Event) : Edit s (s.play part)
  | record (measures : Int) (hpos : 0 < measures) : Edit s (s.record measures)

abbrev Edits : Song → Song → Prop :=
  Relation.ReflTransGen Edit

theorem Edits.keeps {s t : Song} {P : Song → Prop} (hedits : Edits s t)
    (hkeep : ∀ u v, Edit u v → P u → P v) (hstart : P s) : P t := by
  induction hedits with
  | refl => exact hstart
  | tail _ hedit ih => exact hkeep _ _ hedit ih

theorem voiceFor_edits {s t : Song} {i : Instrument} {active : List Int} {index : Int}
    (hdeclared : i ∈ s.instruments) (h : s.voiceFor i active = .ok (t, index)) : Edits s t := by
  rcases voiceFor_cases h with ⟨rfl, -⟩ | ⟨-, hroom, rfl, -⟩
  · exact .refl
  · exact .single (.enter i hdeclared hroom)

theorem Stage.playLine_edits (place : String) (line : Line) (st : Stage) :
    Edits st.song (playLine place line st).state.song := by
  unfold playLine
  split
  · exact .refl
  · next i hfind =>
      split
      · exact .refl
      · next song index hvoice =>
          have hentered := voiceFor_edits (mem_of_findInstrument? hfind) hvoice
          dsimp only
          split
          · exact hentered
          · next events _ =>
              refine hentered.tail ?_
              rw [extendVoice_eq_play]
              exact .play _

theorem Stage.playLines_edits (place : String) (lines : List Line) (st : Stage) :
    Edits st.song (playLines place lines st).state.song := by
  induction lines generalizing st with
  | nil => exact .refl
  | cons line rest ih =>
      exact Attempt.andThen_state (P := fun t : Stage => Edits st.song t.song) (playLine_edits place line st)
        fun hline => hline.trans (ih _)

theorem applySection_edits (s : Song) (measures : Int) (lines : List Line) (label : Option String) :
    Edits s (s.applySection measures lines label).state := by
  have houtcome := applySection_outcome s measures lines label
  generalize s.applySection measures lines label = a at houtcome ⊢
  cases houtcome with
  | empty _ => exact .refl
  | unnamed e _ _ => exact .refl
  | stopped place e _ _ _ => exact Stage.playLines_edits place lines ⟨s, []⟩
  | counted place hpos _ _ =>
      rw [checkLengths_state, Stage.padded_eq_play]
      exact ((Stage.playLines_edits place lines ⟨s, []⟩).tail (.play _)).tail (.record measures hpos)

theorem setKey_declares {s t : Song} {name : LooseText} (h : s.setKey name = .ok t) : Declares s t := by
  obtain ⟨key, -, rfl⟩ := exists_of_map_eq_ok h
  exact .key key

theorem setTempo_declares {s t : Song} {bpm : Int} (h : s.setTempo bpm = .ok t) : Declares s t := by
  unfold setTempo at h
  split at h
  · cases h
    exact .tempo _
  · cases h

theorem setTime_declares {s t : Song} {text : LooseText} (h : s.setTime text = .ok t) : Declares s t := by
  obtain ⟨meter, -, rfl⟩ := exists_of_map_eq_ok h
  exact .meter meter

theorem addInstrument_declares {s t : Song} {symbol name : LooseText} (h : s.addInstrument symbol name = .ok t) :
    Declares s t := by
  unfold addInstrument at h
  split at h
  · cases h
  · next hfresh =>
      obtain ⟨i, hdeclare, rfl⟩ := exists_of_map_eq_ok h
      obtain ⟨program, -, rfl⟩ := exists_of_map_eq_ok hdeclare
      exact .instrument ⟨symbol, name, program⟩ hfresh

end Song

namespace Session

theorem onSong_declares (s : Session) (change : Song → Except Error Song)
    (hchange : ∀ t, change s.song = .ok t → Song.Declares s.song t) :
    Song.Declares s.song (s.onSong change).state.song := by
  unfold onSong
  cases hresult : change s.song with
  | error e => exact .nothing
  | ok t => exact hchange t hresult

theorem addLine_song (s : Session) (number : Nat) (request : LineRequest) :
    (s.addLine number request).state.song = s.song := by
  unfold addLine
  split
  · rfl
  · cases Line.make? request <;> rfl

theorem addLines_song (number : Nat) (requests : List LineRequest) (s : Session) :
    (addLines number requests s).state.song = s.song := by
  induction requests generalizing s with
  | nil => rfl
  | cons request rest ih =>
      exact Attempt.andThen_state (P := fun t : Session => t.song = s.song) (s.addLine_song number request)
        fun hline => (ih _).trans hline

/-- Applying an open section does nothing to the song, or what appending the section does. -/
theorem apply_song (s : Session) (number : Nat) :
    (s.apply number).state.song = s.song ∨
      ∃ measures lines label,
        (s.apply number).state.song = (s.song.applySection measures lines label).state := by
  unfold apply
  split
  · exact Or.inl rfl
  · next entry _ =>
      split
      · exact Or.inl rfl
      · refine Or.inr ⟨entry.measures, entry.lines, entry.label, ?_⟩
        exact Attempt.andThen_state
          (P := fun t : Session => t.song = (s.song.applySection entry.measures entry.lines entry.label).state) rfl id

/-- Whether a step is one that can append a section. -/
def canAppend : Step → Bool
  | .applySection _ _ _ => true
  | .apply _ => true
  | .write _ _ _ _ => true
  | _ => false

/-- All other steps declare something, or they do nothing to the song. -/
theorem step_declares (s : Session) {next : Step} (hplain : canAppend next = false) :
    Song.Declares s.song (s.step next).state.song := by
  cases next with
  | title title => exact s.onSong_declares _ fun t ht => by cases ht; exact .title title
  | author author => exact s.onSong_declares _ fun t ht => by cases ht; exact .author author
  | key name => exact s.onSong_declares _ fun t ht => Song.setKey_declares ht
  | tempo bpm => exact s.onSong_declares _ fun t ht => Song.setTempo_declares ht
  | time text => exact s.onSong_declares _ fun t ht => Song.setTime_declares ht
  | meter numerator denominator =>
      refine s.onSong_declares _ fun t ht => ?_
      obtain ⟨meter, -, rfl⟩ := exists_of_map_eq_ok ht
      exact .meter meter
  | instrument symbol name => exact s.onSong_declares _ fun t ht => Song.addInstrument_declares ht
  | openSection measures label => exact .nothing
  | openMeasure number =>
      unfold step
      dsimp only
      split <;> exact .nothing
  | openMeasures first last =>
      unfold step
      dsimp only
      split
      · exact .nothing
      · split <;> exact .nothing
  | addLine number request =>
      change Song.Declares s.song (s.addLine number request).state.song
      rw [addLine_song]
      exact .nothing
  | applySection measures requests label => cases hplain
  | apply number => cases hplain
  | write measures label requests abandon => cases hplain

/-- What a step does to the song: it declares something, or it appends one section. -/
theorem step_song (s : Session) (next : Step) :
    Song.Declares s.song (s.step next).state.song ∨
      ∃ measures lines label,
        (s.step next).state.song = (s.song.applySection measures lines label).state := by
  cases next with
  | applySection measures requests label =>
      unfold step
      dsimp only
      split
      · exact Or.inl .nothing
      · next lines _ => exact Or.inr ⟨measures, lines, label, rfl⟩
  | apply number =>
      rcases s.apply_song number with hsame | happlied
      · refine Or.inl ?_
        change Song.Declares s.song (s.apply number).state.song
        rw [hsame]
        exact .nothing
      · exact Or.inr happlied
  | write measures label requests abandon =>
      have hlines : (addLines s.sections.length requests (s.openSection measures label)).state.song = s.song :=
        addLines_song s.sections.length requests (s.openSection measures label)
      refine Attempt.andThen_state (P := fun t : Session => Song.Declares s.song t.song ∨
        ∃ measures lines label, t.song = (s.song.applySection measures lines label).state) ?_ fun hsame => ?_
      · rw [hlines]
        exact Or.inl .nothing
      · cases abandon with
        | true => exact hsame
        | false =>
            rcases apply_song _ s.sections.length with hnothing | happlied
            · rw [if_neg Bool.false_ne_true, hnothing]
              exact hsame
            · rw [hlines] at happlied
              exact Or.inr happlied
  | _ => exact Or.inl (s.step_declares rfl)

/-- A step counts at most one section, and that under the key and the meter in force before it. -/
theorem step_counts (s : Session) (next : Step) :
    Song.SameCounts s.song (s.step next).state.song ∨
      ∃ measures u, 0 < measures ∧ Song.SameButVoices s.song u ∧
        (s.step next).state.song = u.record measures := by
  rcases s.step_song next with hdeclares | ⟨measures, lines, label, hsection⟩
  · exact Or.inl hdeclares.sameCounts
  · rw [hsection]
    rcases s.song.applySection_counts measures lines label with hsame | ⟨u, hpos, hsame, hrecord⟩
    · exact Or.inl hsame.sameCounts
    · exact Or.inr ⟨measures, u, hpos, hsame, hrecord⟩

theorem step_edits (s : Session) (next : Step) : Song.Edits s.song (s.step next).state.song := by
  rcases s.step_song next with hdeclares | ⟨measures, lines, label, hsection⟩
  · exact .single (.declare hdeclares)
  · rw [hsection]
    exact s.song.applySection_edits measures lines label

theorem run_cons (s : Session) (next : Step) (rest : List Step) :
    s.run (next :: rest) = (s.step next).state.run rest := rfl

theorem run_edits (s : Session) (steps : List Step) : Song.Edits s.song (s.run steps).song := by
  induction steps generalizing s with
  | nil => exact .refl
  | cons next rest ih =>
      rw [run_cons]
      exact (s.step_edits next).trans (ih _)

/-- Declaring a violin finds its program among the names. -/
theorem step_violin :
    ({} : Session).step (.instrument "vi" "Violin") =
      ⟨{ song := { instruments := [⟨"vi", "Violin", ⟨40, by decide⟩⟩] } }, none⟩ := by decide +kernel

end Session

theorem run_violin (rest : List Step) :
    Session.run {} (.instrument "vi" "Violin" :: rest) =
      Session.run { song := { instruments := [⟨"vi", "Violin", ⟨40, by decide⟩⟩] } } rest := by
  rw [Session.run_cons, Session.step_violin]

end LineScore
