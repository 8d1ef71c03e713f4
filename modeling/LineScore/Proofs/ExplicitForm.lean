import LineScore.Proofs.Calls
import LineScore.Proofs.Fields
import LineScore.Proofs.Seating

/-! Documents with everything written out. A section of a document may be played several times, and may
leave its time and its key to the sections before it. Written out, it stands in the document once for each
time that it is played, and says which time and key are in force. That makes no difference to the song. -/

namespace LineScore

namespace Json

def textAt? (fields : List (LooseText × Json)) (key : LooseText) : Option LooseText :=
  match get? fields key with
  | some (.string text) => some text
  | _ => none

/-- How often a section is played. -/
def timesIn (fields : List (LooseText × Json)) : Nat :=
  match get? fields "repeat" with
  | some (.integer times) => times.toNat
  | _ => 1

/-- A section that is played once, in a time and a key. -/
def writeOutSection (time key : LooseText) (fields : List (LooseText × Json)) : Json :=
  .object (put (put (put fields "repeat" (.integer 1)) "time" (.string time)) "key" (.string key))

/-- Sections written out, a time and a key being in force before them. -/
def writeOutSections (time key : LooseText) : List Json → List Json
  | [] => []
  | .object fields :: rest =>
      let time := (textAt? fields "time").getD time
      let key := (textAt? fields "key").getD key
      List.replicate (timesIn fields) (writeOutSection time key fields) ++ writeOutSections time key rest
  | value :: rest => value :: writeOutSections time key rest

/-- The same document with its sections written out. -/
def writeOut : Json → Json
  | .object fields =>
      match get? fields "sections" with
      | some (.array sections) =>
          let time := (textAt? fields "time").getD "4/4"
          let key := (textAt? fields "key").getD "C+"
          .object (put fields "sections" (.array (writeOutSections time key sections)))
      | _ => .object fields
  | value => value

end Json

/-- The section played once, in a time and a key. -/
def SectionEntry.writtenOut (time key : LooseText) (e : SectionEntry) : SectionEntry :=
  { e with times := 1, time := some time, key := some key }

namespace Document

/-- Sections written out, a time and a key being in force before them. -/
def writeOutSections (time key : LooseText) : List SectionEntry → List SectionEntry
  | [] => []
  | e :: rest =>
      let time := e.time.getD time
      let key := e.key.getD key
      List.replicate e.times.toNat (e.writtenOut time key) ++ writeOutSections time key rest

/-- The same document with its sections written out. -/
def writtenOut (d : Document) : Document :=
  { d with sections := writeOutSections d.time d.key d.sections }

theorem writeOutSections_explicit (time key : LooseText) (entries : List SectionEntry) :
    ∀ e ∈ writeOutSections time key entries, e.times = 1 ∧ e.time ≠ none ∧ e.key ≠ none := by
  induction entries generalizing time key with
  | nil => exact fun e he => absurd he List.not_mem_nil
  | cons entry rest ih =>
      intro e he
      rcases List.mem_append.mp he with hcopy | hlater
      · rw [List.eq_of_mem_replicate hcopy]
        simp [SectionEntry.writtenOut]
      · exact ih _ _ e hlater

end Document

namespace Schema

open Checked Json

variable {fields : List (LooseText × Json)} {e : SectionEntry} {d : Document} {time key : LooseText}

theorem songSection_eq_ok_iff :
    songSection (.object fields) = .ok e ↔
      optional "measures" (.count 1) span fields = .ok e.measures ∧
      optional "repeat" 1 positive fields = .ok e.times ∧
      optional "time" none (nullable Schema.time) fields = .ok e.time ∧
      optional "key" none (nullable string) fields = .ok e.key ∧
      required "lines" (list line) fields = .ok e.lines ∧
      noOthers ["measures", "repeat", "time", "key", "lines"] fields = .ok () := by
  simp only [songSection, object, both_eq_ok_iff, Except.ok.injEq]
  constructor
  · rintro ⟨_, _, ⟨_, _, ⟨_, _, ⟨_, _, ⟨_, _, ⟨_, _, rfl, hmeasures, rfl⟩, htimes, rfl⟩, htime, rfl⟩,
      hkey, rfl⟩, hlines, rfl⟩, hothers, rfl⟩
    exact ⟨hmeasures, htimes, htime, hkey, hlines, hothers⟩
  · rintro ⟨hmeasures, htimes, htime, hkey, hlines, hothers⟩
    exact ⟨_, _, ⟨_, _, ⟨_, _, ⟨_, _, ⟨_, _, ⟨_, _, rfl, hmeasures, rfl⟩, htimes, rfl⟩, htime, rfl⟩,
      hkey, rfl⟩, hlines, rfl⟩, hothers, rfl⟩

theorem document_eq_ok_iff :
    document (.object fields) = .ok d ↔
      optional "title" ("Untitled" : LooseText) string fields = .ok d.title ∧
      optional "author" ("Anonymous" : LooseText) string fields = .ok d.author ∧
      optional "tempo" 120 positive fields = .ok d.tempo ∧
      optional "time" ("4/4" : LooseText) Schema.time fields = .ok d.time ∧
      optional "key" ("C+" : LooseText) string fields = .ok d.key ∧
      required "instruments" (list instrument) fields = .ok d.instruments ∧
      required "sections" (list songSection) fields = .ok d.sections ∧
      noOthers ["title", "author", "tempo", "time", "key", "instruments", "sections"] fields = .ok () := by
  simp only [document, object, both_eq_ok_iff, Except.ok.injEq]
  constructor
  · rintro ⟨_, _, ⟨_, _, ⟨_, _, ⟨_, _, ⟨_, _, ⟨_, _, ⟨_, _, ⟨_, _, rfl, htitle, rfl⟩, hauthor, rfl⟩,
      htempo, rfl⟩, htime, rfl⟩, hkey, rfl⟩, hinstruments, rfl⟩, hsections, rfl⟩, hothers, rfl⟩
    exact ⟨htitle, hauthor, htempo, htime, hkey, hinstruments, hsections, hothers⟩
  · rintro ⟨htitle, hauthor, htempo, htime, hkey, hinstruments, hsections, hothers⟩
    exact ⟨_, _, ⟨_, _, ⟨_, _, ⟨_, _, ⟨_, _, ⟨_, _, ⟨_, _, ⟨_, _, rfl, htitle, rfl⟩, hauthor, rfl⟩,
      htempo, rfl⟩, htime, rfl⟩, hkey, rfl⟩, hinstruments, rfl⟩, hsections, rfl⟩, hothers, rfl⟩

/-- A text that may be left out is read as it stands. -/
theorem textAt?_of_nullable {read : Json → Checked LooseText}
    (hread : ∀ value text, read value = .ok text → value = .string text) {text : Option LooseText}
    (h : optional key none (nullable read) fields = .ok text) : textAt? fields key = text := by
  rcases optional_eq_ok_iff.mp h with ⟨hnone, rfl⟩ | ⟨value, hvalue, hnullable⟩
  · simp [textAt?, hnone]
  · rcases nullable_eq_ok_iff.mp hnullable with ⟨rfl, rfl⟩ | ⟨-, written, hwritten, rfl⟩
    · simp [textAt?, hvalue]
    · simp [textAt?, hvalue, hread _ _ hwritten]

theorem textAt?_of_optional {read : Json → Checked LooseText}
    (hread : ∀ value text, read value = .ok text → value = .string text) {default text : LooseText}
    (h : optional key default read fields = .ok text) : (textAt? fields key).getD default = text := by
  rcases optional_eq_ok_iff.mp h with ⟨hnone, rfl⟩ | ⟨value, hvalue, htext⟩
  · simp [textAt?, hnone]
  · simp [textAt?, hvalue, hread _ _ htext]

theorem timesIn_eq (h : songSection (.object fields) = .ok e) : timesIn fields = e.times.toNat ∧ 0 < e.times := by
  obtain ⟨-, htimes, -⟩ := songSection_eq_ok_iff.mp h
  rcases optional_eq_ok_iff.mp htimes with ⟨hnone, hdefault⟩ | ⟨value, hvalue, hpositive⟩
  · simp [timesIn, hnone, ← hdefault]
  · obtain ⟨rfl, hpos⟩ := positive_eq_ok_iff.mp hpositive
    exact ⟨by simp [timesIn, hvalue], hpos⟩

/-- A time that a section sets can be read. -/
theorem parse_of_songSection (h : songSection (.object fields) = .ok e) :
    ∀ text ∈ e.time, ∃ meter, Meter.parse text.shown = .ok meter := by
  obtain ⟨-, -, htime, -⟩ := songSection_eq_ok_iff.mp h
  rcases optional_eq_ok_iff.mp htime with ⟨-, hdefault⟩ | ⟨value, -, hnullable⟩
  · simp [← hdefault]
  · rcases nullable_eq_ok_iff.mp hnullable with ⟨-, hnone⟩ | ⟨-, written, hwritten, hsome⟩
    · simp [hnone]
    · rintro text htext
      obtain rfl : written = text := by simpa [← hsome] using htext
      exact (time_eq_ok_iff.mp hwritten).2

/-- A section written out is read as the section written out. -/
theorem songSection_writeOut (h : songSection (.object fields) = .ok e)
    (htime : ∃ meter, Meter.parse time.shown = .ok meter) (key : LooseText) :
    songSection (writeOutSection time key fields) = .ok (e.writtenOut time key) := by
  obtain ⟨hmeasures, -, -, -, hlines, hothers⟩ := songSection_eq_ok_iff.mp h
  rw [writeOutSection, songSection_eq_ok_iff]
  refine ⟨?_, ?_, ?_, ?_, ?_, ?_⟩
  · exact (optional_congr (by simp) _ _).trans hmeasures
  · exact optional_eq_ok_iff.mpr (.inr ⟨.integer 1, by simp, positive_eq_ok_iff.mpr ⟨rfl, Int.one_pos⟩⟩)
  · have hread := time_eq_ok_iff.mpr ⟨rfl, htime⟩
    exact optional_eq_ok_iff.mpr (.inr ⟨.string time, by simp, map_eq_ok_iff.mpr ⟨time, hread, rfl⟩⟩)
  · exact optional_eq_ok_iff.mpr (.inr ⟨.string key, by simp, map_eq_ok_iff.mpr ⟨key, rfl, rfl⟩⟩)
  · exact (required_congr (by simp) _).trans hlines
  · exact noOthers_put (noOthers_put (noOthers_put hothers (by simp) _) (by simp) _) (by simp) _

theorem songSections_writeOut {items : List Json} {entries : List SectionEntry}
    (h : List.Forall₂ (fun item e => songSection item = .ok e) items entries)
    (htime : ∃ meter, Meter.parse time.shown = .ok meter) (key : LooseText) :
    List.Forall₂ (fun item e => songSection item = .ok e) (Json.writeOutSections time key items)
      (Document.writeOutSections time key entries) := by
  induction h generalizing time key with
  | nil => exact .nil
  | @cons item e items entries hitem _ ih =>
      cases item with
      | object fields =>
          obtain ⟨htimes, -⟩ := timesIn_eq hitem
          obtain ⟨-, -, hreadTime, hreadKey, -⟩ := songSection_eq_ok_iff.mp hitem
          have htext := textAt?_of_nullable (fun _ _ ht => (time_eq_ok_iff.mp ht).1) hreadTime
          have hname := textAt?_of_nullable (fun _ _ ht => string_eq_ok_iff.mp ht) hreadKey
          have hnext : ∃ meter, Meter.parse (e.time.getD time).shown = .ok meter := by
            cases hset : e.time with
            | none => exact htime
            | some text => exact parse_of_songSection hitem text hset
          rw [Json.writeOutSections, Document.writeOutSections, htimes, htext, hname]
          refine List.rel_append ?_ (ih hnext _)
          have hcopy := songSection_writeOut hitem hnext (e.key.getD key)
          exact List.forall₂_iff_get.mpr ⟨by simp, fun i hi hi' => by simpa using hcopy⟩
      | _ => cases hitem

/-- A document written out is read as the document written out. -/
theorem document_writeOut {value : Json} (h : document value = .ok d) :
    document value.writeOut = .ok d.writtenOut := by
  cases value with
  | object fields =>
      obtain ⟨htitle, hauthor, htempo, htime, hkey, hinstruments, hsections, hothers⟩ := document_eq_ok_iff.mp h
      obtain ⟨value, hvalue, hlist⟩ := required_eq_ok_iff.mp hsections
      obtain ⟨items, rfl, hitems⟩ := list_eq_ok_iff.mp hlist
      have htext := textAt?_of_optional (fun _ _ ht => (time_eq_ok_iff.mp ht).1) htime
      have hname := textAt?_of_optional (fun _ _ ht => string_eq_ok_iff.mp ht) hkey
      have hparse : ∃ meter, Meter.parse d.time.shown = .ok meter := by
        rcases optional_eq_ok_iff.mp htime with ⟨-, hdefault⟩ | ⟨value, -, hread⟩
        · exact ⟨.common, by rw [← hdefault]; decide +kernel⟩
        · exact (time_eq_ok_iff.mp hread).2
      have hwritten := songSections_writeOut hitems hparse d.key
      simp only [Json.writeOut, hvalue, htext, hname]
      rw [document_eq_ok_iff]
      refine ⟨?_, ?_, ?_, ?_, ?_, ?_, ?_, noOthers_put hothers (by simp) _⟩
      · exact (optional_congr (by simp) _ _).trans htitle
      · exact (optional_congr (by simp) _ _).trans hauthor
      · exact (optional_congr (by simp) _ _).trans htempo
      · exact (optional_congr (by simp) _ _).trans htime
      · exact (optional_congr (by simp) _ _).trans hkey
      · exact (required_congr (by simp) _).trans hinstruments
      · exact required_eq_ok_iff.mpr ⟨_, by simp, list_eq_ok_iff.mpr ⟨_, rfl, hwritten⟩⟩
  | _ => cases h

end Schema

namespace Song

/-- A section leaves the key and the meter in force. -/
theorem applySection_keeps (s : Song) (measures : Int) (lines : List Line) (label : Option String) :
    (s.applySection measures lines label).state.key = s.key ∧
      (s.applySection measures lines label).state.meter = s.meter := by
  rcases s.applySection_counts measures lines label with ⟨voices, hstate⟩ | ⟨u, -, ⟨voices, rfl⟩, hstate⟩
  · rw [hstate]
    exact ⟨rfl, rfl⟩
  · rw [hstate]
    exact ⟨rfl, rfl⟩

end Song

namespace Session

/-- Whether a time and a key are in force. -/
def InForce (s : Session) (time key : LooseText) : Prop :=
  Meter.parse time.shown = .ok s.song.meter ∧ Key.ofName key = .ok s.song.key

variable {s : Session} {time key : LooseText}

theorem step_time (s : Session) (text : LooseText) :
    s.step (.time text) =
      Attempt.ofExcept s ((Meter.parse text.shown).map fun meter => { s with song := { s.song with meter } }) := by
  simp only [step, onSong, Song.setTime]
  cases Meter.parse text.shown <;> rfl

theorem step_key (s : Session) (name : LooseText) :
    s.step (.key name) =
      Attempt.ofExcept s ((Key.ofName name).map fun key => { s with song := { s.song with key } }) := by
  simp only [step, onSong, Song.setKey]
  cases Key.ofName name <;> rfl

/-- A time that has been set is in force. -/
theorem parse_of_step_time (hok : (s.step (.time time)).error = none) :
    Meter.parse time.shown = .ok (s.step (.time time)).state.song.meter ∧
      (s.step (.time time)).state.song.key = s.song.key := by
  rw [step_time] at hok ⊢
  cases hparse : Meter.parse time.shown with
  | error e => simp [hparse, Attempt.ofExcept, Except.map] at hok
  | ok meter => exact ⟨rfl, rfl⟩

theorem ofName_of_step_key (hok : (s.step (.key key)).error = none) :
    Key.ofName key = .ok (s.step (.key key)).state.song.key ∧
      (s.step (.key key)).state.song.meter = s.song.meter := by
  rw [step_key] at hok ⊢
  cases hname : Key.ofName key with
  | error e => simp [hname, Attempt.ofExcept, Except.map] at hok
  | ok found => exact ⟨rfl, rfl⟩

theorem attemptAll_singleton (next : Step) (s : Session) : attemptAll [next] s = s.step next :=
  (s.step next).andThen_done

theorem attemptAll_append (first second : List Step) (s : Session) :
    attemptAll (first ++ second) s = (attemptAll first s).andThen (attemptAll second) := by
  induction first generalizing s with
  | nil => rfl
  | cons next rest ih =>
      rw [List.cons_append, attemptAll, attemptAll, Attempt.andThen_assoc]
      exact Attempt.andThen_congr fun _ => ih _

/-- A time and a key that have been set are in force. -/
theorem inForce_of_set (hok : (attemptAll [.time time, .key key] s).error = none) :
    InForce (attemptAll [.time time, .key key] s).state time key := by
  have htime := Attempt.error_of_andThen hok
  rw [attemptAll, Attempt.andThen_of_ok htime, attemptAll_singleton] at hok ⊢
  obtain ⟨hparse, -⟩ := parse_of_step_time htime
  obtain ⟨hname, hmeter⟩ := ofName_of_step_key hok
  exact ⟨hmeter ▸ hparse, hname⟩

namespace InForce

/-- Setting the time or the key that is in force changes nothing. -/
theorem step_time (h : InForce s time key) : s.step (.time time) = ⟨s, none⟩ := by
  rw [Session.step_time, h.1]
  rfl

theorem step_key (h : InForce s time key) : s.step (.key key) = ⟨s, none⟩ := by
  rw [Session.step_key, h.2]
  rfl

/-- A time that is left out may as well be the one in force. -/
theorem attemptAll_time (h : InForce s time key) (text : Option LooseText) :
    attemptAll (text.map Step.time).toList s = s.step (.time (text.getD time)) := by
  cases text with
  | none => exact h.step_time.symm
  | some text => exact attemptAll_singleton _ s

theorem attemptAll_key (h : InForce s time key) (name : Option LooseText) :
    attemptAll (name.map Step.key).toList s = s.step (.key (name.getD key)) := by
  cases name with
  | none => exact h.step_key.symm
  | some name => exact attemptAll_singleton _ s

theorem after_time (h : InForce s time key) {text : LooseText}
    (hok : (s.step (.time text)).error = none) : InForce (s.step (.time text)).state text key := by
  obtain ⟨htime, hkey⟩ := parse_of_step_time hok
  exact ⟨htime, hkey ▸ h.2⟩

theorem after_key (h : InForce s time key) {name : LooseText}
    (hok : (s.step (.key name)).error = none) : InForce (s.step (.key name)).state time name := by
  obtain ⟨hkey, htime⟩ := ofName_of_step_key hok
  exact ⟨htime ▸ h.1, hkey⟩

/-- The settings of a section do what it does to set the time and the key that it is played in. -/
theorem attemptAll_settings (h : InForce s time key) (e : SectionEntry) :
    attemptAll e.settings s =
      (s.step (.time (e.time.getD time))).andThen fun t => t.step (.key (e.key.getD key)) := by
  rw [SectionEntry.settings, attemptAll_append, h.attemptAll_time]
  exact Attempt.andThen_congr fun hok => (h.after_time hok).attemptAll_key e.key

theorem after_settings (h : InForce s time key) {e : SectionEntry}
    (hok : (attemptAll e.settings s).error = none) :
    InForce (attemptAll e.settings s).state (e.time.getD time) (e.key.getD key) := by
  rw [h.attemptAll_settings] at hok ⊢
  have htime := Attempt.error_of_andThen hok
  rw [Attempt.andThen_of_ok htime] at hok ⊢
  exact (h.after_time htime).after_key hok

theorem after_instruments (h : InForce s time key) (entries : List InstrumentEntry) :
    InForce (attemptAll (entries.map fun i => .instrument i.symbol i.name) s).state time key := by
  induction entries generalizing s with
  | nil => exact h
  | cons entry rest ih =>
      refine Attempt.andThen_state (P := fun t => InForce t time key) ?_ fun hentry => ih hentry
      rw [step, onSong]
      cases hsong : s.song.addInstrument entry.symbol entry.name with
      | error e => exact h
      | ok song =>
          unfold Song.addInstrument at hsong
          split at hsong
          · cases hsong
          · obtain ⟨i, -, rfl⟩ := exists_of_map_eq_ok hsong
            exact h

theorem after_writing (h : InForce s time key) (e : SectionEntry) (label : Option String) :
    InForce (s.step (e.writing label)).state time key := by
  cases hlines : e.lines.mapM Line.make? with
  | error error =>
      have hsong := s.step_write_of_refused e.measures.measures label hlines false
      rw [InForce, SectionEntry.writing, hsong]
      exact h
  | ok lines =>
      obtain ⟨hsong, -⟩ := s.step_write_of_accepted e.measures.measures label hlines
      obtain ⟨hkey, hmeter⟩ := s.song.applySection_keeps e.measures.measures lines label
      rw [InForce, SectionEntry.writing, hsong, hkey, hmeter]
      exact h

theorem after_times (h : InForce s time key) (e : SectionEntry) (label : Option String) (times : Nat) :
    InForce (attemptTimes (e.writing label) times s).state time key := by
  induction times generalizing s with
  | zero => exact h
  | succ times ih =>
      exact Attempt.andThen_state (P := fun t => InForce t time key) (h.after_writing e label) ih

end InForce

end Session

namespace Document

open Session

variable {s : Session} {time key : LooseText}

/-- A section written out is played once after its time and its key have been set. -/
theorem attempt_writtenOut (s : Session) (time key : LooseText) {e : SectionEntry} {label : Option String}
    (hlabel : e.measures.label = .ok label) :
    (e.writtenOut time key).attempt s =
      ((s.step (.time time)).andThen fun t => t.step (.key key)).andThen fun t => t.step (e.writing label) := by
  have hcopy : (e.writtenOut time key).measures.label = .ok label := hlabel
  have hsettings : attemptAll (e.writtenOut time key).settings s =
      (s.step (.time time)).andThen fun t => t.step (.key key) :=
    Attempt.andThen_congr fun _ => attemptAll_singleton (.key key) _
  rw [SectionEntry.attempt, hcopy]
  dsimp only
  rw [hsettings]
  exact Attempt.andThen_congr fun _ => attemptAll_singleton (e.writing label) _

/-- Copies of a section in the time and the key in force are the section played as often. -/
theorem attemptSections_replicate (h : InForce s time key) {e : SectionEntry} {label : Option String}
    (hlabel : e.measures.label = .ok label) (times : Nat) (rest : List SectionEntry) :
    attemptSections (List.replicate times (e.writtenOut time key) ++ rest) s =
      (attemptTimes (e.writing label) times s).andThen (attemptSections rest) := by
  induction times generalizing s with
  | zero => rfl
  | succ times ih =>
      have hcopy : (e.writtenOut time key).attempt s = s.step (e.writing label) := by
        rw [attempt_writtenOut s time key hlabel, Attempt.andThen_assoc, h.step_time,
          Attempt.andThen_of_ok rfl, h.step_key, Attempt.andThen_of_ok rfl]
      rw [List.replicate_succ, List.cons_append, attemptSections, hcopy, attemptTimes, Attempt.andThen_assoc]
      exact Attempt.andThen_congr fun _ => ih (h.after_writing e label)

/-- Sections written out are added as the sections are. -/
theorem attemptSections_writeOut (entries : List SectionEntry) (hpos : ∀ e ∈ entries, 0 < e.times)
    (h : InForce s time key) :
    attemptSections (writeOutSections time key entries) s = attemptSections entries s := by
  induction entries generalizing s time key with
  | nil => rfl
  | cons e rest ih =>
      obtain ⟨hfirst, hrest⟩ := List.forall_mem_cons.mp hpos
      obtain ⟨times, htimes⟩ : ∃ times, e.times.toNat = times + 1 := ⟨e.times.toNat - 1, by omega⟩
      rw [writeOutSections, htimes, List.replicate_succ, List.cons_append, attemptSections, attemptSections]
      cases hlabel : e.measures.label with
      | error error =>
          -- the first copy fails where the section does
          have hcopy : (e.writtenOut (e.time.getD time) (e.key.getD key)).measures.label = .error error := hlabel
          rw [SectionEntry.attempt, hcopy, SectionEntry.attempt, hlabel]
          rfl
      | ok label =>
          rw [attempt_writtenOut s _ _ hlabel, ← h.attemptAll_settings, SectionEntry.attempt, hlabel]
          dsimp only
          rw [htimes, Attempt.andThen_assoc, Attempt.andThen_assoc]
          refine Attempt.andThen_congr fun hok => ?_
          -- from here on the time and the key of the section are in force
          have hset := h.after_settings hok
          rw [attemptTimes, Attempt.andThen_assoc]
          refine Attempt.andThen_congr fun _ => ?_
          rw [attemptSections_replicate (hset.after_writing e label) hlabel]
          exact Attempt.andThen_congr fun _ =>
            ih hrest ((hset.after_writing e label).after_times e label times)

theorem inForce_of_declarations (d : Document) (hok : (attemptAll d.declarations {}).error = none) :
    InForce (attemptAll d.declarations {}).state d.time d.key := by
  have hparts : d.declarations = [.title d.title, .author d.author, .tempo d.tempo] ++
      ([.time d.time, .key d.key] ++ d.instruments.map fun i => .instrument i.symbol i.name) := rfl
  rw [hparts, attemptAll_append] at hok ⊢
  have hfirst := Attempt.error_of_andThen hok
  rw [Attempt.andThen_of_ok hfirst, attemptAll_append] at hok ⊢
  have hset := Attempt.error_of_andThen hok
  rw [Attempt.andThen_of_ok hset]
  exact (inForce_of_set hset).after_instruments d.instruments

/-- Writing a document out makes no difference to its song. -/
theorem compile_writtenOut (d : Document) (hpos : ∀ e ∈ d.sections, 0 < e.times) :
    d.writtenOut.compile = d.compile := by
  have hattempt : d.writtenOut.attempt = d.attempt := by
    rw [attempt, attempt]
    exact Attempt.andThen_congr fun hok =>
      attemptSections_writeOut d.sections hpos (d.inForce_of_declarations hok)
  rw [compile, compile, hattempt]

theorem times_pos_of_document {value : Json} {d : Document} (h : Schema.document value = .ok d) :
    ∀ e ∈ d.sections, 0 < e.times := by
  cases value with
  | object fields =>
      obtain ⟨-, -, -, -, -, -, hsections, -⟩ := Schema.document_eq_ok_iff.mp h
      obtain ⟨value, -, hlist⟩ := Schema.required_eq_ok_iff.mp hsections
      obtain ⟨items, -, hitems⟩ := Schema.list_eq_ok_iff.mp hlist
      intro e he
      obtain ⟨item, -, hitem⟩ := exists_left_of_forall₂ hitems he
      cases item with
      | object fields => exact (Schema.timesIn_eq hitem).2
      | _ => cases hitem
  | _ => cases h

/-- The value of a document may be written out: what is read of it then has each section once for each time
that it is played, with the time and the key in force, and its song or error is the same. -/
theorem load_writeOut (path : String) {value : Json} {d : Document} (h : Schema.document value = .ok d) :
    Schema.document value.writeOut = .ok d.writtenOut ∧
      (∀ e ∈ d.writtenOut.sections, e.times = 1 ∧ e.time ≠ none ∧ e.key ≠ none) ∧
      load path value.writeOut = load path value := by
  have hwritten := Schema.document_writeOut h
  refine ⟨hwritten, writeOutSections_explicit d.time d.key d.sections, ?_⟩
  rw [load, load, hwritten, h]
  exact d.compile_writtenOut (times_pos_of_document h)

/-- A section in three four that is played twice, and one more without a time or a key. -/
theorem load_writeOut_waltz :
    let lines : Json := .array [.object [("voice", .string "vi"), ("notes", .string "c d e")]]
    let violin : Json := .object [("symbol", .string "vi"), ("name", .string "Violin")]
    let value : Json := .object [("instruments", .array [violin]), ("sections", .array [
      .object [("time", .string "3/4"), ("repeat", .integer 2), ("lines", lines)], .object [("lines", lines)]])]
    let copy : Json := .object [("time", .string "3/4"), ("repeat", .integer 1), ("lines", lines),
      ("key", .string "C+")]
    let last : Json := .object [("lines", lines), ("repeat", .integer 1), ("time", .string "3/4"),
      ("key", .string "C+")]
    value.writeOut = .object [("instruments", .array [violin]), ("sections", .array [copy, copy, last])] ∧
      load "<song>" value.writeOut = load "<song>" value := by
  intro lines violin value copy last
  have hread : ∃ d, Schema.document value = .ok d := ⟨_, rfl⟩
  obtain ⟨d, hd⟩ := hread
  exact ⟨rfl, (load_writeOut "<song>" hd).2.2⟩

end Document

end LineScore
