import LineScore.Proofs.ExplicitForm
import LineScore.Proofs.VoiceCount
import LineScore.Proofs.Writes

/-! What can still be wrong with a document of the right shape. The schema and the song check the same
bounds, each on its own: tempos, time signatures, default durations and measures. Whatever the schema lets
pass the song accepts, so what is left are flaws of the notation and numbers that are too long. -/

namespace LineScore

theorem Span.label_error {span : Span} {e : Error} (h : span.label = .error e) : e = .longNumber := by
  unfold label at h
  split at h
  · cases h
  · split at h
    · cases h
    · cases h
      rfl

/-- Whether an error is one of a value that no document of the right shape has, or of a section that is
applied twice. -/
def Error.OfGuard : Error → Prop
  | .invalidTempo _ | .malformedMeter _ | .invalidMeter _ _ | .invalidDefaultNote _ | .emptySection _
  | .alreadyApplied => True
  | _ => False

/-- A section whose numbers are within their bounds and whose time can be read. -/
structure SectionEntry.Sound (e : SectionEntry) : Prop where
  measures_pos : 0 < e.measures.measures
  times_pos : 0 < e.times
  time : ∀ text ∈ e.time, ∃ meter, Meter.parse text.shown = .ok meter
  defaultNote_pos : ∀ line ∈ e.lines, ∀ n ∈ line.defaultNote, 0 < n

namespace Document

/-- A document whose numbers are within their bounds and whose times can be read. -/
structure Sound (d : Document) : Prop where
  tempo_pos : 0 < d.tempo
  time : ∃ meter, Meter.parse d.time.shown = .ok meter
  sections : ∀ e ∈ d.sections, e.Sound

/-- Whether a key is set, by the document or by one of its sections. -/
def SetsKey (d : Document) (name : LooseText) : Prop :=
  name = d.key ∨ ∃ e ∈ d.sections, e.key = some name

/-- Whether a line stands in a section of the document. -/
def HasLine (d : Document) (line : LineRequest) : Prop :=
  ∃ e ∈ d.sections, line ∈ e.lines

/-- Whether a word stands in a line of the document. -/
def HasWord (d : Document) (line : LineRequest) (word : List Char) : Prop :=
  d.HasLine line ∧ word ∈ Text.words line.notes.shown.toList

/-- What can be wrong with a document of the right shape, and the error that tells it. -/
inductive Flaw (d : Document) : Error → Prop where
  /-- It is in a key that there is not. -/
  | key {name : LooseText} (hset : d.SetsKey name) (hnone : ∀ k : Key, LooseText.ofString k.name ≠ name) :
      Flaw d (.invalidKey name)
  | program {i : InstrumentEntry} (hi : i ∈ d.instruments) (hnone : Program.ofName? i.name = none) :
      Flaw d (.unknownProgram i.name)
  /-- An instrument has the symbol of one before it. -/
  | duplicate {before after : List InstrumentEntry} {i : InstrumentEntry}
      (hsplit : d.instruments = before ++ i :: after) (hbefore : i.symbol ∈ before.map InstrumentEntry.symbol) :
      Flaw d (.duplicateInstrument i.symbol)
  | instrument {line : LineRequest} {place : String} (hline : d.HasLine line)
      (hnone : line.symbol ∉ d.instruments.map InstrumentEntry.symbol) :
      Flaw d (.unknownInstrument line.symbol (some place))
  | word {line : LineRequest} {word : List Char} {place : String} (hword : d.HasWord line word)
      (hread : Token.read word = .error (.unparseableToken (String.ofList word) none none)) :
      Flaw d (.unparseableToken (String.ofList word) (some line.symbol) (some place))
  | voices : Flaw d (.tooManyVoices 17 16)
  | lengths {m : Mismatch} (hreport : m.report?.isSome) : Flaw d (.lengthMismatch m)
  /-- A duration has too many digits. -/
  | numeral {line : LineRequest} {word : List Char} {digits : Nat} (hword : d.HasWord line word)
      (hlong : Text.maxDigits < digits) (hread : Token.read word = .error (.longNumeral digits)) :
      Flaw d (.longNumeral digits)
  /-- A section has no label but its measure numbers, and these have too many digits. -/
  | label {e : SectionEntry} (he : e ∈ d.sections) (hnone : ∀ text, e.measures.label ≠ .ok (some text)) :
      Flaw d .longNumber
  /-- The lengths of a section cannot be reported. -/
  | overflow {m : Mismatch} (hreport : m.report? = none) : Flaw d .lengthOverflow

theorem Flaw.not_ofGuard {d : Document} {e : Error} (h : d.Flaw e) : ¬ e.OfGuard := by
  cases h <;> exact not_false

end Document

namespace Schema

open Checked

variable {fields : List (LooseText × Json)}

theorem line_eq_ok_iff {l : LineRequest} :
    line (.object fields) = .ok l ↔
      required "voice" string fields = .ok l.symbol ∧
      required "notes" string fields = .ok l.notes ∧
      optional "default_note" none (nullable positive) fields = .ok l.defaultNote ∧
      optional "staccato" false boolean fields = .ok l.staccato ∧
      noOthers ["voice", "notes", "default_note", "staccato"] fields = .ok () := by
  simp only [line, object, both_eq_ok_iff, Except.ok.injEq]
  constructor
  · rintro ⟨_, _, ⟨_, _, ⟨_, _, ⟨_, _, ⟨_, _, rfl, hvoice, rfl⟩, hnotes, rfl⟩, hdefault, rfl⟩, hstaccato, rfl⟩,
      hothers, rfl⟩
    exact ⟨hvoice, hnotes, hdefault, hstaccato, hothers⟩
  · rintro ⟨hvoice, hnotes, hdefault, hstaccato, hothers⟩
    exact ⟨_, _, ⟨_, _, ⟨_, _, ⟨_, _, ⟨_, _, rfl, hvoice, rfl⟩, hnotes, rfl⟩, hdefault, rfl⟩, hstaccato, rfl⟩,
      hothers, rfl⟩

/-- What is read of a list in a field is read of its items. -/
theorem exists_of_mem_required {α : Type} {read : Json → Checked α} {key : LooseText} {values : List α}
    (h : required key (list read) fields = .ok values) {a : α} (ha : a ∈ values) :
    ∃ item, read item = .ok a := by
  obtain ⟨value, -, hlist⟩ := required_eq_ok_iff.mp h
  obtain ⟨items, -, hitems⟩ := list_eq_ok_iff.mp hlist
  obtain ⟨item, -, hitem⟩ := exists_left_of_forall₂ hitems ha
  exact ⟨item, hitem⟩

theorem defaultNote_pos_of_line {item : Json} {l : LineRequest} (h : line item = .ok l) :
    ∀ n ∈ l.defaultNote, 0 < n := by
  cases item with
  | object fields =>
      obtain ⟨-, -, hdefault, -⟩ := line_eq_ok_iff.mp h
      rcases optional_eq_ok_iff.mp hdefault with ⟨-, hnone⟩ | ⟨value, -, hvalue⟩
      · simp [← hnone]
      · rcases nullable_eq_ok_iff.mp hvalue with ⟨-, hnull⟩ | ⟨-, n, hpositive, hsome⟩
        · simp [hnull]
        · simpa [← hsome] using (positive_eq_ok_iff.mp hpositive).2
  | _ => cases h

theorem sound_of_songSection {item : Json} {e : SectionEntry} (h : songSection item = .ok e) : e.Sound := by
  cases item with
  | object fields =>
      obtain ⟨hmeasures, -, -, -, hlines, -⟩ := songSection_eq_ok_iff.mp h
      refine ⟨?measures, (timesIn_eq h).2, parse_of_songSection h, ?lines⟩
      case measures =>
        rcases optional_eq_ok_iff.mp hmeasures with ⟨-, hdefault⟩ | ⟨value, -, hspan⟩
        · simp [← hdefault, Span.measures]
        · rcases span_eq_ok_iff.mp hspan with ⟨n, -, hpos, hcount⟩ | ⟨first, last, -, -, hle, hrange⟩
          · simpa [hcount, Span.measures] using hpos
          · rw [hrange, Span.measures]
            omega
      case lines =>
        intro l hl
        obtain ⟨item, hitem⟩ := exists_of_mem_required hlines hl
        exact defaultNote_pos_of_line hitem
  | _ => cases h

/-- What the schema lets pass is within the bounds that the song checks. -/
theorem sound_of_document {value : Json} {d : Document} (h : document value = .ok d) : d.Sound := by
  cases value with
  | object fields =>
      obtain ⟨-, -, htempo, htime, -, -, hsections, -⟩ := document_eq_ok_iff.mp h
      refine ⟨?tempo, ?time, ?sections⟩
      case tempo =>
        rcases optional_eq_ok_iff.mp htempo with ⟨-, hdefault⟩ | ⟨value, -, hpositive⟩
        · simp [← hdefault]
        · exact (positive_eq_ok_iff.mp hpositive).2
      case time =>
        rcases optional_eq_ok_iff.mp htime with ⟨-, hdefault⟩ | ⟨value, -, hread⟩
        · exact ⟨.common, by rw [← hdefault]; decide +kernel⟩
        · exact (time_eq_ok_iff.mp hread).2
      case sections =>
        intro e he
        obtain ⟨item, hitem⟩ := exists_of_mem_required hsections he
        exact sound_of_songSection hitem
  | _ => cases h

end Schema

/-- Lines whose default durations are positive are all accepted. -/
theorem exists_lines {requests : List LineRequest}
    (hpos : ∀ request ∈ requests, ∀ n ∈ request.defaultNote, 0 < n) :
    ∃ lines, requests.mapM Line.make? = .ok lines ∧ lines.map Line.toLineRequest = requests := by
  induction requests with
  | nil => exact ⟨[], rfl, rfl⟩
  | cons request rest ih =>
      obtain ⟨hfirst, hrest⟩ := List.forall_mem_cons.mp hpos
      obtain ⟨lines, hlines, hmap⟩ := ih hrest
      refine ⟨⟨request, hfirst⟩ :: lines, ?_, by rw [List.map_cons, hmap]⟩
      rw [List.mapM_cons, Line.make?_of_pos hfirst, hlines]
      rfl

namespace Session

variable {s : Session} {e : Error}

def symbols (s : Session) : List LooseText :=
  s.song.instruments.map Instrument.symbol

/-- An instrument is declared unless its symbol is taken or its name is unknown. -/
theorem step_instrument_cases (s : Session) (symbol name : LooseText) :
    let a := s.step (.instrument symbol name)
    symbol ∈ s.symbols ∧ a.error = some (.duplicateInstrument symbol) ∨
      Program.ofName? name = none ∧ a.error = some (.unknownProgram name) ∨
        a.error = none ∧ a.state.symbols = s.symbols ++ [symbol] := by
  intro a
  have ha : a = s.onSong (·.addInstrument symbol name) := rfl
  cases hfind : s.song.findInstrument? symbol with
  | some i =>
      have htaken : symbol ∈ s.symbols := by
        by_contra hnone
        simp [Song.findInstrument?_eq_none_iff.mpr hnone] at hfind
      exact .inl ⟨htaken, by simp [ha, onSong, Song.addInstrument, hfind, Attempt.ofExcept, Except.map]⟩
  | none =>
      rw [onSong, Song.addInstrument, hfind] at ha
      cases hprogram : Program.ofName? name with
      | none =>
          simp only [Instrument.declare, programFor, hprogram] at ha
          exact .inr (.inl ⟨rfl, congrArg Attempt.error ha⟩)
      | some program =>
          simp only [Instrument.declare, programFor, hprogram] at ha
          refine .inr (.inr ⟨congrArg Attempt.error ha, ?_⟩)
          rw [ha]
          exact List.map_append

/-- Instruments are declared up to the first one whose symbol is taken or whose name is unknown. -/
theorem instruments_cases (entries : List InstrumentEntry) (s : Session) :
    let a := attemptAll (entries.map fun i => .instrument i.symbol i.name) s
    a.error = none ∧ a.state.symbols = s.symbols ++ entries.map InstrumentEntry.symbol ∨
      ∃ before i after, entries = before ++ i :: after ∧
        (i.symbol ∈ s.symbols ++ before.map InstrumentEntry.symbol ∧
            a.error = some (.duplicateInstrument i.symbol) ∨
          Program.ofName? i.name = none ∧ a.error = some (.unknownProgram i.name)) := by
  induction entries generalizing s with
  | nil => exact .inl ⟨rfl, by simp [attemptAll]⟩
  | cons i rest ih =>
      intro a
      have ha : a = (s.step (.instrument i.symbol i.name)).andThen
          (attemptAll (rest.map fun i => .instrument i.symbol i.name)) := rfl
      rcases s.step_instrument_cases i.symbol i.name with ⟨htaken, hfail⟩ | ⟨hnone, hfail⟩ | ⟨hok, hsymbols⟩
      · rw [Attempt.andThen_of_error hfail] at ha
        exact .inr ⟨[], i, rest, rfl, .inl ⟨by simpa using htaken, ha ▸ hfail⟩⟩
      · rw [Attempt.andThen_of_error hfail] at ha
        exact .inr ⟨[], i, rest, rfl, .inr ⟨hnone, ha ▸ hfail⟩⟩
      · rw [Attempt.andThen_of_ok hok] at ha
        have hrest := ih (s.step (.instrument i.symbol i.name)).state
        rw [hsymbols, List.append_assoc, ← ha] at hrest
        rcases hrest with hdone | ⟨before, j, after, rfl, hcause⟩
        · exact .inl hdone
        · rw [List.append_assoc] at hcause
          exact .inr ⟨i :: before, j, after, rfl, hcause⟩

/-- Setting a positive tempo does not fail. -/
theorem step_tempo {bpm : Int} (hpos : 0 < bpm) :
    (s.step (.tempo bpm)).error = none ∧ (s.step (.tempo bpm)).state.symbols = s.symbols := by
  rw [step, onSong, Song.setTempo, dif_pos hpos]
  exact ⟨rfl, rfl⟩

theorem instruments_step_time (s : Session) (text : LooseText) :
    (s.step (.time text)).state.song.instruments = s.song.instruments := by
  rw [step_time]
  cases Meter.parse text.shown <;> rfl

theorem instruments_step_key (s : Session) (name : LooseText) :
    (s.step (.key name)).state.song.instruments = s.song.instruments := by
  rw [step_key]
  cases Key.ofName name <;> rfl

/-- Setting a time that can be read does not fail. -/
theorem step_time_error {text : LooseText} (hread : ∃ meter, Meter.parse text.shown = .ok meter) :
    (s.step (.time text)).error = none := by
  obtain ⟨meter, hmeter⟩ := hread
  rw [step_time, hmeter]
  rfl

/-- Setting a key fails if there is no such key. -/
theorem step_key_error {name : LooseText} (h : (s.step (.key name)).error = some e) :
    e = .invalidKey name ∧ ∀ k : Key, LooseText.ofString k.name ≠ name := by
  rw [step_key, Key.ofName] at h
  cases hfind : Key.all.find? fun k => LooseText.ofString k.name = name with
  | some k => simp [hfind, Attempt.ofExcept, Except.map] at h
  | none =>
      simp only [hfind, Attempt.ofExcept, Except.map, Option.some.injEq] at h
      refine ⟨h.symm, fun k hk => ?_⟩
      have hall : k ∈ Key.all := by
        obtain ⟨mode, place⟩ := k
        cases mode <;> simp [Key.all]
      simpa [hk] using List.find?_eq_none.mp hfind k hall

theorem attemptTimes_eq_attemptAll (next : Step) (times : Nat) (s : Session) :
    attemptTimes next times s = attemptAll (List.replicate times next) s := by
  induction times generalizing s with
  | zero => rfl
  | succ times ih => exact Attempt.andThen_congr fun _ => ih _

/-- What every step keeps holds where the steps stop, and it holds where a step fails. -/
theorem attemptAll_keeps {P : Session → Prop} {steps : List Step}
    (hkeep : ∀ next ∈ steps, ∀ t, P t → P (t.step next).state) (hs : P s) :
    P (attemptAll steps s).state ∧
      ∀ e, (attemptAll steps s).error = some e → ∃ next ∈ steps, ∃ t, P t ∧ (t.step next).error = some e := by
  induction steps generalizing s with
  | nil => exact ⟨hs, fun e he => nomatch he⟩
  | cons next rest ih =>
      obtain ⟨hfirst, hlater⟩ := List.forall_mem_cons.mp hkeep
      have hrest := ih hlater (hfirst s hs)
      refine ⟨Attempt.andThen_state (hfirst s hs) fun _ => hrest.1, fun e he => ?_⟩
      rcases Attempt.error_cases_of_andThen he with hfail | ⟨-, hfail⟩
      · exact ⟨next, List.mem_cons_self, s, hs, hfail⟩
      · obtain ⟨other, hother, t, ht, hstep⟩ := hrest.2 e hfail
        exact ⟨other, List.mem_cons_of_mem _ hother, t, ht, hstep⟩

end Session

namespace SectionEntry

open Session

variable {e : SectionEntry} {label : Option String}

/-- The steps that add a section under a label. -/
def steps (e : SectionEntry) (label : Option String) : List Step :=
  e.settings ++ List.replicate e.times.toNat (e.writing label)

theorem attempt_eq_attemptAll (hlabel : e.measures.label = .ok label) (s : Session) :
    e.attempt s = attemptAll (e.steps label) s := by
  rw [attempt, hlabel, steps, attemptAll_append]
  exact Attempt.andThen_congr fun _ => attemptTimes_eq_attemptAll _ _ _

theorem mem_steps {next : Step} (h : next ∈ e.steps label) :
    (∃ text ∈ e.time, next = .time text) ∨ (∃ name ∈ e.key, next = .key name) ∨ next = e.writing label := by
  rcases List.mem_append.mp h with hsetting | hwriting
  · rcases List.mem_append.mp hsetting with htime | hkey
    · obtain ⟨text, htext, rfl⟩ := Option.map_eq_some_iff.mp (Option.mem_toList.mp htime)
      exact .inl ⟨text, htext, rfl⟩
    · obtain ⟨name, hname, rfl⟩ := Option.map_eq_some_iff.mp (Option.mem_toList.mp hkey)
      exact .inr (.inl ⟨name, hname, rfl⟩)
  · exact .inr (.inr (List.eq_of_mem_replicate hwriting))

end SectionEntry

namespace Document

open Session

variable {d : Document} {s : Session} {entry : SectionEntry} {label : Option String} {e : Error}

/-- Whether a session is one that steps lead to, with the instruments of the document. -/
structure Declared (d : Document) (s : Session) : Prop where
  reached : Reaches {} s
  symbols_eq : s.symbols = d.instruments.map InstrumentEntry.symbol

namespace Declared

theorem consistent (h : d.Declared s) : s.song.Consistent := by
  obtain ⟨steps, rfl⟩ := h.reached
  exact run_consistent steps

theorem step_of_instruments_eq (h : d.Declared s) {next : Step}
    (hkeep : (s.step next).state.song.instruments = s.song.instruments) : d.Declared (s.step next).state where
  reached := h.reached.trans (.step s next)
  symbols_eq := by rw [symbols, hkeep, ← symbols, h.symbols_eq]

theorem step_time (h : d.Declared s) (text : LooseText) : d.Declared (s.step (.time text)).state :=
  h.step_of_instruments_eq (s.instruments_step_time text)

theorem step_key (h : d.Declared s) (name : LooseText) : d.Declared (s.step (.key name)).state :=
  h.step_of_instruments_eq (s.instruments_step_key name)

theorem step_writing (h : d.Declared s) (entry : SectionEntry) (label : Option String) :
    d.Declared (s.step (entry.writing label)).state := by
  refine h.step_of_instruments_eq ?_
  cases hlines : entry.lines.mapM Line.make? with
  | error error =>
      exact congrArg Song.instruments (s.step_write_of_refused entry.measures.measures label hlines false)
  | ok lines =>
      obtain ⟨hsong, -⟩ := s.step_write_of_accepted entry.measures.measures label hlines
      rw [SectionEntry.writing, hsong]
      rcases s.song.applySection_counts entry.measures.measures lines label with
        ⟨voices, hstate⟩ | ⟨u, -, ⟨voices, rfl⟩, hstate⟩
      · rw [hstate]
      · rw [hstate]
        rfl

/-- A section that is written fails at a line or at its lengths, or it cannot be named. -/
theorem writing_error (h : d.Declared s) (hentry : entry ∈ d.sections) (hsound : entry.Sound)
    (hlabel : entry.measures.label = .ok label) (he : (s.step (entry.writing label)).error = some e) :
    d.Flaw e := by
  obtain ⟨lines, hlines, hrequests⟩ := exists_lines hsound.defaultNote_pos
  have hline : ∀ line ∈ lines, d.HasLine line.toLineRequest := fun line hmem =>
    ⟨entry, hentry, hrequests ▸ List.mem_map_of_mem hmem⟩
  rw [SectionEntry.writing, (s.step_write_of_accepted _ _ hlines).2] at he
  rcases Song.applySection_cases h.consistent entry.measures.measures lines label with
    ⟨_, _, -, -, -, hok⟩ | ⟨e', t, hfailure, hfail⟩
  · rw [hok] at he
    cases he
  · obtain rfl : e' = e := by simpa [hfail] using he
    cases hfailure with
    | empty hnone => exact absurd hsound.measures_pos (not_lt.mpr hnone)
    | unnamed _ hnone _ => exact .label hentry fun text htext => by simp [hlabel, hnone] at htext
    | uneven _ _ _ _ =>
        unfold Error.mismatch
        split
        · next hreport => exact .lengths hreport
        · next hreport => exact .overflow (Option.not_isSome_iff_eq_none.mp hreport)
    | @stopped place before rest line parts voices after _ _ _ hsplit _ hstops =>
        have hthere := hline line (hsplit ▸ List.mem_append_right _ List.mem_cons_self)
        cases hstops with
        | unknown hnone =>
            rw [Song.findInstrument?_eq_none_iff, ← Session.symbols, h.symbols_eq] at hnone
            exact .instrument hthere hnone
        | full _ _ _ => exact .voices
        | unreadable _ _ hread =>
            obtain ⟨word, hword, hfail⟩ := exists_word_of_playTokens _ _ hread
            rcases Token.read_cases hfail with rfl | ⟨digits, hlong, rfl⟩
            · exact .word ⟨hthere, hword⟩ hfail
            · exact .numeral ⟨hthere, hword⟩ hlong hfail

/-- A section is added or has a flaw. -/
theorem attempt (h : d.Declared s) (hentry : entry ∈ d.sections) (hsound : entry.Sound) :
    d.Declared (entry.attempt s).state ∧ ∀ e, (entry.attempt s).error = some e → d.Flaw e := by
  cases hlabel : entry.measures.label with
  | error error =>
      have hattempt : entry.attempt s = ⟨s, some error⟩ := by rw [SectionEntry.attempt, hlabel]
      have hlong : error = .longNumber := Span.label_error hlabel
      rw [hattempt]
      refine ⟨h, fun e he => ?_⟩
      obtain rfl : error = e := Option.some.inj he
      subst hlong
      exact .label hentry fun text htext => by simp [hlabel] at htext
  | ok label =>
      rw [SectionEntry.attempt_eq_attemptAll hlabel]
      have hkeep : ∀ next ∈ entry.steps label, ∀ t, d.Declared t → d.Declared (t.step next).state := by
        intro next hnext t ht
        rcases SectionEntry.mem_steps hnext with ⟨text, -, rfl⟩ | ⟨name, -, rfl⟩ | rfl
        · exact ht.step_time text
        · exact ht.step_key name
        · exact ht.step_writing entry label
      obtain ⟨hstate, herror⟩ := attemptAll_keeps hkeep h
      refine ⟨hstate, fun e he => ?_⟩
      obtain ⟨next, hnext, t, ht, hfail⟩ := herror e he
      rcases SectionEntry.mem_steps hnext with ⟨text, htext, rfl⟩ | ⟨name, hname, rfl⟩ | rfl
      · rw [step_time_error (hsound.time text htext)] at hfail
        cases hfail
      · obtain ⟨rfl, hnone⟩ := step_key_error hfail
        exact .key (.inr ⟨entry, hentry, hname⟩) hnone
      · exact ht.writing_error hentry hsound hlabel hfail

theorem attemptSections (h : d.Declared s) {entries : List SectionEntry}
    (hentries : ∀ entry ∈ entries, entry ∈ d.sections ∧ entry.Sound)
    (he : (Document.attemptSections entries s).error = some e) : d.Flaw e := by
  induction entries generalizing s with
  | nil => cases he
  | cons entry rest ih =>
      obtain ⟨⟨hmem, hsound⟩, hrest⟩ := List.forall_mem_cons.mp hentries
      obtain ⟨hstate, herror⟩ := h.attempt hmem hsound
      rcases Attempt.error_cases_of_andThen he with hfail | ⟨-, hfail⟩
      · exact herror e hfail
      · exact ih hstate hrest hfail

end Declared

/-- What is set before the instruments of a document. -/
def heading (d : Document) : List Step :=
  [.title d.title, .author d.author, .tempo d.tempo, .time d.time, .key d.key]

/-- The head of a document fails only if its key is none. -/
theorem heading_cases (h : d.Sound) :
    let a := attemptAll d.heading {}
    a.state.symbols = [] ∧ ∀ e, a.error = some e → d.Flaw e := by
  have hkeep : ∀ next ∈ d.heading, ∀ t : Session, t.symbols = [] → (t.step next).state.symbols = [] := by
    intro next hnext t ht
    simp only [heading, List.mem_cons, List.not_mem_nil, or_false] at hnext
    rcases hnext with rfl | rfl | rfl | rfl | rfl
    · exact ht
    · exact ht
    · exact (step_tempo h.tempo_pos).2.trans ht
    · rwa [symbols, t.instruments_step_time d.time]
    · rwa [symbols, t.instruments_step_key d.key]
  obtain ⟨hstate, herror⟩ := attemptAll_keeps hkeep (s := {}) rfl
  refine ⟨hstate, fun e he => ?_⟩
  obtain ⟨next, hnext, t, -, hfail⟩ := herror e he
  simp only [heading, List.mem_cons, List.not_mem_nil, or_false] at hnext
  rcases hnext with rfl | rfl | rfl | rfl | rfl
  · cases hfail
  · cases hfail
  · rw [(step_tempo h.tempo_pos).1] at hfail
    cases hfail
  · rw [step_time_error h.time] at hfail
    cases hfail
  · obtain ⟨rfl, hnone⟩ := step_key_error hfail
    exact .key (.inl rfl) hnone

theorem declarations_cases (h : d.Sound) :
    let a := attemptAll d.declarations {}
    (a.error = none → d.Declared a.state) ∧ ∀ e, a.error = some e → d.Flaw e := by
  intro a
  obtain ⟨hempty, hflaw⟩ := heading_cases h
  have ha : a = (attemptAll d.heading {}).andThen
      (attemptAll (d.instruments.map fun i => .instrument i.symbol i.name)) := attemptAll_append ..
  have hreached : Reaches {} a.state := .attemptAll d.declarations {}
  cases hheading : (attemptAll d.heading {}).error with
  | some e =>
      rw [Attempt.andThen_of_error hheading] at ha
      rw [ha, hheading]
      exact ⟨fun hok => (nomatch hok), fun e' he => hflaw e' (hheading.trans he)⟩
  | none =>
      rw [Attempt.andThen_of_ok hheading] at ha
      have hinstruments := instruments_cases d.instruments (attemptAll d.heading {}).state
      rw [hempty, ← ha] at hinstruments
      rcases hinstruments with ⟨hok, hsymbols⟩ | ⟨before, i, after, hsplit, hcause⟩
      · exact ⟨fun _ => ⟨hreached, hsymbols⟩, fun e he => by simp [hok] at he⟩
      · have hi : i ∈ d.instruments := hsplit ▸ List.mem_append_right _ List.mem_cons_self
        have hfail : ∃ e, a.error = some e ∧ d.Flaw e := by
          rcases hcause with ⟨htaken, hfail⟩ | ⟨hnone, hfail⟩
          · exact ⟨_, hfail, .duplicate hsplit htaken⟩
          · exact ⟨_, hfail, .program hi hnone⟩
        obtain ⟨e, hfail, hflaw⟩ := hfail
        rw [hfail]
        refine ⟨nofun, fun e' he => ?_⟩
        cases he
        exact hflaw

/-- A document whose numbers are within their bounds has a song or a flaw. -/
theorem flaw_of_compile (h : d.Sound) (he : d.compile.result = .error e) : d.Flaw e := by
  have hfail : d.attempt.error = some e := by
    unfold compile at he
    dsimp only at he
    split at he
    · next e' hfail =>
        cases he
        exact hfail
    · cases he
  obtain ⟨hdeclared, hflaw⟩ := declarations_cases h
  rcases Attempt.error_cases_of_andThen hfail with hfirst | ⟨hok, hsections⟩
  · exact hflaw e hfirst
  · exact (hdeclared hok).attemptSections (fun entry hentry => ⟨hentry, h.sections entry hentry⟩) hsections

/-- A document of the right shape has a song, or it fails with one of the flaws that there are. None of
the bounds that the song checks again stops it, and no section of it is applied twice. -/
theorem load_of_shape (path : String) {value : Json} {d : Document} (h : Schema.document value = .ok d) :
    (∃ s, (load path value).result = .ok s) ∨
      ∃ e, (load path value).result = .error e ∧ d.Flaw e ∧ ¬ e.OfGuard := by
  have hload : load path value = d.compile := by rw [load, h]
  rw [hload]
  cases hresult : d.compile.result with
  | ok s => exact .inl ⟨s, rfl⟩
  | error e =>
      have hflaw := flaw_of_compile (Schema.sound_of_document h) hresult
      exact .inr ⟨e, rfl, hflaw, hflaw.not_ofGuard⟩

/-- A line for an instrument that nobody plays, in the measures from the second to the third. -/
theorem load_of_shape_stranger :
    let line : Json := .object [("voice", .string "xx"), ("notes", .string "1:c 1:d")]
    let value : Json := .object [("instruments", .array []), ("sections", .array [
      .object [("measures", .array [.integer 2, .integer 3]), ("lines", .array [line])]])]
    let e := Error.unknownInstrument "xx" (some "2..3")
    ∃ d, Schema.document value = .ok d ∧ (load "<song>" value).result = .error e ∧ d.Flaw e := by
  intro line value e
  have hread : ∃ d, Schema.document value = .ok d := ⟨_, rfl⟩
  obtain ⟨d, hd⟩ := hread
  have hresult : (load "<song>" value).result = .error e := by decide +kernel
  rcases load_of_shape "<song>" hd with ⟨s, hs⟩ | ⟨e', he', hflaw, -⟩
  · rw [hresult] at hs
    cases hs
  · rw [hresult] at he'
    cases he'
    exact ⟨d, hd, rfl, hflaw⟩

end Document

end LineScore
