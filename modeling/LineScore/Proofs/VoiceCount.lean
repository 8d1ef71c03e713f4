import LineScore.Proofs.Allocation
import LineScore.Proofs.Joining

/-! How many voices a song comes to have. Over a run in which all lines are played, an instrument has as many
voices as the most lines that one section had for it. There are too many voices exactly when a line comes
up that needs a new one while all sixteen exist; no other failure of a section looks like this one, and
none but a failed check of lengths comes after its lines. -/

namespace LineScore

open LineScore.Part

def Error.OfToken (e : Error) : Prop :=
  (∃ token, e = .unparseableToken token none none) ∨ ∃ digits, e = .longNumeral digits

theorem Token.read_cases {text : List Char} {e : Error} (h : read text = .error e) :
    e = .unparseableToken (String.ofList text) none none ∨
      ∃ digits, Text.maxDigits < digits ∧ e = .longNumeral digits := by
  unfold read at h
  dsimp only at h
  split at h
  · cases h
  · cases h
  · split at h
    · cases h
      exact Or.inl rfl
    · cases h
    · next figure _ _ =>
        split at h
        · next hlong =>
            cases h
            refine Or.inr ⟨_, ?_, rfl⟩
            by_contra hshort
            simp [Text.numeral?, not_lt.mp hshort] at hlong
        · cases h
          exact Or.inl rfl
        · cases h

theorem Token.read_error {text : List Char} {e : Error} (h : read text = .error e) : e.OfToken := by
  rcases read_cases h with rfl | ⟨digits, -, rfl⟩
  · exact Or.inl ⟨_, rfl⟩
  · exact Or.inr ⟨digits, rfl⟩

/-- A line that cannot be read has a word that cannot be read. -/
theorem exists_word_of_playTokens (context : LineContext) (texts : List (List Char)) {state : LineState}
    {e : Error} (h : playTokens context state texts = .error e) : ∃ text ∈ texts, Token.read text = .error e := by
  obtain ⟨place, ⟨text, hat, hread⟩, -⟩ := (playTokens_error_iff state texts e).mp h
  exact ⟨text, List.mem_of_getElem? hat, hread⟩

theorem Line.events_error {line : Line} {key : Key} {meter : Meter} {e : Error}
    (h : line.events key meter = .error e) : e.OfToken := by
  obtain ⟨word, -, hread⟩ := exists_word_of_playTokens _ _ h
  exact Token.read_error hread

namespace Song

variable {s : Song} {measures : Int} {lines before : List Line} {label : Option String} {place : String}
  {line : Line} {parts : List Part} {voices after : List Voice} {i : Instrument} {e : Error}

/-- How a line can fail: its instrument is unknown, there are too many voices, or it cannot be read. -/
theorem Stops.error_cases (h : Stops s place line parts voices e after) :
    e = .unknownInstrument line.symbol place ∨ e = .tooManyVoices 17 16 ∨
      (∃ token, e = .unparseableToken token line.symbol place) ∨ ∃ digits, e = .longNumeral digits := by
  cases h with
  | unknown hnone => exact Or.inl rfl
  | full hfind htaken hfull => exact Or.inr (Or.inl rfl)
  | unreadable hfind henters hread =>
      rcases Line.events_error hread with ⟨token, rfl⟩ | ⟨digits, rfl⟩
      · exact Or.inr (Or.inr (Or.inl ⟨token, rfl⟩))
      · exact Or.inr (Or.inr (Or.inr ⟨digits, rfl⟩))

/-- The errors of the check of lengths. -/
def IsUneven (e : Error) : Prop :=
  e = .lengthOverflow ∨ ∃ m, e = .lengthMismatch m

theorem isUneven_mismatch (m : Mismatch) : IsUneven (.mismatch m) := by
  unfold Error.mismatch
  split
  · exact Or.inr ⟨m, rfl⟩
  · exact Or.inl rfl

theorem Stops.not_isUneven (h : Stops s place line parts voices e after) : ¬ IsUneven e := by
  rintro (rfl | ⟨m, rfl⟩)
  · simpa using h.error_cases
  · simpa using h.error_cases

theorem not_isUneven_empty (measures : Int) : ¬ IsUneven (.reporting [measures] (.emptySection measures)) :=
  Error.holds_reporting (¬ IsUneven ·) (by simp [IsUneven]) (by simp [IsUneven])

theorem checkLengths_error (s : Song) (place : String) (sectionLength : Rat) :
    ∀ e ∈ (s.checkLengths place sectionLength).error, IsUneven e := by
  unfold checkLengths
  split
  · rintro e ⟨⟩
  · rintro e ⟨⟩
    exact isUneven_mismatch _

/-- All lines of a section are played if it does not fail, or fails only at the check of its lengths. -/
theorem finishesLines_iff (hs : s.Consistent) :
    s.FinishesLines measures lines label ↔ ∀ e ∈ (s.applySection measures lines label).error, IsUneven e := by
  have houtcome := applySection_outcome s measures lines label
  constructor
  · rintro ⟨hpos, place, hplace, hplayed⟩
    generalize s.applySection measures lines label = a at houtcome ⊢
    cases houtcome with
    | empty hnone => omega
    | unnamed e _ hother => simp [hplace] at hother
    | stopped other e _ hother hstop =>
        obtain rfl : place = other := by simpa [hplace] using hother
        simp [hplayed] at hstop
    | counted other _ _ _ => exact checkLengths_error _ _ _
  · intro huneven
    generalize s.applySection measures lines label = a at houtcome huneven
    cases houtcome with
    | empty hnone => exact absurd (huneven _ rfl) (not_isUneven_empty measures)
    | unnamed e _ hplace =>
        obtain ⟨-, rfl, -⟩ := sectionPlace_error hplace
        simp [IsUneven] at huneven
    | stopped place e _ _ hstop =>
        have hlines := playLines_outcome hs place lines
        generalize Stage.playLines place lines ⟨s, []⟩ = played at hlines hstop huneven
        cases hlines with
        | played _ => cases hstop
        | stopped _ _ hstops =>
            cases hstop
            exact absurd (huneven e rfl) hstops.not_isUneven
    | counted place hpos hplace hplayed => exact ⟨hpos, place, hplace, hplayed⟩

theorem exists_seated_of_finishesLines (hs : s.Consistent) (hfinish : s.FinishesLines measures lines label) :
    ∃ parts voices, Seated s lines parts voices ∧
      (s.applySection measures lines label).state = counted s measures parts voices := by
  have huneven := (finishesLines_iff hs).mp hfinish
  rcases applySection_cases hs measures lines label with
    ⟨parts, voices, -, hseated, -, hok⟩ | ⟨e, t, hfailure, hfail⟩
  · exact ⟨parts, voices, hseated, by rw [hok]⟩
  · rw [hfail] at huneven ⊢
    have he := huneven e rfl
    cases hfailure with
    | empty _ => exact absurd he (not_isUneven_empty measures)
    | unnamed _ _ _ => simp [IsUneven] at he
    | stopped _ _ _ _ hstops => exact absurd he hstops.not_isUneven
    | uneven _ _ hseated _ => exact ⟨_, _, hseated, rfl⟩

/-- A section whose lines are all played gives an instrument no more voices than they need. -/
theorem length_seatsOf_applySection (hs : s.Consistent) (hfinish : s.FinishesLines measures lines label)
    (hown : s.Unrivalled i) :
    (seatsOf (s.applySection measures lines label).state.voices i).length =
      max (seatsOf s.voices i).length (linesFor i.symbol lines) := by
  obtain ⟨parts, voices, hseated, hstate⟩ := exists_seated_of_finishesLines hs hfinish
  rw [hstate, counted, seatsOf_rested, hseated.length_seatsOf hown]

theorem Unrivalled.of_instruments {t : Song} (hown : t.Unrivalled i) (hgrows : s.instruments <+: t.instruments) :
    s.Unrivalled i :=
  fun j hj => hown j (hgrows.subset hj)

/-- Whether a line that comes up after others of its section finds all voices of its instrument taken. -/
def NeedsVoice (s : Song) (before : List Line) (line : Line) : Prop :=
  ∃ i, s.findInstrument? line.symbol = some i ∧ (seatsOf s.voices i).length ≤ linesFor line.symbol before

theorem Seated.taken_iff (h : Seated s before parts voices) (hown : s.Unrivalled i) :
    (∀ k, instrumentAt voices k = some i → k ∈ places parts) ↔
      (seatsOf s.voices i).length ≤ linesFor i.symbol before := by
  have hcount := h.length_seatsOf hown
  have hturn := h.placesFor_eq_take hown
  rw [h.placesFor_eq_filter hown] at hturn
  constructor
  · intro htaken
    by_contra hfew
    have hlt : linesFor i.symbol before < (seatsOf voices i).length := by omega
    -- the first seat that no line has is taken all the same
    have hseat := mem_seatsOf.mp (List.getElem_mem hlt)
    have hmem : (seatsOf voices i)[linesFor i.symbol before] ∈
        (places parts).filter fun k => instrumentAt voices k = some i :=
      List.mem_filter.mpr ⟨htaken _ hseat, by simpa using hseat⟩
    rw [hturn, getElem_mem_take_iff (seatsOf_pairwise voices i) hlt] at hmem
    omega
  · intro hmany k hat
    rw [List.take_of_length_le (by omega)] at hturn
    have hmem := mem_seatsOf.mpr hat
    rw [← hturn] at hmem
    exact (List.mem_filter.mp hmem).1

/-- A line makes too many voices exactly if it needs one and all sixteen exist. -/
theorem playLine_full_iff (hs : s.Consistent) (h : Seated s before parts voices) (place : String) (line : Line)
    (count limit : Int) :
    (Stage.playLine place line (seatedStage s parts voices)).error = some (.tooManyVoices count limit) ↔
      (count = 17 ∧ limit = 16) ∧ NeedsVoice s before line ∧ voices.length = 16 := by
  constructor
  · intro herror
    rcases playLine_outcome hs place h line with ⟨part, after, hline, -⟩ | ⟨e, after, active, hline, hstops⟩
    · simp [hline] at herror
    · obtain rfl : e = .tooManyVoices count limit := by simpa [hline] using herror
      have hnumbers : count = 17 ∧ limit = 16 := by simpa using hstops.error_cases
      obtain ⟨rfl, rfl⟩ := hnumbers
      generalize he : Error.tooManyVoices 17 16 = e at hstops
      cases hstops with
      | unknown _ => cases he
      | full hfind htaken hfull =>
          have hsymbol := symbol_of_findInstrument? hfind
          have hown := hs.unrivalled (mem_of_findInstrument? hfind)
          have hmany := (h.taken_iff hown).mp htaken
          exact ⟨⟨rfl, rfl⟩, ⟨_, hfind, hsymbol ▸ hmany⟩, hfull⟩
      | unreadable _ _ hread =>
          rcases Line.events_error hread with ⟨token, rfl⟩ | ⟨digits, rfl⟩ <;> cases he
  · rintro ⟨⟨rfl, rfl⟩, ⟨i, hfind, hmany⟩, hfull⟩
    have hsymbol := symbol_of_findInstrument? hfind
    have hown := hs.unrivalled (mem_of_findInstrument? hfind)
    have htaken := (h.taken_iff hown).mpr (hsymbol ▸ hmany)
    rcases h.voiceFor_eq hs i with ⟨k, after, henters, -⟩ | ⟨-, -, hvoice⟩
    · cases henters with
      | free hat hfree _ => exact absurd (htaken k hat) hfree
      | late _ hroom => omega
    · rw [Stage.playLine_of_refused _ place hfind hvoice]

theorem Stage.playLines_error_iff (st : Stage) (place : String) (lines : List Line) (e : Error) :
    (playLines place lines st).error = some e ↔ ∃ before line rest t, lines = before ++ line :: rest ∧
      playLines place before st = ⟨t, none⟩ ∧ (playLine place line t).error = some e := by
  induction lines generalizing st with
  | nil => simp [playLines]
  | cons first others ih =>
      rw [playLines]
      cases hfirst : (playLine place first st).error with
      | some e' =>
          rw [Attempt.andThen_of_error hfirst]
          constructor
          · intro he
            exact ⟨[], first, others, st, rfl, rfl, he⟩
          · rintro ⟨before, line, rest, t, hsplit, hbefore, he⟩
            cases before with
            | nil =>
                obtain ⟨rfl, rfl⟩ := List.cons.inj hsplit
                cases hbefore
                exact he
            | cons other before =>
                obtain ⟨rfl, -⟩ := List.cons.inj hsplit
                rw [playLines, Attempt.andThen_of_error hfirst] at hbefore
                simp [hbefore] at hfirst
      | none =>
          rw [Attempt.andThen_of_ok hfirst, ih]
          constructor
          · rintro ⟨before, line, rest, t, rfl, hbefore, he⟩
            refine ⟨first :: before, line, rest, t, rfl, ?_, he⟩
            rw [playLines, Attempt.andThen_of_ok hfirst, hbefore]
          · rintro ⟨before, line, rest, t, hsplit, hbefore, he⟩
            cases before with
            | nil =>
                obtain ⟨rfl, rfl⟩ := List.cons.inj hsplit
                cases hbefore
                simp [hfirst] at he
            | cons other before =>
                obtain ⟨rfl, rfl⟩ := List.cons.inj hsplit
                rw [playLines, Attempt.andThen_of_ok hfirst] at hbefore
                exact ⟨before, line, rest, t, rfl, hbefore, he⟩

/-- Whether a section comes, all lines before it being played, to a line that needs a voice while all
sixteen exist. -/
def ReachesFull (s : Song) (measures : Int) (lines : List Line) (label : Option String) : Prop :=
  0 < measures ∧ ∃ place before line rest t, s.sectionPlace measures label = .ok place ∧
    lines = before ++ line :: rest ∧ Stage.playLines place before ⟨s, []⟩ = ⟨t, none⟩ ∧
    NeedsVoice s before line ∧ t.song.voices.length = 16

theorem playLines_full_iff (hs : s.Consistent) (place : String) (lines : List Line) (count limit : Int) :
    (Stage.playLines place lines ⟨s, []⟩).error = some (.tooManyVoices count limit) ↔
      (count = 17 ∧ limit = 16) ∧ ∃ before line rest t, lines = before ++ line :: rest ∧
        Stage.playLines place before ⟨s, []⟩ = ⟨t, none⟩ ∧ NeedsVoice s before line ∧
        t.song.voices.length = 16 := by
  have hstage : ∀ before t, Stage.playLines place before ⟨s, []⟩ = ⟨t, none⟩ → ∀ line,
      (Stage.playLine place line t).error = some (.tooManyVoices count limit) ↔
        (count = 17 ∧ limit = 16) ∧ NeedsVoice s before line ∧ t.song.voices.length = 16 := by
    intro before t hbefore line
    have hlines := playLines_outcome hs place before
    rw [hbefore] at hlines
    cases hlines with
    | played hseated => exact playLine_full_iff hs hseated place line count limit
  rw [Stage.playLines_error_iff]
  constructor
  · rintro ⟨before, line, rest, t, hsplit, hbefore, herror⟩
    obtain ⟨hnumbers, hneeds, hfull⟩ := (hstage before t hbefore line).mp herror
    exact ⟨hnumbers, before, line, rest, t, hsplit, hbefore, hneeds, hfull⟩
  · rintro ⟨hnumbers, before, line, rest, t, hsplit, hbefore, hneeds, hfull⟩
    have herror := (hstage before t hbefore line).mpr ⟨hnumbers, hneeds, hfull⟩
    exact ⟨before, line, rest, t, hsplit, hbefore, herror⟩

theorem applySection_full_iff (hs : s.Consistent) (measures : Int) (lines : List Line) (label : Option String)
    (count limit : Int) :
    (s.applySection measures lines label).error = some (.tooManyVoices count limit) ↔
      (count = 17 ∧ limit = 16) ∧ s.ReachesFull measures lines label := by
  constructor
  · intro herror
    have houtcome := applySection_outcome s measures lines label
    generalize s.applySection measures lines label = a at houtcome herror
    cases houtcome with
    | empty _ =>
        exact absurd (Option.some.inj herror) (Error.holds_reporting (· ≠ .tooManyVoices count limit) nofun nofun)
    | unnamed e _ hplace =>
        obtain ⟨-, rfl, -⟩ := sectionPlace_error hplace
        cases herror
    | stopped place e hpos hplace hstop =>
        obtain rfl : e = .tooManyVoices count limit := Option.some.inj herror
        obtain ⟨hnumbers, before, line, rest, t, hfull⟩ := (playLines_full_iff hs place lines _ _).mp hstop
        exact ⟨hnumbers, hpos, place, before, line, rest, t, hplace, hfull⟩
    | counted place _ _ _ => simpa [IsUneven] using checkLengths_error _ _ _ _ herror
  · rintro ⟨hnumbers, hpos, place, before, line, rest, t, hplace, hfull⟩
    have hstop := (playLines_full_iff hs place lines count limit).mpr ⟨hnumbers, before, line, rest, t, hfull⟩
    simp [applySection, not_le.mpr hpos, hplace, hstop]

end Song

namespace Session

open Song

variable {s : Session} {i : Instrument}

/-- The voices of an instrument after a step: those that were there, or as many as an attempt to add a
section has lines for it. -/
theorem step_count (hs : s.song.Consistent) (hown : s.song.Unrivalled i) (next : Step)
    (hfinish : ∀ c ∈ s.call? next, c.FinishesLines) :
    (seatsOf (s.step next).state.song.voices i).length =
      ((s.call? next).toList.map fun c => linesFor i.symbol c.lines).foldl max
        (seatsOf s.song.voices i).length := by
  cases hcall : s.call? next with
  | none =>
      rw [(step_of_no_call hcall).voices_eq]
      rfl
  | some c =>
      obtain ⟨hsong, hstate, -⟩ := step_of_call hcall
      have hall := hfinish c hcall
      rw [SectionCall.FinishesLines, hsong] at hall
      rw [hstate, SectionCall.outcome, hsong, length_seatsOf_applySection hs hall hown]
      rfl

/-- The voices of an instrument after a run of steps. -/
theorem run_count (hs : s.song.Consistent) (steps : List Step) (hown : (s.run steps).song.Unrivalled i)
    (hfinish : ∀ c ∈ s.calls steps, c.FinishesLines) :
    (seatsOf (s.run steps).song.voices i).length =
      ((s.calls steps).map fun c => linesFor i.symbol c.lines).foldl max (seatsOf s.song.voices i).length := by
  induction steps generalizing s with
  | nil => rfl
  | cons next rest ih =>
      rw [calls] at hfinish ⊢
      obtain ⟨hnow, hlater⟩ := List.forall_mem_append.mp hfinish
      have hnext : (s.step next).state.song.Consistent :=
        (s.step_edits next).keeps (fun _ _ hedit h => h.edit hedit) hs
      have hstart := hown.of_instruments (s.run_edits (next :: rest)).keep_instruments
      have hcount := step_count hs hstart next fun c hc => hnow c (Option.mem_toList.mpr hc)
      rw [run_cons] at hown ⊢
      rw [ih hnext hown hlater, List.map_append, List.foldl_append, hcount]

/-- After any steps, a section whose lines are all played shares them out to the voices of its instruments
in turn. It fails for too many voices exactly when a line that needs one comes up while all sixteen exist.
If all lines of all sections so far have been played, an instrument has as many voices as the most lines
that one section had for it. -/
theorem run_sharesOut (steps : List Step) :
    let s := (run {} steps).song
    (∀ measures lines label,
      let a := s.applySection measures lines label
      (s.FinishesLines measures lines label ↔ ∀ e ∈ a.error, IsUneven e) ∧
      (s.FinishesLines measures lines label → ∃ places, s.SharesOut measures lines a.state places) ∧
      ∀ count limit, a.error = some (.tooManyVoices count limit) ↔
        (count = 17 ∧ limit = 16) ∧ s.ReachesFull measures lines label) ∧
    ((∀ c ∈ calls {} steps, c.FinishesLines) → ∀ i ∈ s.instruments,
      (seatsOf s.voices i).length = ((calls {} steps).map fun c => linesFor i.symbol c.lines).foldl max 0) := by
  intro s
  have hs : s.Consistent := run_consistent steps
  have hsilence := (records_of_run steps).totalLength_elapsedRests
  refine ⟨fun measures lines label => ⟨finishesLines_iff hs, fun hfinish => ?_,
    applySection_full_iff hs measures lines label⟩, fun hfinish i hi => ?_⟩
  · obtain ⟨parts, voices, hseated, hstate⟩ := exists_seated_of_finishesLines hs hfinish
    rw [hstate]
    exact ⟨places parts, hseated.sharesOut hs hsilence measures⟩
  · exact run_count consistent_empty steps (hs.unrivalled hi) hfinish

/-- A violin with two lines in its first section has two voices. A line of the next section goes to the
older of them. -/
theorem run_sharesOut_duet :
    let steps : List Step := [.instrument "vi" "Violin", .applySection 1 [⟨"vi", "1:c", none, false⟩,
      ⟨"vi", "1:e", none, false⟩] none]
    let s := (run {} steps).song
    let lines : List Line := [⟨⟨"vi", "1:d", none, false⟩, by simp⟩]
    (∀ c ∈ calls {} steps, c.FinishesLines) ∧ s.FinishesLines 1 lines none ∧
      (∀ i ∈ s.instruments, (seatsOf s.voices i).length = 2) ∧
      s.SharesOut 1 lines (s.applySection 1 lines none).state [0] := by
  intro steps s lines
  let violin : Instrument := ⟨"vi", "Violin", ⟨40, by decide⟩⟩
  let start : Session := { song := { instruments := [violin] } }
  let first : Step := .applySection 1 [⟨"vi", "1:c", none, false⟩, ⟨"vi", "1:e", none, false⟩] none
  have hcalls : calls {} steps = calls start [first] := by
    simp only [steps, calls, step_violin]
    rfl
  have hs : s = (start.run [first]).song := by
    simp only [s, steps, run_cons, step_violin]
    rfl
  have hduet := run_sharesOut steps
  have hfirst : ∀ c ∈ calls start [first], c.outcome.error = none := by decide +kernel
  have hfinish : ∀ c ∈ calls {} steps, c.FinishesLines :=
    fun c hc => finishesLines_of_ok (hfirst c (hcalls ▸ hc))
  have hnext : s.FinishesLines 1 lines none := by
    rw [hs]
    exact finishesLines_of_ok (by decide +kernel)
  have hviolin : s.instruments = [violin] := by
    rw [hs]
    decide +kernel
  refine ⟨hfinish, hnext, fun i hi => ?_, ?_⟩
  · obtain rfl := List.mem_singleton.mp (hviolin ▸ hi)
    rw [hduet.2 hfinish violin hi, hcalls]
    decide +kernel
  · obtain ⟨places, hshares⟩ := (hduet.1 1 lines none).2.1 hnext
    obtain ⟨k, rest, -, hlast, rfl⟩ := List.forall₂_cons_left_iff.mp hshares.played
    obtain rfl := List.forall₂_nil_left_iff.mp hlast
    have hturn := hshares.in_turn violin (hviolin ▸ List.mem_singleton_self violin)
    have holdest : (seatsOf (s.applySection 1 lines none).state.voices violin).take (linesFor "vi" lines) = [0] := by
      rw [hs]
      decide +kernel
    obtain rfl : k = 0 := by simpa [placesFor, lines, violin] using hturn.trans holdest
    exact hshares

end Session

end LineScore
