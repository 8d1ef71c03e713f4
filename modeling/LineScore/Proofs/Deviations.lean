import LineScore.Proofs.Canonical
import LineScore.Proofs.Evenness
import LineScore.Proofs.VoiceCount

/-! Reports of uneven voices. The check of lengths compares whole voices with the whole song, while its report
tells what each voice gave to the last section; the two agree, since a section is as long as what the song
grew by. What a voice is said to give is what the section gave it, up to the drift that the sections before
it were allowed, and a voice that the section made has no drift. -/

namespace LineScore

/-- The sign of an excess. What is missing has its sign in its digits. -/
def excessSign (difference : Rat) : String :=
  if 0 < difference then "+" else ""

/-- The lines that report a voice: what it gives, and behind a mark how far it is off, if it is. -/
inductive ReportLine (label : LooseText) (given : Rat) : Option Rat → String → Prop where
  | plain {amount : String} (hgiven : Number.shortText? given = some amount) :
      ReportLine label given none s!"  {label}: {amount}"
  | marked {deviation : Rat} {amount difference : String} (hgiven : Number.shortText? given = some amount)
      (hdeviation : Number.shortText? deviation = some difference) :
      ReportLine label given (some deviation)
        s!"  {label}: {amount}  <- off by {excessSign deviation}{difference}"

/-- Whether a mismatch reports on the voices of `t`, which a section has made of `s`. -/
structure Mismatch.ReportsOn (m : Mismatch) (s t : Song) : Prop where
  expected : t.length = s.length + m.expected
  /-- Every voice is listed once, in the order in which the voices entered. -/
  lengths : m.lengths = t.voices.map fun v => (v.label, v.length - s.length)
  in_order : ∀ (k : Nat) v, t.voices[k]? = some v → v.index = k
  labels_nodup : (m.lengths.map Prod.fst).Nodup
  /-- The voices that are off are those that differ from the song. -/
  deviations : m.deviations =
    (t.voices.filter fun v => 1 / 100000 < |v.length - t.length|).map fun v => (v.label, v.length - t.length)
  some_off : m.deviations ≠ []
  /-- The message has a line for each voice, and it marks those that differ from the song. -/
  message : ∃ expected texts, Number.shortText? m.expected = some expected ∧
    List.Forall₂ (fun v text => ReportLine v.label (v.length - s.length)
      (if 1 / 100000 < |v.length - t.length| then some (v.length - t.length) else none) text) t.voices texts ∧
    (Error.lengthMismatch m).message =
      s!"Your voices in measure(s) {m.place} should be {expected} quarter notes long:\n" ++
        "\n".intercalate texts

theorem forall₂_of_mapM_eq_some {α β : Type} {f : α → Option β} {xs : List α} {ys : List β}
    (h : xs.mapM f = some ys) : List.Forall₂ (fun x y => f x = some y) xs ys := by
  induction xs generalizing ys with
  | nil =>
      cases h
      exact .nil
  | cons x xs ih =>
      rw [List.mapM_cons] at h
      obtain ⟨y, hy, h⟩ := Option.bind_eq_some_iff.mp h
      obtain ⟨rest, hrest, h⟩ := Option.bind_eq_some_iff.mp h
      cases h
      exact .cons hy (ih hrest)

theorem Error.message_lengthMismatch (m : Mismatch) : (Error.lengthMismatch m).message = m.report?.getD "" :=
  rfl

namespace Mismatch

variable {m : Mismatch} {entry : LooseText × Rat} {text : String}

theorem isOff_iff (m : Mismatch) (given : Rat) : m.isOff given = true ↔ tolerance < |given - m.expected| := by
  rw [isOff, decide_eq_true_eq, distance_eq_abs]

theorem reportLine_of_line? (h : m.line? entry = some text) :
    ReportLine entry.1 entry.2
      (if tolerance < |entry.2 - m.expected| then some (entry.2 - m.expected) else none) text := by
  obtain ⟨amount, hgiven, h⟩ := Option.bind_eq_some_iff.mp h
  by_cases hoff : m.isOff entry.2 = true
  · rw [if_pos hoff] at h
    obtain ⟨difference, hdeviation, h⟩ := Option.bind_eq_some_iff.mp h
    cases h
    rw [if_pos ((m.isOff_iff _).mp hoff)]
    exact .marked hgiven hdeviation
  · rw [if_neg hoff] at h
    cases h
    rw [if_neg fun habs => hoff ((m.isOff_iff _).mpr habs)]
    exact .plain hgiven

/-- A report that can be written is its heading and a line for each entry. -/
theorem exists_lines_of_report? (h : m.report? = some text) :
    ∃ expected texts, Number.shortText? m.expected = some expected ∧
      List.Forall₂ (fun entry line => m.line? entry = some line) m.lengths texts ∧
      text = s!"Your voices in measure(s) {m.place} should be {expected} quarter notes long:\n" ++
        "\n".intercalate texts := by
  obtain ⟨texts, htexts, h⟩ := Option.bind_eq_some_iff.mp h
  obtain ⟨expected, hexpected, h⟩ := Option.bind_eq_some_iff.mp h
  cases h
  exact ⟨expected, texts, hexpected, forall₂_of_mapM_eq_some htexts, rfl⟩

end Mismatch

namespace Voice

/-- The digits before the last character of a label are those of the voice's place. -/
theorem takeWhile_label {v : Voice} {k : Nat} (hindex : v.index = k) :
    (v.label.chars.reverse.drop 1).takeWhile Text.isDigit = (Nat.toDigits 10 k).reverse := by
  -- from its end a label shows a bracket, the digits of the place, and a blank before them
  have hlabel : v.label.chars = v.instrument.name.chars ++ " (voice ".toList ++ Nat.toDigits 10 k ++ [')'] := by
    rw [← toList_toString_natCast, ← hindex]
    simp only [label, LooseText.chars_append, LooseText.chars_ofString, String.toList_append, List.append_assoc]
    rfl
  have hdigits : ∀ c ∈ (Nat.toDigits 10 k).reverse, Text.isDigit c = true :=
    fun c hc => Text.isDigit_of_mem_toDigits (List.mem_reverse.mp hc)
  have hblank : Text.isDigit ' ' = false := by decide
  rw [hlabel, List.reverse_append, List.reverse_singleton, List.singleton_append, List.drop_succ_cons,
    List.drop_zero, List.reverse_append, List.takeWhile_append_of_pos hdigits]
  simp [hblank]

/-- No two voices of a song have one label, also where their instruments have one name. -/
theorem nodup_labels {voices : List Voice} (hindex : ∀ (k : Nat) v, voices[k]? = some v → v.index = k) :
    (voices.map label).Nodup := by
  rw [List.nodup_iff_injective_getElem]
  intro j k hsame
  simp only [List.getElem_map] at hsame
  have hdigits := takeWhile_label (hindex j _ (List.getElem?_eq_getElem (by simpa using j.isLt)))
  rw [hsame, takeWhile_label (hindex k _ (List.getElem?_eq_getElem (by simpa using k.isLt)))] at hdigits
  have hplaces := congrArg Text.numeral (List.reverse_inj.mp hdigits)
  rw [Text.numeral_toDigits, Text.numeral_toDigits] at hplaces
  exact Fin.ext hplaces.symm

end Voice

namespace Song

variable {s t : Song} {measures : Int} {lines : List Line} {label : Option String} {m : Mismatch}

/-- The report on a song that ends with a section, if it can be written. -/
theorem reportsOn_lastLengths (ht : t.Consistent) {place : String} {expected : Rat}
    (hm : m = ⟨place, expected, t.lastLengths expected⟩) (hlength : t.length = s.length + expected)
    (hreport : m.report?.isSome) (hodd : ∃ v ∈ t.voices, tolerance < |v.length - t.length|) :
    m.ReportsOn s t := by
  subst hm
  have hlengths : t.lastLengths expected = t.voices.map fun v => (v.label, v.length - s.length) := by
    rw [lastLengths, hlength, add_sub_cancel_right]
  have hexcess : ∀ v : Voice, v.length - s.length - expected = v.length - t.length := by
    intro v
    rw [hlength]
    ring
  have hdeviations : (⟨place, expected, t.lastLengths expected⟩ : Mismatch).deviations =
      (t.voices.filter fun v => 1 / 100000 < |v.length - t.length|).map fun v =>
        (v.label, v.length - t.length) := by
    simp only [Mismatch.deviations, hlengths, List.filter_map, List.map_map, Function.comp_def,
      Mismatch.isOff, distance_eq_abs, hexcess, tolerance]
  refine ⟨hlength, hlengths, ht.index_eq, ?_, hdeviations, ?_, ?_⟩
  · have hlabels := Voice.nodup_labels ht.index_eq
    simpa [hlengths, Function.comp_def] using hlabels
  · obtain ⟨v, hv, hoff⟩ := hodd
    rw [hdeviations, Ne, List.map_eq_nil_iff]
    have hmem : v ∈ t.voices.filter fun v => 1 / 100000 < |v.length - t.length| :=
      List.mem_filter.mpr ⟨hv, decide_eq_true hoff⟩
    exact List.ne_nil_of_mem hmem
  · obtain ⟨text, htext⟩ := Option.isSome_iff_exists.mp hreport
    obtain ⟨amount, texts, hamount, hlines, rfl⟩ := Mismatch.exists_lines_of_report? htext
    refine ⟨amount, texts, hamount, ?_, ?_⟩
    · dsimp only at hlines
      rw [hlengths, List.forall₂_map_left_iff] at hlines
      refine hlines.imp fun v line hline => ?_
      have hreported := Mismatch.reportLine_of_line? hline
      rw [tolerance] at hreported
      simpa only [hexcess] using hreported
    · rw [Error.message_lengthMismatch, htext, Option.getD_some]

/-- Voices are reported as uneven only of a section that has been counted, and the report is on what it
has made of the song. -/
theorem applySection_lengthMismatch (hs : s.Consistent)
    (hfail : (s.applySection measures lines label).error = some (.lengthMismatch m)) :
    s.FinishesLines measures lines label ∧ s.sectionPlace measures label = .ok m.place ∧
      m.ReportsOn s (s.applySection measures lines label).state := by
  have hkeeps := hs.applySection measures lines label
  have hfinish : s.FinishesLines measures lines label := by
    refine (finishesLines_iff hs).mpr fun e he => ?_
    rw [hfail, Option.mem_some] at he
    exact Or.inr ⟨m, he.symm⟩
  refine ⟨hfinish, ?_⟩
  rcases applySection_cases hs measures lines label with ⟨_, _, -, -, -, hok⟩ | ⟨e, t, hfailure, hfailed⟩
  · rw [hok] at hfail
    cases hfail
  · rw [hfailed] at hfail hkeeps ⊢
    obtain rfl : e = .lengthMismatch m := Option.some.inj hfail
    generalize he : Error.lengthMismatch m = e at hfailure
    cases hfailure with
    | empty _ => exact absurd (Or.inr ⟨m, he.symm⟩) (not_isUneven_empty measures)
    | unnamed _ _ _ => cases he
    | stopped _ _ _ _ hstops => exact absurd (Or.inr ⟨m, he.symm⟩) hstops.not_isUneven
    | uneven hpos hplace hseated hodd =>
        unfold Error.mismatch at he
        split at he
        · next hreport =>
            obtain rfl := Error.lengthMismatch.inj he
            exact ⟨hplace, reportsOn_lastLengths hkeeps rfl rfl hreport hodd⟩
        · cases he

/-- What a section gives to the voice at a place: the events of its line, or a rest for all measures if it
has none. -/
inductive Gives (s : Song) (measures : Int) (lines : List Line) (places : List Nat) (place : Nat) :
    List Event → Prop where
  | line {line : Line} {events : List Event} (hline : (line, place) ∈ lines.zip places)
      (hread : line.events s.key s.meter = .ok events) : Gives s measures lines places place events
  | rest (hnone : place ∉ places) : Gives s measures lines places place [.measureRest measures s.meter]

namespace SharesOut

variable {places : List Nat}

theorem exists_given (h : SharesOut s measures lines t places) {k : Nat} {v : Voice}
    (hv : t.voices[k]? = some v) :
    ∃ given, Gives s measures lines places k given ∧ v.events = s.eventsBefore k ++ given := by
  by_cases hline : k ∈ places
  · obtain ⟨n, hn, rfl⟩ := List.mem_iff_getElem.mp hline
    have hcount := h.played.length_eq
    have hpair : (lines[n], places[n]) ∈ lines.zip places := by
      rw [← List.getElem_zip (h := by rw [List.length_zip]; omega)]
      exact List.getElem_mem _
    obtain ⟨events, hread, hevents⟩ := List.forall₂_zip h.played hpair
    rw [hv, Option.map_some, Option.some.injEq] at hevents
    exact ⟨events, .line hpair hread, hevents⟩
  · obtain ⟨-, hevents⟩ := h.resting k (List.getElem?_eq_some_iff.mp hv).1 hline
    rw [hv, Option.map_some, Option.some.injEq] at hevents
    exact ⟨_, .rest hline, hevents⟩

/-- What a voice has before a section is off by its drift; a voice that is yet to enter has none. -/
theorem drift_eq (h : SharesOut s measures lines t places) (hs : s.Consistent) (ht : t.Consistent) {k : Nat}
    {v : Voice} {given : List Event} (hv : t.voices[k]? = some v) (hevents : v.events = s.eventsBefore k ++ given) :
    v.length - s.length - totalLength given = (s.voices[k]?.map fun w => w.length - s.length).getD 0 := by
  rw [ht.voice_length v (List.mem_of_getElem? hv), hevents, totalLength_append]
  cases hold : s.voices[k]? with
  | none =>
      simp only [eventsBefore, hold, Option.map_none, Option.getD_none, h.silence.1]
      ring
  | some w =>
      simp only [eventsBefore, hold, Option.map_some, Option.getD_some,
        hs.voice_length w (List.mem_of_getElem? hold)]
      ring

end SharesOut

end Song

namespace Session

open Song

theorem step_even {s : Session} {next : Step} (hok : ∀ c ∈ s.call? next, c.outcome.error = none)
    (heven : ∀ v ∈ s.song.voices, |v.length - s.song.length| ≤ tolerance) :
    ∀ v ∈ (s.step next).state.song.voices, |v.length - (s.step next).state.song.length| ≤ tolerance := by
  cases hcall : s.call? next with
  | none =>
      have hdeclares := step_of_no_call hcall
      rw [hdeclares.voices_eq, hdeclares.sameCounts.length]
      exact heven
  | some c =>
      obtain ⟨-, hstate, -⟩ := step_of_call hcall
      have hnone := hok c hcall
      rw [hstate]
      exact (applySection_error_eq_none_iff (finishesLines_of_ok hnone)).mp hnone

/-- While no section fails, all voices stay within the tolerance of the song. -/
theorem run_even {s : Session} (steps : List Step) (hok : ∀ c ∈ s.calls steps, c.outcome.error = none)
    (heven : ∀ v ∈ s.song.voices, |v.length - s.song.length| ≤ tolerance) :
    ∀ v ∈ (s.run steps).song.voices, |v.length - (s.run steps).song.length| ≤ tolerance := by
  induction steps generalizing s with
  | nil => exact heven
  | cons next rest ih =>
      rw [calls] at hok
      obtain ⟨hnow, hlater⟩ := List.forall_mem_append.mp hok
      rw [run_cons]
      exact ih hlater (step_even (fun c hc => hnow c (Option.mem_toList.mpr hc)) heven)

/-- After any steps, a section that fails for uneven voices has been shared out to its voices, and the error
reports on all of them: it lists what each gives, and it tells and marks those that differ from the song. What
a voice is said to give is exactly what the section gave it if the section made the voice, and else within the
tolerance of that if no section has failed before. -/
theorem applySection_mismatch (steps : List Step) (measures : Int) (lines : List Line) (label : Option String)
    (m : Mismatch)
    (hfail : ((run {} steps).song.applySection measures lines label).error = some (.lengthMismatch m)) :
    let s := (run {} steps).song
    let t := (s.applySection measures lines label).state
    s.sectionPlace measures label = .ok m.place ∧ m.ReportsOn s t ∧
    ∃ places, s.SharesOut measures lines t places ∧
      ∀ (k : Nat) v, t.voices[k]? = some v → ∃ listed given,
        m.lengths[k]? = some (v.label, listed) ∧ s.Gives measures lines places k given ∧
        v.events = s.eventsBefore k ++ given ∧
        (s.voices.length ≤ k → listed = totalLength given) ∧
        ((∀ c ∈ calls {} steps, c.outcome.error = none) → |listed - totalLength given| ≤ 1 / 100000) := by
  intro s t
  have hs : s.Consistent := run_consistent steps
  have ht : t.Consistent := hs.applySection measures lines label
  have hsilence := (records_of_run steps).totalLength_elapsedRests
  obtain ⟨hfinish, hplace, hreports⟩ := applySection_lengthMismatch hs hfail
  obtain ⟨parts, voices, hseated, hstate⟩ := exists_seated_of_finishesLines hs hfinish
  have hshares : s.SharesOut measures lines t (Part.places parts) := by
    rw [show t = counted s measures parts voices from hstate]
    exact hseated.sharesOut hs hsilence measures
  refine ⟨hplace, hreports, Part.places parts, hshares, fun k v hv => ?_⟩
  obtain ⟨given, hgives, hevents⟩ := hshares.exists_given hv
  have hdrift := hshares.drift_eq hs ht hv hevents
  refine ⟨v.length - s.length, given, ?_, hgives, hevents, fun hnew => ?_, fun hok => ?_⟩
  · rw [hreports.lengths, List.getElem?_map, hv, Option.map_some]
  · rw [List.getElem?_eq_none hnew] at hdrift
    exact sub_eq_zero.mp hdrift
  · rw [hdrift]
    have heven := run_even steps hok fun v hv => absurd hv List.not_mem_nil
    cases hold : s.voices[k]? with
    | none => norm_num
    | some w => exact heven w (List.mem_of_getElem? hold)

/-- After a whole note of one violin, a section in which a second violin plays a half note only. -/
theorem applySection_mismatch_late :
    let steps : List Step := [.instrument "vi" "Violin", .applySection 1 [⟨"vi", "1:c", none, false⟩] none]
    let lines : List Line := [⟨⟨"vi", "1:d", none, false⟩, by simp⟩, ⟨⟨"vi", "2:e", none, false⟩, by simp⟩]
    let s := (run {} steps).song
    let a := s.applySection 1 lines none
    let m : Mismatch := ⟨"2", 4, [("Violin (voice 0)", 4), ("Violin (voice 1)", 2)]⟩
    a.error = some (.lengthMismatch m) ∧ (∀ c ∈ calls {} steps, c.outcome.error = none) ∧ m.ReportsOn s a.state ∧
      m.deviations = [(("Violin (voice 1)" : LooseText), -2)] ∧
      (Error.lengthMismatch m).message = "Your voices in measure(s) 2 should be 4 quarter notes long:\n" ++
        "  Violin (voice 0): 4\n  Violin (voice 1): 2  <- off by -2" := by
  intro steps lines s a m
  have hfail : a.error = some (.lengthMismatch m) := by decide +kernel
  exact ⟨hfail, by decide +kernel, (applySection_mismatch steps 1 lines none m hfail).2.1, by decide +kernel,
    by decide +kernel⟩

end Session

end LineScore
