import LineScore.Proofs.Bookkeeping
import LineScore.Proofs.Onsets

/-! Even songs. A section that is accepted leaves every voice within the tolerance of the song's length,
and so every timeline too; the bound is on the whole length, so it does not grow with the number of
sections. Where all lengths lie on one grid of fewer than 100000 parts of a quarter note, being within the
tolerance means being equal. -/

namespace LineScore

namespace Song

variable {s : Song}

theorem Consistent.applySection (h : s.Consistent) (measures : Int) (lines : List Line)
    (label : Option String) : (s.applySection measures lines label).state.Consistent :=
  (s.applySection_edits measures lines label).keeps (fun _ _ hedit h => h.edit hedit) h

theorem Consistent.timeline_length (h : s.Consistent) {settings : TimelineSettings} {t : Timeline}
    (ht : t ∈ s.timelines settings) : ∃ v ∈ s.voices, t.length = v.length := by
  obtain ⟨v, hv, rfl⟩ := List.mem_map.mp ht
  exact ⟨v, hv, (Timeline.ofVoice_length settings v).trans (h.voice_length v hv).symm⟩

theorem Consistent.length_onGrid (h : s.Consistent) {parts : Nat}
    (hsections : ∀ entry ∈ s.history, OnGrid parts (entry.2.spanLength entry.1)) : OnGrid parts s.length := by
  rw [h.length_eq]
  refine OnGrid.sum fun x hx => ?_
  obtain ⟨entry, hentry, rfl⟩ := List.mem_map.mp hx
  rw [← Meter.spanLength_eq]
  exact hsections entry hentry

/-- On a coarse grid a voice within the tolerance has the song's length exactly. -/
theorem Consistent.abs_le_tolerance_iff (h : s.Consistent) {parts : Nat} (hpos : 0 < parts)
    (hfew : parts < 100000) (hsections : ∀ entry ∈ s.history, OnGrid parts (entry.2.spanLength entry.1))
    {v : Voice} (hv : v ∈ s.voices) (hevents : ∀ e ∈ v.events, OnGrid parts e.length) :
    |v.length - s.length| ≤ tolerance ↔ v.length = s.length := by
  constructor
  · intro hsmall
    have hvoice : OnGrid parts v.length := by
      rw [h.voice_length v hv]
      exact OnGrid.totalLength hevents
    exact sub_eq_zero.mp ((hvoice.sub (h.length_onGrid hsections)).eq_zero_of_abs_le hpos hfew hsmall)
  · intro hequal
    rw [hequal, sub_self, abs_zero, tolerance]
    norm_num

end Song

namespace Session

theorem applySection_consistent (steps : List Step) (measures : Int) (lines : List Line)
    (label : Option String) : ((run {} steps).song.applySection measures lines label).state.Consistent :=
  (run_consistent steps).applySection measures lines label

/-- After any steps, a section that is accepted leaves voices and timelines within the tolerance of the
song's length. On a grid of fewer than 100000 parts a section whose lines are all played is accepted
exactly if every voice is as long as the song. -/
theorem applySection_even (steps : List Step) (measures : Int) (lines : List Line) (label : Option String) :
    let s := (run {} steps).song
    let a := s.applySection measures lines label
    (a.error = none →
      (∀ v ∈ a.state.voices, |v.length - a.state.length| ≤ 1 / 100000) ∧
      ∀ settings, ∀ t ∈ a.state.timelines settings, |t.length - a.state.length| ≤ 1 / 100000) ∧
    ∀ parts : Nat, 1 ≤ parts → parts < 100000 →
      (∀ v ∈ a.state.voices, ∀ e ∈ v.events, OnGrid parts e.length) →
      (∀ entry ∈ a.state.history, OnGrid parts (entry.2.spanLength entry.1)) →
      s.FinishesLines measures lines label →
      (a.error = none ↔ ∀ v ∈ a.state.voices, v.length = a.state.length) := by
  intro s a
  have hconsistent : a.state.Consistent := applySection_consistent steps measures lines label
  constructor
  · intro hok
    have hvoices := (Song.applySection_error_eq_none_iff (Song.finishesLines_of_ok hok)).mp hok
    refine ⟨hvoices, fun settings t ht => ?_⟩
    obtain ⟨v, hv, hlength⟩ := hconsistent.timeline_length ht
    rw [hlength]
    exact hvoices v hv
  · intro parts hpos hfew hevents hsections hfinish
    rw [Song.applySection_error_eq_none_iff hfinish]
    exact forall₂_congr fun v hv =>
      hconsistent.abs_le_tolerance_iff hpos hfew hsections hv (hevents v hv)

/-- A bar of quarters and eighths lies on the grid of eighths. -/
theorem applySection_even_eighths :
    let a := (run {} [.instrument "vi" "Violin"]).song.applySection 1
      [⟨⟨"vi", "c d e 8:f 8:g", none, false⟩, by simp⟩] none
    a.error = none ∧ a.state.voices.length = 1 ∧ ∀ v ∈ a.state.voices, v.length = a.state.length := by
  have hsong : (run {} [.instrument "vi" "Violin"]).song =
      { instruments := [⟨"vi", "Violin", ⟨40, by decide⟩⟩] } := by decide +kernel
  have heven := applySection_even [.instrument "vi" "Violin"] 1
    [⟨⟨"vi", "c d e 8:f 8:g", none, false⟩, by simp⟩] none
  rw [hsong] at heven ⊢
  intro a
  have hok : a.error = none := by decide +kernel
  have hevents : ∀ v ∈ a.state.voices, ∀ e ∈ v.events, OnGrid 2 e.length := by decide +kernel
  have hsections : ∀ entry ∈ a.state.history, OnGrid 2 (entry.2.spanLength entry.1) := by decide +kernel
  exact ⟨hok, by decide +kernel, (heven.2 2 (by decide) (by decide) hevents hsections
    (Song.finishesLines_of_ok hok)).mp hok⟩

end Session

end LineScore
