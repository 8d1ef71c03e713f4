import LineScore.Proofs.Aftermath
import LineScore.Proofs.Changes
import LineScore.Proofs.Dots
import LineScore.Proofs.Forms

/-! Every event of a song takes time. What is read from a line has a positive denominator, whether it is
written, the line's own or the beat; sections have measures; and the rests of a late voice add up those of
sections. So no voice that steps can write holds an event without a length. -/

namespace LineScore

namespace Token

/-- The duration that is written in a token. -/
def duration? : Token → Option Duration
  | .rest duration => duration
  | .note n => n.duration
  | _ => none

theorem duration?_of_scanBody? {text : List Char} {token : Token} (h : scanBody? text = some token) :
    token.duration? = none := by
  unfold scanBody? at h
  split at h
  · cases h
    rfl
  · obtain ⟨n, hn, rfl⟩ := Option.map_eq_some_iff.mp h
    exact (of_scanNote? hn).2

theorem duration?_withDuration (duration : Duration) (token : Token) :
    ∀ d ∈ (token.withDuration duration).duration?, d = duration := by
  intro d hd
  cases token with
  | octaveUp => cases hd
  | octaveDown => cases hd
  | rest _ => exact (Option.some.inj hd).symm
  | note _ => exact (Option.some.inj hd).symm

/-- A duration of zero is no token. -/
theorem denominator_pos_of_read {text : List Char} {token : Token} (h : read text = .ok token) :
    ∀ d ∈ token.duration?, 0 < d.denominator := by
  intro d hd
  unfold read at h
  dsimp only at h
  split at h
  · cases h
    cases hd
  · cases h
    cases hd
  · split at h
    · cases h
    · next hbody hfigure =>
        cases h
        rw [duration?_of_scanBody? hbody] at hd
        cases hd
    · next hbody hfigure =>
        split at h
        · cases h
        · cases h
        · next n hzero hn =>
            cases h
            rw [duration?_withDuration _ _ d hd]
            exact Int.natCast_pos.mpr (Nat.pos_of_ne_zero hzero)

theorem event?_length_pos {context : LineContext} {state : LineState} {token : Token}
    (hdefault : 0 < state.default.denominator) (htoken : ∀ d ∈ token.duration?, 0 < d.denominator) :
    ∀ e ∈ token.event? context state, 0 < e.length := by
  have hchosen : 0 < (token.duration?.getD state.default).denominator := by
    cases hd : token.duration? with
    | none => exact hdefault
    | some d => exact htoken d hd
  intro e he
  cases token with
  | octaveUp => cases he
  | octaveDown => cases he
  | rest duration =>
      obtain rfl := Option.some.inj he
      exact Duration.length_pos hchosen
  | note n =>
      obtain rfl := Option.some.inj he
      exact Duration.length_pos hchosen

theorem next_default (state : LineState) (token : Token) : (token.next state).default = state.default := by
  cases token <;> rfl

end Token

theorem playTokens_length_pos (context : LineContext) (texts : List (List Char)) {state : LineState}
    (hdefault : 0 < state.default.denominator) {events : List Event}
    (h : playTokens context state texts = .ok events) : ∀ e ∈ events, 0 < e.length := by
  induction texts generalizing state events with
  | nil =>
      cases h
      exact fun e he => absurd he List.not_mem_nil
  | cons text rest ih =>
      rw [playTokens] at h
      cases hread : Token.read text with
      | error e =>
          rw [playToken, hread] at h
          cases h
      | ok token =>
          rw [playToken, hread] at h
          obtain ⟨others, hothers, rfl⟩ := exists_of_map_eq_ok h
          intro e he
          rcases List.mem_append.mp he with hhere | hlater
          · exact Token.event?_length_pos hdefault (Token.denominator_pos_of_read hread) e
              (Option.mem_toList.mp hhere)
          · exact ih (by rwa [Token.next_default]) hothers e hlater

theorem Line.defaultDuration_pos (line : Line) (meter : Meter) :
    0 < (line.defaultDuration meter).denominator := by
  rw [Line.defaultDuration]
  cases hdefault : line.defaultNote with
  | none => exact Int.natCast_pos.mpr meter.denominator_pos
  | some n => exact line.defaultNote_pos n hdefault

theorem Line.events_length_pos {line : Line} {key : Key} {meter : Meter} {events : List Event}
    (h : line.events key meter = .ok events) : ∀ e ∈ events, 0 < e.length :=
  playTokens_length_pos _ _ (line.defaultDuration_pos meter) h

namespace Song

/-- Joining rests keeps them rests for some measures. -/
theorem joinRests_pos {history : List (Int × Meter)} (hpos : ∀ entry ∈ history, 0 < entry.1) :
    ∀ entry ∈ joinRests history, 0 < entry.1 := by
  induction history using List.reverseRecOn with
  | nil => exact fun entry hentry => absurd hentry List.not_mem_nil
  | append_singleton history last ih =>
      obtain ⟨measures, meter⟩ := last
      obtain ⟨hhistory, hlast⟩ := List.forall_mem_append.mp hpos
      have hmeasures : 0 < measures := hlast _ List.mem_cons_self
      have hbefore := ih hhistory
      -- the last rest grows or a new one starts, as the last meter decides
      by_cases hsame : ((joinRests history).map Prod.snd).getLast? = some meter
      · obtain ⟨rests, more, hrests⟩ := exists_concat_of_getLast? hsame
        rw [hrests] at hbefore
        obtain ⟨hrest, hmore⟩ := List.forall_mem_append.mp hbefore
        have hsum : 0 < more + measures := Int.add_pos (hmore _ List.mem_cons_self) hmeasures
        rw [joinRests_lengthen hrests]
        exact List.forall_mem_append.mpr ⟨hrest, List.forall_mem_singleton.mpr hsum⟩
      · rw [joinRests_start hsame]
        exact List.forall_mem_append.mpr ⟨hbefore, hlast⟩

/-- A song in which every section has measures and every event takes time. -/
structure Positive (s : Song) : Prop where
  history_pos : ∀ entry ∈ s.history, 0 < entry.1
  events_pos : ∀ v ∈ s.voices, ∀ e ∈ v.events, 0 < e.length

namespace Positive

variable {s t : Song}

theorem declare (h : Positive s) (hdeclares : Declares s t) : Positive t := by
  cases hdeclares <;> exact ⟨h.history_pos, h.events_pos⟩

theorem elapsedRests_pos (h : Positive s) : ∀ e ∈ s.elapsedRests, 0 < e.length := by
  intro e he
  obtain ⟨entry, hentry, rfl⟩ := List.mem_map.mp he
  exact entry.2.spanLength_pos (joinRests_pos h.history_pos entry hentry)

theorem lateVoice_pos (h : Positive s) (i : Instrument) (place : Nat) :
    ∀ e ∈ (s.lateVoice i place).events, 0 < e.length := by
  rw [lateVoice, Voice.extend_events]
  exact h.elapsedRests_pos

theorem eventsAt_pos {lines : List Line} {parts : List Part} {voices : List Voice}
    (hseated : Seated s lines parts voices) (place : Nat) : ∀ e ∈ Part.eventsAt parts place, 0 < e.length := by
  intro e he
  obtain ⟨p, hp, hep⟩ := Part.exists_of_mem_eventsAt he
  obtain ⟨line, -, i, -, -, hread⟩ := hseated.exists_line hp
  exact Line.events_length_pos hread e hep

theorem seated_pos (h : Positive s) {lines : List Line} {parts : List Part} {voices : List Voice}
    (hseated : Seated s lines parts voices) : ∀ v ∈ voices, ∀ e ∈ v.events, 0 < e.length := by
  intro v hv
  obtain ⟨k, hk, hat⟩ := List.mem_iff_getElem.mp hv
  have hplace : voices[k]? = some v := by rw [List.getElem?_eq_getElem hk, hat]
  have hpart := eventsAt_pos hseated k
  rcases lt_or_ge k s.voices.length with hold | hnew
  · have hsong := List.getElem?_eq_getElem hold
    rw [hseated.old k _ hsong, Option.some.injEq] at hplace
    rw [← hplace, Voice.extend_events]
    exact List.forall_mem_append.mpr ⟨h.events_pos _ (List.getElem_mem hold), hpart⟩
  · obtain ⟨i, -, rfl⟩ := hseated.new k v hnew hplace
    rw [Voice.extend_events]
    exact List.forall_mem_append.mpr ⟨h.lateVoice_pos i k, hpart⟩

theorem rested_pos {voices : List Voice} (hvoices : ∀ v ∈ voices, ∀ e ∈ v.events, 0 < e.length)
    {measures : Int} (hpos : 0 < measures) (parts : List Part) :
    ∀ v ∈ rested s measures parts voices, ∀ e ∈ v.events, 0 < e.length := by
  intro v hv
  obtain ⟨k, hk, rfl⟩ := List.mem_mapIdx.mp hv
  have hold := hvoices voices[k] (List.getElem_mem hk)
  have hrest : 0 < (Event.measureRest measures s.meter).length := s.meter.spanLength_pos hpos
  split
  · exact hold
  · exact List.forall_mem_append.mpr ⟨hold, List.forall_mem_singleton.mpr hrest⟩

theorem counted_pos (h : Positive s) {measures : Int} (hpos : 0 < measures) {lines : List Line}
    {parts : List Part} {voices : List Voice} (hseated : Seated s lines parts voices) :
    Positive (counted s measures parts voices) where
  history_pos := List.forall_mem_append.mpr ⟨h.history_pos, List.forall_mem_singleton.mpr hpos⟩
  events_pos := rested_pos (h.seated_pos hseated) hpos parts

theorem enters_pos (h : Positive s) {lines : List Line} {parts : List Part} {voices after : List Voice}
    (hseated : Seated s lines parts voices) {i : Instrument} {k : Nat}
    (henters : Enters s parts voices i k after) : ∀ v ∈ after, ∀ e ∈ v.events, 0 < e.length := by
  cases henters with
  | free _ _ _ => exact h.seated_pos hseated
  | late _ _ =>
      refine List.forall_mem_append.mpr ⟨h.seated_pos hseated, ?_⟩
      exact List.forall_mem_singleton.mpr (h.lateVoice_pos i voices.length)

theorem stops_pos (h : Positive s) {lines : List Line} {parts : List Part} {voices after : List Voice}
    (hseated : Seated s lines parts voices) {place : String} {line : Line} {e : Error}
    (hstops : Stops s place line parts voices e after) : ∀ v ∈ after, ∀ e ∈ v.events, 0 < e.length := by
  cases hstops with
  | unknown _ => exact h.seated_pos hseated
  | full _ _ _ => exact h.seated_pos hseated
  | unreadable _ henters _ => exact h.enters_pos hseated henters

theorem failure (h : Positive s) {measures : Int} {lines : List Line} {label : Option String} {e : Error}
    (hfailure : Failure s measures lines label e t) : Positive t := by
  cases hfailure with
  | empty _ => exact h
  | unnamed _ _ _ => exact h
  | stopped _ _ _ hseated hstops => exact ⟨h.history_pos, h.stops_pos hseated hstops⟩
  | uneven hpos _ hseated _ => exact h.counted_pos hpos hseated

theorem applySection (h : Positive s) (hs : s.Consistent) (measures : Int) (lines : List Line)
    (label : Option String) : Positive (s.applySection measures lines label).state := by
  rcases applySection_cases hs measures lines label with
    ⟨parts, voices, hpos, hseated, -, hok⟩ | ⟨e, t, hfailure, hfail⟩
  · rw [hok]
    exact h.counted_pos hpos hseated
  · rw [hfail]
    exact h.failure hfailure

end Positive

end Song

namespace Session

theorem step_positive {s : Session} (hs : s.song.Consistent) (h : s.song.Positive) (next : Step) :
    (s.step next).state.song.Positive := by
  rcases s.step_song next with hdeclares | ⟨measures, lines, label, hsection⟩
  · exact h.declare hdeclares
  · rw [hsection]
    exact h.applySection hs measures lines label

theorem run_positive_from {s : Session} (hs : s.song.Consistent) (h : s.song.Positive) (steps : List Step) :
    (s.run steps).song.Positive := by
  induction steps generalizing s with
  | nil => exact h
  | cons next rest ih =>
      have hnext : (s.step next).state.song.Consistent :=
        (s.step_edits next).keeps (fun _ _ hedit h => h.edit hedit) hs
      exact ih hnext (step_positive hs h next)

theorem run_positive (steps : List Step) : (run {} steps).song.Positive :=
  run_positive_from Song.consistent_empty
    ⟨fun _ hentry => absurd hentry List.not_mem_nil, fun _ hv => absurd hv List.not_mem_nil⟩ steps

end Session

end LineScore
