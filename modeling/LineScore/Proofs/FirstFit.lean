import LineScore.Proofs.Seating

/-! How the lines of a section find their voices. A line enters the first voice of its instrument that is
free, or a new one while there is room. So lines played one after the other become parts of the section,
until one of them stops it. -/

namespace LineScore

open LineScore.Part

namespace Song

variable {s : Song}

/-- Where a line of an instrument comes to play after parts, and the voices then: the first voice that is
free, or else a new one. -/
inductive Enters (s : Song) (parts : List Part) (voices : List Voice) (i : Instrument) :
    Nat → List Voice → Prop where
  | free {k : Nat} (hat : instrumentAt voices k = some i) (hfree : k ∉ places parts)
      (hfirst : ∀ j < k, instrumentAt voices j = some i → j ∈ places parts) :
      Enters s parts voices i k voices
  | late (htaken : ∀ j, instrumentAt voices j = some i → j ∈ places parts) (hroom : voices.length < 16) :
      Enters s parts voices i voices.length (voices ++ [s.lateVoice i voices.length])

/-- How a line stops a section after parts: the error, and the voices that are left behind. -/
inductive Stops (s : Song) (place : String) (line : Line) (parts : List Part) (voices : List Voice) :
    Error → List Voice → Prop where
  | unknown (hnone : s.findInstrument? line.symbol = none) :
      Stops s place line parts voices (.unknownInstrument line.symbol place) voices
  | full {i : Instrument} (hfind : s.findInstrument? line.symbol = some i)
      (htaken : ∀ j, instrumentAt voices j = some i → j ∈ places parts) (hfull : voices.length = 16) :
      Stops s place line parts voices (.tooManyVoices 17 16) voices
  | unreadable {i : Instrument} {k : Nat} {after : List Voice} {e : Error}
      (hfind : s.findInstrument? line.symbol = some i) (henters : Enters s parts voices i k after)
      (hread : line.events s.key s.meter = .error e) :
      Stops s place line parts voices (e.locate line.symbol place) after

namespace Enters

variable {parts : List Part} {voices after : List Voice} {i : Instrument} {k : Nat}

theorem getElem?_of_lt (h : Enters s parts voices i k after) {j : Nat} (hj : j < voices.length) :
    after[j]? = voices[j]? := by
  cases h with
  | free _ _ _ => rfl
  | late _ _ => exact List.getElem?_append_left hj

theorem instrumentAt_of_lt (h : Enters s parts voices i k after) {j : Nat} (hj : j < voices.length) :
    instrumentAt after j = instrumentAt voices j := by
  rw [instrumentAt, instrumentAt, h.getElem?_of_lt hj]

theorem instrumentAt_self (h : Enters s parts voices i k after) : instrumentAt after k = some i := by
  cases h with
  | free hat _ _ => exact hat
  | late _ _ =>
      rw [instrumentAt, List.getElem?_append_right le_rfl, Nat.sub_self]
      rfl

/-- Whatever voice of the instrument stands before the line's is taken. -/
theorem taken_before (h : Enters s parts voices i k after) {j : Nat} (hj : j < k)
    (hat : instrumentAt after j = some i) : j ∈ places parts := by
  cases h with
  | free _ _ hfirst => exact hfirst j hj hat
  | late htaken _ =>
      refine htaken j ?_
      rwa [instrumentAt, List.getElem?_append_left hj] at hat

theorem length_le (h : Enters s parts voices i k after) : voices.length ≤ after.length := by
  cases h with
  | free _ _ _ => exact le_rfl
  | late _ _ =>
      rw [List.length_append]
      exact Nat.le_add_right _ _

theorem length_le_max (h : Enters s parts voices i k after) (hroom : voices.length ≤ 16) :
    after.length ≤ 16 := by
  cases h with
  | free _ _ _ => exact hroom
  | late _ hless =>
      rw [List.length_append, List.length_singleton]
      exact hless

end Enters

namespace Seated

variable {lines : List Line} {line : Line} {parts : List Part} {voices after : List Voice} {i : Instrument}
  {k : Nat} {events : List Event}

/-- The parts of the lines before the last one and of the last line itself. -/
theorem first_concat (h : Seated s lines parts voices) (henters : Enters s parts voices i k after) :
    ∀ before p rest, parts ++ [⟨k, events⟩] = before ++ p :: rest → ∀ j < p.place,
      instrumentAt after j = instrumentAt after p.place → j ∈ places before := by
  intro before p rest hsplit j hj hsame
  rcases List.eq_nil_or_concat rest with rfl | ⟨others, last, rfl⟩
  · obtain ⟨rfl, hlast⟩ := List.append_inj' hsplit rfl
    obtain rfl := List.singleton_inj.mp hlast
    exact henters.taken_before hj (hsame.trans henters.instrumentAt_self)
  · rw [List.concat_eq_append, ← List.cons_append, ← List.append_assoc] at hsplit
    obtain ⟨rfl, -⟩ := List.append_inj' hsplit rfl
    have hp : p.place < voices.length :=
      h.place_lt (List.mem_map_of_mem (List.mem_append_right _ List.mem_cons_self))
    rw [henters.instrumentAt_of_lt hp, henters.instrumentAt_of_lt (hj.trans hp)] at hsame
    exact h.first before p others rfl j hj hsame

theorem notMem_places (h : Seated s lines parts voices) (henters : Enters s parts voices i k after) :
    k ∉ places parts := by
  cases henters with
  | free _ hfree _ => exact hfree
  | late _ _ =>
      intro hmem
      exact lt_irrefl _ (h.place_lt hmem)

theorem plays_concat (h : Seated s lines parts voices) (hfind : s.findInstrument? line.symbol = some i)
    (henters : Enters s parts voices i k after) (hread : line.events s.key s.meter = .ok events) :
    List.Forall₂ (Plays s (after.modify k (·.extend events))) (lines ++ [line]) (parts ++ [⟨k, events⟩]) := by
  refine List.rel_append (h.plays.imp ?_) (.cons ?_ .nil)
  · rintro other p ⟨j, hj, hat, hp⟩
    refine ⟨j, hj, ?_, hp⟩
    rw [instrumentAt_modify, henters.instrumentAt_of_lt (lt_of_instrumentAt hat), hat]
  · refine ⟨i, hfind, ?_, hread⟩
    rw [instrumentAt_modify, henters.instrumentAt_self]

theorem extend_concat (v : Voice) (parts : List Part) (k j : Nat) (events : List Event) :
    (if k = j then (v.extend (eventsAt parts j)).extend events else v.extend (eventsAt parts j)) =
      v.extend (eventsAt (parts ++ [⟨k, events⟩]) j) := by
  rw [eventsAt_concat]
  by_cases hplace : k = j
  · simp [hplace, Voice.extend_extend]
  · simp [hplace]

theorem old_concat (h : Seated s lines parts voices) (henters : Enters s parts voices i k after) (j : Nat)
    (v : Voice) (hv : s.voices[j]? = some v) :
    (after.modify k (·.extend events))[j]? = some (v.extend (eventsAt (parts ++ [⟨k, events⟩]) j)) := by
  have hj : j < voices.length := lt_of_lt_of_le (List.getElem?_eq_some_iff.mp hv).1 h.grows
  rw [List.getElem?_modify, henters.getElem?_of_lt hj, h.old j v hv]
  exact congrArg some (extend_concat v parts k j events)

/-- A new voice is a late one, whether it was there before the last line or has just entered. -/
theorem exists_late (h : Seated s lines parts voices) (hdeclared : i ∈ s.instruments)
    (henters : Enters s parts voices i k after) {j : Nat} (hj : s.voices.length ≤ j) {v : Voice}
    (hv : after[j]? = some v) :
    ∃ l ∈ s.instruments, v = (s.lateVoice l j).extend (eventsAt parts j) := by
  have hfree := h.notMem_places henters
  cases henters with
  | free _ _ _ => exact h.new j v hj hv
  | late _ _ =>
      rcases getElem?_concat_cases hv with hv | ⟨rfl, rfl⟩
      · exact h.new j v hj hv
      · refine ⟨i, hdeclared, ?_⟩
        rw [eventsAt_of_notMem hfree, Voice.extend_nil]

theorem new_concat (h : Seated s lines parts voices) (hdeclared : i ∈ s.instruments)
    (henters : Enters s parts voices i k after) (j : Nat) (v : Voice) (hj : s.voices.length ≤ j)
    (hv : (after.modify k (·.extend events))[j]? = some v) :
    ∃ l ∈ s.instruments, v = (s.lateVoice l j).extend (eventsAt (parts ++ [⟨k, events⟩]) j) := by
  rw [List.getElem?_modify] at hv
  obtain ⟨w, hw, rfl⟩ := Option.map_eq_some_iff.mp hv
  obtain ⟨l, hl, rfl⟩ := h.exists_late hdeclared henters hj hw
  exact ⟨l, hl, extend_concat _ parts k j events⟩

theorem entered_concat (h : Seated s lines parts voices) (henters : Enters s parts voices i k after) :
    (places (parts ++ [⟨k, events⟩])).filter (s.voices.length ≤ ·) =
      List.range' s.voices.length (after.length - s.voices.length) := by
  have hgrows := h.grows
  have hfree := h.notMem_places henters
  rw [places_concat, List.filter_append, h.entered]
  cases henters with
  | free hat _ _ =>
      -- every new voice has its line already, so a free one is old
      have hold : k < s.voices.length := by
        by_contra hnew
        exact hfree (h.mem_places_of_new (not_lt.mp hnew) (lt_of_instrumentAt hat))
      simp [hold]
  | late _ _ =>
      have hcount : voices.length + 1 - s.voices.length = voices.length - s.voices.length + 1 := by omega
      have hlast : s.voices.length + (voices.length - s.voices.length) = voices.length := by omega
      rw [List.length_append, List.length_singleton, hcount, List.range'_1_concat, hlast]
      simp [hgrows]

/-- The next line plays where it enters. -/
theorem play (h : Seated s lines parts voices) (hfind : s.findInstrument? line.symbol = some i)
    (henters : Enters s parts voices i k after) (hread : line.events s.key s.meter = .ok events) :
    Seated s (lines ++ [line]) (parts ++ [⟨k, events⟩]) (after.modify k (·.extend events)) where
  plays := h.plays_concat hfind henters hread
  distinct := by
    rw [places_concat]
    exact h.distinct.append (List.nodup_singleton k) (List.disjoint_singleton.mpr (h.notMem_places henters))
  first before p rest hsplit j hj hsame := by
    rw [instrumentAt_modify, instrumentAt_modify] at hsame
    exact h.first_concat henters before p rest hsplit j hj hsame
  old := h.old_concat henters
  new := h.new_concat (mem_of_findInstrument? hfind) henters
  entered := by
    rw [List.length_modify]
    exact h.entered_concat henters
  grows := by
    rw [List.length_modify]
    exact h.grows.trans henters.length_le
  room := by
    rw [List.length_modify]
    exact henters.length_le_max h.room

end Seated

/-- The stage of a section whose lines have become parts. -/
def seatedStage (s : Song) (parts : List Part) (voices : List Voice) : Stage :=
  ⟨{ s with voices }, (places parts).map Int.ofNat⟩

theorem contains_active (parts : List Part) (k : Nat) :
    ((places parts).map Int.ofNat).contains (k : Int) = decide (k ∈ places parts) := by
  rw [List.contains_eq_mem]
  have hiff : (k : Int) ∈ (places parts).map Int.ofNat ↔ k ∈ places parts := by
    constructor
    · intro hmem
      obtain ⟨j, hj, heq⟩ := List.mem_map.mp hmem
      rwa [← Int.ofNat.inj heq]
    · exact fun hmem => List.mem_map_of_mem hmem
  simp only [hiff]

def isFree (i : Instrument) (active : List Int) (v : Voice) : Bool :=
  v.instrument = i && !active.contains v.index

theorem voiceFor_of_free {i : Instrument} {active : List Int} {v : Voice}
    (hfind : s.voices.find? (isFree i active) = some v) : s.voiceFor i active = .ok (s, v.index) := by
  unfold isFree at hfind
  simp only [voiceFor, hfind]

theorem voiceFor_of_taken {i : Instrument} {active : List Int}
    (hfind : s.voices.find? (isFree i active) = none) :
    s.voiceFor i active =
      if 16 ≤ s.voices.length then .error (.tooManyVoices (s.voices.length + 1) 16)
      else .ok (s.addVoice i s.elapsedRests, s.voices.length) := by
  unfold isFree at hfind
  simp only [voiceFor, hfind]
  rfl

theorem Seated.isFree_eq (hs : s.Consistent) {lines : List Line} {parts : List Part} {voices : List Voice}
    (h : Seated s lines parts voices) (i : Instrument) {k : Nat} {v : Voice} (hv : voices[k]? = some v) :
    isFree i ((places parts).map Int.ofNat) v =
      decide (instrumentAt voices k = some i ∧ k ∉ places parts) := by
  rw [isFree, h.index_eq hs hv, contains_active, instrumentAt, hv]
  simp

/-- A line finds a voice to play in, unless all voices of its instrument are taken and there is no room. -/
theorem Seated.voiceFor_eq (hs : s.Consistent) {lines : List Line} {parts : List Part} {voices : List Voice}
    (h : Seated s lines parts voices) (i : Instrument) :
    (∃ k after, Enters s parts voices i k after ∧
      ({ s with voices } : Song).voiceFor i ((places parts).map Int.ofNat) =
        .ok ({ s with voices := after }, (k : Int))) ∨
    ((∀ j, instrumentAt voices j = some i → j ∈ places parts) ∧ voices.length = 16 ∧
      ({ s with voices } : Song).voiceFor i ((places parts).map Int.ofNat) =
        .error (.tooManyVoices 17 16)) := by
  cases hfind : voices.find? (isFree i ((places parts).map Int.ofNat)) with
  | some v =>
      obtain ⟨hv, k, hk, hkv, hbefore⟩ := List.find?_eq_some_iff_getElem.mp hfind
      have hat : voices[k]? = some v := by rw [List.getElem?_eq_getElem hk, hkv]
      rw [h.isFree_eq hs i hat, decide_eq_true_eq] at hv
      refine Or.inl ⟨k, voices, .free hv.1 hv.2 ?_, ?_⟩
      · intro j hj hinstrument
        have hother := hbefore j hj
        rw [h.isFree_eq hs i (List.getElem?_eq_getElem (hj.trans hk))] at hother
        by_contra hfree
        simp [hinstrument, hfree] at hother
      · rw [← h.index_eq hs hat]
        exact voiceFor_of_free (s := { s with voices }) hfind
  | none =>
      have htaken : ∀ j, instrumentAt voices j = some i → j ∈ places parts := by
        intro j hinstrument
        obtain ⟨v, hv, -⟩ := Option.map_eq_some_iff.mp hinstrument
        have hother := List.find?_eq_none.mp hfind v (List.mem_of_getElem? hv)
        rw [h.isFree_eq hs i hv] at hother
        by_contra hfree
        simp [hinstrument, hfree] at hother
      have hvoice := voiceFor_of_taken (s := { s with voices }) hfind
      by_cases hroom : voices.length < 16
      · rw [if_neg (not_le.mpr hroom)] at hvoice
        exact Or.inl ⟨voices.length, _, .late htaken hroom, hvoice⟩
      · have hfull : voices.length = 16 := le_antisymm h.room (not_lt.mp hroom)
        rw [if_pos (not_lt.mp hroom)] at hvoice
        refine Or.inr ⟨htaken, hfull, ?_⟩
        rw [hvoice, hfull]
        rfl

namespace Stage

variable (st : Stage) (place : String) {line : Line} {i : Instrument} {t : Song} {index : Int} {e : Error}

theorem playLine_of_unknown (hfind : st.song.findInstrument? line.symbol = none) :
    playLine place line st = ⟨st, some (.unknownInstrument line.symbol place)⟩ := by
  simp only [playLine, hfind]

theorem playLine_of_refused (hfind : st.song.findInstrument? line.symbol = some i)
    (hvoice : st.song.voiceFor i st.active = .error e) : playLine place line st = ⟨st, some e⟩ := by
  simp only [playLine, hfind, hvoice]

theorem playLine_of_unreadable (hfind : st.song.findInstrument? line.symbol = some i)
    (hvoice : st.song.voiceFor i st.active = .ok (t, index)) (hread : line.events t.key t.meter = .error e) :
    playLine place line st = ⟨⟨t, st.active ++ [index]⟩, some (e.locate line.symbol place)⟩ := by
  simp only [playLine, hfind, hvoice, hread]

theorem playLine_of_read (hfind : st.song.findInstrument? line.symbol = some i)
    (hvoice : st.song.voiceFor i st.active = .ok (t, index)) {events : List Event}
    (hread : line.events t.key t.meter = .ok events) :
    playLine place line st = ⟨⟨t.extendVoice index events, st.active ++ [index]⟩, none⟩ := by
  simp only [playLine, hfind, hvoice, hread]

end Stage

/-- What comes of playing lines: all of them have become parts, or one of them stops the section. -/
inductive LinesOutcome (s : Song) (place : String) (lines : List Line) : Attempt Stage → Prop where
  | played {parts : List Part} {voices : List Voice} (hseated : Seated s lines parts voices) :
      LinesOutcome s place lines ⟨seatedStage s parts voices, none⟩
  | stopped {before rest : List Line} {line : Line} {parts : List Part} {voices after : List Voice}
      {active : List Int} {e : Error} (hlines : lines = before ++ line :: rest)
      (hseated : Seated s before parts voices) (hstops : Stops s place line parts voices e after) :
      LinesOutcome s place lines ⟨⟨{ s with voices := after }, active⟩, some e⟩

theorem extendVoice_eq_modify {voices : List Voice} (hindex : ∀ (j : Nat) v, voices[j]? = some v → v.index = j)
    (k : Nat) (events : List Event) :
    ({ s with voices } : Song).extendVoice k events =
      { s with voices := voices.modify k (·.extend events) } := by
  have hvoices : (voices.map fun v => if v.index = (k : Int) then v.extend events else v) =
      voices.modify k (·.extend events) := by
    apply List.ext_getElem?
    intro j
    rw [List.getElem?_map, List.getElem?_modify]
    cases hv : voices[j]? with
    | none => rfl
    | some v =>
        have hplace : (v.index = (k : Int)) = (k = j) := by
          rw [hindex j v hv, Int.natCast_inj, @eq_comm _ j k]
        simp only [Option.map_some, hplace]
        rfl
  rw [extendVoice, hvoices]

theorem Enters.index_eq (hs : s.Consistent) {lines : List Line} {parts : List Part} {voices after : List Voice}
    {i : Instrument} {k : Nat} (henters : Enters s parts voices i k after) (h : Seated s lines parts voices)
    (j : Nat) (v : Voice) (hv : after[j]? = some v) : v.index = j := by
  cases henters with
  | free _ _ _ => exact h.index_eq hs hv
  | late _ _ =>
      rcases getElem?_concat_cases hv with hv | ⟨rfl, rfl⟩
      · exact h.index_eq hs hv
      · rfl

/-- One line more becomes a part, or stops the section. -/
theorem playLine_outcome (hs : s.Consistent) (place : String) {before : List Line} {parts : List Part}
    {voices : List Voice} (h : Seated s before parts voices) (line : Line) :
    (∃ part after, Stage.playLine place line (seatedStage s parts voices) =
        ⟨seatedStage s (parts ++ [part]) after, none⟩ ∧
      Seated s (before ++ [line]) (parts ++ [part]) after) ∨
    ∃ e after active, Stage.playLine place line (seatedStage s parts voices) =
        ⟨⟨{ s with voices := after }, active⟩, some e⟩ ∧
      Stops s place line parts voices e after := by
  cases hfind : s.findInstrument? line.symbol with
  | none =>
      have hline := Stage.playLine_of_unknown (seatedStage s parts voices) place hfind
      exact Or.inr ⟨_, voices, _, hline, .unknown hfind⟩
  | some i =>
      rcases h.voiceFor_eq hs i with ⟨k, after, henters, hvoice⟩ | ⟨htaken, hfull, hvoice⟩
      · cases hread : line.events s.key s.meter with
        | error e =>
            have hline := Stage.playLine_of_unreadable (seatedStage s parts voices) place hfind hvoice hread
            exact Or.inr ⟨_, after, _, hline, .unreadable hfind henters hread⟩
        | ok events =>
            have hline := Stage.playLine_of_read (seatedStage s parts voices) place hfind hvoice hread
            refine Or.inl ⟨⟨k, events⟩, _, ?_, h.play hfind henters hread⟩
            rw [hline, extendVoice_eq_modify (henters.index_eq hs h), seatedStage, seatedStage, places_concat,
              List.map_append, List.map_singleton]
            rfl
      · have hline := Stage.playLine_of_refused (seatedStage s parts voices) place hfind hvoice
        exact Or.inr ⟨_, voices, _, hline, .full hfind htaken hfull⟩

/-- Lines played after others that have become parts. -/
theorem playLines_outcome_from (hs : s.Consistent) (place : String) (lines : List Line) {before : List Line}
    {parts : List Part} {voices : List Voice} (h : Seated s before parts voices) :
    LinesOutcome s place (before ++ lines) (Stage.playLines place lines (seatedStage s parts voices)) := by
  induction lines generalizing before parts voices with
  | nil =>
      rw [List.append_nil]
      exact .played h
  | cons line rest ih =>
      rw [Stage.playLines]
      rcases playLine_outcome hs place h line with
        ⟨part, after, hline, hseated⟩ | ⟨e, after, active, hline, hstops⟩
      · rw [hline, Attempt.andThen_of_ok rfl, List.append_cons]
        exact ih hseated
      · rw [hline, Attempt.andThen_of_error rfl]
        exact .stopped rfl h hstops

theorem playLines_outcome (hs : s.Consistent) (place : String) (lines : List Line) :
    LinesOutcome s place lines (Stage.playLines place lines ⟨s, []⟩) :=
  playLines_outcome_from hs place lines (Seated.nil hs)

end Song

end LineScore
