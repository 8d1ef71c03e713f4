import LineScore.Proofs.Evenness
import LineScore.Proofs.VoiceCount
import Mathlib.Algebra.BigOperators.Group.Finset.Basic

/-! Lines in another order. What an instrument comes to play in a section is told by its own lines alone, and
whether all lines are played is told by each line for itself and by how many voices they need in all. So lines
that are reordered, those of each symbol staying in their order, are accepted if they were before, and they
leave the same song, in which at most the voices that the section created stand in another order. -/

namespace LineScore

open LineScore.Part

def linesOf (symbol : LooseText) (lines : List Line) : List Line :=
  lines.filter fun line => line.symbol = symbol

def voicesOf (voices : List Voice) (i : Instrument) : List Voice :=
  voices.filter fun v => v.instrument = i

/-- What a voice is apart from its instrument and its number: its events, and how long they are. -/
def Voice.content (v : Voice) : List Event × Rat :=
  (v.events, v.length)

def Voice.unnumbered (v : Voice) : Voice :=
  { v with index := 0 }

/-- Whether lines are other lines in another order, those of each symbol in the same one. -/
structure Reordered (lines others : List Line) : Prop where
  perm : lines.Perm others
  ordered : ∀ symbol, linesOf symbol lines = linesOf symbol others

theorem Reordered.symm {lines others : List Line} (h : Reordered lines others) : Reordered others lines :=
  ⟨h.perm.symm, fun symbol => (h.ordered symbol).symm⟩

/-- Lines of two symbols that stand side by side can be swapped. -/
theorem Reordered.swap {line other : Line} (hsymbols : line.symbol ≠ other.symbol) (lines : List Line) :
    Reordered (line :: other :: lines) (other :: line :: lines) where
  perm := .swap other line lines
  ordered symbol := by
    by_cases hline : line.symbol = symbol
    · have hother : other.symbol ≠ symbol := fun h => hsymbols (hline.trans h.symm)
      simp [linesOf, hline, hother]
    · simp [linesOf, hline, List.filter_cons]

theorem linesFor_eq_length (symbol : LooseText) (lines : List Line) :
    linesFor symbol lines = (linesOf symbol lines).length :=
  List.countP_eq_length_filter

theorem mem_voicesOf {voices : List Voice} {i : Instrument} {v : Voice} :
    v ∈ voicesOf voices i ↔ v ∈ voices ∧ v.instrument = i := by
  rw [voicesOf, List.mem_filter, decide_eq_true_eq]

theorem voicesOf_append (voices others : List Voice) (i : Instrument) :
    voicesOf (voices ++ others) i = voicesOf voices i ++ voicesOf others i :=
  List.filter_append voices others

section Seats

variable {voices : List Voice} {i : Instrument}

/-- The seats of an instrument are those of its voices, in their order. -/
theorem map_seatsOf (voices : List Voice) (i : Instrument) :
    (seatsOf voices i).map (voices[·]?) = (voicesOf voices i).map some := by
  induction voices using List.reverseRecOn with
  | nil => rfl
  | append_singleton voices v ih =>
      have hold : ∀ k < voices.length, instrumentAt (voices ++ [v]) k = instrumentAt voices k := by
        intro k hk
        rw [instrumentAt, instrumentAt, List.getElem?_append_left hk]
      have hkept : (seatsOf voices i).map ((voices ++ [v])[·]?) = (seatsOf voices i).map (voices[·]?) :=
        List.map_congr_left fun k hk =>
          List.getElem?_append_left (lt_of_instrumentAt (mem_seatsOf.mp hk))
      have hlast : (newSeats voices.length (voices ++ [v]) i).map ((voices ++ [v])[·]?) =
          (voicesOf [v] i).map some := by
        by_cases hv : v.instrument = i <;> simp [newSeats, voicesOf, instrumentAt, hv]
      rw [seatsOf_eq_append (by simp) hold, List.map_append, hkept, ih, hlast, ← List.map_append, voicesOf_append]

theorem length_seatsOf_eq (voices : List Voice) (i : Instrument) :
    (seatsOf voices i).length = (voicesOf voices i).length := by
  simpa using congrArg List.length (map_seatsOf voices i)

theorem getElem?_voicesOf (voices : List Voice) (i : Instrument) (n : Nat) :
    (voicesOf voices i)[n]? = (seatsOf voices i)[n]?.bind (voices[·]?) := by
  have hat := congrArg (·[n]?) (map_seatsOf voices i)
  simp only [List.getElem?_map] at hat
  cases hseat : (seatsOf voices i)[n]? with
  | none => simpa [hseat] using hat.symm
  | some k =>
      cases hv : (voicesOf voices i)[n]? with
      | none => simp [hseat, hv] at hat
      | some v => simpa [hseat, hv] using hat.symm

/-- A line-by-line relation to places holds between the lines of one symbol and their places. -/
theorem forall₂_placesFor {R : Line → Nat → Prop} {lines : List Line} {places : List Nat}
    (h : List.Forall₂ R lines places) (symbol : LooseText) :
    List.Forall₂ R (linesOf symbol lines) (placesFor symbol lines places) := by
  induction h with
  | nil => exact .nil
  | @cons line place lines places hline _ ih =>
      by_cases hnames : line.symbol = symbol
      · have hplaces : placesFor symbol (line :: lines) (place :: places) =
            place :: placesFor symbol lines places := by
          simp [placesFor, hnames]
        rw [hplaces, linesOf, List.filter_cons_of_pos (by simpa using hnames)]
        exact .cons hline ih
      · have hplaces : placesFor symbol (line :: lines) (place :: places) = placesFor symbol lines places := by
          simp [placesFor, hnames]
        rw [hplaces, linesOf, List.filter_cons_of_neg (by simpa using hnames)]
        exact ih

end Seats

namespace Song

variable {s : Song} {measures : Int} {lines others before : List Line} {label : Option String}
  {parts : List Part} {voices : List Voice} {i : Instrument}

section Room

/-- Whether a line can be played if it finds a voice: its instrument is declared, and all of it can be read. -/
def Playable (s : Song) (line : Line) : Prop :=
  (∃ i, s.findInstrument? line.symbol = some i) ∧ ∃ events, line.events s.key s.meter = .ok events

/-- How many voices a song has once each instrument has one for each of its lines. -/
def voicesNeeded (s : Song) (lines : List Line) : Nat :=
  (s.instruments.map fun i => max (seatsOf s.voices i).length (linesFor i.symbol lines)).sum

/-- Every voice has one seat, and that is its instrument's. -/
theorem sum_length_seatsOf (hs : s.Consistent) (hdeclared : ∀ v ∈ voices, v.instrument ∈ s.instruments) :
    (s.instruments.map fun i => (seatsOf voices i).length).sum = voices.length := by
  have hcount : ∀ i, (seatsOf voices i).length = (voices.map Voice.instrument).count i := by
    intro i
    rw [length_seatsOf_eq, voicesOf, ← List.countP_eq_length_filter, List.count, List.countP_map]
    exact List.countP_congr fun v _ => by simp
  have hcovered : ∀ i ∈ (voices.map Voice.instrument : Multiset Instrument), i ∈ s.instruments.toFinset := by
    intro i hi
    obtain ⟨v, hv, rfl⟩ := List.mem_map.mp (Multiset.mem_coe.mp hi)
    exact List.mem_toFinset.mpr (hdeclared v hv)
  have htotal := Multiset.sum_count_eq_card hcovered
  rw [List.sum_toFinset _ hs.symbols_nodup.of_map] at htotal
  simpa [hcount] using htotal

theorem Seated.declared (hs : s.Consistent) (h : Seated s lines parts voices) :
    ∀ v ∈ voices, v.instrument ∈ s.instruments := by
  intro v hv
  obtain ⟨k, hk, rfl⟩ := List.mem_iff_getElem.mp hv
  have hat := List.getElem?_eq_getElem hk
  rcases lt_or_ge k s.voices.length with hold | hnew
  · rw [h.old k _ (List.getElem?_eq_getElem hold), Option.some.injEq] at hat
    rw [← hat, Voice.extend_instrument]
    exact hs.declared _ (List.getElem_mem hold)
  · obtain ⟨i, hi, hlate⟩ := h.new k _ hnew hat
    rw [hlate]
    exact hi

/-- Lines that are played make exactly the voices that they need. -/
theorem Seated.length_voices (hs : s.Consistent) (h : Seated s lines parts voices) :
    voices.length = s.voicesNeeded lines := by
  rw [← sum_length_seatsOf hs (h.declared hs), voicesNeeded]
  congr 1
  exact List.map_congr_left fun i hi => h.length_seatsOf (hs.unrivalled hi)

theorem linesFor_le_of_append (symbol : LooseText) (before : List Line) (line : Line) (rest : List Line) :
    linesFor symbol before + linesFor symbol [line] ≤ linesFor symbol (before ++ line :: rest) := by
  rw [linesFor, linesFor, linesFor, ← List.countP_append]
  exact ((List.singleton_sublist.mpr List.mem_cons_self).append_left before).countP_le

/-- A line for which there is no room needs a voice more than there can be. -/
theorem Seated.lt_voicesNeeded (hs : s.Consistent) (h : Seated s before parts voices) {line : Line}
    (hfind : s.findInstrument? line.symbol = some i)
    (htaken : ∀ k, instrumentAt voices k = some i → k ∈ places parts) (rest : List Line) :
    voices.length < s.voicesNeeded (before ++ line :: rest) := by
  have hi := mem_of_findInstrument? hfind
  have hmany := (h.taken_iff (hs.unrivalled hi)).mp htaken
  have hsymbol := symbol_of_findInstrument? hfind
  rw [h.length_voices hs, voicesNeeded, voicesNeeded]
  refine List.sum_lt_sum _ _ (fun j _ => ?_) ⟨i, hi, ?_⟩
  · have hmore := linesFor_le_of_append j.symbol before line rest
    omega
  · have hmore := linesFor_le_of_append i.symbol before line rest
    have hone : linesFor i.symbol [line] = 1 := by simp [linesFor, hsymbol]
    omega

/-- All lines of a section are played exactly if each of them can be and they need no more voices than there
can be. -/
theorem playLines_ok_iff (hs : s.Consistent) (place : String) (lines : List Line) :
    (Stage.playLines place lines ⟨s, []⟩).error = none ↔
      (∀ line ∈ lines, s.Playable line) ∧ s.voicesNeeded lines ≤ 16 := by
  have houtcome := playLines_outcome hs place lines
  generalize Stage.playLines place lines ⟨s, []⟩ = a at houtcome
  cases houtcome with
  | played hseated =>
      refine iff_of_true rfl ⟨fun line hline => ?_, hseated.length_voices hs ▸ hseated.room⟩
      obtain ⟨p, -, i, hfind, -, hread⟩ := exists_left_of_forall₂ hseated.plays.flip hline
      exact ⟨⟨i, hfind⟩, p.events, hread⟩
  | @stopped before rest line _ _ _ _ _ hlines hseated hstops =>
      refine iff_of_false (by simp) fun ⟨hplayable, hroom⟩ => ?_
      have hline : line ∈ lines := hlines ▸ List.mem_append_right before List.mem_cons_self
      obtain ⟨⟨i, hfind⟩, events, hread⟩ := hplayable line hline
      cases hstops with
      | unknown hnone => simp [hnone] at hfind
      | full hfound htaken hfull =>
          have hless := hseated.lt_voicesNeeded hs hfound htaken rest
          rw [hlines] at hroom
          omega
      | unreadable _ _ hfail => simp [hfail] at hread

end Room

section Shares

/-- What the voice at a seat of an instrument comes to have played: what it had, or the silence so far if it is
new, and then its line if there is one for it, or else a rest. -/
def seatEvents (s : Song) (measures : Int) (i : Instrument) (own : List Line) (n : Nat) : List Event :=
  ((voicesOf s.voices i)[n]?.map Voice.events).getD s.elapsedRests ++
    (own[n]?.map fun line => (line.events s.key s.meter).toOption.getD []).getD [.measureRest measures s.meter]

/-- What the voices of an instrument come to have played after a section with these lines of its own. -/
def instrumentEvents (s : Song) (measures : Int) (i : Instrument) (own : List Line) : List (List Event) :=
  (List.range (max (voicesOf s.voices i).length own.length)).map (s.seatEvents measures i own)

namespace Seated

theorem eventsBefore_seat (h : Seated s lines parts voices) {n k : Nat} (hat : (seatsOf voices i)[n]? = some k) :
    s.eventsBefore k = ((voicesOf s.voices i)[n]?.map Voice.events).getD s.elapsedRests := by
  rw [h.seatsOf_eq_append i] at hat
  rw [getElem?_voicesOf, eventsBefore]
  rcases lt_or_ge n (seatsOf s.voices i).length with hold | hnew
  · rw [List.getElem?_append_left hold] at hat
    rw [hat]
    rfl
  · rw [List.getElem?_append_right hnew] at hat
    rw [List.getElem?_eq_none (mem_newSeats.mp (List.mem_of_getElem? hat)).1, List.getElem?_eq_none hnew]
    rfl

/-- The line of a seat is the one of the instrument's own lines with the number of the seat. -/
theorem events_seat (h : Seated s lines parts voices) (hs : s.Consistent)
    (hi : i ∈ s.instruments) (measures : Int) {n k : Nat} (hat : (seatsOf voices i)[n]? = some k) :
    (rested s measures parts voices)[k]?.map Voice.events =
      some (s.seatEvents measures i (linesOf i.symbol lines) n) := by
  have hown := hs.unrivalled hi
  have hturn := h.placesFor_eq_take hown
  obtain ⟨hn, hseat⟩ := List.getElem?_eq_some_iff.mp hat
  have hinstrument : instrumentAt voices k = some i := mem_seatsOf.mp (List.mem_of_getElem? hat)
  rw [seatEvents, ← h.eventsBefore_seat hat]
  rcases lt_or_ge n (linesFor i.symbol lines) with hline | hnone
  · have hpaired := forall₂_placesFor (h.forall₂_played measures) i.symbol
    rw [hturn] at hpaired
    rw [linesFor_eq_length] at hline
    obtain ⟨events, hread, hplayed⟩ := hpaired.get hline (hpaired.length_eq ▸ hline)
    rw [List.get_eq_getElem] at hread
    rw [List.get_eq_getElem, List.getElem_take, hseat] at hplayed
    rw [List.getElem?_eq_getElem hline, Option.map_some, hread]
    exact hplayed
  · have hfree : k ∉ places parts := by
      intro hmem
      have hplace : k ∈ placesFor i.symbol lines (places parts) := by
        rw [h.placesFor_eq_filter hown]
        exact List.mem_filter.mpr ⟨hmem, by simpa using hinstrument⟩
      rw [hturn, ← hseat, getElem_mem_take_iff (seatsOf_pairwise voices i) hn] at hplace
      omega
    rw [(h.resting_rested measures (lt_of_instrumentAt hinstrument) hfree).2,
      List.getElem?_eq_none (linesFor_eq_length i.symbol lines ▸ hnone)]
    rfl

/-- What an instrument comes to play is told by its own lines. -/
theorem map_events (h : Seated s lines parts voices) (hs : s.Consistent) (hi : i ∈ s.instruments)
    (measures : Int) :
    (voicesOf (rested s measures parts voices) i).map Voice.events =
      s.instrumentEvents measures i (linesOf i.symbol lines) := by
  have hcount := h.length_seatsOf (hs.unrivalled hi)
  rw [length_seatsOf_eq s.voices, linesFor_eq_length] at hcount
  apply List.ext_getElem?
  intro n
  rw [List.getElem?_map, getElem?_voicesOf, seatsOf_rested, instrumentEvents, List.getElem?_map, ← hcount]
  cases hat : (seatsOf voices i)[n]? with
  | none =>
      have hn := List.getElem?_eq_none_iff.mp hat
      rw [List.getElem?_eq_none (by simpa using hn)]
      rfl
  | some k =>
      rw [List.getElem?_range (List.getElem?_eq_some_iff.mp hat).1]
      exact h.events_seat hs hi measures hat

end Seated

end Shares

section Order

/-- Voices are the same up to their order if each instrument has the same ones in the same order. -/
theorem perm_of_voicesOf {voices those : List Voice} (h : ∀ i, voicesOf voices i = voicesOf those i) :
    voices.Perm those := by
  refine List.perm_iff_count.mpr fun v => ?_
  have hown : ∀ voices : List Voice, (voicesOf voices v.instrument).count v = voices.count v := fun _ =>
    List.count_filter (by simp)
  rw [← hown, h, hown]

/-- Whether two songs that a song has grown to differ at most in the order of the voices it has got since. -/
structure SameButOrder (s t u : Song) : Prop where
  /-- All but the voices is the same. -/
  rest : SameButVoices t u
  /-- The voices that were there before are the same, at the same places. -/
  old : t.voices.take s.voices.length = u.voices.take s.voices.length
  /-- Each instrument has voices of the same events and lengths, in the same order. -/
  sequence : ∀ i, (voicesOf t.voices i).map Voice.content = (voicesOf u.voices i).map Voice.content
  /-- Without their numbers, the new voices are the same in some order. -/
  created : ((t.voices.drop s.voices.length).map Voice.unnumbered).Perm
    ((u.voices.drop s.voices.length).map Voice.unnumbered)

variable {t u : Song}

theorem Consistent.map_content (ht : t.Consistent) (i : Instrument) :
    (voicesOf t.voices i).map Voice.content =
      ((voicesOf t.voices i).map Voice.events).map fun events => (events, totalLength events) := by
  rw [List.map_map]
  refine List.map_congr_left fun v hv => ?_
  rw [Voice.content, ht.voice_length v (mem_voicesOf.mp hv).1]
  rfl

theorem Consistent.voicesOf_undeclared (ht : t.Consistent) (hi : i ∉ t.instruments) :
    voicesOf t.voices i = [] := by
  refine List.eq_nil_iff_forall_not_mem.mpr fun v hv => hi ?_
  obtain ⟨hmem, rfl⟩ := mem_voicesOf.mp hv
  exact ht.declared v hmem

/-- A voice is told by its place, its instrument and its events. -/
theorem Consistent.getElem?_eq (ht : t.Consistent) (hu : u.Consistent) {k : Nat}
    (hinstrument : instrumentAt t.voices k = instrumentAt u.voices k)
    (hevents : t.voices[k]?.map Voice.events = u.voices[k]?.map Voice.events) : t.voices[k]? = u.voices[k]? := by
  rw [instrumentAt, instrumentAt] at hinstrument
  cases hv : t.voices[k]? with
  | none => simpa [hv, eq_comm] using hevents
  | some v =>
      cases hw : u.voices[k]? with
      | none => simp [hv, hw] at hevents
      | some w =>
          simp only [hv, hw, Option.map_some, Option.some.injEq] at hinstrument hevents
          have hindex : v.index = w.index := (ht.index_eq k v hv).trans (hu.index_eq k w hw).symm
          have hlength : v.length = w.length := by
            rw [ht.voice_length v (List.mem_of_getElem? hv), hu.voice_length w (List.mem_of_getElem? hw), hevents]
          cases v
          cases w
          simp_all

theorem voicesOf_unnumbered (voices : List Voice) (i : Instrument) :
    voicesOf (voices.map Voice.unnumbered) i = ((voicesOf voices i).map Voice.content).map fun content =>
      { instrument := i, index := 0, events := content.1, length := content.2 } := by
  rw [voicesOf, List.filter_map, List.map_map]
  refine List.map_congr_left fun v hv => ?_
  rw [← show v.instrument = i from (mem_voicesOf.mp hv).2]
  rfl

theorem SameButOrder.of_voices (hrest : SameButVoices t u)
    (hold : t.voices.take s.voices.length = u.voices.take s.voices.length)
    (hsequence : ∀ i, (voicesOf t.voices i).map Voice.content = (voicesOf u.voices i).map Voice.content) :
    SameButOrder s t u where
  rest := hrest
  old := hold
  sequence := hsequence
  created := by
    have hall : (t.voices.map Voice.unnumbered).Perm (u.voices.map Voice.unnumbered) :=
      perm_of_voicesOf fun i => by rw [voicesOf_unnumbered, voicesOf_unnumbered, hsequence]
    rw [← List.take_append_drop s.voices.length t.voices, ← List.take_append_drop s.voices.length u.voices,
      List.map_append, List.map_append, hold] at hall
    exact (List.perm_append_left_iff _).mp hall

theorem exists_length_of_sequence {voices those : List Voice}
    (hsequence : ∀ i, (voicesOf voices i).map Voice.content = (voicesOf those i).map Voice.content)
    {v : Voice} (hv : v ∈ voices) : ∃ w ∈ those, w.length = v.length := by
  have hmem : v.content ∈ (voicesOf voices v.instrument).map Voice.content :=
    List.mem_map_of_mem (mem_voicesOf.mpr ⟨hv, rfl⟩)
  rw [hsequence] at hmem
  obtain ⟨w, hw, hcontent⟩ := List.mem_map.mp hmem
  exact ⟨w, (mem_voicesOf.mp hw).1, congrArg Prod.snd hcontent⟩

/-- Songs that differ in the order of new voices at most are even together. -/
theorem SameButOrder.even_iff (h : SameButOrder s t u) :
    (∀ v ∈ t.voices, |v.length - t.length| ≤ tolerance) ↔
      ∀ v ∈ u.voices, |v.length - u.length| ≤ tolerance := by
  have hsequence := h.sequence
  obtain ⟨voices, rfl⟩ := h.rest
  constructor
  · intro heven w hw
    obtain ⟨v, hv, hlength⟩ := exists_length_of_sequence (fun i => (hsequence i).symm) hw
    exact hlength ▸ heven v hv
  · intro heven v hv
    obtain ⟨w, hw, hlength⟩ := exists_length_of_sequence hsequence hv
    exact hlength ▸ heven w hw

end Order

end Song

namespace Reordered

variable {s : Song} {measures : Int} {lines others : List Line} {label : Option String}

theorem voicesNeeded_eq (h : Reordered lines others) (s : Song) :
    s.voicesNeeded lines = s.voicesNeeded others := by
  simp only [Song.voicesNeeded, linesFor_eq_length, h.ordered]

theorem finishesLines_iff (h : Reordered lines others) (hs : s.Consistent) :
    s.FinishesLines measures lines label ↔ s.FinishesLines measures others label := by
  simp only [Song.FinishesLines, Song.playLines_ok_iff hs, h.voicesNeeded_eq, h.perm.mem_iff]

variable {parts those : List Part} {voices rows : List Voice}

/-- Old voices come to play the same, whatever the order of the lines. -/
theorem getElem?_old (h : Reordered lines others) (hs : s.Consistent)
    (hseated : Song.Seated s lines parts voices)
    (hother : Song.Seated s others those rows) {k : Nat} (hk : k < s.voices.length) :
    (Song.rested s measures parts voices)[k]?.map Voice.events =
      (Song.rested s measures those rows)[k]?.map Voice.events := by
  have hv := List.getElem?_eq_getElem hk
  have hi := hs.declared _ (List.getElem_mem hk)
  have hseat : k ∈ seatsOf s.voices s.voices[k].instrument := by
    rw [mem_seatsOf, instrumentAt, hv]
    rfl
  obtain ⟨n, hn, hat⟩ := List.getElem_of_mem hseat
  have hkept : ∀ more, (seatsOf s.voices s.voices[k].instrument ++ more)[n]? = some k := by
    intro more
    rw [List.getElem?_append_left hn, List.getElem?_eq_getElem hn, hat]
  rw [hseated.events_seat hs hi measures (by rw [hseated.seatsOf_eq_append, hkept]),
    hother.events_seat hs hi measures (by rw [hother.seatsOf_eq_append, hkept]), h.ordered]

theorem applySection_sameButOrder (h : Reordered lines others) (hs : s.Consistent)
    (hfinish : s.FinishesLines measures lines label) :
    s.SameButOrder (s.applySection measures lines label).state (s.applySection measures others label).state := by
  obtain ⟨parts, voices, hseated, hstate⟩ := Song.exists_seated_of_finishesLines hs hfinish
  obtain ⟨those, rows, hother, hstate'⟩ :=
    Song.exists_seated_of_finishesLines hs ((h.finishesLines_iff hs).mp hfinish)
  have ht := hs.applySection measures lines label
  have hu := hs.applySection measures others label
  rw [hstate] at ht ⊢
  rw [hstate'] at hu ⊢
  refine .of_voices ⟨_, rfl⟩ ?_ fun i => ?_
  · apply List.ext_getElem?
    intro k
    rw [List.getElem?_take, List.getElem?_take]
    split
    · next hk =>
        refine ht.getElem?_eq hu ?_ (h.getElem?_old hs hseated hother hk)
        rw [Song.counted, Song.counted, Song.instrumentAt_rested, Song.instrumentAt_rested,
          hseated.instrumentAt_old hk, hother.instrumentAt_old hk]
    · rfl
  · by_cases hi : i ∈ s.instruments
    · rw [ht.map_content, hu.map_content]
      have hevents := hseated.map_events hs hi measures
      rw [h.ordered, ← hother.map_events hs hi measures] at hevents
      exact congrArg (List.map fun events => (events, totalLength events)) hevents
    · rw [ht.voicesOf_undeclared hi, hu.voicesOf_undeclared hi]

/-- A section that is accepted is accepted with its lines reordered. -/
theorem applySection_ok (h : Reordered lines others) (hs : s.Consistent)
    (hok : (s.applySection measures lines label).error = none) :
    (s.applySection measures others label).error = none := by
  have hfinish := Song.finishesLines_of_ok hok
  rw [Song.applySection_error_eq_none_iff hfinish] at hok
  rw [Song.applySection_error_eq_none_iff ((h.finishesLines_iff hs).mp hfinish)]
  exact (h.applySection_sameButOrder hs hfinish).even_iff.mp hok

end Reordered

namespace Session

/-- After any steps, a section is accepted with its lines in one order exactly if it is with them in another one
that keeps the order of the lines of each symbol. The songs that it leaves then differ at most in the order of
the voices that it created. -/
theorem applySection_reordered (steps : List Step) (measures : Int) (label : Option String)
    {lines others : List Line} (h : Reordered lines others) :
    let s := (run {} steps).song
    let a := s.applySection measures lines label
    let b := s.applySection measures others label
    (a.error = none ↔ b.error = none) ∧ (a.error = none → s.SameButOrder a.state b.state) := by
  intro s a b
  have hs : s.Consistent := run_consistent steps
  exact ⟨⟨h.applySection_ok hs, h.symm.applySection_ok hs⟩, fun hok =>
    h.applySection_sameButOrder hs (Song.finishesLines_of_ok hok)⟩

/-- A violin and a flute that enter together: which of them has the first voice is a matter of the order of
their lines. -/
theorem applySection_reordered_duet :
    let s := (run {} [.instrument "vi" "Violin", .instrument "fl" "Flute"]).song
    let violin : Line := ⟨⟨"vi", "1:c", none, false⟩, by simp⟩
    let flute : Line := ⟨⟨"fl", "2:e 2:&", none, false⟩, by simp⟩
    let a := s.applySection 1 [violin, flute] none
    let b := s.applySection 1 [flute, violin] none
    Reordered [violin, flute] [flute, violin] ∧ a.error = none ∧ b.error = none ∧
      s.SameButOrder a.state b.state ∧
      a.state.voices.map (fun v => v.instrument.symbol) = ["vi", "fl"] ∧
      b.state.voices.map (fun v => v.instrument.symbol) = ["fl", "vi"] := by
  have hsong : (run {} [.instrument "vi" "Violin", .instrument "fl" "Flute"]).song =
      { instruments := [⟨"vi", "Violin", ⟨40, by decide⟩⟩, ⟨"fl", "Flute", ⟨73, by decide⟩⟩] } := by
    decide +kernel
  have hreordered : Reordered
      [⟨⟨"vi", "1:c", none, false⟩, by simp⟩, ⟨⟨"fl", "2:e 2:&", none, false⟩, by simp⟩]
      [⟨⟨"fl", "2:e 2:&", none, false⟩, by simp⟩, ⟨⟨"vi", "1:c", none, false⟩, by simp⟩] :=
    .swap (by decide) []
  have hduet := applySection_reordered [.instrument "vi" "Violin", .instrument "fl" "Flute"] 1 none hreordered
  rw [hsong] at hduet ⊢
  intro s violin flute a b
  have hok : a.error = none := by decide +kernel
  exact ⟨hreordered, hok, hduet.1.mp hok, hduet.2 hok, by decide +kernel, by decide +kernel⟩

end Session

end LineScore
