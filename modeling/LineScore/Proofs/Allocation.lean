import LineScore.Proofs.Aftermath
import LineScore.Proofs.Calls
import LineScore.Proofs.Changes

/-! How a section shares out the voices. The lines that name an instrument go to its voices in turn, the
first line to the oldest voice, and where there are more lines than voices new ones enter behind. So after a
section an instrument has as many voices as before, or as many as the section has lines for it if these are
more; and over a whole run it has as many as the most lines that one section had for it. -/

namespace LineScore

open LineScore.Part

/-- The places of an instrument's voices, in the order in which they entered. -/
def seatsOf (voices : List Voice) (i : Instrument) : List Nat :=
  (List.range voices.length).filter fun k => instrumentAt voices k = some i

/-- How many lines name a symbol. -/
def linesFor (symbol : LooseText) (lines : List Line) : Nat :=
  lines.countP fun line => line.symbol = symbol

section Seats

variable {voices those : List Voice} {i : Instrument}

theorem mem_seatsOf {k : Nat} : k ∈ seatsOf voices i ↔ instrumentAt voices k = some i := by
  simp only [seatsOf, List.mem_filter, List.mem_range, decide_eq_true_eq, and_iff_right_iff_imp]
  exact lt_of_instrumentAt

theorem seatsOf_pairwise (voices : List Voice) (i : Instrument) : (seatsOf voices i).Pairwise (· < ·) :=
  List.pairwise_lt_range.filter _

theorem seatsOf_congr (hlength : voices.length = those.length)
    (hsame : ∀ k, instrumentAt voices k = instrumentAt those k) (i : Instrument) :
    seatsOf voices i = seatsOf those i := by
  simp only [seatsOf, hlength, hsame]

/-- The seats that an instrument has got since a song had `count` voices. -/
def newSeats (count : Nat) (voices : List Voice) (i : Instrument) : List Nat :=
  (List.range' count (voices.length - count)).filter fun k => instrumentAt voices k = some i

/-- Where old voices stay what they are, new seats come after the old ones. -/
theorem seatsOf_eq_append (hgrows : voices.length ≤ those.length)
    (hold : ∀ k < voices.length, instrumentAt those k = instrumentAt voices k) (i : Instrument) :
    seatsOf those i = seatsOf voices i ++ newSeats voices.length those i := by
  have hrange : List.range those.length =
      List.range voices.length ++ List.range' voices.length (those.length - voices.length) := by
    have hsum : those.length = voices.length + (those.length - voices.length) := by omega
    rw [hsum, List.range_eq_range', List.range_eq_range', ← List.range'_append_1, Nat.zero_add,
      Nat.add_sub_cancel_left]
  rw [seatsOf, hrange, List.filter_append]
  congr 1
  apply List.filter_congr
  intro k hk
  rw [hold k (List.mem_range.mp hk)]

theorem mem_newSeats {count k : Nat} :
    k ∈ newSeats count voices i ↔ count ≤ k ∧ instrumentAt voices k = some i := by
  simp only [newSeats, List.mem_filter, List.mem_range'_1, decide_eq_true_eq]
  constructor
  · rintro ⟨⟨hcount, -⟩, hat⟩
    exact ⟨hcount, hat⟩
  · rintro ⟨hcount, hat⟩
    have := lt_of_instrumentAt hat
    exact ⟨⟨hcount, by omega⟩, hat⟩

end Seats

theorem getElem_mem_take_iff {seats : List Nat} (hseats : seats.Pairwise (· < ·)) {n count : Nat}
    (hn : n < seats.length) : seats[n] ∈ seats.take count ↔ n < count := by
  rw [List.mem_take_iff_getElem]
  constructor
  · rintro ⟨m, hm, hsame⟩
    have hdistinct : seats.Nodup := hseats.imp ne_of_lt
    have hindex : m = n := (hdistinct.getElem_inj_iff).mp hsame
    omega
  · exact fun hlt => ⟨n, by omega, rfl⟩

/-- Whoever takes seats one after the other, never leaving a smaller one free, has taken the first ones. -/
theorem eq_take_of_first {seats chosen : List Nat} (hseats : seats.Pairwise (· < ·))
    (hmem : ∀ k ∈ chosen, k ∈ seats) (hdistinct : chosen.Nodup)
    (hfirst : ∀ before k after, chosen = before ++ k :: after → ∀ j ∈ seats, j < k → j ∈ before) :
    chosen = seats.take chosen.length := by
  induction chosen using List.reverseRecOn with
  | nil => rfl
  | append_singleton chosen k ih =>
      obtain ⟨hchosen, hk⟩ := List.forall_mem_append.mp hmem
      obtain ⟨hbefore, -, hapart⟩ := List.nodup_append.mp hdistinct
      have hfresh : k ∉ chosen := fun hmem => hapart k hmem k List.mem_cons_self rfl
      have htaken := ih hchosen hbefore fun before j after hsplit =>
        hfirst before j (after ++ [k]) (by rw [hsplit]; simp)
      have hin : ∀ n (hn : n < seats.length), seats[n] ∈ chosen ↔ n < chosen.length := by
        intro n hn
        conv_lhs => rw [htaken]
        exact getElem_mem_take_iff hseats hn
      obtain ⟨m, hm, rfl⟩ := List.mem_iff_getElem.mp (hk k List.mem_cons_self)
      -- all seats before the `m`-th are taken and the `m`-th is not, so `m` seats are taken
      have hfew : chosen.length ≤ m := not_lt.mp fun hlt => hfresh ((hin m hm).mpr hlt)
      have hmany : m ≤ chosen.length := by
        by_contra hless
        have hlt : chosen.length < m := by omega
        have hbehind := hfirst chosen seats[m] [] rfl _ (List.getElem_mem (hlt.trans hm))
          (List.pairwise_iff_getElem.mp hseats _ _ _ hm hlt)
        exact lt_irrefl _ ((hin _ (hlt.trans hm)).mp hbehind)
      have hcount : m = chosen.length := by omega
      rw [← hcount] at htaken
      rw [List.length_append, List.length_singleton, ← hcount, List.take_succ_eq_append_getElem hm, ← htaken]

/-- The places of the lines that name a symbol, in the order of the lines. -/
def placesFor (symbol : LooseText) (lines : List Line) (places : List Nat) : List Nat :=
  ((lines.zip places).filter fun x => x.1.symbol = symbol).map Prod.snd

theorem length_placesFor (symbol : LooseText) {lines : List Line} {places : List Nat}
    (hlength : places.length = lines.length) : (placesFor symbol lines places).length = linesFor symbol lines := by
  have hfirst : (lines.zip places).map Prod.fst = lines := List.map_fst_zip hlength.ge
  calc (placesFor symbol lines places).length
      = (lines.zip places).countP fun x => x.1.symbol = symbol := by
        rw [placesFor, List.length_map, List.countP_eq_length_filter]
    _ = ((lines.zip places).map Prod.fst).countP fun line => line.symbol = symbol := by
        rw [List.countP_map]
        rfl
    _ = linesFor symbol lines := by rw [hfirst, linesFor]

namespace Song

variable {s : Song} {lines : List Line} {parts : List Part} {voices : List Voice} {i : Instrument}

/-- Whether no other instrument of a song has the same symbol. -/
def Unrivalled (s : Song) (i : Instrument) : Prop :=
  ∀ j ∈ s.instruments, j.symbol = i.symbol → j = i

theorem Consistent.unrivalled (hs : s.Consistent) (hi : i ∈ s.instruments) : s.Unrivalled i :=
  fun _ hj hsymbol => List.inj_on_of_nodup_map hs.symbols_nodup hj hi hsymbol

theorem symbol_of_findInstrument? {symbol : LooseText} (h : s.findInstrument? symbol = some i) :
    i.symbol = symbol := by
  simpa using List.find?_some h

/-- A line names the instrument that it is played by. -/
theorem Plays.symbol_iff {line : Line} {p : Part} (hplays : Plays s voices line p) (hown : s.Unrivalled i) :
    line.symbol = i.symbol ↔ instrumentAt voices p.place = some i := by
  obtain ⟨j, hfind, hat, -⟩ := hplays
  have hsymbol := symbol_of_findInstrument? hfind
  rw [hat, Option.some.injEq]
  constructor
  · intro hnames
    exact hown j (mem_of_findInstrument? hfind) (hsymbol.trans hnames)
  · rintro rfl
    exact hsymbol.symm

namespace Seated

theorem length_places (h : Seated s lines parts voices) : (places parts).length = lines.length := by
  rw [places, List.length_map, h.plays.length_eq]

theorem placesFor_eq_filter (h : Seated s lines parts voices) (hown : s.Unrivalled i) :
    placesFor i.symbol lines (places parts) =
      (places parts).filter fun k => instrumentAt voices k = some i := by
  have hplays := h.plays
  clear h
  induction hplays with
  | nil => rfl
  | @cons line p lines parts hp _ ih =>
      have hiff := hp.symbol_iff hown
      by_cases hnames : line.symbol = i.symbol
      · have hat := hiff.mp hnames
        simpa [placesFor, places, hnames, hat] using ih
      · have hat : instrumentAt voices p.place ≠ some i := fun hat => hnames (hiff.mpr hat)
        simpa [placesFor, places, hnames, hat] using ih

theorem first_seats (h : Seated s lines parts voices) {before after : List Nat} {k : Nat}
    (hsplit : ((places parts).filter fun k => instrumentAt voices k = some i) = before ++ k :: after) :
    ∀ j ∈ seatsOf voices i, j < k → j ∈ before := by
  intro j hj hlt
  rw [mem_seatsOf] at hj
  obtain ⟨front, tail, hplaces, rfl, htail⟩ := List.filter_eq_append_iff.mp hsplit
  obtain ⟨skipped, rest, rfl, hskipped, hk, -⟩ := List.filter_eq_cons_iff.mp htail
  rw [decide_eq_true_eq] at hk
  obtain ⟨earlier, others, rfl, hearlier, hothers⟩ := List.map_eq_append_iff.mp
    (hplaces.trans (List.append_assoc front skipped (k :: rest)).symm)
  obtain ⟨p, later, rfl, rfl, -⟩ := List.map_eq_cons_iff.mp hothers
  have hmem := h.first earlier p later rfl j hlt (hj.trans hk.symm)
  rw [places, hearlier] at hmem
  rcases List.mem_append.mp hmem with hfront | hskip
  · exact List.mem_filter.mpr ⟨hfront, by simpa using hj⟩
  · exact absurd (by simpa using hj) (hskipped j hskip)

/-- The lines that name an instrument go to its voices in turn. -/
theorem placesFor_eq_take (h : Seated s lines parts voices) (hown : s.Unrivalled i) :
    placesFor i.symbol lines (places parts) = (seatsOf voices i).take (linesFor i.symbol lines) := by
  have hlength := length_placesFor i.symbol h.length_places
  rw [h.placesFor_eq_filter hown] at hlength ⊢
  rw [← hlength]
  refine eq_take_of_first (seatsOf_pairwise voices i) ?_ (h.distinct.filter _) fun _ _ _ => h.first_seats
  intro k hk
  rw [mem_seatsOf]
  simpa using (List.mem_filter.mp hk).2

theorem seatsOf_eq_append (h : Seated s lines parts voices) (i : Instrument) :
    seatsOf voices i = seatsOf s.voices i ++ newSeats s.voices.length voices i :=
  LineScore.seatsOf_eq_append h.grows (fun _ hk => h.instrumentAt_old hk) i

/-- An instrument gets new voices only for lines that its old ones do not suffice for. -/
theorem length_seatsOf (h : Seated s lines parts voices) (hown : s.Unrivalled i) :
    (seatsOf voices i).length = max (seatsOf s.voices i).length (linesFor i.symbol lines) := by
  have hseats := h.seatsOf_eq_append i
  have hturn := h.placesFor_eq_take hown
  have hcount := length_placesFor i.symbol h.length_places
  have hfew : linesFor i.symbol lines ≤ (seatsOf voices i).length := by
    rw [← hcount, hturn, List.length_take]
    exact min_le_right _ _
  cases hnew : newSeats s.voices.length voices i using List.reverseRecOn with
  | nil =>
      rw [hnew, List.append_nil] at hseats
      rw [hseats] at hfew ⊢
      omega
  | append_singleton others k _ =>
      -- the newest voice has a line, so all voices of the instrument have one
      rw [hnew, ← List.append_assoc] at hseats
      obtain ⟨hk, hat⟩ := mem_newSeats.mp (hnew ▸ List.mem_append_right others List.mem_cons_self)
      have hmem : k ∈ placesFor i.symbol lines (places parts) := by
        rw [h.placesFor_eq_filter hown]
        exact List.mem_filter.mpr ⟨h.mem_places_of_new hk (lt_of_instrumentAt hat), by simpa using hat⟩
      have hall : (seatsOf voices i).length = (seatsOf s.voices i ++ others).length + 1 := by
        rw [hseats, List.length_append, List.length_singleton]
      have hlast : (seatsOf s.voices i ++ others).length < (seatsOf voices i).length := by omega
      have hk : (seatsOf voices i)[(seatsOf s.voices i ++ others).length] = k := by simp [hseats]
      rw [hturn, ← hk, getElem_mem_take_iff (seatsOf_pairwise voices i) hlast] at hmem
      rw [List.length_append] at hall hmem
      omega

end Seated

/-- What the voice at a place has played before the next section. A voice that is yet to enter has rested. -/
def eventsBefore (s : Song) (place : Nat) : List Event :=
  (s.voices[place]?.map Voice.events).getD s.elapsedRests

/-- Whether `after` is what a song becomes when the lines of a section are shared out to its voices, line
by line to the voices at `places`. -/
structure SharesOut (s : Song) (measures : Int) (lines : List Line) (after : Song) (places : List Nat) :
    Prop where
  /-- Each line adds its events to its voice. -/
  played : List.Forall₂ (fun line place => ∃ events, line.events s.key s.meter = .ok events ∧
    after.voices[place]?.map Voice.events = some (s.eventsBefore place ++ events)) lines places
  distinct : places.Nodup
  /-- The lines of an instrument go to its voices in the order in which these entered. -/
  in_turn : ∀ i ∈ s.instruments,
    placesFor i.symbol lines places = (seatsOf after.voices i).take (linesFor i.symbol lines)
  kept : ∀ i, seatsOf s.voices i <+: seatsOf after.voices i
  count : ∀ i ∈ s.instruments,
    (seatsOf after.voices i).length = max (seatsOf s.voices i).length (linesFor i.symbol lines)
  /-- New voices enter in the order of the lines that needed them. -/
  entered : places.filter (s.voices.length ≤ ·) =
    List.range' s.voices.length (after.voices.length - s.voices.length)
  /-- A new voice has rested for as long as the song was. -/
  silence : totalLength s.elapsedRests = s.length ∧ ∀ e ∈ s.elapsedRests, ∃ n m, e = .measureRest n m
  /-- A voice without a line is not a new one, and it rests for the section. -/
  resting : ∀ place < after.voices.length, place ∉ places → place < s.voices.length ∧
    after.voices[place]?.map Voice.events = some (s.eventsBefore place ++ [.measureRest measures s.meter])

theorem getElem?_rested (measures : Int) (parts : List Part) (voices : List Voice) (k : Nat) :
    (rested s measures parts voices)[k]? =
      voices[k]?.map fun v => if k ∈ places parts then v else v.append (.measureRest measures s.meter) :=
  List.getElem?_mapIdx

@[simp] theorem length_rested (measures : Int) (parts : List Part) (voices : List Voice) :
    (rested s measures parts voices).length = voices.length :=
  List.length_mapIdx

theorem instrumentAt_rested (measures : Int) (parts : List Part) (voices : List Voice) (k : Nat) :
    instrumentAt (rested s measures parts voices) k = instrumentAt voices k := by
  rw [instrumentAt, instrumentAt, getElem?_rested]
  cases voices[k]? with
  | none => rfl
  | some v => by_cases hline : k ∈ places parts <;> simp [hline, Voice.append]

@[simp] theorem seatsOf_rested (measures : Int) (parts : List Part) (voices : List Voice) (i : Instrument) :
    seatsOf (rested s measures parts voices) i = seatsOf voices i :=
  seatsOf_congr (length_rested measures parts voices) (instrumentAt_rested measures parts voices) i

namespace Seated

theorem events_eq (h : Seated s lines parts voices) {k : Nat} (hk : k < voices.length) :
    voices[k]?.map Voice.events = some (s.eventsBefore k ++ eventsAt parts k) := by
  have hv := List.getElem?_eq_getElem hk
  rcases lt_or_ge k s.voices.length with hold | hnew
  · have hsong := List.getElem?_eq_getElem hold
    rw [h.old k _ hsong]
    simp [eventsBefore, hsong]
  · obtain ⟨i, -, hlate⟩ := h.new k _ hnew hv
    rw [hv, hlate]
    simp [eventsBefore, lateVoice, List.getElem?_eq_none hnew]

theorem eventsAt_place (h : Seated s lines parts voices) {p : Part} (hp : p ∈ parts) :
    eventsAt parts p.place = p.events := by
  obtain ⟨before, rest, rfl⟩ := List.append_of_mem hp
  have hbefore := h.notMem_before
  have hdistinct := h.distinct
  rw [places, List.map_append, List.map_cons] at hdistinct
  have hrest : p.place ∉ places rest := (List.nodup_cons.mp hdistinct.of_append_right).1
  have hsplit : eventsAt (before ++ p :: rest) p.place =
      eventsAt before p.place ++ (p.events ++ eventsAt rest p.place) := by
    simp [eventsAt]
  rw [hsplit, eventsAt_of_notMem hbefore, eventsAt_of_notMem hrest, List.nil_append, List.append_nil]

theorem played_rested (h : Seated s lines parts voices) (measures : Int) {line : Line} {p : Part}
    (hp : p ∈ parts) (hplays : Plays s voices line p) :
    ∃ events, line.events s.key s.meter = .ok events ∧
      (rested s measures parts voices)[p.place]?.map Voice.events =
        some (s.eventsBefore p.place ++ events) := by
  obtain ⟨i, -, hat, hread⟩ := hplays
  have hmem : p.place ∈ places parts := List.mem_map_of_mem hp
  refine ⟨p.events, hread, ?_⟩
  rw [getElem?_rested, ← h.eventsAt_place hp, ← h.events_eq (h.place_lt hmem)]
  simp [hmem]

theorem forall₂_played (h : Seated s lines parts voices) (measures : Int) :
    List.Forall₂ (fun line place => ∃ events, line.events s.key s.meter = .ok events ∧
      (rested s measures parts voices)[place]?.map Voice.events = some (s.eventsBefore place ++ events))
      lines (places parts) := by
  rw [places, List.forall₂_map_right_iff]
  refine List.forall₂_iff_zip.mpr ⟨h.plays.length_eq, fun hpair => ?_⟩
  exact h.played_rested measures (List.of_mem_zip hpair).2 (List.forall₂_zip h.plays hpair)

theorem resting_rested (h : Seated s lines parts voices) (measures : Int) {k : Nat} (hk : k < voices.length)
    (hnone : k ∉ places parts) : k < s.voices.length ∧
      (rested s measures parts voices)[k]?.map Voice.events =
        some (s.eventsBefore k ++ [.measureRest measures s.meter]) := by
  constructor
  · by_contra hnew
    exact hnone (h.mem_places_of_new (not_lt.mp hnew) hk)
  · have hevents := h.events_eq hk
    have hv := List.getElem?_eq_getElem hk
    rw [eventsAt_of_notMem hnone, List.append_nil, hv, Option.map_some, Option.some.injEq] at hevents
    rw [getElem?_rested, hv]
    simp [hnone, Voice.append, hevents]

/-- A section that is counted has been shared out. -/
theorem sharesOut (h : Seated s lines parts voices) (hs : s.Consistent)
    (hsilence : totalLength s.elapsedRests = s.length) (measures : Int) :
    SharesOut s measures lines (counted s measures parts voices) (places parts) where
  played := h.forall₂_played measures
  distinct := h.distinct
  in_turn i hi := by
    simpa [counted] using h.placesFor_eq_take (hs.unrivalled hi)
  kept i := by
    rw [counted, seatsOf_rested, h.seatsOf_eq_append]
    exact List.prefix_append _ _
  count i hi := by
    simpa [counted] using h.length_seatsOf (hs.unrivalled hi)
  entered := by
    simpa [counted] using h.entered
  silence := by
    refine ⟨hsilence, fun e he => ?_⟩
    obtain ⟨entry, -, rfl⟩ := List.mem_map.mp he
    exact ⟨_, _, rfl⟩
  resting k hk hnone := h.resting_rested measures (by simpa [counted] using hk) hnone

end Seated

end Song

end LineScore
