import LineScore.Proofs.Bookkeeping
import Mathlib.Data.List.Forall2

/-! What the lines of a section bring about, told voice by voice. Each line plays in the first voice of its
instrument that no earlier line of the section plays in, and a line that finds none plays in a new voice at
the end. These rules leave no choice: the song and the lines decide what becomes of every voice. -/

namespace LineScore

/-- What a line adds to a song: events, in the voice at a place. -/
structure Part where
  place : Nat
  events : List Event

namespace Part

def places (parts : List Part) : List Nat :=
  parts.map Part.place

/-- The events that parts add to the voice at a place. -/
def eventsAt (parts : List Part) (place : Nat) : List Event :=
  (parts.filter fun p => p.place = place).flatMap Part.events

@[simp] theorem places_concat (parts : List Part) (p : Part) :
    places (parts ++ [p]) = places parts ++ [p.place] := by
  simp only [places, List.map_append, List.map_singleton]

@[simp] theorem eventsAt_nil (place : Nat) : eventsAt [] place = [] := rfl

theorem eventsAt_concat (parts : List Part) (p : Part) (place : Nat) :
    eventsAt (parts ++ [p]) place = eventsAt parts place ++ if p.place = place then p.events else [] := by
  simp only [eventsAt, List.filter_append, List.flatMap_append]
  by_cases hplace : p.place = place <;> simp [hplace]

theorem eventsAt_of_notMem {parts : List Part} {place : Nat} (hplace : place ∉ places parts) :
    eventsAt parts place = [] := by
  have hnone : parts.filter (fun p => p.place = place) = [] := by
    apply List.filter_eq_nil_iff.mpr
    intro p hp heq
    exact hplace (List.mem_map.mpr ⟨p, hp, by simpa using heq⟩)
  rw [eventsAt, hnone, List.flatMap_nil]

theorem exists_of_mem_eventsAt {parts : List Part} {place : Nat} {e : Event} (he : e ∈ eventsAt parts place) :
    ∃ p ∈ parts, e ∈ p.events := by
  obtain ⟨p, hp, hep⟩ := List.mem_flatMap.mp he
  exact ⟨p, (List.mem_filter.mp hp).1, hep⟩

end Part

open LineScore.Part

theorem Voice.extend_extend (v : Voice) (events more : List Event) :
    (v.extend events).extend more = v.extend (events ++ more) := by
  simp only [Voice.extend, List.append_assoc, List.foldl_append]

theorem exists_left_of_forall₂ {α β : Type} {R : α → β → Prop} {xs : List α} {ys : List β}
    (h : List.Forall₂ R xs ys) {y : β} (hy : y ∈ ys) : ∃ x ∈ xs, R x y := by
  induction h with
  | nil => cases hy
  | cons hxy _ ih =>
      rcases List.mem_cons.mp hy with rfl | hy
      · exact ⟨_, List.mem_cons_self, hxy⟩
      · obtain ⟨x, hx, hR⟩ := ih hy
        exact ⟨x, List.mem_cons_of_mem _ hx, hR⟩

/-- The instrument of the voice at a place. -/
def instrumentAt (voices : List Voice) (place : Nat) : Option Instrument :=
  voices[place]?.map Voice.instrument

theorem instrumentAt_modify (voices : List Voice) (place : Nat) (events : List Event) (other : Nat) :
    instrumentAt (voices.modify place (·.extend events)) other = instrumentAt voices other := by
  rw [instrumentAt, instrumentAt, List.getElem?_modify]
  cases voices[other]? with
  | none => rfl
  | some v =>
      by_cases hplace : place = other
      · simp [hplace]
      · simp [hplace]

theorem lt_of_instrumentAt {voices : List Voice} {place : Nat} {i : Instrument}
    (hat : instrumentAt voices place = some i) : place < voices.length := by
  obtain ⟨v, hv, -⟩ := Option.map_eq_some_iff.mp hat
  exact (List.getElem?_eq_some_iff.mp hv).1

namespace Song

variable {s : Song}

/-- A voice that enters at a place now: it has been silent for all sections so far. -/
def lateVoice (s : Song) (i : Instrument) (place : Nat) : Voice :=
  Voice.extend { instrument := i, index := place } s.elapsedRests

/-- Whether a part is what a line plays, in a voice of its instrument. -/
def Plays (s : Song) (voices : List Voice) (line : Line) (p : Part) : Prop :=
  ∃ i, s.findInstrument? line.symbol = some i ∧ instrumentAt voices p.place = some i ∧
    line.events s.key s.meter = .ok p.events

/-- Whether the voices of a song have become `voices` once lines have been played, each as its part. -/
structure Seated (s : Song) (lines : List Line) (parts : List Part) (voices : List Voice) : Prop where
  plays : List.Forall₂ (Plays s voices) lines parts
  /-- No voice plays two lines. -/
  distinct : (places parts).Nodup
  /-- A line passes over a voice of its instrument only if an earlier line plays there. -/
  first : ∀ before p after, parts = before ++ p :: after → ∀ k < p.place,
    instrumentAt voices k = instrumentAt voices p.place → k ∈ places before
  old : ∀ (k : Nat) v, s.voices[k]? = some v → voices[k]? = some (v.extend (eventsAt parts k))
  new : ∀ (k : Nat) v, s.voices.length ≤ k → voices[k]? = some v →
    ∃ i ∈ s.instruments, v = (s.lateVoice i k).extend (eventsAt parts k)
  /-- New voices stand in the order of the lines that needed them. -/
  entered : (places parts).filter (s.voices.length ≤ ·) =
    List.range' s.voices.length (voices.length - s.voices.length)
  grows : s.voices.length ≤ voices.length
  room : voices.length ≤ 16

namespace Seated

variable {lines : List Line} {parts others before rest rest' : List Part} {voices those : List Voice}
  {p q : Part} {k : Nat}

theorem nil (hs : s.Consistent) : Seated s [] [] s.voices where
  plays := .nil
  distinct := List.nodup_nil
  first before p after hsplit := by simp at hsplit
  old k v hv := by rw [eventsAt_nil, Voice.extend_nil, hv]
  new k v hk hv := absurd (List.getElem?_eq_some_iff.mp hv).1 (not_lt.mpr hk)
  entered := by simp [places]
  grows := le_rfl
  room := hs.voices_le

theorem index_eq (hs : s.Consistent) (h : Seated s lines parts voices) {v : Voice}
    (hv : voices[k]? = some v) : v.index = k := by
  rcases lt_or_ge k s.voices.length with hlt | hge
  · have hold := List.getElem?_eq_getElem hlt
    rw [h.old k _ hold, Option.some.injEq] at hv
    rw [← hv, Voice.extend_index]
    exact hs.index_eq k _ hold
  · obtain ⟨i, -, rfl⟩ := h.new k v hge hv
    rfl

theorem exists_line (h : Seated s lines parts voices) (hp : p ∈ parts) :
    ∃ line ∈ lines, Plays s voices line p :=
  exists_left_of_forall₂ h.plays hp

theorem place_lt (h : Seated s lines parts voices) (hk : k ∈ places parts) : k < voices.length := by
  obtain ⟨p, hp, rfl⟩ := List.mem_map.mp hk
  obtain ⟨line, -, i, -, hat, -⟩ := h.exists_line hp
  exact lt_of_instrumentAt hat

/-- Every new voice has its line. -/
theorem mem_places_of_new (h : Seated s lines parts voices) (hnew : s.voices.length ≤ k)
    (hk : k < voices.length) : k ∈ places parts := by
  have hmem : k ∈ List.range' s.voices.length (voices.length - s.voices.length) := by
    rw [List.mem_range'_1]
    omega
  rw [← h.entered] at hmem
  exact (List.mem_filter.mp hmem).1

theorem notMem_before (h : Seated s lines (before ++ p :: rest) voices) : p.place ∉ places before := by
  have hdistinct := h.distinct
  rw [places, List.map_append, List.map_cons, List.nodup_append] at hdistinct
  intro hmem
  exact hdistinct.2.2 _ hmem _ List.mem_cons_self rfl

theorem instrumentAt_old (h : Seated s lines parts voices) {k : Nat} (hk : k < s.voices.length) :
    instrumentAt voices k = instrumentAt s.voices k := by
  have hv := List.getElem?_eq_getElem hk
  rw [instrumentAt, instrumentAt, h.old k _ hv, hv, Option.map_some, Option.map_some, Voice.extend_instrument]

/-- The place of a new voice is told by the number of new voices before it. -/
theorem place_eq_of_new (h : Seated s lines (before ++ p :: rest) voices) (hnew : s.voices.length ≤ p.place) :
    p.place = s.voices.length + ((places before).filter (s.voices.length ≤ ·)).length := by
  have hentered := h.entered
  rw [places, List.map_append, List.map_cons, List.filter_append,
    List.filter_cons_of_pos (by simpa using hnew)] at hentered
  have hat := congrArg (fun xs => xs[((before.map Part.place).filter (s.voices.length ≤ ·)).length]?) hentered
  simp only [List.getElem?_append_right le_rfl, Nat.sub_self, List.getElem?_cons_zero] at hat
  obtain ⟨hlt, hget⟩ := List.getElem?_eq_some_iff.mp hat.symm
  rw [List.getElem_range', one_mul] at hget
  exact hget.symm

/-- After the same parts two lines of one instrument cannot play at different places. -/
theorem not_place_lt (h : Seated s lines (before ++ p :: rest) voices)
    (h' : Seated s lines (before ++ q :: rest') those)
    (hsame : instrumentAt voices p.place = instrumentAt those q.place) : ¬ p.place < q.place := by
  intro hlt
  rcases lt_or_ge p.place s.voices.length with hold | hnew
  · rw [h.instrumentAt_old hold, ← h'.instrumentAt_old hold] at hsame
    exact h.notMem_before (h'.first before q rest' rfl p.place hlt hsame)
  · have hq := h'.place_eq_of_new (hnew.trans hlt.le)
    rw [← h.place_eq_of_new hnew] at hq
    exact absurd hq hlt.ne'

theorem parts_unique_from (lines' : List Line) (before : List Part) {rest rest' : List Part}
    (h : Seated s lines (before ++ rest) voices) (h' : Seated s lines (before ++ rest') those)
    (hplays : List.Forall₂ (Plays s voices) lines' rest)
    (hplays' : List.Forall₂ (Plays s those) lines' rest') :
    rest = rest' := by
  induction lines' generalizing before rest rest' with
  | nil =>
      cases hplays
      cases hplays'
      rfl
  | cons line lines' ih =>
      cases hplays with
      | @cons _ p _ rest hp hplays =>
      cases hplays' with
      | @cons _ q _ rest' hq hplays' =>
      obtain ⟨i, hi, hat, hread⟩ := hp
      obtain ⟨j, hj, hat', hread'⟩ := hq
      obtain rfl : i = j := Option.some.inj (hi.symm.trans hj)
      have hplace : p.place = q.place :=
        le_antisymm (not_lt.mp (h'.not_place_lt h (hat'.trans hat.symm)))
          (not_lt.mp (h.not_place_lt h' (hat.trans hat'.symm)))
      have hevents : p.events = q.events := Except.ok.inj (hread.symm.trans hread')
      obtain rfl : p = q := by
        cases p
        cases q
        simp only at hplace hevents
        rw [hplace, hevents]
      rw [List.append_cons] at h h'
      rw [ih _ h h' hplays hplays']

/-- Nothing but the song and the lines decides what the lines bring about. -/
theorem unique (h : Seated s lines parts voices) (h' : Seated s lines others those) :
    parts = others ∧ voices = those := by
  obtain rfl : parts = others := parts_unique_from lines [] h h' h.plays h'.plays
  refine ⟨rfl, ?_⟩
  have hlength : voices.length = those.length := by
    have hcount := congrArg List.length (h.entered.symm.trans h'.entered)
    rw [List.length_range', List.length_range'] at hcount
    have hgrows := h.grows
    have hgrows' := h'.grows
    omega
  apply List.ext_getElem hlength
  intro k hk hk'
  have hv := List.getElem?_eq_getElem hk
  have hw := List.getElem?_eq_getElem hk'
  rcases lt_or_ge k s.voices.length with hold | hnew
  · have hsong := List.getElem?_eq_getElem hold
    rw [h.old k _ hsong] at hv
    rw [h'.old k _ hsong] at hw
    exact Option.some.inj (hv.symm.trans hw)
  · obtain ⟨i, -, hi⟩ := h.new k _ hnew hv
    obtain ⟨j, -, hj⟩ := h'.new k _ hnew hw
    obtain ⟨p, hp, rfl⟩ := List.mem_map.mp (h.mem_places_of_new hnew hk)
    obtain ⟨line, -, ⟨l, hl, hat, -⟩, ⟨l', hl', hat', -⟩⟩ :=
      exists_left_of_forall₂ (h.plays.mp (fun _ _ => And.intro) h'.plays) hp
    obtain rfl : l = l' := Option.some.inj (hl.symm.trans hl')
    rw [instrumentAt, hv, Option.map_some, hi, Option.some.injEq] at hat
    rw [instrumentAt, hw, Option.map_some, hj, Option.some.injEq] at hat'
    rw [hi, hj, show i = j from hat.trans hat'.symm]

end Seated

end Song

end LineScore
