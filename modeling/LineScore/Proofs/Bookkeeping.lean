import LineScore.Proofs.Edits
import Mathlib.Data.List.Nodup

/-! The books of a song. In every song that steps can write, failed steps included, the cached lengths are
the true ones, the totals are those of the history, voices are numbered by their places, and every voice
has an instrument of its own declaration. What was written before a step is still there after it. -/

namespace LineScore

namespace Song

/-- A song whose totals agree with what they are totals of, and whose voices stand in their places. -/
structure Consistent (s : Song) : Prop where
  voice_length : ∀ v ∈ s.voices, v.length = totalLength v.events
  length_eq : s.length = (s.history.map fun h => (h.1 : Rat) * (4 * h.2.numerator / h.2.denominator)).sum
  measureCount_eq : s.measureCount = (s.history.map Prod.fst).sum
  voices_le : s.voices.length ≤ 16
  index_eq : ∀ (k : Nat) v, s.voices[k]? = some v → v.index = k
  symbols_nodup : (s.instruments.map Instrument.symbol).Nodup
  declared : ∀ v ∈ s.voices, v.instrument ∈ s.instruments

/-- Whether a song goes on from another one: each voice keeps its place and its instrument, and plays on
after the events that it has. -/
def Extends (s t : Song) : Prop :=
  ∀ (k : Nat) v, s.voices[k]? = some v →
    ∃ w, t.voices[k]? = some w ∧ w.instrument = v.instrument ∧ v.events <+: w.events

theorem consistent_empty : Consistent {} where
  voice_length v hv := absurd hv List.not_mem_nil
  length_eq := rfl
  measureCount_eq := rfl
  voices_le := Nat.zero_le 16
  index_eq k v hv := by simp at hv
  symbols_nodup := List.nodup_nil
  declared v hv := absurd hv List.not_mem_nil

theorem findInstrument?_eq_none_iff {s : Song} {symbol : LooseText} :
    s.findInstrument? symbol = none ↔ symbol ∉ s.instruments.map Instrument.symbol := by
  simp [findInstrument?, List.find?_eq_none]

namespace Consistent

variable {s : Song}

theorem declare {t : Song} (h : Consistent s) (hdeclares : Declares s t) : Consistent t := by
  cases hdeclares with
  | instrument i hfresh =>
      refine { h with symbols_nodup := ?_, declared := ?_ }
      · rw [List.map_append, List.map_singleton]
        exact List.Nodup.append h.symbols_nodup (List.nodup_singleton _)
          (List.disjoint_singleton.mpr (findInstrument?_eq_none_iff.mp hfresh))
      · exact fun v hv => List.mem_append_left _ (h.declared v hv)
  | _ => exact { h with }

theorem addVoice (h : Consistent s) {i : Instrument} (hdeclared : i ∈ s.instruments)
    (hroom : s.voices.length < maxVoices) (events : List Event) : Consistent (s.addVoice i events) where
  voice_length v hv := by
    rcases List.mem_append.mp hv with hold | hnew
    · exact h.voice_length v hold
    · rw [List.mem_singleton.mp hnew, Voice.extend_length, Voice.extend_events, List.nil_append, zero_add]
  length_eq := h.length_eq
  measureCount_eq := h.measureCount_eq
  voices_le := by
    rw [Song.addVoice, List.length_append]
    exact hroom
  index_eq k v hv := by
    change (s.voices ++ [_])[k]? = some v at hv
    rcases getElem?_concat_cases hv with hold | ⟨rfl, rfl⟩
    · exact h.index_eq k v hold
    · simp
  symbols_nodup := h.symbols_nodup
  declared v hv := by
    rcases List.mem_append.mp hv with hold | hnew
    · exact h.declared v hold
    · rw [List.mem_singleton.mp hnew]
      exact hdeclared

theorem play (h : Consistent s) (part : Voice → List Event) : Consistent (s.play part) where
  voice_length v hv := by
    obtain ⟨old, hold, rfl⟩ := List.mem_map.mp hv
    rw [Voice.extend_length, Voice.extend_events, totalLength_append, h.voice_length old hold]
  length_eq := h.length_eq
  measureCount_eq := h.measureCount_eq
  voices_le := by
    rw [Song.play, List.length_map]
    exact h.voices_le
  index_eq k v hv := by
    rw [Song.play, List.getElem?_map] at hv
    obtain ⟨old, hold, rfl⟩ := Option.map_eq_some_iff.mp hv
    exact h.index_eq k old hold
  symbols_nodup := h.symbols_nodup
  declared v hv := by
    obtain ⟨old, hold, rfl⟩ := List.mem_map.mp hv
    exact h.declared old hold

theorem record (h : Consistent s) (measures : Int) : Consistent (s.record measures) where
  voice_length := h.voice_length
  length_eq := by
    simp only [Song.record, List.map_append, List.sum_append, List.map_singleton, List.sum_singleton,
      Meter.spanLength_eq, h.length_eq]
  measureCount_eq := by
    simp only [Song.record, List.map_append, List.sum_append, List.map_singleton, List.sum_singleton,
      h.measureCount_eq]
  voices_le := h.voices_le
  index_eq := h.index_eq
  symbols_nodup := h.symbols_nodup
  declared := h.declared

theorem edit {t : Song} (h : Consistent s) (hedit : Edit s t) : Consistent t := by
  cases hedit with
  | declare hdeclares => exact h.declare hdeclares
  | enter i hdeclared hroom => exact h.addVoice hdeclared hroom _
  | play part => exact h.play part
  | record measures hpos => exact h.record measures

end Consistent

namespace Extends

variable {s t u : Song}

theorem of_voices_eq (hvoices : t.voices = s.voices) : Extends s t :=
  fun k v hv => ⟨v, by rw [hvoices, hv], rfl, List.prefix_rfl⟩

theorem trans (hst : Extends s t) (htu : Extends t u) : Extends s u := by
  intro k v hv
  obtain ⟨w, hw, hinstrument, hevents⟩ := hst k v hv
  obtain ⟨x, hx, hinstrument', hevents'⟩ := htu k w hw
  exact ⟨x, hx, hinstrument'.trans hinstrument, hevents.trans hevents'⟩

theorem of_edit (hedit : Edit s t) : Extends s t := by
  cases hedit with
  | declare hdeclares => exact of_voices_eq (by cases hdeclares <;> rfl)
  | enter i hdeclared hroom =>
      intro k v hv
      refine ⟨v, ?_, rfl, List.prefix_rfl⟩
      change (s.voices ++ [_])[k]? = some v
      rw [List.getElem?_append_left (List.getElem?_eq_some_iff.mp hv).1, hv]
  | play part =>
      intro k v hv
      refine ⟨v.extend (part v), ?_, rfl, List.prefix_append _ _⟩
      rw [Song.play, List.getElem?_map, hv]
      rfl
  | record measures hpos => exact of_voices_eq rfl

end Extends

theorem Edits.extends {s t : Song} (hedits : Edits s t) : Extends s t :=
  hedits.keeps (fun _ _ hedit hso => hso.trans (.of_edit hedit)) (.of_voices_eq rfl)

end Song

namespace Session

theorem run_consistent (steps : List Step) : (run {} steps).song.Consistent :=
  (run_edits {} steps).keeps (fun _ _ hedit h => h.edit hedit) Song.consistent_empty

/-- Every song that steps can write is consistent, and every further step only appends to it. -/
theorem run_consistent_and_step_extends (steps : List Step) :
    (run {} steps).song.Consistent ∧
      ∀ next, (run {} steps).song.Extends ((run {} steps).step next).state.song :=
  ⟨run_consistent steps, fun next => ((run {} steps).step_edits next).extends⟩

end Session

end LineScore
