import LineScore.Mismatch
import LineScore.Voice
import Mathlib.Algebra.Order.BigOperators.Group.List
import Mathlib.Algebra.Order.Ring.Rat
import Mathlib.Tactic.Linarith
import Mathlib.Tactic.Positivity
import Mathlib.Tactic.Ring

/-! Lengths as exact rational numbers: sums of lengths, spans of measures, and what the length of a voice
has to do with its events. The tolerance is a bound on an absolute difference, and on a grid that is not
finer than the tolerance it tells equal lengths from unequal ones. -/

namespace LineScore

theorem distance_eq_abs (a b : Rat) : distance a b = |a - b| := by
  unfold distance
  split
  · next hle => rw [abs_of_nonpos (sub_nonpos.mpr hle), neg_sub]
  · next hlt => rw [abs_of_pos (sub_pos.mpr (not_le.mp hlt))]

namespace Meter

theorem spanLength_eq (m : Meter) (measures : Int) :
    m.spanLength measures = measures * (4 * m.numerator / m.denominator) := by
  rw [spanLength, measureLength, beatLength]
  ring

theorem spanLength_add (m : Meter) (a b : Int) :
    m.spanLength (a + b) = m.spanLength a + m.spanLength b := by
  simp only [spanLength, Int.cast_add, mul_add]

theorem spanLength_pos (m : Meter) {measures : Int} (hpos : 0 < measures) :
    0 < m.spanLength measures := by
  have hnumerator : (0 : Rat) < m.numerator := by exact_mod_cast m.numerator_pos
  have hdenominator : (0 : Rat) < m.denominator := by exact_mod_cast m.denominator_pos
  have hmeasures : (0 : Rat) < measures := by exact_mod_cast hpos
  rw [spanLength_eq]
  positivity

end Meter

@[simp] theorem totalLength_nil : totalLength [] = 0 := rfl

@[simp] theorem totalLength_cons (event : Event) (events : List Event) :
    totalLength (event :: events) = event.length + totalLength events := rfl

theorem totalLength_eq_sum (events : List Event) : totalLength events = (events.map Event.length).sum := by
  induction events with
  | nil => rfl
  | cons event events ih => rw [totalLength_cons, ih, List.map_cons, List.sum_cons]

@[simp] theorem totalLength_append (events more : List Event) :
    totalLength (events ++ more) = totalLength events + totalLength more := by
  simp only [totalLength_eq_sum, List.map_append, List.sum_append]

theorem totalLength_nonneg {events : List Event} (hevents : ∀ e ∈ events, 0 ≤ e.length) :
    0 ≤ totalLength events := by
  rw [totalLength_eq_sum]
  refine List.sum_nonneg fun x hx => ?_
  obtain ⟨e, he, rfl⟩ := List.mem_map.mp hx
  exact hevents e he

theorem foldl_length (events : List Event) (start : Rat) :
    events.foldl (· + ·.length) start = start + totalLength events := by
  induction events generalizing start with
  | nil => simp
  | cons event events ih => rw [List.foldl_cons, ih, totalLength_cons, add_assoc]

namespace Voice

@[simp] theorem extend_length (v : Voice) (events : List Event) :
    (v.extend events).length = v.length + totalLength events :=
  foldl_length events v.length

end Voice

/-- Whether a length is a whole number of `parts` equal parts of a quarter note. -/
def OnGrid (parts : Nat) (x : Rat) : Prop :=
  ∃ k : Int, x = k / parts

namespace OnGrid

variable {parts : Nat} {x y : Rat}

theorem zero : OnGrid parts 0 :=
  ⟨0, by simp⟩

theorem add (hx : OnGrid parts x) (hy : OnGrid parts y) : OnGrid parts (x + y) := by
  obtain ⟨k, rfl⟩ := hx
  obtain ⟨l, rfl⟩ := hy
  exact ⟨k + l, by push_cast; ring⟩

theorem sub (hx : OnGrid parts x) (hy : OnGrid parts y) : OnGrid parts (x - y) := by
  obtain ⟨k, rfl⟩ := hx
  obtain ⟨l, rfl⟩ := hy
  exact ⟨k - l, by push_cast; ring⟩

theorem sum {xs : List Rat} (hxs : ∀ x ∈ xs, OnGrid parts x) : OnGrid parts xs.sum := by
  induction xs with
  | nil => exact zero
  | cons x xs ih =>
      obtain ⟨hx, hrest⟩ := List.forall_mem_cons.mp hxs
      rw [List.sum_cons]
      exact add hx (ih hrest)

theorem totalLength {events : List Event} (hevents : ∀ e ∈ events, OnGrid parts e.length) :
    OnGrid parts (totalLength events) := by
  rw [totalLength_eq_sum]
  refine sum fun x hx => ?_
  obtain ⟨e, he, rfl⟩ := List.mem_map.mp hx
  exact hevents e he

theorem iff_eq_num_div : OnGrid parts x ↔ x = (x * parts).num / parts := by
  refine ⟨fun hx => ?_, fun hx => ⟨_, hx⟩⟩
  obtain ⟨k, rfl⟩ := hx
  rcases Nat.eq_zero_or_pos parts with rfl | hpos
  · simp
  · have hparts : (parts : Rat) ≠ 0 := by exact_mod_cast hpos.ne'
    rw [div_mul_cancel₀ _ hparts, Rat.num_intCast]

instance : Decidable (OnGrid parts x) :=
  decidable_of_iff' _ iff_eq_num_div

/-- On a grid of fewer than 100000 parts nothing but zero lies within the tolerance. -/
theorem eq_zero_of_abs_le (hx : OnGrid parts x) (hpos : 0 < parts) (hfew : parts < 100000)
    (hsmall : |x| ≤ tolerance) : x = 0 := by
  obtain ⟨k, rfl⟩ := hx
  have hparts : (0 : Rat) < parts := by exact_mod_cast hpos
  have hbound : |(k : Rat)| < 1 := by
    rw [abs_div, abs_of_pos hparts, div_le_iff₀ hparts, tolerance] at hsmall
    have hfew' : (parts : Rat) < 100000 := by exact_mod_cast hfew
    linarith
  have hk : |k| < 1 := by exact_mod_cast hbound
  rw [Int.abs_lt_one_iff.mp hk]
  simp

end OnGrid

end LineScore
