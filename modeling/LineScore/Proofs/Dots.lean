import LineScore.Duration
import Mathlib.Algebra.BigOperators.Intervals
import Mathlib.Algebra.Order.Field.Basic
import Mathlib.Algebra.Order.Ring.Rat
import Mathlib.Tactic.FieldSimp
import Mathlib.Tactic.Positivity
import Mathlib.Tactic.Ring

/-! The lengths of dotted notes. A note without dots has its part of the whole note, and each dot adds half
of what was added last. So dots make a note longer, but never as long as two notes without dots, and what is
missing is what the last dot added. -/

namespace LineScore.Duration

open Finset

variable {x y : Duration}

/-- Halves added up fall short of twice the first one by the last one. -/
theorem sum_halves (base : Rat) (dots : Nat) :
    ∑ i ∈ range (dots + 1), base / 2 ^ i = 2 * base - base / 2 ^ dots := by
  induction dots with
  | zero => simp; ring
  | succ dots ih =>
      rw [sum_range_succ, ih, pow_succ]
      field_simp
      ring

theorem length_eq_sub (x : Duration) :
    x.length = 8 / (x.denominator : Rat) - 4 / (x.denominator : Rat) / 2 ^ x.dots.toNat := by
  rw [length]
  ring

theorem length_eq_sum (x : Duration) :
    x.length = ∑ i ∈ range (x.dots.toNat + 1), 4 / (x.denominator : Rat) / 2 ^ i := by
  rw [sum_halves, length_eq_sub]
  ring

theorem cast_denominator_pos (hpos : 0 < x.denominator) : (0 : Rat) < x.denominator := by
  exact_mod_cast hpos

theorem length_pos (hpos : 0 < x.denominator) : 0 < x.length := by
  have hdenominator := cast_denominator_pos hpos
  rw [length_eq_sum]
  exact sum_pos (fun i _ => by positivity) nonempty_range_add_one

theorem length_lt (hpos : 0 < x.denominator) : x.length < 8 / (x.denominator : Rat) := by
  have hdenominator := cast_denominator_pos hpos
  rw [length_eq_sub, sub_lt_self_iff]
  positivity

/-- More dots make a note longer. -/
theorem length_lt_of_dots_lt (hpos : 0 < x.denominator) (hsame : y.denominator = x.denominator)
    (hdots : x.dots.toNat < y.dots.toNat) : x.length < y.length := by
  have hdenominator := cast_denominator_pos hpos
  have hpow : (2 : Rat) ^ x.dots.toNat < 2 ^ y.dots.toNat := pow_lt_pow_right₀ one_lt_two hdots
  rw [length_eq_sub, length_eq_sub, hsame]
  gcongr

/-- With the same dots, a note of a larger denominator is shorter. -/
theorem length_lt_of_denominator_lt (hpos : 0 < x.denominator) (hless : x.denominator < y.denominator)
    (hsame : y.dots = x.dots) : y.length < x.length := by
  have hdenominator := cast_denominator_pos hpos
  have hcast : (x.denominator : Rat) < y.denominator := by exact_mod_cast hless
  rw [length_eq_sum, length_eq_sum, hsame]
  exact sum_lt_sum_of_nonempty nonempty_range_add_one fun i _ => by gcongr

/-- A note with dots is as long as the note without them and the halves that the dots add. It is the longer
the more dots it has and the shorter the larger its denominator, and falls short of twice the note without
dots by what was added last. -/
theorem length_dotted {denominator : Int} (hpos : 0 < denominator) (dots : Nat) :
    let x : Duration := ⟨denominator, dots⟩
    x.length? = .ok x.length ∧
    x.length = ∑ i ∈ range (dots + 1), 4 / (denominator : Rat) / 2 ^ i ∧
    0 < x.length ∧
    (∀ more : Nat, dots < more → x.length < (⟨denominator, more⟩ : Duration).length) ∧
    (∀ larger, denominator < larger → (⟨larger, dots⟩ : Duration).length < x.length) ∧
    x.length < 8 / (denominator : Rat) ∧
    x.length = 8 / (denominator : Rat) - 4 / (denominator : Rat) / 2 ^ dots := by
  intro x
  have hcheck : x.check = .ok () := (check_eq_ok_iff x).mpr ⟨hpos, Int.natCast_nonneg dots⟩
  refine ⟨?_, length_eq_sum x, length_pos hpos, fun more hmore => ?_, fun larger hlarger => ?_,
    length_lt hpos, length_eq_sub x⟩
  · rw [length?, hcheck]
    rfl
  · exact length_lt_of_dots_lt hpos rfl hmore
  · exact length_lt_of_denominator_lt hpos hlarger rfl

/-- A quarter note with two dots is as long as a quarter, an eighth and a sixteenth. -/
theorem length_dotted_quarter :
    (0 : Int) < 4 ∧ (⟨4, 2⟩ : Duration).length = 1 + 1 / 2 + 1 / 4 ∧
      (⟨4, 2⟩ : Duration).length < (⟨4, 3⟩ : Duration).length := by
  obtain ⟨-, hsum, -, hmore, -⟩ := @length_dotted 4 (by decide) 2
  refine ⟨by decide, ?_, hmore 3 (by decide)⟩
  rw [sum_range_succ, sum_range_succ, sum_range_one] at hsum
  norm_num at hsum ⊢
  exact hsum

end LineScore.Duration
