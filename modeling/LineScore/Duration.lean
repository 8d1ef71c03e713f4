import LineScore.Error

/-! Written durations and their exact lengths in quarter notes. A duration divides the whole note by its
denominator, and each dot adds half of what was added last. -/

namespace LineScore

/-- A duration as it is written. It has a length when its denominator is positive and its dots are not
fewer than none. -/
structure Duration where
  denominator : Int
  dots : Int := 0
  deriving DecidableEq, Repr

namespace Duration

def check (d : Duration) : Except Error Unit :=
  if d.denominator ≤ 0 then .error (.reporting [d.denominator] (.invalidDenominator d.denominator))
  else if d.dots < 0 then .error (.reporting [d.dots] (.invalidDots d.dots))
  else .ok ()

theorem check_eq_ok_iff (d : Duration) : d.check = .ok () ↔ 0 < d.denominator ∧ 0 ≤ d.dots := by
  unfold check
  split
  · simp; omega
  · split
    · simp; omega
    · simp; omega

/-- The length of a duration that has one, in quarter notes. -/
def length (d : Duration) : Rat :=
  4 / (d.denominator : Rat) * (2 - 1 / (2 : Rat) ^ d.dots.toNat)

def length? (d : Duration) : Except Error Rat :=
  d.check.map fun _ => d.length

def text (d : Duration) : String :=
  toString d.denominator ++ String.ofList (List.replicate d.dots.toNat '.')

end Duration

end LineScore
