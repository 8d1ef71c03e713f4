import LineScore.Text.Digits

/-! Exact fractions as text: lowest terms, the sign in front, no denominator for a whole number. -/

namespace LineScore.Number

/-- The text of a fraction, or nothing when a part of it has too many digits. -/
def fraction? (x : Rat) : Option String := do
  let numerator ← Text.integer? x.num
  if x.den = 1 then return numerator
  let denominator ← Text.integer? x.den
  return s!"{numerator}/{denominator}"

end LineScore.Number
