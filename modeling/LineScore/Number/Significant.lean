import LineScore.Number.Binary64

/-! Short decimal text: six significant digits of a number, positional while the decimal exponent lies
between -4 and 5 and with an exponent of at least two digits elsewhere, trailing zeros left out. -/

namespace LineScore.Number

def significantDigits : Nat := 6

/-- The number of decimal digits of a positive natural number. -/
def decimalLength (n : Nat) : Nat :=
  (toString n).length

/-- The decimal exponent of a positive quotient: that of the largest power of ten not above it. -/
def floorLog10 (n d : Nat) : Int :=
  if d ≤ n then (decimalLength (n / d) : Int) - 1 else -(decimalLength ((d - 1) / n) : Int)

def powTen (k : Nat) : Nat :=
  Nat.pow 10 k

/-- The digits of a positive quotient, rounded to the significant ones with a half going to the even
neighbour, beside the exponent of the first digit. -/
def significant (n d : Nat) : Nat × Int :=
  let e := floorLog10 n d
  let s : Int := (significantDigits : Int) - 1 - e
  let m := if 0 ≤ s then roundHalfEven (n * powTen s.toNat) d else roundHalfEven n (d * powTen (-s).toNat)
  if m = powTen significantDigits then (powTen (significantDigits - 1), e + 1) else (m, e)

/-- Digits without the zeros at their end. -/
def trimZeros (digits : List Char) : List Char :=
  (digits.reverse.dropWhile (· = '0')).reverse

/-- A fractional part behind its point, or nothing if no digit is left. -/
def fractionText (digits : List Char) : List Char :=
  match trimZeros digits with
  | [] => []
  | kept => '.' :: kept

/-- An exponent with its sign and at least two digits. -/
def exponentText (e : Int) : List Char :=
  let digits := (toString e.natAbs).toList
  (if e < 0 then '-' else '+') :: (if digits.length < 2 then '0' :: digits else digits)

/-- The text of significant digits whose first one has exponent `e`. -/
def layout (digits : List Char) (e : Int) : List Char :=
  if e < -4 ∨ (significantDigits : Int) ≤ e then
    digits.take 1 ++ fractionText (digits.drop 1) ++ 'e' :: exponentText e
  else if 0 ≤ e then
    digits.take (e.toNat + 1) ++ fractionText (digits.drop (e.toNat + 1))
  else
    '0' :: fractionText (List.replicate ((-e).toNat - 1) '0' ++ digits)

def magnitudeText (x : Rat) : List Char :=
  if x.num = 0 then ['0']
  else
    let (m, e) := significant x.num.natAbs x.den
    layout (toString m).toList e

/-- The short text of the double nearest to a number, or nothing if there is none. The sign is that of
the number, also where its double is zero. -/
def shortText? (x : Rat) : Option String :=
  (nearest? x).map fun r =>
    String.ofList ((if x.num < 0 then ['-'] else []) ++ magnitudeText r)

end LineScore.Number
