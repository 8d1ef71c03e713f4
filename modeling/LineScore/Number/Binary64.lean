/-! Double precision numbers as the rational numbers that they are. `nearest?` sends a rational number
to the closest double: 53 significant binary digits, a last place no lower than 2 to the power -1074, a
half going to the even neighbour, and no value where the result would reach 2 to the power 1024. -/

namespace LineScore.Number

/-- The natural number nearest to a quotient; a half goes to the even neighbour. -/
def roundHalfEven (n d : Nat) : Nat :=
  let q := n / d
  let r := n % d
  if 2 * r < d ∨ (2 * r = d ∧ q % 2 = 0) then q else q + 1

def powTwo (e : Int) : Rat :=
  if 0 ≤ e then (2 : Rat) ^ e.toNat else 1 / (2 : Rat) ^ (-e).toNat

/-- The largest power of two that is not above a positive quotient, by its exponent. -/
def floorLog2 (n d : Nat) : Int :=
  let e : Int := (n.log2 : Int) - (d.log2 : Int)
  let reached : Bool :=
    if 0 ≤ e then d <<< e.toNat ≤ n else d ≤ n <<< (-e).toNat
  if reached then e else e - 1

/-- The exponent of the last of the 53 binary digits of a positive quotient. -/
def lastPlace (n d : Nat) : Int :=
  max (floorLog2 n d - 52) (-1074)

/-- The nearest multiple of the last place to a positive quotient. -/
def roundMagnitude (n d : Nat) : Rat :=
  let e := lastPlace n d
  let m := if 0 ≤ e then roundHalfEven n (d <<< e.toNat) else roundHalfEven (n <<< (-e).toNat) d
  (m : Rat) * powTwo e

/-- The double nearest to a rational number, or nothing if it is out of range. -/
def nearest? (x : Rat) : Option Rat :=
  if x.num = 0 then some 0
  else
    let r := roundMagnitude x.num.natAbs x.den
    if powTwo 1024 ≤ r then none else some (if x.num < 0 then -r else r)

def truncate (x : Rat) : Int :=
  x.num.tdiv x.den

end LineScore.Number
