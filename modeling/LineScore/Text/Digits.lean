/-! Decimal digits of every script, and the numbers written with them. A digit is worth its place in
a block of ten consecutive code points; scripts may be mixed inside one number. Numbers of more than
`maxDigits` digits are refused both when they are read and when they are written. -/

namespace LineScore.Text

/-- The zero of each block of ten consecutive decimal digits. -/
def digitZeros : List Nat :=
  [
    0x30, 0x660, 0x6f0, 0x7c0, 0x966, 0x9e6, 0xa66, 0xae6, 0xb66, 0xbe6, 0xc66, 0xce6, 0xd66, 0xde6,
    0xe50, 0xed0, 0xf20, 0x1040, 0x1090, 0x17e0, 0x1810, 0x1946, 0x19d0, 0x1a80, 0x1a90, 0x1b50,
    0x1bb0, 0x1c40, 0x1c50, 0xa620, 0xa8d0, 0xa900, 0xa9d0, 0xa9f0, 0xaa50, 0xabf0, 0xff10, 0x104a0,
    0x10d30, 0x11066, 0x110f0, 0x11136, 0x111d0, 0x112f0, 0x11450, 0x114d0, 0x11650, 0x116c0,
    0x11730, 0x118e0, 0x11950, 0x11c50, 0x11d50, 0x11da0, 0x16a60, 0x16ac0, 0x16b50, 0x1d7ce,
    0x1d7d8, 0x1d7e2, 0x1d7ec, 0x1d7f6, 0x1e140, 0x1e2f0, 0x1e950, 0x1fbf0
  ]

def digitValue? (c : Char) : Option Nat :=
  (digitZeros.find? fun base => base ≤ c.toNat && c.toNat < base + 10).map (c.toNat - ·)

def isDigit (c : Char) : Bool :=
  (digitValue? c).isSome

/-- The number written by a run of digits, the most significant first. -/
def numeral (digits : List Char) : Nat :=
  digits.foldl (fun total c => 10 * total + (digitValue? c).getD 0) 0

/-- The longest numeral that is converted, in either direction. -/
def maxDigits : Nat := 4300

/-- The number written by a run of digits, or nothing when the run is too long; zeros at its front
count as digits. -/
def numeral? (digits : List Char) : Option Nat :=
  if digits.length ≤ maxDigits then some (numeral digits) else none

theorem numeral?_eq_some_iff {digits : List Char} {n : Nat} :
    numeral? digits = some n ↔ digits.length ≤ maxDigits ∧ numeral digits = n := by
  unfold numeral?
  split
  · next short => simp [short]
  · next long => simp [long]

/-- The decimal text of an integer, or nothing when it has too many digits. -/
def integer? (n : Int) : Option String :=
  if (toString n.natAbs).length ≤ maxDigits then some (toString n) else none

end LineScore.Text
