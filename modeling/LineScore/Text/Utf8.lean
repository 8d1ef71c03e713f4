/-! Reading UTF-8, one byte at a time. A refused text is reported with the first byte of the sequence
that cannot be completed, how many bytes of it were sound, and why it stops there. -/

namespace LineScore.Text

/-- Why a byte sequence is no UTF-8. -/
inductive Utf8Reason where
  | invalidStart
  | invalidContinuation
  | unexpectedEnd
  deriving DecidableEq, Repr

/-- The first sequence of bytes that spells no character. -/
structure Utf8Fault where
  start : Nat
  length : Nat
  byte : UInt8
  reason : Utf8Reason
  deriving DecidableEq, Repr

/-- A character whose first bytes have been read: how many are still due, the range of the next one,
the bits read, their number of bytes and the first byte. -/
structure Utf8Pending where
  due : Nat
  low : Nat
  high : Nat
  bits : Nat
  taken : Nat
  first : UInt8
  deriving DecidableEq, Repr

/-- What the first byte of a longer sequence asks for. The range of the second byte shuts out spellings
that are too long, surrogates, and code points past the last one. -/
def utf8Lead? (b : UInt8) : Option Utf8Pending :=
  let n := b.toNat
  if n < 0xc2 then none
  else if n < 0xe0 then some ⟨1, 0x80, 0xbf, n - 0xc0, 1, b⟩
  else if n = 0xe0 then some ⟨2, 0xa0, 0xbf, 0, 1, b⟩
  else if n = 0xed then some ⟨2, 0x80, 0x9f, 0xd, 1, b⟩
  else if n < 0xf0 then some ⟨2, 0x80, 0xbf, n - 0xe0, 1, b⟩
  else if n = 0xf0 then some ⟨3, 0x90, 0xbf, 0, 1, b⟩
  else if n < 0xf4 then some ⟨3, 0x80, 0xbf, n - 0xf0, 1, b⟩
  else if n = 0xf4 then some ⟨3, 0x80, 0x8f, 4, 1, b⟩
  else none

/-- Reads on at byte `position`, the characters before it standing in `done` in reverse. -/
def utf8From (position : Nat) (done : List Char) :
    Option Utf8Pending → List UInt8 → Except Utf8Fault (List Char)
  | none, [] => .ok done.reverse
  | some p, [] => .error ⟨position - p.taken, p.taken, p.first, .unexpectedEnd⟩
  | none, b :: rest =>
      if b.toNat < 0x80 then
        utf8From (position + 1) (Char.ofNat b.toNat :: done) none rest
      else
        match utf8Lead? b with
        | none => .error ⟨position, 1, b, .invalidStart⟩
        | some p => utf8From (position + 1) done (some p) rest
  | some p, b :: rest =>
      if p.low ≤ b.toNat ∧ b.toNat ≤ p.high then
        let bits := 64 * p.bits + (b.toNat - 0x80)
        if p.due ≤ 1 then
          utf8From (position + 1) (Char.ofNat bits :: done) none rest
        else
          utf8From (position + 1) done (some ⟨p.due - 1, 0x80, 0xbf, bits, p.taken + 1, p.first⟩) rest
      else
        .error ⟨position - p.taken, p.taken, p.first, .invalidContinuation⟩

/-- The text that a sequence of bytes spells. -/
def readUtf8 (bytes : List UInt8) : Except Utf8Fault (List Char) :=
  utf8From 0 [] none bytes

end LineScore.Text
