import LineScore.Text.Loose

/-! Latin-1: one byte for each of the first 256 code points, and nothing else. -/

namespace LineScore.Text

def fitsLatin1 (p : CodePoint) : Bool :=
  p.toNat ≤ 0xff

/-- The bytes of a text, or its first run of code points that have none. -/
def writeLatin1 (text : LooseText) : Except EncodingFault (List UInt8) :=
  match text.unfit? fitsLatin1 with
  | none => .ok (text.points.map fun p => UInt8.ofNat p.toNat)
  | some fault => .error fault

end LineScore.Text
