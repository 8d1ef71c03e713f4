/-! Texts that may hold half of a surrogate pair. An escape in a JSON string can name such a half without the
other one, and no encoding has bytes for it. Where it is shown nevertheless, it stands as an escape. -/

namespace LineScore

namespace Text

/-- The last `width` hexadecimal digits of a number. -/
def hexDigits (width n : Nat) : List Char :=
  match width with
  | 0 => []
  | width + 1 => hexDigits width (n / 16) ++ [Nat.digitChar (n % 16)]

/-- A code point by its number, in the shortest of the three escape forms that holds it. -/
def escapeCode (code : Nat) : List Char :=
  if code ≤ 0xff then '\x5c' :: 'x' :: hexDigits 2 code
  else if code ≤ 0xffff then '\x5c' :: 'u' :: hexDigits 4 code
  else '\x5c' :: 'U' :: hexDigits 8 code

/-- A character, or half of a surrogate pair by its place among the halves. -/
inductive CodePoint where
  | char (c : Char)
  | half (place : Fin 0x800)
  deriving DecidableEq, Repr

namespace CodePoint

def toNat : CodePoint → Nat
  | .char c => c.toNat
  | .half place => 0xd800 + place

def ofNat (code : Nat) : CodePoint :=
  if h : 0xd800 ≤ code ∧ code < 0xe000 then .half ⟨code - 0xd800, by omega⟩ else .char (Char.ofNat code)

/-- Every number up to the last code point has a code point of its own. -/
theorem toNat_ofNat {code : Nat} (h : code < 0x110000) : (ofNat code).toNat = code := by
  unfold ofNat
  split
  · next hhalf =>
      change 0xd800 + (code - 0xd800) = code
      omega
  · next hchar =>
      have hvalid : code.isValidChar := by
        change code < 0xd800 ∨ 0xdfff < code ∧ code < 0x110000
        omega
      rw [toNat, Char.ofNat, dif_pos hvalid]
      rfl

def isChar : CodePoint → Bool
  | .char _ => true
  | .half _ => false

def char? : CodePoint → Option Char
  | .char c => some c
  | .half _ => none

def shown : CodePoint → List Char
  | .char c => [c]
  | .half place => escapeCode (0xd800 + place)

end CodePoint

/-- The first run of code points that an encoding has no bytes for. -/
structure EncodingFault where
  start : Nat
  length : Nat
  first : CodePoint
  deriving DecidableEq, Repr

end Text

/-- A text of characters and halves of surrogate pairs. -/
structure LooseText where
  points : List Text.CodePoint
  deriving DecidableEq, Repr, Inhabited

namespace LooseText

def ofString (text : String) : LooseText :=
  ⟨text.toList.map .char⟩

instance : Coe String LooseText := ⟨ofString⟩

instance : Append LooseText := ⟨fun a b => ⟨a.points ++ b.points⟩⟩

/-- The characters of the text, without the halves. -/
def chars (t : LooseText) : List Char :=
  t.points.filterMap Text.CodePoint.char?

/-- The text with its halves written as escapes. -/
def shown (t : LooseText) : String :=
  String.ofList (t.points.flatMap Text.CodePoint.shown)

instance : ToString LooseText := ⟨shown⟩

/-- The first run of code points that do not fit an encoding, if there are any. -/
def unfit? (fits : Text.CodePoint → Bool) (t : LooseText) : Option Text.EncodingFault :=
  match t.points.dropWhile fits with
  | [] => none
  | p :: rest =>
      some ⟨(t.points.takeWhile fits).length, 1 + (rest.takeWhile fun p => !fits p).length, p⟩

@[simp] theorem ofString_inj {a b : String} : ofString a = ofString b ↔ a = b := by
  rw [ofString, ofString, mk.injEq, List.map_inj_right fun _ _ h => Text.CodePoint.char.inj h, String.toList_inj]

@[simp] theorem shown_ofString (text : String) : (ofString text).shown = text := by
  have hpoints : ∀ l : List Char, (l.map Text.CodePoint.char).flatMap Text.CodePoint.shown = l := by
    intro l
    induction l with
    | nil => rfl
    | cons c rest ih => rw [List.map_cons, List.flatMap_cons, ih]; rfl
  rw [shown, ofString, hpoints, String.ofList_toList]

@[simp] theorem chars_append (a b : LooseText) : (a ++ b).chars = a.chars ++ b.chars :=
  List.filterMap_append

@[simp] theorem chars_ofString (text : String) : (ofString text).chars = text.toList := by
  rw [chars, ofString, List.filterMap_map]
  exact List.filterMap_some

end LooseText

end LineScore
