/-! Blank characters, and the words that they separate. -/

namespace LineScore.Text

/-- The code points of the blank characters. -/
def blankCodes : List Nat :=
  [
    0x09, 0x0a, 0x0b, 0x0c, 0x0d, 0x1c, 0x1d, 0x1e, 0x1f, 0x20, 0x85, 0xa0, 0x1680, 0x2000, 0x2001,
    0x2002, 0x2003, 0x2004, 0x2005, 0x2006, 0x2007, 0x2008, 0x2009, 0x200a, 0x2028, 0x2029, 0x202f,
    0x205f, 0x3000
  ]

def isBlank (c : Char) : Bool :=
  blankCodes.contains c.toNat

/-- Cuts a text at its blanks, `pending` holding the letters of the word begun so far in reverse. -/
def wordsFrom (pending : List Char) : List Char → List (List Char)
  | [] => if pending.isEmpty then [] else [pending.reverse]
  | c :: rest =>
      if isBlank c then
        if pending.isEmpty then wordsFrom [] rest else pending.reverse :: wordsFrom [] rest
      else
        wordsFrom (c :: pending) rest

/-- The maximal runs of characters that are not blank, in order. -/
def words (text : List Char) : List (List Char) :=
  wordsFrom [] text

end LineScore.Text
